import Mathlib
import ChatRoom.Service.Segmentation

/-!
# The bytes a frame parser reads

`parseWebSocketFrame` indexes its bytes without looking at their number.  Here
each index is looked up by itself, and one outside the bytes is an error.
-/

namespace ChatRoom

open WebSocketFrame

/-- The bytes at `count` indices from `start` on, one after the other. -/
def readBytes (data : Str) (start count : Nat) : Option Str :=
  (List.range' start count).mapM fun index => data[index]?

/-- `parseWebSocketFrame`, index by index.  The payload reaches from `offset`
to the end, so that `offset` must not be behind it. -/
def parseWebSocketFrameAt (data : Str) : Option WebSocketFrame := do
  let first ← data[0]?
  let second ← data[1]?
  let length7 := second &&& 0x7F
  let extended ← readBytes data 2 (extendedLength length7)
  let mask : Bool := second &&& 0x80 ≠ 0
  let key ← readBytes data (2 + extended.length) (if mask then 4 else 0)
  let offset := 2 + extended.length + key.length
  if data.length < offset then none
  else
    let payload := data.drop offset
    some {
      fin := first &&& 0x80 ≠ 0
      opcode := first &&& 0x0F
      mask := mask
      payloadLength :=
        if extended = [] then length7.toNat else bigEndian extended
      maskingKey := key
      payloadData := if mask then applyMask key payload else payload }

/-- The length of a header, by its second byte. -/
def headerLength (second : UInt8) : Nat :=
  2 + extendedLength (second &&& 0x7F) + if second &&& 0x80 ≠ 0 then 4 else 0

/-- The read holds the whole header that its second byte announces. -/
def WholeHeader (data : Str) : Prop :=
  match data with
  | _ :: second :: _ => headerLength second ≤ data.length
  | _ => False

/-! ## Reading by index -/

theorem readBytes_succ (data : Str) (start count : Nat) :
    readBytes data start (count + 1) =
      data[start]?.bind fun byte =>
        (readBytes data (start + 1) count).map fun bytes => byte :: bytes := by
  unfold readBytes
  rw [List.range'_succ, List.mapM_cons]
  cases data[start]? with
  | none => rfl
  | some byte =>
      cases (List.range' (start + 1) count).mapM fun index => data[index]? with
      | none => rfl
      | some bytes => rfl

/-- Indices inside the bytes give what stands there. -/
theorem readBytes_inside {data : Str} {start count : Nat}
    (inside : start + count ≤ data.length) :
    readBytes data start count = some ((data.drop start).take count) := by
  induction count generalizing start with
  | zero => rfl
  | succ count induction =>
      have here : start < data.length := by omega
      have later : start + 1 + count ≤ data.length := by omega
      rw [readBytes_succ, List.getElem?_eq_getElem here, induction later,
        List.drop_eq_getElem_cons here]
      rfl

/-- One index outside is an error. -/
theorem readBytes_outside {data : Str} {start count : Nat} (some : 0 < count)
    (outside : data.length < start + count) :
    readBytes data start count = none := by
  induction count generalizing start with
  | zero => exact absurd some (Nat.lt_irrefl 0)
  | succ count induction =>
      rw [readBytes_succ]
      by_cases here : start < data.length
      · have later : readBytes data (start + 1) count = none := by
          apply induction
          · omega
          · omega
        rw [later]
        cases data[start]? with
        | none => rfl
        | some byte => rfl
      · rw [List.getElem?_eq_none (by omega)]
        rfl

/-! ## Parsing by index -/

theorem parseWebSocketFrame_isSome_iff (data : Str) :
    (parseWebSocketFrame data).isSome ↔ WholeHeader data := by
  match data with
  | [] => simp [parseWebSocketFrame, WholeHeader]
  | [byte] => simp [parseWebSocketFrame, WholeHeader]
  | first :: second :: rest =>
      rw [WholeHeader, headerLength, ← not_lt]
      by_cases masked : second &&& 0x80 ≠ 0
      · simp [parseWebSocketFrame, masked]
      · simp [parseWebSocketFrame, masked]

/-- Both readings of a frame agree: an index outside the bytes is met exactly
when the header is not whole. -/
theorem parseWebSocketFrameAt_eq (data : Str) :
    parseWebSocketFrameAt data = parseWebSocketFrame data := by
  match data with
  | [] => rfl
  | [byte] => rfl
  | first :: second :: rest =>
      have twoBytes : 2 ≤ (first :: second :: rest).length := by simp
      simp only [parseWebSocketFrameAt, parseWebSocketFrame,
        List.getElem?_cons_zero, List.getElem?_cons_succ, Option.bind_eq_bind,
        Option.bind_some]
      generalize first :: second :: rest = data at twoBytes
      generalize extendedLength (second &&& 0x7F) = extended
      generalize decide (second &&& 0x80 ≠ 0) = mask
      by_cases short : data.length < 2 + extended
      · have outside : data.length < 2 + extended +
            if mask = true then 4 else 0 := by omega
        rw [readBytes_outside (by omega) short, if_pos outside]
        rfl
      · have isLength : ((data.drop 2).take extended).length = extended := by
          rw [List.length_take, List.length_drop]
          omega
        have noBytes : (data.drop 2).take extended = [] ↔ extended = 0 := by
          rw [← List.length_eq_zero_iff, isLength]
        rw [readBytes_inside (by omega), Option.bind_some, isLength]
        simp only [noBytes]
        cases mask with
        | true =>
            simp only [if_true]
            by_cases cut : data.length < 2 + extended + 4
            · rw [readBytes_outside (by omega) cut, if_pos cut]
              rfl
            · have keyLength :
                  ((data.drop (2 + extended)).take 4).length = 4 := by
                rw [List.length_take, List.length_drop]
                omega
              rw [readBytes_inside (by omega), Option.bind_some, keyLength,
                if_neg cut]
        | false =>
            simp only [Bool.false_eq_true, if_false]
            rw [readBytes_inside (by omega), Option.bind_some, List.take_zero]
            rfl

/-! ## Reads that come from a connection -/

namespace Connection

/-- The read goes to `parseWebSocketFrame`. -/
def AwaitsFrame (conn : Connection) (data : Str) : Prop :=
  conn.connected = true ∧ conn.handshakeCompleted = true ∧
    (conn.requestType = .webSocket ∨
      conn.requestType = .unknown ∧
        HttpHandler.classify data = some .webSocket)

theorem onRead_isSome_iff (lib : Libraries) (answers : Answers)
    (conn : Connection) (data : Str) :
    (onRead lib answers conn data).isSome ↔
      (conn.handshakeCompleted = true → WholeHeader data) := by
  rw [onRead]
  by_cases completed : conn.handshakeCompleted = true
  · rw [if_neg (not_not_intro completed), Option.isSome_map,
      parseWebSocketFrame_isSome_iff]
    simp [completed]
  · rw [if_pos completed]
    simp [completed]

/-- A read is undefined only through the frame parser. -/
theorem readStep_isSome_iff (lib : Libraries) (run : Run)
    (read : Answers × Str) :
    (readStep lib run read).isSome ↔
      (AwaitsFrame run.1 read.2 → WholeHeader read.2) := by
  obtain ⟨conn, trace⟩ := run
  obtain ⟨answers, data⟩ := read
  rw [readStep, Option.isSome_map, onMessage, AwaitsFrame]
  by_cases connected : conn.connected = true
  · rw [if_pos connected, handlerOnRead]
    cases kind : conn.requestType with
    | webSocket => simp [onRead_isSome_iff, connected]
    | http => simp
    | unknown =>
        cases classified : HttpHandler.classify data with
        | none => simp
        | some found =>
            cases found with
            | webSocket => simp [onRead_isSome_iff, connected]
            | http => simp
            | unknown => simp
  · rw [if_neg connected]
    simp [connected]

/-- The indices of every byte string, and the reads of every run: what the
parser touches lies inside the bytes exactly when they hold a whole header. -/
theorem parseWebSocketFrameAt_bounds (lib : Libraries) :
    (∀ data, (parseWebSocketFrameAt data).isSome ↔ WholeHeader data) ∧
    ∀ reads, (Lib.exec (readStep lib) (fresh, []) reads).isSome ↔
      Lib.Admits (readStep lib)
        (fun run read => AwaitsFrame run.1 read.2 → WholeHeader read.2)
        (fresh, []) reads := by
  constructor
  · intro data
    rw [parseWebSocketFrameAt_eq]
    exact parseWebSocketFrame_isSome_iff data
  · intro reads
    exact Lib.exec_isSome_iff (readStep_isSome_iff lib)

/-- Behind its handshake a client sends a single byte, and the parser reads a
second one. -/
theorem oneByte_reads_outside :
    parseWebSocketFrameAt [0x81] = none ∧
      ∀ (lib : Libraries) (answers : Answers),
        Lib.exec (readStep lib) (fresh, [])
          [(answers, upgradeRequest (ascii "7")), (answers, [0x81])] =
            none := by
  constructor
  · rfl
  · intro lib answers
    have recognised : HttpHandler.classify requestOfUser.text =
        some .webSocket := by decide +kernel
    obtain ⟨trace, opened, -⟩ :=
      readStep_request lib requestOfUser answers recognised
    have ready : Ready ⟨true, .webSocket, true,
        requestUid requestOfUser.text⟩ := ⟨rfl, rfl, rfl⟩
    have undefined : parseWebSocketFrame [0x81] = none := rfl
    have stuck : readStep lib (⟨true, .webSocket, true,
        requestUid requestOfUser.text⟩, trace) (answers, [0x81]) = none := by
      rw [readStep, onMessage_undefined ready undefined]
      rfl
    calc
      Lib.exec (readStep lib) (fresh, [])
          [(answers, requestOfUser.text), (answers, [0x81])] =
          Lib.exec (readStep lib) (⟨true, .webSocket, true,
            requestUid requestOfUser.text⟩, trace) [(answers, [0x81])] :=
        Lib.exec_cons_of_some opened _
      _ = none := by rw [Lib.exec, stuck]

end Connection

end ChatRoom
