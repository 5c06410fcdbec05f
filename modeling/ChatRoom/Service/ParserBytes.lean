import ChatRoom.Service.ParserSafety

/-!
# The parser byte by byte

A body is read in as few moves as there are buffers.  Everything else is read
byte by byte, and so might the body be: the parser does not tell the
difference.
-/

namespace ChatRoom

namespace HttpParser

open Lib.Scanner (Move Status loop single Shortens)

namespace Marks

@[simp] theorem advance_put (marks : Marks) (field : Field)
    (mark : Option Str) (text : Str) :
    (marks.put field mark).advance text =
      (marks.advance text).put field (mark.map (· ++ text)) := by
  cases field <;> rfl

@[simp] theorem get_advance (marks : Marks) (field : Field) (text : Str) :
    (marks.advance text).get field = (marks.get field).map (· ++ text) := by
  cases field <;> rfl

@[simp] theorem advance_advance (marks : Marks) (first second : Str) :
    (marks.advance first).advance second = marks.advance (first ++ second) := by
  simp [advance, Function.comp_def]

end Marks

namespace Machine

variable {machine : Machine} {ch : UInt8}

theorem advance_advance (machine : Machine) (first second : Str) :
    (machine.advance first).advance second =
      machine.advance (first ++ second) := by
  simp [advance, Nat.add_assoc]

/-- The machine behind the first byte of a body. -/
def inBody (machine : Machine) (ch : UInt8) : Machine :=
  { machine.mark .body with parser := { machine.parser with
    contentLength := machine.parser.contentLength - 1 } }.advance [ch]

def Move.delay : Move Machine → Move Machine
  | .go next skip => .go next (skip + 1)
  | .leave last => .leave last

/-- Bytes of a body are not counted. -/
theorem turn_body (isBody : machine.parser.state = .bodyIdentity)
    (rest : Str) : machine.turn ch rest =
      (machine.bodyIdentity ch rest).map (settle (ch :: rest)) := by
  simp [turn, counted, isBody, State.parsingHeader, dispatch]

/-- What `MIN` gives in front of a byte is one more than behind it. -/
theorem toRead_succ {length : ℕ} (two : 2 ≤ length) (rest : Str) :
    ∃ more, min (length - 1) (rest.length + 1) = more + 1 ∧
      min length (rest.length + 1 + 1) = more + 1 + 1 ∧
      length - (more + 1 + 1) = length - 1 - (more + 1) :=
  ⟨min (length - 1) (rest.length + 1) - 1, by omega, by omega, by omega⟩

/-- A move over a body is one over its first byte and one over the others. -/
theorem turn_long_identity (isBody : machine.parser.state = .bodyIdentity)
    (two : 2 ≤ machine.parser.contentLength)
    (known : machine.parser.contentLength < ullongMax)
    (next : UInt8) (rest : Str) :
    machine.turn ch (next :: rest) =
      ((machine.inBody ch).turn next rest).map Move.delay := by
  have isBodyToo : (machine.inBody ch).parser.state = .bodyIdentity := isBody
  obtain ⟨more, toRead, toReadToo, left⟩ := toRead_succ two rest
  rw [turn_body isBody, turn_body isBodyToo]
  unfold bodyIdentity inBody
  simp only [mark_eq, advance]
  rw [guard_of (by omega), guard_of (by omega)]
  simp only [Option.bind_eq_bind, Option.bind_some, Marks.get_advance,
    Marks.advance_put, Marks.get_put, if_pos, Option.map_some,
    Option.getD_some, Marks.put_put, goto, List.length_cons, toRead, toReadToo,
    left]
  split
  · by_cases noError : machine.parser.httpErrno = .ok
    · rw [callbackData_of (by exact noError) (by simp; rfl),
        callbackData_of (by exact noError) (by simp; rfl)]
      simp only [Option.bind_some, messageDone]
      rw [callbackNotify_of (by exact noError),
        callbackNotify_of (by exact noError)]
      simp [goto, Parser.newMessage, Parser.shouldKeepAlive, Move.delay, settle, pass, advance]
      omega
    · rw [callbackData_error (by exact noError),
        callbackData_error (by exact noError)]
      rfl
  · simp [Move.delay, settle, advance]
    omega

theorem turn_chunk (isChunk : machine.parser.state = .chunkData)
    (rest : Str) : machine.turn ch rest =
      (machine.chunkData rest).map (settle (ch :: rest)) := by
  simp [turn, counted, isChunk, State.parsingHeader, dispatch]

theorem turn_long_chunk (isChunk : machine.parser.state = .chunkData)
    (chunked : machine.parser.flags.chunked)
    (two : 2 ≤ machine.parser.contentLength)
    (known : machine.parser.contentLength < ullongMax)
    (next : UInt8) (rest : Str) :
    machine.turn ch (next :: rest) =
      ((machine.inBody ch).turn next rest).map Move.delay := by
  have isChunkToo : (machine.inBody ch).parser.state = .chunkData := isChunk
  obtain ⟨more, toRead, toReadToo, left⟩ := toRead_succ two rest
  rw [turn_chunk isChunk, turn_chunk isChunkToo]
  unfold chunkData inBody
  simp only [mark_eq, advance]
  rw [guard_of chunked, guard_of (by omega), guard_of (by omega)]
  simp only [Option.bind_eq_bind, Option.bind_some, Marks.get_advance,
    Marks.advance_put, Marks.get_put, if_pos, Option.map_some,
    Option.getD_some, Marks.put_put, goto, List.length_cons, toRead, toReadToo,
    left]
  split
  · simp [Move.delay, settle, advance]
    omega
  · simp [Move.delay, settle, advance]
    omega

/-- The last byte of a body is read alone. -/
theorem bodyIdentity_last (last : machine.parser.contentLength = 1)
    (rest : Str) : machine.bodyIdentity ch rest =
      oneByte ((machine.bodyIdentity ch []).map Prod.fst) := by
  have one : min 1 (rest.length + 1) = 1 := by omega
  unfold bodyIdentity
  simp only [last, one, List.length_nil]
  rw [guard_of (by decide)]
  cases called : ((({ machine.mark .body with parser :=
      { machine.parser with contentLength := 0 } } : Machine).goto
      .messageDone).callbackData .body [ch]) with
  | none => simp [called, oneByte]
  | some next => cases done : next.messageDone <;> simp [called, done, oneByte]

theorem chunkData_last (last : machine.parser.contentLength = 1)
    (rest : Str) : machine.chunkData rest =
      oneByte ((machine.chunkData []).map Prod.fst) := by
  have one : min 1 (rest.length + 1) = 1 := by omega
  unfold chunkData
  simp only [last, one, List.length_nil]
  by_cases chunked : machine.parser.flags.chunked
  · rw [guard_of chunked, guard_of (by decide)]
    rfl
  · rw [guard_not chunked]
    rfl

/-- The states that may read more than their byte. -/
def InBody (machine : Machine) : Prop :=
  machine.parser.state = .bodyIdentity ∨ machine.parser.state = .chunkData

/-- Elsewhere, and at the end of a body, a case looks at its byte only. -/
theorem dispatch_short (short : machine.InBody →
      machine.parser.contentLength = 1) (ch : UInt8) :
    ∃ exit, ∀ rest, machine.dispatch ch rest = oneByte exit := by
  unfold dispatch
  cases here : machine.parser.state
  case bodyIdentity =>
    exact ⟨_, fun rest => bodyIdentity_last (short (.inl here)) rest⟩
  case chunkData =>
    exact ⟨_, fun rest => chunkData_last (short (.inr here)) rest⟩
  all_goals exact ⟨_, fun _ => rfl⟩

theorem counted_eq (machine : Machine) :
    machine.counted.parser.state = machine.parser.state ∧
      machine.counted.parser.contentLength = machine.parser.contentLength := by
  unfold counted
  split <;> exact ⟨rfl, rfl⟩

theorem turn_short (short : machine.InBody →
      machine.parser.contentLength = 1) (ch : UInt8) :
    (∀ rest, machine.turn ch rest = none) ∨
    (∃ next, ∀ rest, machine.turn ch rest = some (.go next 0)) ∨
    ∃ last, ∀ rest, machine.turn ch rest = some (.leave last) := by
  have shortToo : machine.counted.InBody →
      machine.counted.parser.contentLength = 1 := by
    unfold InBody
    rw [(counted_eq machine).1, (counted_eq machine).2]
    exact short
  obtain ⟨exit, dispatched⟩ := dispatch_short shortToo ch
  unfold turn
  simp only [dispatched]
  split
  · exact .inr (.inr ⟨_, fun _ => rfl⟩)
  · cases exit with
    | none => exact .inl fun _ => rfl
    | some exit =>
        cases exit with
        | next next => exact .inr (.inl ⟨next.advance [ch], fun _ => rfl⟩)
        | error last => exact .inr (.inr ⟨last, fun _ => rfl⟩)
        | returned last => exact .inr (.inr ⟨_, fun _ => rfl⟩)

/-- Inside a body a move goes on with the body. -/
theorem turn_long (sound : machine.Sound 0) (inBody : machine.InBody)
    (long : machine.parser.contentLength ≠ 1) (ch : UInt8) :
    machine.turn ch [] = some (.go (machine.inBody ch) 0) ∧
      ∀ next rest, machine.turn ch (next :: rest) =
        ((machine.inBody ch).turn next rest).map Move.delay := by
  have demands := sound.demands
  have bounded := sound.bounded.contentLength
  rcases inBody with isBody | isChunk
  · rw [isBody] at demands
    obtain ⟨nonempty, known⟩ : machine.parser.contentLength ≠ 0 ∧
      machine.parser.contentLength ≠ ullongMax := demands
    have one : min machine.parser.contentLength 1 = 1 := by omega
    constructor
    · rw [turn_body isBody, bodyIdentity]
      simp only [List.length_nil, Nat.zero_add, one]
      rw [guard_of ⟨nonempty, known⟩]
      simp only [Option.bind_eq_bind, Option.bind_some]
      rw [if_neg (by omega)]
      rfl
    · exact turn_long_identity isBody (by omega) (by omega)
  · rw [isChunk] at demands
    obtain ⟨chunked, nonempty, known⟩ : machine.parser.flags.chunked = true ∧
      machine.parser.contentLength ≠ 0 ∧
      machine.parser.contentLength ≠ ullongMax := demands
    have one : min machine.parser.contentLength 1 = 1 := by omega
    constructor
    · rw [turn_chunk isChunk, chunkData]
      simp only [List.length_nil, Nat.zero_add, one]
      rw [guard_of chunked, guard_of ⟨nonempty, known⟩]
      simp only [Option.bind_eq_bind, Option.bind_some]
      rw [if_neg (by omega)]
      rfl
    · exact turn_long_chunk isChunk chunked (by omega) (by omega)

theorem turn_go_sound {next : Machine} {skip : ℕ} {rest : Str}
    (sound : machine.Sound 0)
    (taken : machine.turn ch rest = some (.go next skip)) : next.Sound 0 := by
  obtain ⟨move, same, keeps⟩ := turn_sound sound ch rest
  rw [taken, Option.some.injEq] at same
  subst same
  exact keeps

/-- The moves of the parser only shorten single ones. -/
theorem turn_shortens : Shortens turn (Sound 0) := by
  intro machine sound ch rest
  induction rest generalizing machine ch with
  | nil =>
      cases taken : machine.turn ch [] with
      | none => simp [Lib.Scanner.Agrees, Lib.exec, single, taken]
      | some move =>
          cases move with
          | leave last =>
              simp [Lib.Scanner.Agrees, Lib.exec, single, taken, Move.status]
          | go next skip =>
              refine ⟨turn_go_sound sound taken, ?_⟩
              simp [Lib.exec, single, taken, Move.status]
  | cons next rest induction =>
      by_cases short : machine.InBody → machine.parser.contentLength = 1
      · rcases turn_short short ch with
          fails | ⟨next, goes⟩ | ⟨last, leaves⟩
        · rw [fails]
          simp [Lib.Scanner.Agrees, Lib.exec, single, fails]
        · rw [goes]
          refine ⟨turn_go_sound sound (goes []), ?_⟩
          simp [Lib.exec, single, goes, Move.status]
        · rw [leaves]
          have left : single turn (.reading machine) ch = some (.left last) := by
            simp [single, leaves, Move.status]
          exact (Lib.exec_cons_of_some left _).trans
            (Lib.Scanner.exec_left last _)
      · rw [Classical.not_imp] at short
        obtain ⟨goes, goesOn⟩ := turn_long sound short.1 short.2 ch
        have first : single turn (.reading machine) ch =
            some (.reading (machine.inBody ch)) := by
          simp [single, goes, Move.status]
        have later := induction _ (turn_go_sound sound goes) next
        rw [goesOn]
        cases taken : (machine.inBody ch).turn next rest with
        | none =>
            rw [taken] at later
            exact (Lib.exec_cons_of_some first _).trans later
        | some move =>
            rw [taken] at later
            cases move with
            | leave last => exact (Lib.exec_cons_of_some first _).trans later
            | go reached skip =>
                exact ⟨later.1, (Lib.exec_cons_of_some first _).trans later.2⟩

/-- The loop reads a buffer as it would read it byte by byte. -/
theorem loop_eq_exec (sound : machine.Sound 0) (text : Str) :
    loop turn machine 0 text =
      Lib.exec (single turn) (.reading machine) text :=
  Lib.Scanner.loop_eq_exec turn_shortens sound text

end Machine

end HttpParser

end ChatRoom
