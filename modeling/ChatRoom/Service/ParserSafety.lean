import Mathlib.Data.Option.Basic
import ChatRoom.Service.HttpParser

/-!
# Every byte is safe to parse

Whatever the bytes, no `assert` of `http_parser_execute` fails, no string is
read behind its end, and no counter of the parser leaves its type.
-/

namespace ChatRoom

namespace HttpParser

open Lib.Scanner (Move Status loop)

/-! ## The invariant -/

/-- The greatest index in a header state; 17 where nothing is matched. -/
def HeaderState.limit : HeaderState → ℕ
  | .C => 0
  | .CO => 1
  | .CON => 2
  | .matchingConnection | .matchingConnectionKeepAlive => 8
  | .matchingProxyConnection => 14
  | .matchingContentLength => 12
  | .matchingTransferEncoding => 15
  | .matchingUpgrade | .matchingTransferEncodingChunked => 5
  | .matchingConnectionClose => 3
  | _ => 17

/-- The header states of a field name. -/
def HeaderState.ofName : HeaderState → Bool
  | .matchingTransferEncodingChunked | .matchingConnectionKeepAlive |
    .matchingConnectionClose | .transferEncodingChunked |
    .connectionKeepAlive | .connectionClose => false
  | _ => true

/-- The field whose mark may be set. -/
def State.marking : State → Option Field
  | .bodyIdentity | .chunkData | .chunkDataAlmostDone => some .body
  | state => state.marked

/-- What the parser relies on in a state. -/
def Parser.Demands (parser : Parser) : State → Prop
  | .reqMethod => parser.index ≤ parser.method.text.length
  | .headerField => parser.headerState.ofName ∧
      parser.index ≤ parser.headerState.limit
  | .headerValue => parser.headerState ≠ .connection ∧
      parser.headerState ≠ .transferEncoding ∧
      parser.index ≤ parser.headerState.limit
  | .chunkSizeStart | .chunkDataDone => parser.flags.chunked
  | .chunkSize | .chunkParameters | .chunkSizeAlmostDone =>
      parser.flags.chunked ∧ parser.contentLength ≠ ullongMax
  | .chunkData => parser.flags.chunked ∧
      parser.contentLength ≠ 0 ∧ parser.contentLength ≠ ullongMax
  | .chunkDataAlmostDone => parser.flags.chunked ∧ parser.contentLength = 0
  | .bodyIdentity => parser.contentLength ≠ 0 ∧ parser.contentLength ≠ ullongMax
  | _ => True

structure Parser.Bounded (parser : Parser) : Prop where
  index : parser.index ≤ 17
  nread : parser.nread ≤ maxHeaderSize
  httpMajor : parser.httpMajor ≤ 999
  httpMinor : parser.httpMinor ≤ 999
  contentLength : parser.contentLength ≤ ullongMax

/-- Every field has a value of its type in `struct http_parser`. -/
structure Parser.Fits (parser : Parser) : Prop where
  index : parser.index < 2 ^ 8
  nread : parser.nread < 2 ^ 32
  httpMajor : parser.httpMajor < 2 ^ 16
  httpMinor : parser.httpMinor < 2 ^ 16
  contentLength : parser.contentLength < 2 ^ 64

theorem Parser.Bounded.fits {parser : Parser} (bounded : parser.Bounded) :
    parser.Fits := by
  constructor
  · exact bounded.index.trans_lt (by decide)
  · exact bounded.nread.trans_lt (by decide)
  · exact bounded.httpMajor.trans_lt (by decide)
  · exact bounded.httpMinor.trans_lt (by decide)
  · exact bounded.contentLength.trans_lt (by decide)

/-- `chunkStart` is what `nread` is before the size of a chunk: 0 between two
bytes, and 1 when the first byte of the size is counted. -/
structure Machine.Sound (chunkStart : ℕ) (machine : Machine) : Prop where
  noError : machine.parser.httpErrno = .ok
  demands : machine.parser.Demands machine.parser.state
  bounded : machine.parser.Bounded
  fresh : machine.parser.state = .chunkSizeStart →
    machine.parser.nread = chunkStart
  marks : ∀ field, machine.parser.state.marking ≠ some field →
    machine.marks.get field = none

theorem Method.text_length (method : Method) :
    1 ≤ method.text.length ∧ method.text.length ≤ 11 := by
  cases method <;> decide

theorem parseUrlChar_cases (s : State) (ch : UInt8) :
    parseUrlChar s ch = .dead ∨ (parseUrlChar s ch).marked = some .url := by
  unfold parseUrlChar
  grind [State.marked, parseUrlChar.server]

/-- Only where a chunk size begins is there a demand on `nread`. -/
theorem State.not_sizeStart {state : State} {claim : Prop}
    (other : decide (state = .chunkSizeStart) = false)
    (same : state = .chunkSizeStart) : claim :=
  absurd same (of_decide_eq_false other)

theorem State.of_url {state : State} (marked : state.marked = some .url) :
    state.marking = some .url ∧ (∀ parser : Parser, parser.Demands state) ∧
      state ≠ .chunkSizeStart := by
  cases state <;> simp [State.marked, State.marking, Parser.Demands] at marked ⊢

theorem Parser.newMessage_cases (parser : Parser) :
    parser.newMessage = .startReq ∨ parser.newMessage = .dead := by
  unfold Parser.newMessage
  split
  · exact .inl rfl
  · exact .inr rfl

theorem Parser.demands_newMessage (parser other : Parser) :
    other.Demands parser.newMessage ∧ parser.newMessage ≠ .chunkSizeStart := by
  rcases parser.newMessage_cases with start | dead
  · rw [start]
    exact ⟨trivial, nofun⟩
  · rw [dead]
    exact ⟨trivial, nofun⟩

theorem HeaderState.limit_le (state : HeaderState) : state.limit ≤ 17 := by
  cases state <;> decide

theorem unhex_le (byte : UInt8) : ∀ value ∈ unhex byte, value ≤ 15 := by
  revert byte
  exact Byte.forall_of_lt (by decide +kernel)

/-- A parser that stopped with an error does not go on. -/
def Machine.Stopped (machine : Machine) : Prop :=
  machine.parser.httpErrno ≠ .ok ∧ machine.parser.Fits

def Exit.Sound : Exit → Prop
  | .next machine => machine.Sound 0
  | .error machine => machine.Stopped
  | .returned machine => machine.Sound 0

/-- The case does not abort, and what it leaves is sound. -/
def Safe : Option Exit → Prop
  | none => False
  | some exit => exit.Sound

/-- `Safe`, with the bytes that are taken. -/
def SafeMove (move : Option (Exit × ℕ)) : Prop := Safe (move.map Prod.fst)

theorem Safe.taking {exit : Option Exit} (safe : Safe exit) (skip : ℕ) :
    SafeMove (exit >>= fun exit => some (exit, skip)) := by
  cases exit with
  | none => exact safe
  | some exit => exact safe

namespace Machine

variable {machine : Machine} {ch : UInt8} {start : ℕ}

theorem safe_oneByte {exit : Option Exit} (safe : Safe exit) :
    SafeMove (oneByte exit) := by
  cases exit with
  | none => exact safe
  | some exit => exact safe

theorem safe_pass (sound : machine.Sound 0) : Safe machine.pass := sound

theorem safe_fail {errno : Errno} (failed : errno ≠ .ok)
    (fits : machine.parser.Fits) : Safe (machine.fail errno) :=
  ⟨failed, fits.index, fits.nread, fits.httpMajor, fits.httpMinor,
    fits.contentLength⟩

/-- Another state, with what it demands. -/
theorem Sound.goto (sound : machine.Sound start) {state : State}
    (demands : machine.parser.Demands state) (notSize : state ≠ .chunkSizeStart)
    (marking : machine.parser.state.marking = none ∨
      state.marking = machine.parser.state.marking) :
    (machine.goto state).Sound 0 where
  noError := sound.noError
  demands := demands
  bounded := { sound.bounded with }
  fresh := fun isSize => absurd isSize notSize
  marks := by
    intro field other
    apply sound.marks
    rcases marking with unmarked | same
    · rw [unmarked]
      exact nofun
    · rw [← same]
      exact other

theorem Sound.unmarked (sound : machine.Sound start)
    (unmarked : machine.parser.state.marking = none) (field : Field) :
    machine.marks.get field = none := by
  apply sound.marks
  rw [unmarked]
  exact nofun

/-- The machine behind a byte that changes nothing. -/
theorem Sound.stay (sound : machine.Sound start)
    (notSize : machine.parser.state ≠ .chunkSizeStart) : machine.Sound 0 :=
  ⟨sound.noError, sound.demands, sound.bounded,
    fun isSize => absurd isSize notSize, sound.marks⟩

/-- A callback on a mark that goes with the state clears it. -/
theorem Sound.callbackData (sound : machine.Sound start) {field : Field}
    (marking : machine.parser.state.marking = some field) {parser : Parser}
    (last : Str) (noError : parser.httpErrno = .ok)
    (demands : parser.Demands parser.state) (bounded : parser.Bounded)
    (notSize : parser.state ≠ .chunkSizeStart) :
    ∃ next, (machine.setParser parser).callbackData field last = some next ∧
      next.Sound 0 := by
  have others : ∀ other, other ≠ field → machine.marks.get other = none := by
    intro other different
    apply sound.marks
    rw [marking]
    exact fun same => different (Option.some.inj same).symm
  cases set : (machine.setParser parser).marks.get field with
  | none =>
      refine ⟨_, callbackData_unmarked noError set last, noError, demands,
        bounded, fun isSize => absurd isSize notSize, ?_⟩
      intro other _
      by_cases same : other = field
      · rw [same]
        exact set
      · exact others other same
  | some text =>
      refine ⟨_, callbackData_of noError set last, noError, demands,
        bounded, fun isSize => absurd isSize notSize, ?_⟩
      intro other _
      rw [Marks.get_put]
      split
      · rfl
      · exact others other ‹_›

theorem safe_callback (sound : machine.Sound start) {field : Field}
    (marking : machine.parser.state.marking = some field) {parser : Parser}
    (noError : parser.httpErrno = .ok)
    (demands : parser.Demands parser.state) (bounded : parser.Bounded)
    (notSize : parser.state ≠ .chunkSizeStart) :
    Safe ((machine.setParser parser).callbackData field [] >>= pass) := by
  obtain ⟨next, called, isSound⟩ :=
    sound.callbackData marking [] noError demands bounded notSize
  rw [called]
  exact isSound

/-! ## The request line -/

theorem dead_safe (sound : machine.Sound start)
    (here : machine.parser.state = .dead) : Safe (machine.dead ch) := by
  unfold dead
  split
  · exact safe_pass (sound.stay (by simp [here]))
  · exact safe_fail nofun sound.bounded.fits

theorem startReq_safe (sound : machine.Sound start)
    (here : machine.parser.state = .startReq) : Safe (machine.startReq ch) := by
  have unmarked := sound.unmarked (by rw [here]; rfl)
  have one : 1 ≤ 17 := by decide
  unfold startReq
  split
  · exact safe_pass (sound.stay (by simp [here]))
  · have noLength : machine.parser.Bounded →
        Parser.Bounded { machine.parser with
          flags := .none, contentLength := ullongMax } :=
      fun bounded => { bounded with contentLength := le_refl ullongMax }
    have bounded := noLength sound.bounded
    simp only
    split
    · exact safe_fail nofun bounded.fits
    · split
      · exact safe_fail nofun (Parser.Bounded.fits { bounded with index := one })
      · rw [guard_of sound.noError]
        exact ⟨sound.noError, (Method.text_length _).1,
          { bounded with index := one }, nofun, fun field _ => unmarked field⟩

/-- Behind a byte the text of the method still holds the index. -/
theorem switchMethod_length {method next : Method} {index : ℕ}
    (switched : switchMethod method index ch = some next) :
    index + 1 ≤ next.text.length := by
  unfold switchMethod at switched
  grind [Method.text, ascii]

theorem reqMethod_safe (sound : machine.Sound start)
    (here : machine.parser.state = .reqMethod) :
    Safe (machine.reqMethod ch) := by
  have unmarked := sound.unmarked (by rw [here]; rfl)
  have demands := sound.demands
  rw [here] at demands
  have inside : machine.parser.index <
      (machine.parser.method.text ++ [Byte.nul]).length := by
    rw [List.length_append, List.length_singleton]
    exact Nat.lt_succ_of_le demands
  have short := (Method.text_length machine.parser.method).2
  have next : machine.parser.index + 1 ≤ 17 := by
    simp only [Parser.Demands] at demands
    omega
  unfold reqMethod
  split
  · exact safe_fail nofun sound.bounded.fits
  · rename_i notNul
    simp only [List.getElem?_eq_getElem inside, Option.bind_eq_bind,
      Option.bind_some]
    split
    · exact ⟨sound.noError, trivial, { sound.bounded with index := next },
        nofun, fun field _ => unmarked field⟩
    · split
      · rename_i matched
        -- The byte is not the end of the text.
        have within : machine.parser.index + 1 ≤
            machine.parser.method.text.length := by
          by_contra atEnd
          rw [List.getElem_append_right (by omega)] at matched
          exact notNul (by simpa using matched)
        refine ⟨sound.noError, ?_, { sound.bounded with index := next }, ?_,
          fun field _ => unmarked field⟩
        · simp only [here]
          exact within
        · simp [here]
      · split
        · exact safe_fail nofun sound.bounded.fits
        · rename_i switched
          refine ⟨sound.noError, ?_, { sound.bounded with index := next }, ?_,
            fun field _ => unmarked field⟩
          · simp only [here]
            exact switchMethod_length switched
          · simp [here]

/-- A byte of the URL leaves the parser in the URL. -/
theorem urlChar_safe (noError : machine.parser.httpErrno = .ok)
    (bounded : machine.parser.Bounded)
    (marks : ∀ field, field ≠ .url → machine.marks.get field = none) :
    Safe (machine.urlChar ch) := by
  unfold urlChar
  simp only
  split
  · exact safe_fail nofun (Parser.Bounded.fits { bounded with })
  · rename_i alive
    rcases parseUrlChar_cases machine.parser.state ch with dead | marked
    · exact absurd dead alive
    · obtain ⟨marking, demands, notSize⟩ := State.of_url marked
      refine ⟨noError, demands _, { bounded with },
        fun isSize => absurd isSize notSize, ?_⟩
      intro field other
      apply marks
      rintro rfl
      exact other marking

theorem reqSpacesBeforeUrl_safe (sound : machine.Sound start)
    (here : machine.parser.state = .reqSpacesBeforeUrl) :
    Safe (machine.reqSpacesBeforeUrl ch) := by
  have unmarked := sound.unmarked (by rw [here]; rfl)
  have same : (machine.mark .url).parser = machine.parser := by
    unfold mark
    split <;> rfl
  have marks : ∀ field, field ≠ .url →
      (machine.mark .url).marks.get field = none := by
    intro field different
    simp [mark, unmarked, different]
  unfold reqSpacesBeforeUrl
  simp only
  split
  · exact safe_pass (sound.stay (by simp [here]))
  · split
    · apply urlChar_safe
      · rw [goto, same]
        exact sound.noError
      · rw [goto, same]
        exact { sound.bounded with }
      · exact marks
    · apply urlChar_safe
      · exact same ▸ sound.noError
      · exact same ▸ sound.bounded
      · exact marks

theorem Sound.onlyUrl (sound : machine.Sound start)
    (here : machine.parser.state.marked = some .url) (field : Field)
    (different : field ≠ .url) : machine.marks.get field = none := by
  apply sound.marks
  rw [(State.of_url here).1]
  exact fun same => different (Option.some.inj same).symm

theorem reqSchema_safe (sound : machine.Sound start)
    (here : machine.parser.state.marked = some .url) :
    Safe (machine.reqSchema ch) := by
  unfold reqSchema
  split
  · exact safe_fail nofun sound.bounded.fits
  · exact urlChar_safe sound.noError sound.bounded (sound.onlyUrl here)

theorem reqUrl_safe (sound : machine.Sound start)
    (here : machine.parser.state.marked = some .url) :
    Safe (machine.reqUrl ch) := by
  have marking := (State.of_url here).1
  unfold reqUrl
  split
  · exact safe_callback sound marking sound.noError trivial
      { sound.bounded with } nofun
  · split
    · refine safe_callback sound marking sound.noError ?_
        { sound.bounded with
          httpMajor := Nat.zero_le 999
          httpMinor := (show 9 ≤ 999 by decide) } ?_
      · simp only
        split <;> trivial
      · simp only
        split <;> exact nofun
    · exact urlChar_safe sound.noError sound.bounded (sound.onlyUrl here)

theorem expect_safe (sound : machine.Sound start) {wanted : UInt8}
    {state : State} (unmarked : machine.parser.state.marking = none)
    (demands : machine.parser.Demands state) (notSize : state ≠ .chunkSizeStart) :
    Safe (machine.expect ch wanted state) := by
  unfold expect
  split
  · exact safe_fail nofun sound.bounded.fits
  · exact safe_pass (sound.goto demands notSize (.inl unmarked))

theorem reqHttpStart_safe (sound : machine.Sound start)
    (here : machine.parser.state = .reqHttpStart) :
    Safe (machine.reqHttpStart ch) := by
  unfold reqHttpStart
  split
  · exact safe_pass (sound.goto trivial nofun (.inl (by rw [here]; rfl)))
  · split
    · exact safe_pass (sound.stay (by simp [here]))
    · exact safe_fail nofun sound.bounded.fits

theorem digit_le {byte : UInt8} (isDigit : Byte.isDigit byte) :
    digit byte ≤ 9 := by
  have upper : byte ≤ 57 := by
    simp only [Byte.isDigit, Bool.and_eq_true, decide_eq_true_eq] at isDigit
    exact isDigit.2
  have := UInt8.le_iff_toNat_le.mp upper
  unfold digit
  simp at this
  omega

theorem reqFirstHttpMajor_safe (sound : machine.Sound start)
    (here : machine.parser.state = .reqFirstHttpMajor) :
    Safe (machine.reqFirstHttpMajor ch) := by
  have unmarked := sound.unmarked (by rw [here]; rfl)
  unfold reqFirstHttpMajor
  split
  · exact safe_fail nofun sound.bounded.fits
  · rename_i inRange
    have small : digit ch ≤ 999 := by
      have upper : ch ≤ 57 := UInt8.not_lt.mp fun above => inRange (.inr above)
      have := UInt8.le_iff_toNat_le.mp upper
      unfold digit
      simp at this
      omega
    exact ⟨sound.noError, trivial, { sound.bounded with httpMajor := small },
      nofun, fun field _ => unmarked field⟩

theorem reqHttpMajor_safe (sound : machine.Sound start)
    (here : machine.parser.state = .reqHttpMajor) :
    Safe (machine.reqHttpMajor ch) := by
  have unmarked := sound.unmarked (by rw [here]; rfl)
  have bounded := sound.bounded
  unfold reqHttpMajor
  split
  · exact safe_pass (sound.goto trivial nofun (.inl (by rw [here]; rfl)))
  · split
    · exact safe_fail nofun bounded.fits
    · rename_i isDigit
      simp only
      split
      · have := digit_le (by simpa using isDigit)
        have := bounded.httpMajor
        exact safe_fail nofun { bounded.fits with
          httpMajor := by simp only; omega }
      · rename_i small
        exact ⟨sound.noError, by simp only [here]; trivial,
          { bounded with httpMajor := not_lt.mp small }, by simp [here],
          fun field _ => unmarked field⟩

theorem reqFirstHttpMinor_safe (sound : machine.Sound start)
    (here : machine.parser.state = .reqFirstHttpMinor) :
    Safe (machine.reqFirstHttpMinor ch) := by
  have unmarked := sound.unmarked (by rw [here]; rfl)
  unfold reqFirstHttpMinor
  split
  · exact safe_fail nofun sound.bounded.fits
  · rename_i isDigit
    have small := (digit_le (by simpa using isDigit)).trans
      (show 9 ≤ 999 by decide)
    exact ⟨sound.noError, trivial, { sound.bounded with httpMinor := small },
      nofun, fun field _ => unmarked field⟩

theorem reqHttpMinor_safe (sound : machine.Sound start)
    (here : machine.parser.state = .reqHttpMinor) :
    Safe (machine.reqHttpMinor ch) := by
  have unmarked := sound.unmarked (by rw [here]; rfl)
  have bounded := sound.bounded
  unfold reqHttpMinor
  split
  · exact safe_pass (sound.goto trivial nofun (.inl (by rw [here]; rfl)))
  · split
    · exact safe_pass (sound.goto trivial nofun (.inl (by rw [here]; rfl)))
    · split
      · exact safe_fail nofun bounded.fits
      · rename_i isDigit
        simp only
        split
        · have := digit_le (by simpa using isDigit)
          have := bounded.httpMinor
          exact safe_fail nofun { bounded.fits with
            httpMinor := by simp only; omega }
        · rename_i small
          exact ⟨sound.noError, by simp only [here]; trivial,
            { bounded with httpMinor := not_lt.mp small }, by simp [here],
            fun field _ => unmarked field⟩

theorem reqLineAlmostDone_safe (sound : machine.Sound start)
    (here : machine.parser.state = .reqLineAlmostDone) :
    Safe (machine.reqLineAlmostDone ch) := by
  unfold reqLineAlmostDone
  split
  · exact safe_fail nofun sound.bounded.fits
  · exact safe_pass (sound.goto trivial nofun (.inl (by rw [here]; rfl)))

/-! ## The end of the headers -/

/-- The state behind a whole message. -/
theorem newMessage_sound (noError : machine.parser.httpErrno = .ok)
    (bounded : machine.parser.Bounded)
    (unmarked : ∀ field, machine.marks.get field = none) (calls : List Call) :
    Sound 0 { machine.goto machine.parser.newMessage with calls := calls } := by
  obtain ⟨demands, notSize⟩ := Parser.demands_newMessage machine.parser
    { machine.parser with state := machine.parser.newMessage }
  exact ⟨noError, demands, { bounded with },
    fun isSize => absurd isSize notSize, fun field _ => unmarked field⟩

theorem messageDone_safe (noError : machine.parser.httpErrno = .ok)
    (bounded : machine.parser.Bounded)
    (unmarked : ∀ field, machine.marks.get field = none) :
    Safe machine.messageDone := by
  rw [messageDone, callbackNotify_of (by exact noError)]
  exact newMessage_sound noError bounded unmarked _

theorem headersDone_safe (noError : machine.parser.httpErrno = .ok)
    (bounded : machine.parser.Bounded)
    (unmarked : ∀ field, machine.marks.get field = none) :
    Safe (machine.headersDone ch) := by
  have reset : Parser.Bounded { machine.parser with nread := 0 } :=
    { bounded with nread := Nat.zero_le _ }
  have complete : Safe (messageDone { machine with
      parser := { machine.parser with nread := 0 } }) := by
    apply messageDone_safe
    · exact noError
    · exact reset
    · exact unmarked
  unfold headersDone
  split
  · exact safe_fail nofun bounded.fits
  · simp only
    split
    · rw [callbackNotify_of (by exact noError)]
      apply newMessage_sound
      · exact noError
      · exact reset
      · exact unmarked
    · split
      · rename_i chunked
        exact ⟨noError, chunked, { reset with }, fun _ => rfl,
          fun field _ => unmarked field⟩
      · split
        · exact complete
        · split
          · rename_i empty more
            exact ⟨noError, ⟨empty, more⟩, { reset with }, nofun,
              fun field _ => unmarked field⟩
          · exact complete

theorem headersAlmostDone_safe (noError : machine.parser.httpErrno = .ok)
    (bounded : machine.parser.Bounded)
    (unmarked : ∀ field, machine.marks.get field = none) :
    Safe (machine.headersAlmostDone ch) := by
  unfold headersAlmostDone
  split
  · exact safe_fail nofun bounded.fits
  · split
    · exact messageDone_safe noError bounded unmarked
    · simp only
      rw [if_neg (not_not.mpr noError)]
      exact headersDone_safe noError { bounded with } unmarked

theorem headerFieldStart_safe (noError : machine.parser.httpErrno = .ok)
    (bounded : machine.parser.Bounded)
    (unmarked : ∀ field, machine.marks.get field = none) :
    Safe (machine.headerFieldStart ch) := by
  unfold headerFieldStart
  split
  · exact ⟨noError, trivial, { bounded with }, State.not_sizeStart rfl,
      fun field _ => unmarked field⟩
  · split
    · exact headersAlmostDone_safe noError { bounded with } unmarked
    · simp only
      split
      · exact safe_fail (by decide) bounded.fits
      · have marked : machine.mark .headerField = { machine with
            marks := machine.marks.put .headerField (some []) } := by
          rw [mark, unmarked]
        rw [marked]
        refine ⟨noError, ⟨?_, Nat.zero_le _⟩,
          { bounded with index := Nat.zero_le 17 },
          State.not_sizeStart rfl, ?_⟩
        · simp only
          split_ifs <;> rfl
        · intro field other
          rw [Marks.get_put, if_neg, unmarked]
          rintro rfl
          exact other rfl

/-! ## Header lines -/

/-- A text is matched up to the state that says it is found. -/
theorem matchNext_eq (parser : Parser) {text : Str} {found : HeaderState}
    (c : UInt8) (long : 2 ≤ text.length) (short : text.length ≤ 17)
    (limited : parser.index ≤ text.length - 2) :
    ∃ headerState, matchNext parser text found c =
        { parser with index := parser.index + 1, headerState := headerState } ∧
      (headerState = .general ∧ parser.index + 1 ≤ 17 ∨
        headerState = found ∧ parser.index + 1 ≤ 17 ∨
        headerState = parser.headerState ∧
          parser.index + 1 ≤ text.length - 2) := by
  refine ⟨_, rfl, ?_⟩
  split_ifs with different last
  · exact .inl ⟨rfl, by omega⟩
  · exact .inr (.inl ⟨rfl, by omega⟩)
  · refine .inr (.inr ⟨rfl, ?_⟩)
    have inside := not_lt.mp (not_or.mp different).1
    omega

/-- Behind a matching byte the index is below its limit again. -/
theorem matchNext_limited {parser : Parser} {text : Str} {found : HeaderState}
    (c : UInt8) (long : 2 ≤ text.length) (short : text.length ≤ 17)
    (limit : parser.headerState.limit = text.length - 2)
    (limited : parser.index ≤ parser.headerState.limit)
    (wide : found.limit = 17) :
    ∃ index headerState, matchNext parser text found c =
        { parser with index := index, headerState := headerState } ∧
      (headerState = .general ∨ headerState = found ∨
        headerState = parser.headerState) ∧ index ≤ headerState.limit := by
  rw [limit] at limited
  obtain ⟨headerState, same, outcome⟩ := matchNext_eq parser c long short limited
  refine ⟨_, headerState, same, ?_⟩
  rcases outcome with ⟨rfl, inside⟩ | ⟨rfl, inside⟩ | ⟨rfl, inside⟩
  · exact ⟨.inl rfl, inside⟩
  · exact ⟨.inr (.inl rfl), wide ▸ inside⟩
  · exact ⟨.inr (.inr rfl), limit ▸ inside⟩

theorem matchField_eq {parser : Parser} (ch c : UInt8)
    (ofName : parser.headerState.ofName)
    (limited : parser.index ≤ parser.headerState.limit) :
    ∃ index headerState, matchField parser ch c =
        some { parser with index := index, headerState := headerState } ∧
      headerState.ofName ∧ index ≤ headerState.limit := by
  have matched : ∀ {text : Str} {found : HeaderState},
      2 ≤ text.length → text.length ≤ 17 → parser.headerState.limit = text.length - 2 →
      found.limit = 17 → found.ofName → ∃ index headerState,
        some (matchNext parser text found c) =
          some { parser with index := index, headerState := headerState } ∧
        headerState.ofName ∧ index ≤ headerState.limit := by
    intro text found long short limit wide isName
    obtain ⟨index, headerState, same, outcome, inside⟩ :=
      matchNext_limited c long short limit limited wide
    refine ⟨index, headerState, congrArg some same, ?_, inside⟩
    rcases outcome with rfl | rfl | rfl
    · rfl
    · exact isName
    · exact ofName
  have wide := limited.trans (HeaderState.limit_le _)
  have found : ∃ index headerState,
      some (if ch ≠ Byte.space then { parser with headerState := .general }
        else parser) =
        some { parser with index := index, headerState := headerState } ∧
      headerState.ofName ∧ index ≤ headerState.limit := by
    split
    · exact ⟨parser.index, .general, rfl, rfl, wide⟩
    · exact ⟨parser.index, parser.headerState, rfl, ofName, limited⟩
  cases parser with
  | mk flags state headerState index nread contentLength httpMajor httpMinor
      method httpErrno upgrade =>
      cases headerState
      case general => exact ⟨_, _, rfl, rfl, wide⟩
      case C =>
        refine ⟨_, _, rfl, ?_, ?_⟩
        · split <;> rfl
        · rw [Nat.le_zero.mp limited]
          split <;> decide
      case CO =>
        have second : index + 1 ≤ 2 := Nat.succ_le_succ limited
        refine ⟨_, _, rfl, ?_, ?_⟩
        · split <;> rfl
        · split
          · exact second
          · exact second.trans (by decide)
      case CON =>
        have third : index + 1 ≤ 3 := Nat.succ_le_succ limited
        refine ⟨_, _, rfl, ?_, ?_⟩
        · split_ifs <;> rfl
        · split_ifs <;> exact third.trans (by decide)
      case matchingConnection => exact matched (by decide) (by decide) rfl rfl rfl
      case matchingProxyConnection => exact matched (by decide) (by decide) rfl rfl rfl
      case matchingContentLength => exact matched (by decide) (by decide) rfl rfl rfl
      case matchingTransferEncoding => exact matched (by decide) (by decide) rfl rfl rfl
      case matchingUpgrade => exact matched (by decide) (by decide) rfl rfl rfl
      case connection => exact found
      case contentLength => exact found
      case transferEncoding => exact found
      case upgrade => exact found
      all_goals cases ofName

theorem headerField_safe (sound : machine.Sound start)
    (here : machine.parser.state = .headerField) :
    Safe (machine.headerField ch) := by
  have bounded := sound.bounded
  have demands := sound.demands
  have marking : machine.parser.state.marking = some .headerField := by
    rw [here]
    rfl
  rw [here] at demands
  unfold headerField
  simp only
  split
  · obtain ⟨index, headerState, same, ofName, limited⟩ :=
      matchField_eq ch (token ch) demands.1 demands.2
    rw [same]
    refine ⟨sound.noError, ?_,
      { bounded with index := limited.trans (HeaderState.limit_le _) }, ?_, ?_⟩
    · simp only [here, setParser]
      exact ⟨ofName, limited⟩
    · simp [here, setParser]
    · exact sound.marks
  · split
    · exact safe_callback sound marking sound.noError trivial
        { bounded with } nofun
    · split
      · exact safe_callback sound marking sound.noError trivial
          { bounded with } nofun
      · split
        · exact safe_callback sound marking sound.noError trivial
            { bounded with } nofun
        · exact safe_fail nofun bounded.fits

theorem headerAlmostDone_safe (noError : machine.parser.httpErrno = .ok)
    (bounded : machine.parser.Bounded)
    (unmarked : ∀ field, machine.marks.get field = none) :
    Safe (machine.headerAlmostDone ch) := by
  unfold headerAlmostDone
  split
  · exact safe_fail nofun bounded.fits
  · exact ⟨noError, trivial, { bounded with }, nofun,
      fun field _ => unmarked field⟩

theorem headerValueLws_safe (sound : machine.Sound start)
    (here : machine.parser.state = .headerValueLws) :
    Safe (machine.headerValueLws ch) := by
  have unmarked := sound.unmarked (by rw [here]; rfl)
  unfold headerValueLws
  split
  · exact safe_pass (sound.goto trivial nofun (.inl (by rw [here]; rfl)))
  · exact headerFieldStart_safe sound.noError { sound.bounded with } unmarked

theorem headerValueStart_safe (sound : machine.Sound start)
    (here : machine.parser.state = .headerValueStart) :
    Safe (machine.headerValueStart ch) := by
  have bounded : Parser.Bounded { machine.parser with
      state := .headerValue, index := 0 } :=
    { sound.bounded with index := Nat.zero_le 17 }
  have unmarked := sound.unmarked (by rw [here]; rfl)
  have marked : machine.mark .headerValue = { machine with
      marks := machine.marks.put .headerValue (some []) } := by
    rw [mark, unmarked]
  have marks : ∀ field, State.headerValue.marking ≠ some field →
      (machine.marks.put .headerValue (some [])).get field = none := by
    intro field other
    rw [Marks.get_put, if_neg, unmarked]
    rintro rfl
    exact other rfl
  have cleared : ∀ field, ((machine.marks.put .headerValue (some [])).put
      .headerValue none).get field = none := by
    intro field
    simp [unmarked]
  have set : (machine.marks.put .headerValue (some [])).get .headerValue =
      some [] := by
    simp
  unfold headerValueStart
  split
  · exact safe_pass (sound.stay (by simp [here]))
  · rw [marked]
    simp only
    split
    · rw [callbackData_of (by exact sound.noError) (by exact set)]
      exact ⟨sound.noError, trivial, { bounded with },
        State.not_sizeStart rfl, fun field _ => cleared field⟩
    · split
      · rw [callbackData_of (by exact sound.noError) (by exact set)]
        exact ⟨sound.noError, trivial, { bounded with },
          State.not_sizeStart rfl, fun field _ => cleared field⟩
      · have behind : ∀ flags headerState contentLength,
            contentLength ≤ ullongMax → headerState ≠ .connection →
            headerState ≠ .transferEncoding →
            Safe (pass { machine with
              parser := { machine.parser with
                flags := flags
                state := .headerValue
                headerState := headerState
                index := 0
                contentLength := contentLength }
              marks := machine.marks.put .headerValue (some []) }) := by
          intro flags headerState contentLength inside notConnection notEncoding
          exact ⟨sound.noError, ⟨notConnection, notEncoding, Nat.zero_le _⟩,
            { bounded with contentLength := inside }, State.not_sizeStart rfl, marks⟩
        have length := bounded.contentLength
        split
        · exact behind _ _ _ length (by decide) (by decide)
        · apply behind _ _ _ length
          · split <;> decide
          · split <;> decide
        · rename_i isLength
          split
          · exact safe_fail (by decide) bounded.fits
          · rename_i isDigit
            have small := digit_le (by simpa using isDigit)
            apply behind _ _ _ (small.trans (by decide))
            · simp [isLength]
            · simp [isLength]
        · apply behind _ _ _ length
          · split_ifs <;> decide
          · split_ifs <;> decide
        · exact behind _ _ _ length (by decide) (by decide)

/-- A digit that is pushed without an overflow leaves room for the marker. -/
theorem pushDigit_lt {base value digit next : ℕ}
    (pushed : pushDigit base value digit = some next) : next < ullongMax := by
  unfold pushDigit at pushed
  simp only at pushed
  split at pushed
  · cases pushed
  · rename_i inside
    cases pushed
    have small := Nat.mod_lt (value * base % 2 ^ 64 + digit)
      (show 0 < 2 ^ 64 by decide)
    have := (not_or.mp inside).2
    unfold ullongMax at this ⊢
    omega

theorem valueByte_safe (sound : machine.Sound start)
    (here : machine.parser.state = .headerValue) :
    Safe (machine.valueByte ch) := by
  have bounded := sound.bounded
  have demands := sound.demands
  rw [here] at demands
  obtain ⟨notConnection, notEncoding, limited⟩ := demands
  have stay := sound.stay (by simp [here])
  have behind : ∀ index headerState, headerState ≠ .connection →
      headerState ≠ .transferEncoding → index ≤ HeaderState.limit headerState →
      Sound 0 (machine.setParser { machine.parser with
        index := index, headerState := headerState }) := by
    intro index headerState notConnection notEncoding inside
    refine ⟨sound.noError, ?_,
      { bounded with index := inside.trans (HeaderState.limit_le _) }, ?_, ?_⟩
    · simp only [setParser, here]
      exact ⟨notConnection, notEncoding, inside⟩
    · simp [setParser, here]
    · exact sound.marks
  have general := behind machine.parser.index .general nofun nofun bounded.index
  have matched : ∀ {text : Str} {found : HeaderState},
      2 ≤ text.length → text.length ≤ 17 →
      machine.parser.headerState.limit = text.length - 2 →
      found.limit = 17 → found ≠ .connection → found ≠ .transferEncoding →
      Safe (machine.setParser
        (matchNext machine.parser text found (lower ch))).pass := by
    intro text found long short limit wide foundConnection foundEncoding
    obtain ⟨index, headerState, same, outcome, inside⟩ :=
      matchNext_limited (lower ch) long short limit limited wide
    rw [same]
    apply behind index headerState ?_ ?_ inside
    · rcases outcome with rfl | rfl | rfl
      · exact nofun
      · exact foundConnection
      · exact notConnection
    · rcases outcome with rfl | rfl | rfl
      · exact nofun
      · exact foundEncoding
      · exact notEncoding
  unfold valueByte
  simp only
  split
  · exact safe_pass stay
  · exact absurd ‹_› notConnection
  · exact absurd ‹_› notEncoding
  · split
    · exact safe_pass stay
    · split
      · exact safe_fail nofun bounded.fits
      · split
        · exact safe_fail nofun bounded.fits
        · rename_i pushed
          refine ⟨sound.noError, ?_,
            { bounded with contentLength := Nat.le_of_lt (pushDigit_lt pushed) },
            by simp [here], sound.marks⟩
          simp only [here]
          exact ⟨notConnection, notEncoding, limited⟩
  · exact matched (by decide) (by decide) (by simp [*]; decide) rfl nofun nofun
  · exact matched (by decide) (by decide) (by simp [*]; decide) rfl nofun nofun
  · exact matched (by decide) (by decide) (by simp [*]; decide) rfl nofun nofun
  · split
    · exact general
    · exact safe_pass stay
  · split
    · exact general
    · exact safe_pass stay
  · split
    · exact general
    · exact safe_pass stay
  · exact general

theorem headerValue_safe (sound : machine.Sound start)
    (here : machine.parser.state = .headerValue) :
    Safe (machine.headerValue ch) := by
  have marking : machine.parser.state.marking = some .headerValue := by
    rw [here]
    rfl
  unfold headerValue
  split
  · exact safe_callback sound marking sound.noError trivial
      { sound.bounded with } nofun
  · split
    · have unmarked : ∀ field, field ≠ .headerValue →
          machine.marks.get field = none := by
        intro field different
        apply sound.marks
        rw [marking]
        exact fun same => different (Option.some.inj same).symm
      cases set : machine.marks.get .headerValue with
      | none =>
          rw [callbackData_unmarked (by exact sound.noError) (by exact set)]
          apply headerAlmostDone_safe
          · exact sound.noError
          · exact { sound.bounded with }
          · intro field
            by_cases same : field = .headerValue
            · rw [same]
              exact set
            · exact unmarked field same
      | some text =>
          rw [callbackData_of (by exact sound.noError) (by exact set)]
          apply headerAlmostDone_safe
          · exact sound.noError
          · exact { sound.bounded with }
          · intro field
            rw [Marks.get_put]
            split
            · rfl
            · exact unmarked field ‹_›
    · exact valueByte_safe sound here

/-! ## Bodies -/

/-- Only the body may be marked where a body is read. -/
theorem Sound.onlyBody (sound : machine.Sound start)
    (marking : machine.parser.state.marking = some .body) (mark : Option Str)
    (field : Field) (different : field ≠ .body) :
    (machine.marks.put .body mark).get field = none := by
  rw [Marks.get_put, if_neg different]
  apply sound.marks
  rw [marking]
  exact fun same => different (Option.some.inj same).symm

theorem bodyIdentity_safe (sound : machine.Sound start)
    (here : machine.parser.state = .bodyIdentity) (rest : Str) :
    SafeMove (machine.bodyIdentity ch rest) := by
  have demands := sound.demands
  rw [here] at demands
  have nonempty : machine.parser.contentLength ≠ 0 := demands.1
  have less : machine.parser.contentLength -
      min machine.parser.contentLength (rest.length + 1) < ullongMax := by
    have := sound.bounded.contentLength
    omega
  have bounded : Parser.Bounded { machine.parser with
      contentLength := machine.parser.contentLength -
        min machine.parser.contentLength (rest.length + 1) } :=
    { sound.bounded with contentLength := Nat.le_of_lt less }
  have marks := sound.onlyBody (by rw [here]; rfl)
  unfold bodyIdentity
  simp only
  rw [guard_of (by exact demands), mark_eq]
  simp only [Option.bind_eq_bind, Option.bind_some]
  split
  · rw [callbackData_of (by exact sound.noError)
      (by simp [goto]; rfl)]
    refine Safe.taking ?_ _
    apply messageDone_safe
    · exact sound.noError
    · exact { bounded with }
    · intro field
      simp only [goto, Marks.put_put]
      by_cases same : field = .body
      · rw [same, Marks.get_put, if_pos rfl]
      · exact marks _ field same
  · rename_i more
    refine ⟨sound.noError, ?_, bounded, by simp [here], ?_⟩
    · simp only [here]
      exact ⟨more, Nat.ne_of_lt less⟩
    · simp only [here]
      intro field other
      exact marks _ field fun same => other (by rw [same]; rfl)

theorem chunkData_safe (sound : machine.Sound start)
    (here : machine.parser.state = .chunkData) (rest : Str) :
    SafeMove (machine.chunkData rest) := by
  have demands := sound.demands
  rw [here] at demands
  obtain ⟨chunked, nonempty, known⟩ := demands
  have less : machine.parser.contentLength -
      min machine.parser.contentLength (rest.length + 1) < ullongMax := by
    have := sound.bounded.contentLength
    omega
  have bounded : Parser.Bounded { machine.parser with
      contentLength := machine.parser.contentLength -
        min machine.parser.contentLength (rest.length + 1) } :=
    { sound.bounded with contentLength := Nat.le_of_lt less }
  have marks := sound.onlyBody (by rw [here]; rfl)
  unfold chunkData
  simp only
  rw [guard_of chunked, guard_of ⟨nonempty, known⟩, mark_eq]
  simp only [Option.bind_eq_bind, Option.bind_some]
  split
  · rename_i done
    refine ⟨sound.noError, ⟨chunked, done⟩, { bounded with }, nofun, ?_⟩
    intro field other
    exact marks _ field fun same => other (by rw [same]; rfl)
  · rename_i more
    refine ⟨sound.noError, ?_, bounded, by simp [here], ?_⟩
    · simp only [here]
      exact ⟨chunked, more, Nat.ne_of_lt less⟩
    · simp only [here]
      intro field other
      exact marks _ field fun same => other (by rw [same]; rfl)

theorem chunkSizeStart_safe (sound : machine.Sound 1)
    (here : machine.parser.state = .chunkSizeStart) :
    Safe (machine.chunkSizeStart ch) := by
  have demands := sound.demands
  rw [here] at demands
  have chunked : machine.parser.flags.chunked = true := demands
  have unmarked := sound.unmarked (by rw [here]; rfl)
  unfold chunkSizeStart
  rw [guard_of (sound.fresh here), guard_of chunked]
  simp only [Option.bind_eq_bind, Option.bind_some]
  split
  · exact safe_fail nofun sound.bounded.fits
  · rename_i hex
    have small := unhex_le ch _ hex
    exact ⟨sound.noError,
      ⟨chunked, Nat.ne_of_lt (small.trans_lt (by decide))⟩,
      { sound.bounded with contentLength := small.trans (by decide) },
      nofun, fun field _ => unmarked field⟩

theorem chunkSize_safe (sound : machine.Sound start)
    (here : machine.parser.state = .chunkSize) :
    Safe (machine.chunkSize ch) := by
  have demands := sound.demands
  rw [here] at demands
  have unmarked : machine.parser.state.marking = none := by
    rw [here]
    rfl
  unfold chunkSize
  simp only
  rw [guard_of demands.1]
  simp only [Option.bind_eq_bind, Option.bind_some]
  split
  · exact safe_pass (sound.goto demands nofun (.inl unmarked))
  · split
    · split
      · exact safe_pass (sound.goto demands nofun (.inl unmarked))
      · exact safe_fail nofun sound.bounded.fits
    · split
      · exact safe_fail nofun sound.bounded.fits
      · rename_i pushed
        have small := pushDigit_lt pushed
        refine ⟨sound.noError, ?_,
          { sound.bounded with contentLength := Nat.le_of_lt small },
          by simp [here], sound.marks⟩
        simp only [here]
        exact ⟨demands.1, Nat.ne_of_lt small⟩

theorem chunkParameters_safe (sound : machine.Sound start)
    (here : machine.parser.state = .chunkParameters) :
    Safe (machine.chunkParameters ch) := by
  have demands := sound.demands
  rw [here] at demands
  unfold chunkParameters
  rw [guard_of demands.1]
  simp only [Option.bind_eq_bind, Option.bind_some]
  split
  · exact safe_pass (sound.goto demands nofun (.inl (by rw [here]; rfl)))
  · exact safe_pass (sound.stay (by simp [here]))

theorem chunkSizeAlmostDone_safe (sound : machine.Sound start)
    (here : machine.parser.state = .chunkSizeAlmostDone) :
    Safe (machine.chunkSizeAlmostDone ch) := by
  have demands := sound.demands
  rw [here] at demands
  have unmarked := sound.unmarked (by rw [here]; rfl)
  unfold chunkSizeAlmostDone
  rw [guard_of demands.1]
  simp only [Option.bind_eq_bind, Option.bind_some]
  split
  · exact safe_fail nofun sound.bounded.fits
  · split
    · exact ⟨sound.noError, trivial,
        { sound.bounded with nread := Nat.zero_le _ }, nofun,
        fun field _ => unmarked field⟩
    · rename_i nonempty
      exact ⟨sound.noError, ⟨demands.1, nonempty, demands.2⟩,
        { sound.bounded with nread := Nat.zero_le _ }, nofun,
        fun field _ => unmarked field⟩

theorem chunkDataAlmostDone_safe (sound : machine.Sound start)
    (here : machine.parser.state = .chunkDataAlmostDone) :
    Safe (machine.chunkDataAlmostDone ch) := by
  have demands := sound.demands
  rw [here] at demands
  unfold chunkDataAlmostDone
  rw [guard_of demands.1, guard_of demands.2]
  simp only [Option.bind_eq_bind, Option.bind_some]
  split
  · exact safe_fail nofun sound.bounded.fits
  · exact safe_callback sound (by rw [here]; rfl) sound.noError demands.1
      { sound.bounded with } nofun

theorem chunkDataDone_safe (sound : machine.Sound start)
    (here : machine.parser.state = .chunkDataDone) :
    Safe (machine.chunkDataDone ch) := by
  have demands := sound.demands
  rw [here] at demands
  have chunked : machine.parser.flags.chunked = true := demands
  have unmarked := sound.unmarked (by rw [here]; rfl)
  unfold chunkDataDone
  rw [guard_of chunked]
  simp only [Option.bind_eq_bind, Option.bind_some]
  split
  · exact safe_fail nofun sound.bounded.fits
  · exact ⟨sound.noError, demands,
      { sound.bounded with nread := Nat.zero_le _ }, fun _ => rfl,
      fun field _ => unmarked field⟩

/-! ## Calls -/

theorem dispatch_safe (sound : machine.Sound 1) (ch : UInt8) (rest : Str) :
    SafeMove (machine.dispatch ch rest) := by
  have noError := sound.noError
  have bounded := sound.bounded
  have unmarked := fun isNone field => sound.unmarked isNone field
  unfold dispatch
  cases here : machine.parser.state <;> simp only
  case dead => exact safe_oneByte (dead_safe sound here)
  case startReq => exact safe_oneByte (startReq_safe sound here)
  case reqMethod => exact safe_oneByte (reqMethod_safe sound here)
  case reqSpacesBeforeUrl => exact safe_oneByte (reqSpacesBeforeUrl_safe sound here)
  case reqHttpStart => exact safe_oneByte (reqHttpStart_safe sound here)
  case reqHttpH => exact safe_oneByte (expect_safe sound (by rw [here]; rfl) trivial nofun)
  case reqHttpHT => exact safe_oneByte (expect_safe sound (by rw [here]; rfl) trivial nofun)
  case reqHttpHTT => exact safe_oneByte (expect_safe sound (by rw [here]; rfl) trivial nofun)
  case reqHttpHTTP => exact safe_oneByte (expect_safe sound (by rw [here]; rfl) trivial nofun)
  case reqFirstHttpMajor => exact safe_oneByte (reqFirstHttpMajor_safe sound here)
  case reqHttpMajor => exact safe_oneByte (reqHttpMajor_safe sound here)
  case reqFirstHttpMinor => exact safe_oneByte (reqFirstHttpMinor_safe sound here)
  case reqHttpMinor => exact safe_oneByte (reqHttpMinor_safe sound here)
  case reqLineAlmostDone => exact safe_oneByte (reqLineAlmostDone_safe sound here)
  case headerFieldStart =>
    exact safe_oneByte
      (headerFieldStart_safe noError bounded (unmarked (by rw [here]; rfl)))
  case headerField => exact safe_oneByte (headerField_safe sound here)
  case headerValueStart => exact safe_oneByte (headerValueStart_safe sound here)
  case headerValue => exact safe_oneByte (headerValue_safe sound here)
  case headerValueLws => exact safe_oneByte (headerValueLws_safe sound here)
  case headerAlmostDone =>
    exact safe_oneByte
      (headerAlmostDone_safe noError bounded (unmarked (by rw [here]; rfl)))
  case headersAlmostDone =>
    exact safe_oneByte
      (headersAlmostDone_safe noError bounded (unmarked (by rw [here]; rfl)))
  case headersDone =>
    exact safe_oneByte
      (headersDone_safe noError bounded (unmarked (by rw [here]; rfl)))
  case bodyIdentity => exact bodyIdentity_safe sound here rest
  case messageDone =>
    exact safe_oneByte
      (messageDone_safe noError bounded (unmarked (by rw [here]; rfl)))
  case chunkSizeStart => exact safe_oneByte (chunkSizeStart_safe sound here)
  case chunkSize => exact safe_oneByte (chunkSize_safe sound here)
  case chunkParameters => exact safe_oneByte (chunkParameters_safe sound here)
  case chunkSizeAlmostDone => exact safe_oneByte (chunkSizeAlmostDone_safe sound here)
  case chunkData => exact chunkData_safe sound here rest
  case chunkDataAlmostDone => exact safe_oneByte (chunkDataAlmostDone_safe sound here)
  case chunkDataDone => exact safe_oneByte (chunkDataDone_safe sound here)
  case reqSchema => exact safe_oneByte (reqSchema_safe sound (by rw [here]; rfl))
  case reqSchemaSlash => exact safe_oneByte (reqSchema_safe sound (by rw [here]; rfl))
  case reqSchemaSlashSlash => exact safe_oneByte (reqSchema_safe sound (by rw [here]; rfl))
  case reqServerStart => exact safe_oneByte (reqSchema_safe sound (by rw [here]; rfl))
  all_goals exact safe_oneByte (reqUrl_safe sound (by rw [here]; rfl))

theorem Sound.advance (sound : machine.Sound 0) (text : Str) :
    (machine.advance text).Sound 0 := by
  refine ⟨sound.noError, sound.demands, sound.bounded, sound.fresh, ?_⟩
  intro field other
  have unset := sound.marks field other
  cases field
  all_goals
    simp only [Marks.get] at unset
    simp [Machine.advance, Marks.advance, Marks.get, unset]

/-- What a parser is between two calls. -/
def Rests (parser : Parser) : Prop :=
  parser.Fits ∧ (parser.httpErrno = .ok →
    parser.Demands parser.state ∧ parser.Bounded ∧
      (parser.state = .chunkSizeStart → parser.nread = 0))

theorem Sound.rests (sound : machine.Sound 0) : Rests machine.parser :=
  ⟨sound.bounded.fits, fun _ => ⟨sound.demands, sound.bounded, sound.fresh⟩⟩

theorem Stopped.rests (stopped : machine.Stopped) : Rests machine.parser :=
  ⟨stopped.2, fun noError => absurd noError stopped.1⟩

/-- The first byte of a chunk size is the first one that is counted. -/
theorem Sound.counted (sound : machine.Sound 0)
    (inside : ¬ (machine.counted.parser.state.parsingHeader ∧
      maxHeaderSize < machine.counted.parser.nread)) :
    machine.counted.Sound 1 := by
  unfold Machine.counted at inside ⊢
  split
  · rename_i header
    rw [if_pos header] at inside
    refine ⟨sound.noError, ?_, { sound.bounded with
      nread := not_lt.mp fun above => inside ⟨header, above⟩ }, ?_, sound.marks⟩
    · have demands := sound.demands
      simp only
      generalize machine.parser.state = state at demands ⊢
      cases state <;> exact demands
    · intro isSize
      simp only
      rw [sound.fresh isSize]
  · rename_i noHeader
    refine ⟨sound.noError, sound.demands, sound.bounded, ?_, sound.marks⟩
    intro isSize
    rw [isSize] at noHeader
    exact absurd rfl noHeader

/-- A turn of the loop. -/
theorem turn_sound (sound : machine.Sound 0) (ch : UInt8) (rest : Str) :
    ∃ move, machine.turn ch rest = some move ∧
      move.Keeps (Sound 0) fun last => Rests last.parser := by
  unfold turn
  simp only
  split
  · refine ⟨_, rfl, ?_⟩
    have fits := sound.bounded.fits
    have small := sound.bounded.nread
    refine ⟨⟨?_, ?_, ?_, ?_, ?_⟩, nofun⟩
    all_goals
      simp only [setErrno, Machine.counted]
      split
    · exact fits.index
    · exact fits.index
    · exact (Nat.succ_le_succ small).trans_lt (by decide)
    · exact fits.nread
    · exact fits.httpMajor
    · exact fits.httpMajor
    · exact fits.httpMinor
    · exact fits.httpMinor
    · exact fits.contentLength
    · exact fits.contentLength
  · rename_i inside
    have safe := dispatch_safe (sound.counted inside) ch rest
    cases dispatched : machine.counted.dispatch ch rest with
    | none =>
        rw [dispatched] at safe
        exact safe.elim
    | some taken =>
        rw [dispatched] at safe
        refine ⟨settle (ch :: rest) taken, rfl, ?_⟩
        obtain ⟨exit, skip⟩ := taken
        cases exit with
        | next machine => exact Sound.advance safe _
        | error machine => exact Stopped.rests safe
        | returned machine => exact show Rests machine.parser from Sound.rests safe

theorem loop_sound (sound : machine.Sound 0) (text : Str) :
    ∃ status, loop turn machine 0 text = some status ∧
      status.Keeps (Sound 0) fun last => Rests last.parser := by
  apply Lib.Scanner.loop_invariant
  · exact fun ch rest sound => turn_sound sound ch rest
  · exact sound

theorem callbackData_keeps (noError : machine.parser.httpErrno = .ok)
    (field : Field) (last : Str) :
    ∃ next, machine.callbackData field last = some next ∧
      next.parser = machine.parser := by
  cases set : machine.marks.get field with
  | none => exact ⟨_, callbackData_unmarked noError set last, rfl⟩
  | some text => exact ⟨_, callbackData_of noError set last, rfl⟩

/-- At most one mark is left over. -/
theorem Sound.count_le (sound : machine.Sound start) :
    machine.marks.count ≤ 1 := by
  have unset := sound.marks
  generalize machine.parser.state.marking = marking at unset
  have url := unset .url
  have headerField := unset .headerField
  have headerValue := unset .headerValue
  have body := unset .body
  simp only [Marks.get] at url headerField headerValue body
  have length : ∀ mark : Option Str, mark.toList.length ≤ 1 := by
    intro mark
    cases mark <;> simp
  unfold Marks.count
  cases marking with
  | none => simp [url, headerField, headerValue, body]
  | some field =>
      cases field with
      | url => simp [headerField, headerValue, body, length]
      | headerField => simp [url, headerValue, body, length]
      | headerValue => simp [url, headerField, body, length]
      | body => simp [url, headerField, headerValue, length]

theorem Sound.flush (sound : machine.Sound start) :
    ∃ next, machine.flush = some next ∧ next.parser = machine.parser := by
  have called : ∀ before : Machine, before.parser = machine.parser →
      ∀ field, ∃ next, before.callbackData field [] = some next ∧
        next.parser = machine.parser := by
    intro before same field
    obtain ⟨next, called, kept⟩ :=
      callbackData_keeps (same ▸ sound.noError) field []
    exact ⟨next, called, kept.trans same⟩
  obtain ⟨first, firstCall, same⟩ := called machine rfl .headerField
  obtain ⟨second, secondCall, same⟩ := called first same .headerValue
  obtain ⟨third, thirdCall, same⟩ := called second same .url
  obtain ⟨last, lastCall, same⟩ := called third same .body
  refine ⟨last, ?_, same⟩
  unfold Machine.flush
  rw [guard_of sound.count_le]
  simp only [Option.bind_eq_bind, Option.bind_some, firstCall, secondCall,
    thirdCall, lastCall]

end Machine

theorem Parser.start_sound {parser : Parser} (rests : Machine.Rests parser)
    (noError : parser.httpErrno = .ok) : parser.start.Sound 0 := by
  obtain ⟨demands, bounded, fresh⟩ := rests.2 noError
  refine ⟨noError, demands, bounded, fresh, ?_⟩
  intro field other
  have different : parser.state.marked ≠ some field := by
    intro same
    apply other
    change parser.state.marking = some field
    generalize parser.state = state at same
    cases state <;> simp [State.marked, State.marking] at same ⊢ <;> exact same
  unfold Parser.start
  cases marked : parser.state.marked with
  | none => cases field <;> rfl
  | some set =>
      simp only [Marks.get_put]
      rw [if_neg]
      · cases field <;> rfl
      · rintro rfl
        exact different marked

/-- A call on a parser that rests does not abort. -/
theorem execute_rests {parser : Parser} (rests : Machine.Rests parser)
    (data : Str) :
    ∃ result, execute parser data = some result ∧
      Machine.Rests result.parser := by
  unfold execute
  split
  · exact ⟨_, rfl, rests⟩
  · rename_i noError
    split
    · split
      · exact ⟨_, rfl, rests⟩
      · exact ⟨_, rfl, { rests.1 with }, nofun⟩
    · obtain ⟨status, ended, holds⟩ := Machine.loop_sound
        (Parser.start_sound rests (not_not.mp noError)) data
      rw [ended]
      cases status with
      | left machine => exact ⟨_, rfl, holds⟩
      | reading machine =>
          obtain ⟨last, flushed, same⟩ := Machine.Sound.flush holds
          refine ⟨last.result, ?_, ?_⟩
          · simp only [Option.bind_eq_bind, Option.bind_some, flushed]
          · rw [Machine.result, same]
            exact Machine.Sound.rests holds

theorem init_rests : Machine.Rests .init := by
  have bounded : Parser.init.Bounded := by
    constructor <;> decide
  exact ⟨bounded.fits, fun _ => ⟨trivial, bounded, nofun⟩⟩

/-- The parser behind a call. -/
def call (parser : Parser) (data : Str) : Option Parser :=
  (execute parser data).map Result.parser

/-- Any number of calls with any bytes: none aborts, and every field of the
parser stays within its type. -/
theorem calls_safe (texts : List Str) :
    ∃ final, Lib.exec call .init texts = some final ∧ final.Fits := by
  have runs : ∀ parser, Machine.Rests parser →
      ∃ final, Lib.exec call parser texts = some final ∧ final.Fits := by
    induction texts with
    | nil => exact fun parser rests => ⟨parser, rfl, rests.1⟩
    | cons text texts induction =>
        intro parser rests
        obtain ⟨result, called, next⟩ := execute_rests rests text
        obtain ⟨final, ran, fits⟩ := induction result.parser next
        refine ⟨final, ?_, fits⟩
        rw [Lib.exec_cons_of_some (by rw [call, called]; rfl), ran]
  exact runs .init init_rests

end HttpParser

end ChatRoom
