import ChatRoom.Service.RequestLine

/-!
# How the parser reads a header line

Four field names and their values steer the parser.  It recognizes them byte by
byte: at each byte the rest of the line decides in the same way as the whole
line would.
-/

namespace ChatRoom

namespace HttpParser

open Lib.Scanner (Move Reads Leads)
open Machine (oneByte matchField matchNext pushDigit digit)

/-! ## What a line says -/

/-- What a field name means to the parser. -/
inductive Kind where
  | other
  | connection
  | contentLength
  | transferEncoding
  | upgrade
  deriving DecidableEq

/-- The meaning of a name in lower case. -/
def nameKind (name : Str) : Kind :=
  if name = ascii "connection" ∨ name = ascii "proxy-connection" then .connection
  else if name = ascii "content-length" then .contentLength
  else if name = ascii "transfer-encoding" then .transferEncoding
  else if name = ascii "upgrade" then .upgrade
  else .other

/-- The value is the word in any case, and blanks behind it. -/
def spells : Str → Str → Bool
  | [], value => value.all (· = Byte.space)
  | _ :: _, [] => false
  | letter :: word, byte :: value => lower byte = letter && spells word value

/-- What a value asks for. -/
inductive Wish where
  | nothing
  | chunked
  | keepAlive
  | close
  deriving DecidableEq

/-- The wish in a value of a field of the kind. -/
def wish (kind : Kind) (value : Str) : Wish :=
  match kind with
  | .transferEncoding =>
      if spells (ascii "chunked") value then .chunked else .nothing
  | .connection =>
      if spells (ascii "keep-alive") value then .keepAlive
      else if spells (ascii "close") value then .close
      else .nothing
  | _ => .nothing

def Flags.grant (flags : Flags) : Wish → Flags
  | .nothing => flags
  | .chunked => { flags with chunked := true }
  | .keepAlive => { flags with connectionKeepAlive := true }
  | .close => { flags with connectionClose := true }

/-! ## Names -/

def HeaderState.kind : HeaderState → Kind
  | .connection => .connection
  | .contentLength => .contentLength
  | .transferEncoding => .transferEncoding
  | .upgrade => .upgrade
  | _ => .other

/-- The meaning of a name that is `connection` or `content-length` up to the
index, if the rest of it is this. -/
def eitherName (index : ℕ) (rest : Str) : Kind :=
  if rest = (ascii "connection").drop (index + 1) then .connection
  else if rest = (ascii "content-length").drop (index + 1) then .contentLength
  else .other

/-- The meaning of the name if the rest of it is this. -/
def verdict (state : HeaderState) (index : ℕ) (rest : Str) : Kind :=
  let behind (text : Str) (kind : Kind) :=
    if rest = text.drop (index + 1) then kind else .other
  match state with
  | .C | .CO | .CON => eitherName index rest
  | .matchingConnection => behind (ascii "connection") .connection
  | .matchingProxyConnection => behind (ascii "proxy-connection") .connection
  | .matchingContentLength => behind (ascii "content-length") .contentLength
  | .matchingTransferEncoding =>
      behind (ascii "transfer-encoding") .transferEncoding
  | .matchingUpgrade => behind (ascii "upgrade") .upgrade
  | .connection | .contentLength | .transferEncoding | .upgrade =>
      if rest = [] then state.kind else .other
  | _ => .other

/-- The index in a header state of a name. -/
def HeaderState.Placed (state : HeaderState) (index : ℕ) : Prop :=
  state.ofName = true ∧
    match state with
    | .C => index = 0
    | .CO => index = 1
    | .CON => index = 2
    | state => index ≤ state.limit

/-- A byte that is not the next one of the text ends the match. -/
theorem matchNext_verdict {parser : Parser} {text : Str} {found : HeaderState}
    {kind : Kind} {c : UInt8} (placed : parser.index + 2 ≤ text.length)
    (here : ∀ index rest, verdict parser.headerState index rest =
      if rest = text.drop (index + 1) then kind else .other)
    (there : ∀ index rest, verdict found index rest =
      if rest = [] then kind else .other) (rest : Str) :
    verdict (matchNext parser text found c).headerState
        (matchNext parser text found c).index rest =
      verdict parser.headerState parser.index (c :: rest) := by
  have next : text.drop (parser.index + 1) =
      text[parser.index + 1] :: text.drop (parser.index + 1 + 1) :=
    List.drop_eq_getElem_cons (by omega)
  have expected : (text ++ [Byte.nul])[parser.index + 1]? =
      some text[parser.index + 1] := by
    rw [List.getElem?_append_left (by omega), List.getElem?_eq_getElem]
  rw [here, next]
  unfold matchNext
  simp only [expected]
  by_cases same : text[parser.index + 1] = c
  · have matched : ¬ (text.length < parser.index + 1 ∨
        some text[parser.index + 1] ≠ some c) := by
      rw [same]
      rintro (long | different)
      · omega
      · exact different rfl
    rw [if_neg matched]
    simp only [same, List.cons.injEq, true_and]
    split
    · rename_i last
      rw [there, List.drop_of_length_le (by omega)]
    · rw [here]
  · have unmatched : text.length < parser.index + 1 ∨
        some text[parser.index + 1] ≠ some c :=
      .inr fun equal => same (Option.some.inj equal)
    rw [if_pos unmatched, if_neg]
    · rfl
    · rw [List.cons.injEq]
      exact fun equal => same equal.1.symm

/-- A byte that both names have. -/
theorem eitherName_cons {index : ℕ} {letter c : UInt8}
    (connection : (ascii "connection")[index + 1]? = some letter)
    (contentLength : (ascii "content-length")[index + 1]? = some letter)
    (rest : Str) : eitherName index (c :: rest) =
      if c = letter then eitherName (index + 1) rest else .other := by
  obtain ⟨inside, here⟩ := List.getElem?_eq_some_iff.mp connection
  obtain ⟨within, there⟩ := List.getElem?_eq_some_iff.mp contentLength
  unfold eitherName
  rw [List.drop_eq_getElem_cons inside, List.drop_eq_getElem_cons within, here,
    there]
  by_cases same : c = letter
  · simp [same]
  · simp [same]

theorem eitherName_first (c : UInt8) (rest : Str) :
    eitherName 0 (c :: rest) =
      if c = chr 'o' then eitherName 1 rest else .other :=
  eitherName_cons (by decide) (by decide) rest

theorem eitherName_second (c : UInt8) (rest : Str) :
    eitherName 1 (c :: rest) =
      if c = chr 'n' then eitherName 2 rest else .other :=
  eitherName_cons (by decide) (by decide) rest

/-- The byte in which the two names differ. -/
theorem eitherName_third (c : UInt8) (rest : Str) :
    eitherName 2 (c :: rest) =
      if c = chr 'n' then verdict .matchingConnection 3 rest
      else if c = chr 't' then verdict .matchingContentLength 3 rest
      else .other := by
  unfold eitherName
  rw [List.drop_eq_getElem_cons (show 3 < (ascii "connection").length by decide),
    List.drop_eq_getElem_cons (show 3 < (ascii "content-length").length by decide)]
  have letters : (ascii "connection")[3] = chr 'n' ∧
      (ascii "content-length")[3] = chr 't' := by
    decide
  rw [letters.1, letters.2]
  simp only [List.cons.injEq]
  by_cases isN : c = chr 'n'
  · rw [if_pos isN]
    simp [isN, verdict]
  · rw [if_neg isN, if_neg fun both => isN both.1]
    by_cases isT : c = chr 't'
    · rw [if_pos isT]
      simp only [isT, true_and]
      rfl
    · rw [if_neg isT, if_neg fun both => isT both.1]

/-- Another byte of a name leads to this header state and index. -/
def FieldStep (parser : Parser) (ch c : UInt8) : Prop :=
  ∃ index headerState, matchField parser ch c =
      some { parser with index := index, headerState := headerState } ∧
    headerState.Placed index ∧
    ∀ rest, verdict headerState index rest =
      verdict parser.headerState parser.index (c :: rest)

section
variable {parser : Parser} {ch c : UInt8}

theorem fieldStep_matching {text : Str} {found : HeaderState} {kind : Kind}
    (matches' : matchField parser ch c = some (matchNext parser text found c))
    (long : 2 ≤ text.length) (short : text.length ≤ 17)
    (inside : parser.index ≤ text.length - 2)
    (placed : ∀ index, index ≤ text.length - 2 →
      parser.headerState.Placed index)
    (foundPlaced : ∀ index, index ≤ 17 → found.Placed index)
    (here : ∀ index rest, verdict parser.headerState index rest =
      if rest = text.drop (index + 1) then kind else .other)
    (there : ∀ index rest, verdict found index rest =
      if rest = [] then kind else .other) : FieldStep parser ch c := by
  obtain ⟨headerState, same, outcome⟩ :=
    Machine.matchNext_eq parser c long short inside
  have decides := matchNext_verdict (c := c) (by omega) here there
  rw [same] at decides
  refine ⟨_, headerState, matches'.trans (congrArg some same), ?_, decides⟩
  rcases outcome with ⟨rfl, within⟩ | ⟨rfl, within⟩ | ⟨rfl, within⟩
  · exact ⟨rfl, within⟩
  · exact foundPlaced _ within
  · exact placed _ within

theorem fieldStep_found
    (drops : matchField parser ch c = some (if ch ≠ Byte.space then
      { parser with headerState := .general } else parser))
    (notSpace : ch ≠ Byte.space) (inside : parser.index ≤ 17)
    (decided : ∀ rest, verdict parser.headerState parser.index (c :: rest) =
      .other) : FieldStep parser ch c := by
  rw [if_pos notSpace] at drops
  exact ⟨parser.index, .general, drops, ⟨rfl, inside⟩,
    fun rest => (decided rest).symm⟩

end

/-- Behind another byte of a name its rest decides as before. -/
theorem fieldStep (parser : Parser) {ch : UInt8} (c : UInt8)
    (placed : parser.headerState.Placed parser.index)
    (notSpace : ch ≠ Byte.space) : FieldStep parser ch c := by
  obtain ⟨flags, state, headerState, index, nread, contentLength, httpMajor,
    httpMinor, method, httpErrno, upgrade⟩ := parser
  cases headerState
  case general => exact ⟨_, _, rfl, placed, fun _ => rfl⟩
  case C =>
    obtain rfl : index = 0 := placed.2
    by_cases isO : c = chr 'o'
    · refine ⟨1, .CO, by simp only [matchField, if_pos isO], ⟨rfl, rfl⟩, fun rest => ?_⟩
      exact ((eitherName_first c rest).trans (if_pos isO)).symm
    · refine ⟨1, .general, by simp only [matchField, if_neg isO], ⟨rfl, by decide⟩,
        fun rest => ?_⟩
      exact ((eitherName_first c rest).trans (if_neg isO)).symm
  case CO =>
    obtain rfl : index = 1 := placed.2
    by_cases isN : c = chr 'n'
    · refine ⟨2, .CON, by simp only [matchField, if_pos isN], ⟨rfl, rfl⟩, fun rest => ?_⟩
      exact ((eitherName_second c rest).trans (if_pos isN)).symm
    · refine ⟨2, .general, by simp only [matchField, if_neg isN], ⟨rfl, by decide⟩,
        fun rest => ?_⟩
      exact ((eitherName_second c rest).trans (if_neg isN)).symm
  case CON =>
    obtain rfl : index = 2 := placed.2
    by_cases isN : c = chr 'n'
    · refine ⟨3, .matchingConnection, by simp only [matchField, if_pos isN],
        ⟨rfl, by decide⟩, fun rest => ?_⟩
      exact ((eitherName_third c rest).trans (if_pos isN)).symm
    · by_cases isT : c = chr 't'
      · refine ⟨3, .matchingContentLength, by simp only [matchField, if_neg isN, if_pos isT],
          ⟨rfl, by decide⟩, fun rest => ?_⟩
        exact ((eitherName_third c rest).trans
          ((if_neg isN).trans (if_pos isT))).symm
      · refine ⟨3, .general, by simp only [matchField, if_neg isN, if_neg isT],
          ⟨rfl, by decide⟩, fun rest => ?_⟩
        exact ((eitherName_third c rest).trans
          ((if_neg isN).trans (if_neg isT))).symm
  case matchingConnection | matchingProxyConnection | matchingContentLength |
      matchingTransferEncoding | matchingUpgrade =>
    exact fieldStep_matching rfl (by decide) (by decide) placed.2
      (fun _ within => ⟨rfl, within⟩) (fun _ within => ⟨rfl, within⟩)
      (fun _ _ => rfl) (fun _ _ => rfl)
  case connection | contentLength | transferEncoding | upgrade =>
    exact fieldStep_found rfl notSpace placed.2 fun _ => rfl
  all_goals cases placed.1

/-- The first byte of a name decides which names are left. -/
def firstState (c : UInt8) : HeaderState :=
  if c = chr 'c' then .C
  else if c = chr 'p' then .matchingProxyConnection
  else if c = chr 't' then .matchingTransferEncoding
  else if c = chr 'u' then .matchingUpgrade
  else .general

theorem firstState_placed (c : UInt8) : (firstState c).Placed 0 := by
  unfold firstState
  split_ifs
  · exact ⟨rfl, rfl⟩
  all_goals exact ⟨rfl, Nat.zero_le _⟩

theorem firstState_verdict (c : UInt8) (rest : Str) :
    verdict (firstState c) 0 rest = nameKind (c :: rest) := by
  have begins : ∀ text letter, text.head? = some letter →
      (c :: rest = text ↔ c = letter ∧ rest = text.drop 1) := by
    rintro (_ | ⟨first, text⟩) letter head
    · cases head
    · obtain rfl : first = letter := Option.some.inj head
      exact List.cons.injEq c rest first text ▸ Iff.rfl
  unfold nameKind
  simp only [begins (ascii "connection") (chr 'c') rfl,
    begins (ascii "proxy-connection") (chr 'p') rfl,
    begins (ascii "content-length") (chr 'c') rfl,
    begins (ascii "transfer-encoding") (chr 't') rfl,
    begins (ascii "upgrade") (chr 'u') rfl]
  unfold firstState
  split_ifs
  all_goals simp_all [verdict, eitherName]

/-! ## Reading a name -/

/-- A line of a header begins: the first one, or one behind another. -/
def State.startsLine (state : State) : Prop :=
  state = .headerFieldStart ∨ state = .headerValueLws

/-- What is known of the header state inside a name. -/
def Named (name : Str) (headerState : HeaderState) (index : ℕ) : Prop :=
  headerState.Placed index ∧
    ∀ rest, verdict headerState index rest = nameKind (name.map token ++ rest)

theorem token_blank {byte : UInt8} (isToken : token byte ≠ 0) :
    byte ≠ Byte.cr ∧ byte ≠ Byte.lf ∧ byte ≠ Byte.space ∧ byte ≠ 9 := by
  refine ⟨?_, ?_, ?_, ?_⟩
  all_goals
    rintro rfl
    exact isToken (by decide)

/-- A line begins in the same way wherever it does. -/
theorem dispatch_startsLine {machine : Machine} {ch : UInt8}
    (starts : machine.parser.state.startsLine) (notBlank : ch ≠ Byte.space ∧ ch ≠ 9) :
    machine.dispatch ch [] =
      oneByte ((machine.goto .headerFieldStart).headerFieldStart ch) := by
  obtain ⟨⟨flags, state, headerState, index, nread, contentLength, httpMajor,
    httpMinor, method, httpErrno, upgrade⟩, p, marks, calls⟩ := machine
  rcases starts with here | here
  all_goals
    cases here
    simp only [Machine.dispatch]
  · rfl
  · rw [Machine.headerValueLws, if_neg (by simp [notBlank])]

theorem leads_nameStart {state : State} (info : Info) {byte : UInt8}
    (starts : state.startsLine) (room : info.nread < maxHeaderSize)
    (isToken : token byte ≠ 0) :
    Leads Machine.turn (At state info) [byte]
      (In .headerField (Marks.none.put .headerField (some [byte]))
        (Named [byte]) (info.count 1)) := by
  obtain ⟨noCr, noLf, notBlank⟩ := token_blank isToken
  have header : state.parsingHeader = true := by
    rcases starts with rfl | rfl
    all_goals rfl
  apply leads_header (Marks.none.put .headerField (some [])) rfl header room
  rintro rest -
  refine ⟨{ rest with index := 0, headerState := firstState (token byte) },
    ⟨firstState_placed _, firstState_verdict _⟩, ?_⟩
  rw [dispatch_startsLine (by exact starts) notBlank, Machine.headerFieldStart,
    if_neg noCr, if_neg noLf]
  simp only
  rw [if_neg isToken, Machine.mark_eq]
  rfl

theorem leads_nameByte (info : Info) (name : Str) {byte : UInt8}
    (room : info.nread < maxHeaderSize) (isToken : token byte ≠ 0) :
    Leads Machine.turn
      (In .headerField (Marks.none.put .headerField (some name)) (Named name)
        info) [byte]
      (In .headerField (Marks.none.put .headerField (some (name ++ [byte])))
        (Named (name ++ [byte])) (info.count 1)) := by
  apply leads_header (Marks.none.put .headerField (some name)) rfl rfl room
  rintro rest ⟨placed, decides⟩
  obtain ⟨index, headerState, taken, placedAfter, decided⟩ := fieldStep
    ((info.count 1).machine .headerField .none rest).parser (token byte) placed
    (token_blank isToken).2.2.1
  refine ⟨{ rest with index := index, headerState := headerState },
    ⟨placedAfter, ?_⟩, ?_⟩
  · intro more
    rw [decided, List.map_append, List.append_assoc]
    exact decides _
  · change oneByte (Machine.headerField _ _) = _
    unfold Machine.headerField
    simp only
    rw [if_pos isToken]
    change oneByte ((matchField ((info.count 1).machine .headerField .none
      rest).parser byte (token byte)).bind _) = _
    rw [taken]
    rfl

theorem leads_nameBytes {bytes : Str} (info : Info) (name : Str)
    (room : info.nread + bytes.length ≤ maxHeaderSize)
    (areToken : ∀ byte ∈ bytes, token byte ≠ 0) :
    Leads Machine.turn
      (In .headerField (Marks.none.put .headerField (some name)) (Named name)
        info) bytes
      (In .headerField (Marks.none.put .headerField (some (name ++ bytes)))
        (Named (name ++ bytes)) (info.count bytes.length)) := by
  induction bytes generalizing info name with
  | nil =>
      rw [List.append_nil]
      exact Leads.nil _
  | cons byte bytes induction =>
      rw [List.length_cons] at room ⊢
      rw [List.forall_mem_cons] at areToken
      have first := leads_nameByte info name (by omega) areToken.1
      have later := induction (info.count 1) (name ++ [byte])
        (by simp only [Info.count]; omega) areToken.2
      rw [Info.count_count, List.append_assoc, Nat.add_comm 1] at later
      exact Leads.cons first later

/-- A name that has been read has its meaning. -/
theorem verdict_nil {state : HeaderState} {index : ℕ}
    (placed : state.Placed index) : verdict state index [] = state.kind := by
  have unfinished : ∀ {text : Str} {kind : Kind}, index + 1 < text.length →
      (if [] = text.drop (index + 1) then kind else Kind.other) =
        .other := by
    intro text kind inside
    apply if_neg
    intro finished
    have := List.drop_eq_nil_iff.mp finished.symm
    omega
  cases state
  case C =>
    obtain rfl : index = 0 := placed.2
    rfl
  case CO =>
    obtain rfl : index = 1 := placed.2
    rfl
  case CON =>
    obtain rfl : index = 2 := placed.2
    rfl
  case matchingConnection | matchingProxyConnection | matchingContentLength |
      matchingTransferEncoding | matchingUpgrade =>
    exact unfinished (Nat.lt_of_le_of_lt (Nat.succ_le_succ placed.2) (by decide))
  all_goals rfl

theorem leads_nameEnd (info : Info) (name : Str)
    (room : info.nread < maxHeaderSize) :
    Leads Machine.turn
      (In .headerField (Marks.none.put .headerField (some name)) (Named name)
        info) [chr ':']
      (In .headerValueStart .none
        (fun headerState _ => headerState.kind = nameKind (name.map token))
        ((info.count 1).call (.data .headerField name))) := by
  apply leads_header .none rfl rfl room
  rintro rest ⟨placed, decides⟩
  refine ⟨rest, ?_, ?_⟩
  · have decided := decides []
    rw [verdict_nil placed, List.append_nil] at decided
    exact decided
  · change oneByte (Machine.headerField _ _) = _
    unfold Machine.headerField
    simp only
    rw [if_neg (by decide), if_pos trivial, Machine.callbackData_of rfl rfl,
      List.append_nil]
    rfl

/-! ## Reading a value -/

theorem leads_blanks {blanks : Str} (known : HeaderState → ℕ → Prop)
    (info : Info) (room : info.nread + blanks.length ≤ maxHeaderSize)
    (areBlank : ∀ byte ∈ blanks, byte = Byte.space ∨ byte = 9) :
    Leads Machine.turn (In .headerValueStart .none known info) blanks
      (In .headerValueStart .none known (info.count blanks.length)) := by
  induction blanks generalizing info with
  | nil => exact Leads.nil _
  | cons byte blanks induction =>
      rw [List.length_cons] at room ⊢
      rw [List.forall_mem_cons] at areBlank
      have first : Leads Machine.turn (In .headerValueStart .none known info)
          [byte] (In .headerValueStart .none known (info.count 1)) := by
        apply leads_header .none rfl rfl (by omega)
        intro rest holds
        refine ⟨rest, holds, ?_⟩
        change oneByte (Machine.headerValueStart _ _) = _
        unfold Machine.headerValueStart
        rw [if_pos areBlank.1]
        rfl
      have later := induction (info.count 1) (by simp only [Info.count]; omega)
        areBlank.2
      rw [Info.count_count, Nat.add_comm 1] at later
      exact Leads.cons first later

/-- The wish of a value that has been read. -/
def HeaderState.wish : HeaderState → Wish
  | .transferEncodingChunked => .chunked
  | .connectionKeepAlive => .keepAlive
  | .connectionClose => .close
  | _ => .nothing

/-- What is known of the header state behind a value. -/
def Wishes (wish : Wish) (headerState : HeaderState) (_ : ℕ) : Prop :=
  headerState.wish = wish

theorem leads_lineFeed (info : Info) (wish : Wish)
    (room : info.nread < maxHeaderSize) :
    Leads Machine.turn (In .headerAlmostDone .none (Wishes wish) info)
      [Byte.lf] (At .headerValueLws
        { info.count 1 with flags := info.flags.grant wish }) := by
  apply leads_header .none rfl rfl room
  rintro ⟨headerState, index, p, upgrade⟩ rfl
  refine ⟨⟨headerState, index, p, upgrade⟩, trivial, ?_⟩
  cases headerState
  all_goals rfl

theorem leads_emptyValue {known : HeaderState → ℕ → Prop} (info : Info)
    (room : info.nread < maxHeaderSize) :
    Leads Machine.turn (In .headerValueStart .none known info) [Byte.cr]
      (In .headerAlmostDone .none (Wishes .nothing)
        ((info.count 1).call (.data .headerValue []))) := by
  apply leads_header .none rfl rfl room
  intro rest _
  refine ⟨{ rest with headerState := .general, index := 0 }, rfl, ?_⟩
  change oneByte (Machine.headerValueStart _ _) = _
  unfold Machine.headerValueStart
  rw [if_neg (by decide), Machine.mark_eq]
  simp only
  rw [if_pos trivial, Machine.callbackData_of rfl rfl]
  rfl

theorem leads_valueEnd (known : HeaderState → ℕ → Prop) (info : Info)
    (value : Str) (wish : Wish) (room : info.nread < maxHeaderSize)
    (wishes : ∀ headerState index, known headerState index →
      headerState.wish = wish) :
    Leads Machine.turn
      (In .headerValue (Marks.none.put .headerValue (some value)) known info)
      [Byte.cr] (In .headerAlmostDone .none (Wishes wish)
        ((info.count 1).call (.data .headerValue value))) := by
  apply leads_header .none rfl rfl room
  intro rest holds
  refine ⟨rest, wishes _ _ holds, ?_⟩
  change oneByte (Machine.headerValue _ _) = _
  unfold Machine.headerValue
  rw [if_pos rfl, Machine.callbackData_of rfl rfl, List.append_nil]
  rfl

/-- The wish in the value if the rest of it is this. -/
def outlook (state : HeaderState) (index : ℕ) (rest : Str) : Wish :=
  let behind (text : Str) (wish : Wish) :=
    if spells (text.drop (index + 1)) rest then wish else .nothing
  match state with
  | .matchingTransferEncodingChunked => behind (ascii "chunked") .chunked
  | .matchingConnectionKeepAlive => behind (ascii "keep-alive") .keepAlive
  | .matchingConnectionClose => behind (ascii "close") .close
  | .transferEncodingChunked | .connectionKeepAlive | .connectionClose =>
      if spells [] rest then state.wish else .nothing
  | _ => .nothing

/-- The header states inside a value that is no length, with their index. -/
def HeaderState.InValue (state : HeaderState) (index : ℕ) : Prop :=
  match state with
  | .general | .transferEncodingChunked | .connectionKeepAlive |
    .connectionClose => True
  | .matchingTransferEncodingChunked | .matchingConnectionKeepAlive |
    .matchingConnectionClose => index ≤ state.limit
  | _ => False

/-- What is known of the header state inside a value that is no length. -/
def Valued (kind : Kind) (value : Str) (headerState : HeaderState)
    (index : ℕ) : Prop :=
  headerState.InValue index ∧
    ∀ rest, outlook headerState index rest = wish kind (value ++ rest)

/-- Another byte of a value leads to this header state and index. -/
def ValueStep (machine : Machine) (ch : UInt8) : Prop :=
  ∃ index headerState, machine.valueByte ch =
      some (.next (machine.setParser { machine.parser with
        index := index, headerState := headerState })) ∧
    headerState.InValue index ∧
    ∀ rest, outlook headerState index rest =
      outlook machine.parser.headerState machine.parser.index (ch :: rest)

theorem valueStep_matching {machine : Machine} {ch : UInt8} {text : Str}
    {found : HeaderState} {result : Wish}
    (taken : machine.valueByte ch = (machine.setParser
      (matchNext machine.parser text found (lower ch))).pass)
    (inside : machine.parser.index + 2 ≤ text.length)
    (inValue : ∀ index, index + 2 ≤ text.length →
      machine.parser.headerState.InValue index)
    (foundInValue : ∀ index, found.InValue index)
    (here : ∀ index rest, outlook machine.parser.headerState index rest =
      if spells (text.drop (index + 1)) rest then result else .nothing)
    (there : ∀ index rest, outlook found index rest =
      if spells [] rest then result else .nothing) :
    ValueStep machine ch := by
  have next : text.drop (machine.parser.index + 1) =
      text[machine.parser.index + 1] ::
        text.drop (machine.parser.index + 1 + 1) :=
    List.drop_eq_getElem_cons (by omega)
  have expected : (text ++ [Byte.nul])[machine.parser.index + 1]? =
      some text[machine.parser.index + 1] := by
    rw [List.getElem?_append_left (by omega), List.getElem?_eq_getElem]
  by_cases same : text[machine.parser.index + 1] = lower ch
  · have matched : ¬ (text.length < machine.parser.index + 1 ∨
        (text ++ [Byte.nul])[machine.parser.index + 1]? ≠ some (lower ch)) := by
      rw [expected, same]
      rintro (long | different)
      · omega
      · exact different rfl
    unfold matchNext at taken
    simp only [if_neg matched] at taken
    refine ⟨_, _, taken, ?_, ?_⟩
    · split_ifs with last
      · exact foundInValue _
      · exact inValue _ (by omega)
    · intro rest
      rw [here, next]
      simp only [spells, same, decide_true, Bool.true_and]
      by_cases last : machine.parser.index + 1 = text.length - 1
      · rw [if_pos last, there, List.drop_of_length_le (by omega)]
      · rw [if_neg last, here]
  · have unmatched : text.length < machine.parser.index + 1 ∨
        (text ++ [Byte.nul])[machine.parser.index + 1]? ≠ some (lower ch) := by
      rw [expected]
      exact .inr fun equal => same (Option.some.inj equal)
    unfold matchNext at taken
    simp only [if_pos unmatched] at taken
    refine ⟨_, .general, taken, trivial, ?_⟩
    intro rest
    rw [here, next, if_neg]
    · rfl
    · simp [spells, Ne.symm same]

theorem valueStep_found {machine : Machine} {ch : UInt8} {result : Wish}
    (taken : machine.valueByte ch = if ch ≠ Byte.space then
      (machine.setParser { machine.parser with headerState := .general }).pass
      else machine.pass)
    (inValue : machine.parser.headerState.InValue machine.parser.index)
    (here : ∀ rest, outlook machine.parser.headerState machine.parser.index
      rest = if spells [] rest then result else .nothing) :
    ValueStep machine ch := by
  by_cases blank : ch = Byte.space
  · refine ⟨machine.parser.index, machine.parser.headerState, ?_, inValue, ?_⟩
    · rw [taken, if_neg (not_not_intro blank)]
      rfl
    · intro rest
      rw [here, here]
      simp [spells, blank]
  · refine ⟨machine.parser.index, .general, ?_, trivial, ?_⟩
    · rw [taken, if_pos blank]
      rfl
    · intro rest
      rw [here, if_neg]
      · rfl
      · simp [spells, blank]

/-- Behind another byte of a value its rest decides as before. -/
theorem valueStep (machine : Machine) (ch : UInt8)
    (inValue : machine.parser.headerState.InValue machine.parser.index) :
    ValueStep machine ch := by
  obtain ⟨⟨flags, state, headerState, index, nread, contentLength, httpMajor,
    httpMinor, method, httpErrno, upgrade⟩, p, marks, calls⟩ := machine
  cases headerState
  case general =>
    exact ⟨index, .general, rfl, trivial, fun _ => rfl⟩
  case matchingTransferEncodingChunked | matchingConnectionKeepAlive |
      matchingConnectionClose =>
    exact valueStep_matching rfl (Nat.add_le_add_right inValue 2)
      (fun _ within => Nat.le_of_add_le_add_right within)
      (fun _ => trivial) (fun _ _ => rfl) (fun _ _ => rfl)
  case transferEncodingChunked | connectionKeepAlive | connectionClose =>
    exact valueStep_found rfl trivial fun _ => rfl
  all_goals exact inValue.elim

/-- The header state behind the first byte of a value. -/
def valueState (kind : Kind) (c : UInt8) : HeaderState :=
  match kind with
  | .transferEncoding =>
      if c = chr 'c' then .matchingTransferEncodingChunked else .general
  | .connection =>
      if c = chr 'k' then .matchingConnectionKeepAlive
      else if c = chr 'c' then .matchingConnectionClose
      else .general
  | .contentLength => .contentLength
  | _ => .general

theorem valueState_inValue {kind : Kind} (plain : kind ≠ .contentLength)
    (c : UInt8) : (valueState kind c).InValue 0 := by
  cases kind
  case contentLength => exact absurd rfl plain
  case transferEncoding | connection =>
    unfold valueState
    simp only
    split_ifs
    all_goals first | trivial | exact Nat.zero_le _
  all_goals trivial

theorem valueState_outlook (kind : Kind) (byte : UInt8) (rest : Str) :
    outlook (valueState kind (lower byte)) 0 rest =
      wish kind (byte :: rest) := by
  have begins : ∀ text letter, text.head? = some letter →
      (spells text (byte :: rest) = true ↔
        lower byte = letter ∧ spells (text.drop 1) rest = true) := by
    rintro (_ | ⟨first, text⟩) letter head
    · cases head
    · obtain rfl : first = letter := Option.some.inj head
      simp [spells]
  cases kind
  case transferEncoding =>
    simp only [wish, valueState, begins (ascii "chunked") (chr 'c') rfl]
    split_ifs
    all_goals simp_all [outlook]
  case connection =>
    simp only [wish, valueState, begins (ascii "keep-alive") (chr 'k') rfl,
      begins (ascii "close") (chr 'c') rfl]
    split_ifs
    all_goals simp_all [outlook]
  all_goals rfl

/-- The first byte of a value of the kind has been taken. -/
def Info.begin (info : Info) (kind : Kind) (byte : UInt8) : Info :=
  { info.count 1 with
    flags :=
      if kind = .upgrade then { info.flags with upgrade := true }
      else info.flags
    contentLength :=
      if kind = .contentLength then digit byte else info.contentLength }

theorem leads_valueStart (info : Info) (kind : Kind) {byte : UInt8}
    (room : info.nread < maxHeaderSize)
    (notBlank : byte ≠ Byte.space ∧ byte ≠ 9) (noCr : byte ≠ Byte.cr)
    (noLf : byte ≠ Byte.lf)
    (isDigit : kind = .contentLength → Byte.isDigit byte = true) :
    Leads Machine.turn
      (In .headerValueStart .none
        (fun headerState _ => headerState.kind = kind) info) [byte]
      (In .headerValue (Marks.none.put .headerValue (some [byte]))
        (fun headerState index => index = 0 ∧
          headerState = valueState kind (lower byte)) (info.begin kind byte)) := by
  apply leads_header (Marks.none.put .headerValue (some [])) rfl rfl room
  rintro ⟨headerState, index, p, upgrade⟩ rfl
  refine ⟨⟨_, 0, p, upgrade⟩, ⟨rfl, rfl⟩, ?_⟩
  change oneByte (Machine.headerValueStart _ _) = _
  unfold Machine.headerValueStart
  rw [if_neg (by simp [notBlank]), Machine.mark_eq]
  simp only
  rw [if_neg noCr, if_neg noLf]
  cases headerState
  case contentLength =>
    have := isDigit rfl
    simp only [Info.machine, this]
    rfl
  all_goals rfl

theorem leads_valueByte (info : Info) (kind : Kind) (value : Str) {byte : UInt8}
    (room : info.nread < maxHeaderSize) (noCr : byte ≠ Byte.cr)
    (noLf : byte ≠ Byte.lf) :
    Leads Machine.turn
      (In .headerValue (Marks.none.put .headerValue (some value))
        (Valued kind value) info) [byte]
      (In .headerValue (Marks.none.put .headerValue (some (value ++ [byte])))
        (Valued kind (value ++ [byte])) (info.count 1)) := by
  apply leads_header (Marks.none.put .headerValue (some value)) rfl rfl room
  rintro rest ⟨inValue, decides⟩
  obtain ⟨index, headerState, taken, inValueAfter, decided⟩ := valueStep
    ((info.count 1).machine .headerValue
      (Marks.none.put .headerValue (some value)) rest) byte inValue
  refine ⟨{ rest with index := index, headerState := headerState },
    ⟨inValueAfter, ?_⟩, ?_⟩
  · intro more
    rw [decided, List.append_assoc]
    exact decides _
  · change oneByte (Machine.headerValue _ _) = _
    unfold Machine.headerValue
    rw [if_neg noCr, if_neg noLf, taken]
    rfl

theorem leads_valueBytes {bytes : Str} (info : Info) (kind : Kind) (value : Str)
    (room : info.nread + bytes.length ≤ maxHeaderSize)
    (oneLine : ∀ byte ∈ bytes, byte ≠ Byte.cr ∧ byte ≠ Byte.lf) :
    Leads Machine.turn
      (In .headerValue (Marks.none.put .headerValue (some value))
        (Valued kind value) info) bytes
      (In .headerValue (Marks.none.put .headerValue (some (value ++ bytes)))
        (Valued kind (value ++ bytes)) (info.count bytes.length)) := by
  induction bytes generalizing info value with
  | nil =>
      rw [List.append_nil]
      exact Leads.nil _
  | cons byte bytes induction =>
      rw [List.length_cons] at room ⊢
      rw [List.forall_mem_cons] at oneLine
      have first := leads_valueByte info kind value (by omega) oneLine.1.1
        oneLine.1.2
      have later := induction (info.count 1) (value ++ [byte])
        (by simp only [Info.count]; omega) oneLine.2
      rw [Info.count_count, List.append_assoc, Nat.add_comm 1] at later
      exact Leads.cons first later

/-- A value that has been read has its wish. -/
theorem outlook_nil {state : HeaderState} {index : ℕ}
    (inValue : state.InValue index) : outlook state index [] = state.wish := by
  have unfinished : ∀ {text : Str} {wish : Wish}, index + 1 < text.length →
      (if spells (text.drop (index + 1)) [] then wish else Wish.nothing) =
        .nothing := by
    intro text wish inside
    rw [List.drop_eq_getElem_cons inside]
    rfl
  cases state
  case matchingTransferEncodingChunked | matchingConnectionKeepAlive |
      matchingConnectionClose =>
    exact unfinished (Nat.lt_of_le_of_lt (Nat.succ_le_succ inValue) (by decide))
  all_goals rfl

/-- The value of a field that is no length, and the carriage return. -/
theorem leads_plainValue (info : Info) {kind : Kind} (byte : UInt8)
    (bytes : Str) (plain : kind ≠ .contentLength)
    (room : info.nread + bytes.length + 2 ≤ maxHeaderSize)
    (notBlank : byte ≠ Byte.space ∧ byte ≠ 9)
    (oneLine : ∀ other ∈ byte :: bytes, other ≠ Byte.cr ∧ other ≠ Byte.lf) :
    Leads Machine.turn
      (In .headerValueStart .none
        (fun headerState _ => headerState.kind = kind) info)
      (byte :: bytes ++ [Byte.cr])
      (In .headerAlmostDone .none (Wishes (wish kind (byte :: bytes)))
        (((info.begin kind byte).count (bytes.length + 1)).call
          (.data .headerValue (byte :: bytes)))) := by
  rw [List.forall_mem_cons] at oneLine
  have first := (leads_valueStart info kind (by omega) notBlank oneLine.1.1
    oneLine.1.2 (fun isLength => absurd isLength plain)).mono
    fun machine ⟨rest, known, isIn⟩ =>
      show In .headerValue (Marks.none.put .headerValue (some [byte]))
        (Valued kind [byte]) (info.begin kind byte) machine from
      ⟨rest, by
        rw [known.1, known.2]
        exact ⟨valueState_inValue plain _, valueState_outlook kind byte⟩, isIn⟩
  have others := leads_valueBytes (info.begin kind byte) kind [byte]
    (show info.nread + 1 + bytes.length ≤ maxHeaderSize by omega) oneLine.2
  have last := leads_valueEnd (Valued kind (byte :: bytes))
    ((info.begin kind byte).count bytes.length) (byte :: bytes)
    (wish kind (byte :: bytes))
    (show info.nread + 1 + bytes.length < maxHeaderSize by omega)
    fun headerState index valued => by
      have decided := valued.2 []
      rw [outlook_nil valued.1, List.append_nil] at decided
      exact decided
  rw [Info.count_count] at last
  exact (Leads.cons first others).append last

/-! ## Reading a length -/

theorem digitsValue_concat (digits : Str) (byte : UInt8) :
    digitsValue (digits ++ [byte]) = digitsValue digits * 10 + digit byte := by
  rw [digitsValue, List.foldl_append, Nat.mul_comm]
  rfl

theorem digitsValue_le (digits more : Str) :
    digitsValue digits ≤ digitsValue (digits ++ more) := by
  induction more generalizing digits with
  | nil => rw [List.append_nil]
  | cons byte more induction =>
      have longer := induction (digits ++ [byte])
      rw [digitsValue_concat, List.append_assoc] at longer
      exact Nat.le_trans (by omega) longer

theorem pushDigit_exact {base value digit : ℕ}
    (small : value * base + digit < ullongMax) (positive : 1 ≤ base) :
    pushDigit base value digit = some (value * base + digit) := by
  unfold ullongMax at small
  have grows := Nat.le_mul_of_pos_right value positive
  unfold pushDigit
  rw [Nat.mod_eq_of_lt (show value * base < 2 ^ 64 by omega),
    Nat.mod_eq_of_lt (show value * base + digit < 2 ^ 64 by omega)]
  simp only
  rw [if_neg]
  rintro (overflow | marker)
  · omega
  · unfold ullongMax at marker
    omega

/-- Inside a length, of which these digits have been read. -/
def InLength (digits : Str) (info : Info) : Machine → Prop :=
  In .headerValue (Marks.none.put .headerValue (some digits))
    (fun headerState _ => headerState = .contentLength)
    { info with contentLength := digitsValue digits }

theorem leads_lengthByte (info : Info) (digits : Str) {byte : UInt8}
    (room : info.nread < maxHeaderSize) (isDigit : Byte.isDigit byte = true)
    (small : digitsValue (digits ++ [byte]) < ullongMax) :
    Leads Machine.turn (InLength digits info) [byte]
      (InLength (digits ++ [byte]) (info.count 1)) := by
  have notBlank : byte ≠ Byte.space ∧ byte ≠ Byte.cr ∧ byte ≠ Byte.lf := by
    refine ⟨?_, ?_, ?_⟩
    all_goals
      rintro rfl
      cases isDigit
  rw [digitsValue_concat] at small
  have pushed := pushDigit_exact small (by decide)
  unfold InLength
  apply leads_header (Marks.none.put .headerValue (some digits)) rfl rfl
    (by exact room)
  rintro ⟨headerState, index, p, upgrade⟩ rfl
  refine ⟨⟨.contentLength, index, p, upgrade⟩, rfl, ?_⟩
  change oneByte (Machine.headerValue _ _) = _
  unfold Machine.headerValue Machine.valueByte
  rw [if_neg notBlank.2.1, if_neg notBlank.2.2]
  simp only [Info.machine, Info.count]
  rw [if_neg notBlank.1, isDigit, digitsValue_concat, pushed]
  rfl

theorem leads_lengthBytes {bytes : Str} (info : Info) (digits : Str)
    (room : info.nread + bytes.length ≤ maxHeaderSize)
    (areDigits : ∀ byte ∈ bytes, Byte.isDigit byte = true)
    (small : digitsValue (digits ++ bytes) < ullongMax) :
    Leads Machine.turn (InLength digits info) bytes
      (InLength (digits ++ bytes) (info.count bytes.length)) := by
  induction bytes generalizing info digits with
  | nil =>
      rw [List.append_nil]
      exact Leads.nil _
  | cons byte bytes induction =>
      rw [List.length_cons] at room ⊢
      rw [List.forall_mem_cons] at areDigits
      have whole : digits ++ byte :: bytes = digits ++ [byte] ++ bytes := by
        rw [List.append_assoc]
        rfl
      rw [whole] at small ⊢
      have first := leads_lengthByte info digits (by omega) areDigits.1
        (Nat.lt_of_le_of_lt (digitsValue_le _ bytes) small)
      have later := induction (info.count 1) (digits ++ [byte])
        (by simp only [Info.count]; omega) areDigits.2 small
      rw [Info.count_count, Nat.add_comm 1] at later
      exact Leads.cons first later

/-- The value of a length, and the carriage return. -/
theorem leads_lengthValue (info : Info) {byte : UInt8} {bytes : Str}
    (room : info.nread + bytes.length + 2 ≤ maxHeaderSize)
    (areDigits : ∀ other ∈ byte :: bytes, Byte.isDigit other = true)
    (small : digitsValue (byte :: bytes) < ullongMax) :
    Leads Machine.turn
      (In .headerValueStart .none
        (fun headerState _ => headerState.kind = .contentLength) info)
      (byte :: bytes ++ [Byte.cr])
      (In .headerAlmostDone .none (Wishes .nothing)
        ({ info.count (bytes.length + 2) with
            contentLength := digitsValue (byte :: bytes) }.call
          (.data .headerValue (byte :: bytes)))) := by
  rw [List.forall_mem_cons] at areDigits
  have notBlank : byte ≠ Byte.space ∧ byte ≠ 9 ∧ byte ≠ Byte.cr ∧
      byte ≠ Byte.lf := by
    refine ⟨?_, ?_, ?_, ?_⟩
    all_goals
      rintro rfl
      cases areDigits.1
  have value : digitsValue [byte] = digit byte := by
    simp [digitsValue, digit]
  have first := (leads_valueStart info .contentLength (by omega)
    ⟨notBlank.1, notBlank.2.1⟩ notBlank.2.2.1 notBlank.2.2.2
    fun _ => areDigits.1).mono fun machine ⟨rest, known, isIn⟩ =>
      show InLength [byte] (info.count 1) machine from
        ⟨rest, known.2, by rw [isIn, value]; rfl⟩
  have others := leads_lengthBytes (info.count 1) [byte]
    (show info.nread + 1 + bytes.length ≤ maxHeaderSize by omega) areDigits.2
    small
  have last := leads_valueEnd
    (fun headerState _ => headerState = .contentLength)
    { (info.count 1).count bytes.length with
      contentLength := digitsValue (byte :: bytes) } (byte :: bytes) .nothing
    (show info.nread + 1 + bytes.length < maxHeaderSize by omega)
    (by rintro _ _ rfl; rfl)
  have counted : info.nread + 1 + bytes.length + 1 =
      info.nread + (bytes.length + 2) := by
    omega
  simp only [Info.count, counted] at last others first ⊢
  exact (Leads.cons first others).append last

/-! ## Lines -/

/-- A line of a header: a field, blanks and a value that does not begin with
one.  A length is a number below the marker for no length. -/
structure HeaderLine where
  name : Str
  blanks : Str
  value : Str
  named : name ≠ []
  areToken : ∀ byte ∈ name, token byte ≠ 0
  areBlank : ∀ byte ∈ blanks, byte = Byte.space ∨ byte = 9
  begins : ∀ byte, value.head? = some byte → byte ≠ Byte.space ∧ byte ≠ 9
  oneLine : ∀ byte ∈ value, byte ≠ Byte.cr ∧ byte ≠ Byte.lf
  counts : nameKind (name.map token) = .contentLength →
    ∃ length, parseDecimal value = some length ∧ length < ullongMax

namespace HeaderLine

def kind (line : HeaderLine) : Kind := nameKind (line.name.map token)

def text (line : HeaderLine) : Str :=
  line.name ++ [chr ':'] ++ line.blanks ++ (line.value ++ [Byte.cr]) ++
    [Byte.lf]

end HeaderLine

/-- What a line changes. -/
def Info.field (info : Info) (line : HeaderLine) : Info :=
  { info with
    flags := Flags.grant
      (if line.kind = .upgrade ∧ line.value ≠ [] then
        { info.flags with upgrade := true } else info.flags)
      (wish line.kind line.value)
    contentLength :=
      if line.kind = .contentLength then digitsValue line.value
      else info.contentLength
    nread := info.nread + line.text.length
    calls := info.calls ++
      [.data .headerField line.name, .data .headerValue line.value] }

theorem leads_name {state : State} (info : Info) (line : HeaderLine)
    (starts : state.startsLine)
    (room : info.nread + line.name.length < maxHeaderSize) :
    Leads Machine.turn (At state info) (line.name ++ [chr ':'])
      (In .headerValueStart .none
        (fun headerState _ => headerState.kind = line.kind)
        ((info.count (line.name.length + 1)).call
          (.data .headerField line.name))) := by
  obtain ⟨first, others, name⟩ := List.exists_cons_of_ne_nil line.named
  have areToken := line.areToken
  rw [HeaderLine.kind]
  rw [name] at room areToken ⊢
  rw [List.forall_mem_cons] at areToken
  rw [List.length_cons] at room ⊢
  have start := leads_nameStart info starts (by omega) areToken.1
  have rest := leads_nameBytes (info.count 1) [first]
    (show info.nread + 1 + others.length ≤ maxHeaderSize by omega) areToken.2
  have colon := leads_nameEnd ((info.count 1).count others.length)
    (first :: others)
    (show info.nread + 1 + others.length < maxHeaderSize by omega)
  have counted : info.nread + 1 + others.length + 1 =
      info.nread + (others.length + 1 + 1) := by
    omega
  simp only [Info.count, counted] at start rest colon ⊢
  exact (Leads.cons start rest).append colon

/-- What a line leaves behind its carriage return. -/
theorem leads_value (info : Info) (line : HeaderLine)
    (room : info.nread + line.value.length < maxHeaderSize) :
    Leads Machine.turn
      (In .headerValueStart .none
        (fun headerState _ => headerState.kind = line.kind) info)
      (line.value ++ [Byte.cr])
      (In .headerAlmostDone .none (Wishes (wish line.kind line.value))
        ({ info.count (line.value.length + 1) with
            flags :=
              if line.kind = .upgrade ∧ line.value ≠ [] then
                { info.flags with upgrade := true }
              else info.flags
            contentLength :=
              if line.kind = .contentLength then digitsValue line.value
              else info.contentLength : Info }.call
          (.data .headerValue line.value))) := by
  have begins := line.begins
  have oneLine := line.oneLine
  have counts := line.counts
  rw [← HeaderLine.kind] at counts
  generalize line.kind = kind at counts ⊢
  generalize line.value = value at *
  cases value with
  | nil =>
      have plain : kind ≠ .contentLength := by
        intro isLength
        obtain ⟨length, parsed, -⟩ := counts isLength
        cases parsed
      have wishless : wish kind [] = .nothing := by
        cases kind
        all_goals rfl
      rw [wishless, if_neg fun both => both.2 rfl, if_neg plain]
      exact leads_emptyValue info room
  | cons byte bytes =>
      rw [List.length_cons] at room ⊢
      by_cases isLength : kind = .contentLength
      · subst isLength
        obtain ⟨length, parsed, small⟩ := counts rfl
        unfold parseDecimal at parsed
        split at parsed
        · rename_i digits
          cases parsed
          exact leads_lengthValue info (by omega)
            (List.all_eq_true.mp digits.2) small
        · cases parsed
      · have led := leads_plainValue info byte bytes isLength (by omega)
          (begins byte rfl) oneLine
        have counted : info.nread + 1 + (bytes.length + 1) =
            info.nread + (bytes.length + 1 + 1) := by
          omega
        simp only [Info.begin, Info.count, if_neg isLength, counted] at led ⊢
        simpa using led

theorem leads_line {state : State} (info : Info) (line : HeaderLine)
    (starts : state.startsLine)
    (room : info.nread + line.text.length ≤ maxHeaderSize) :
    Leads Machine.turn (At state info) line.text
      (At .headerValueLws (info.field line)) := by
  have length : line.text.length =
      line.name.length + line.blanks.length + line.value.length + 3 := by
    simp only [HeaderLine.text, List.length_append, List.length_singleton]
    omega
  have name := leads_name info line starts (by omega)
  have blanks := leads_blanks
    (fun headerState _ => headerState.kind = line.kind)
    ((info.count (line.name.length + 1)).call (.data .headerField line.name))
    (show info.nread + (line.name.length + 1) + line.blanks.length ≤
      maxHeaderSize by omega) line.areBlank
  have value := leads_value
    (((info.count (line.name.length + 1)).call
      (.data .headerField line.name)).count line.blanks.length) line
    (show info.nread + (line.name.length + 1) + line.blanks.length +
      line.value.length < maxHeaderSize by omega)
  have whole := ((name.append blanks).append value).append
    (leads_lineFeed _ (wish line.kind line.value)
      (show info.nread + (line.name.length + 1) + line.blanks.length +
        (line.value.length + 1) < maxHeaderSize by omega))
  have counted : info.nread + (line.name.length + 1) + line.blanks.length +
      (line.value.length + 1) + 1 = info.nread + line.text.length := by
    omega
  apply whole.mono
  rintro machine ⟨rest, -, isIn⟩
  refine ⟨rest, trivial, isIn.trans ?_⟩
  simp only [Info.machine, Info.field, Info.call, Info.count, counted,
    List.append_assoc]
  rfl

end HttpParser

end ChatRoom
