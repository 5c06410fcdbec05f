import ChatRoom.Service.ParserBytes

/-!
# How the parser reads a request line

The parser finds the method by its first byte and changes its mind at the byte
that differs; it takes the URL up to the next blank, and the version digit by
digit.
-/

namespace ChatRoom

namespace HttpParser

open Lib.Scanner (Move Reads Leads)
open Machine (switchMethod firstMethod oneByte)

/-! ## Between two parts of a message -/

/-- What a parser knows between two parts of a message. -/
structure Info where
  flags : Flags
  contentLength : ℕ
  httpMajor : ℕ
  httpMinor : ℕ
  method : Method
  nread : ℕ
  calls : List Call

/-- The fields of a parser that the next part of a message does not read. -/
structure Rest where
  headerState : HeaderState
  index : ℕ
  p : ℕ
  upgrade : Bool

def Info.machine (info : Info) (state : State) (marks : Marks) (rest : Rest) :
    Machine where
  parser :=
    { flags := info.flags
      state := state
      headerState := rest.headerState
      index := rest.index
      nread := info.nread
      contentLength := info.contentLength
      httpMajor := info.httpMajor
      httpMinor := info.httpMinor
      method := info.method
      httpErrno := .ok
      upgrade := rest.upgrade }
  p := rest.p
  marks := marks
  calls := info.calls

/-- The parser is in the state with these marks, and of its header state and
index this is known. -/
def In (state : State) (marks : Marks) (known : HeaderState → ℕ → Prop)
    (info : Info) (machine : Machine) : Prop :=
  ∃ rest, known rest.headerState rest.index ∧
    machine = info.machine state marks rest

/-- The parser is in the state, and no mark is set. -/
def At (state : State) : Info → Machine → Prop :=
  In state .none fun _ _ => True

/-- Bytes of a header are counted. -/
def Info.count (info : Info) (length : ℕ) : Info :=
  { info with nread := info.nread + length }

def Info.call (info : Info) (call : Call) : Info :=
  { info with calls := info.calls ++ [call] }

theorem Info.count_count (info : Info) (first second : ℕ) :
    (info.count first).count second = info.count (first + second) := by
  simp [Info.count, Nat.add_assoc]

/-- A header byte that its case takes. -/
theorem leads_header {state next : State} {marks final : Marks}
    {known knownAfter : HeaderState → ℕ → Prop} {info behind : Info} {ch : UInt8}
    (after : Marks) (moved : after.advance [ch] = final)
    (header : state.parsingHeader) (room : info.nread < maxHeaderSize)
    (taken : ∀ rest, known rest.headerState rest.index →
      ∃ restAfter, knownAfter restAfter.headerState restAfter.index ∧
        ((info.count 1).machine state marks rest).dispatch ch [] =
          some (.next (behind.machine next after restAfter), 0)) :
    Leads Machine.turn (In state marks known info) [ch]
      (In next final knownAfter behind) := by
  subst moved
  rintro machine ⟨rest, holds, rfl⟩
  obtain ⟨restAfter, holdsAfter, dispatched⟩ := taken rest holds
  have counted : (info.machine state marks rest).counted =
      (info.count 1).machine state marks rest := by
    rw [Machine.counted, if_pos (by exact header)]
    rfl
  have inside : ¬ (state.parsingHeader ∧ maxHeaderSize < info.nread + 1) :=
    fun beyond => Nat.not_lt.mpr room beyond.2
  have goes : (info.machine state marks rest).turn ch [] = some
      (.go ((behind.machine next after restAfter).advance [ch]) 0) := by
    rw [Machine.turn, counted, if_neg (by exact inside), dispatched]
    rfl
  exact ⟨_, Reads.cons goes (Reads.nil _),
    { restAfter with p := restAfter.p + 1 }, holdsAfter, rfl⟩

/-- Header bytes that only lead from state to state. -/
inductive Route : State → Str → State → Prop where
  | nil (state : State) : Route state [] state
  | cons {state final : State} {ch : UInt8} {text : Str} (next : State)
      (header : state.parsingHeader = true)
      (taken : ∀ machine : Machine, machine.parser.state = state →
        machine.dispatch ch [] = some (.next (machine.goto next), 0))
      (rest : Route next text final) : Route state (ch :: text) final

theorem leads_route {state final : State} {text : Str}
    (route : Route state text final) (info : Info)
    (room : info.nread + text.length ≤ maxHeaderSize) :
    Leads Machine.turn (At state info) text
      (At final (info.count text.length)) := by
  induction route generalizing info with
  | nil state => exact Leads.nil _
  | @cons state final ch text next header taken rest induction =>
      rw [List.length_cons] at room ⊢
      have first : Leads Machine.turn (At state info) [ch]
          (At next (info.count 1)) := by
        apply leads_header .none rfl header (by omega)
        rintro rest -
        exact ⟨rest, trivial, taken _ rfl⟩
      have later := induction (info.count 1) (by simp only [Info.count]; omega)
      rw [Info.count_count, Nat.add_comm 1] at later
      exact Leads.cons first later

/-! ## The method -/

/-- The method and the index behind a byte of a method. -/
def methodStep (reached : Method × ℕ) (ch : UInt8) : Option (Method × ℕ) :=
  if ch = Byte.nul then none
  else if reached.1.text[reached.2]? = some ch then
    some (reached.1, reached.2 + 1)
  else (switchMethod reached.1 reached.2 ch).map (·, reached.2 + 1)

/-- The first byte of a method and the others lead to it. -/
theorem Method.path (method : Method) (parsed : method ≠ .msearch) :
    ∃ first others start, method.text = first :: others ∧
      isAlpha first = true ∧ firstMethod first = some start ∧
      first ≠ Byte.cr ∧ first ≠ Byte.lf ∧
      others.foldlM methodStep (start, 1) =
        some (method, method.text.length) := by
  cases method
  case msearch => exact absurd rfl parsed
  all_goals exact ⟨_, _, _, rfl, by decide, rfl, by decide, by decide, by decide⟩

theorem leads_firstByte (info : Info) {first : UInt8} {start : Method}
    (room : info.nread < maxHeaderSize) (alpha : isAlpha first = true)
    (leadsTo : firstMethod first = some start) (noCr : first ≠ Byte.cr)
    (noLf : first ≠ Byte.lf) :
    Leads Machine.turn (At .startReq info) [first]
      (In .reqMethod .none (fun _ index => index = 1)
        { info.count 1 with
          flags := .none, contentLength := ullongMax, method := start }) := by
  apply leads_header .none rfl rfl room
  intro rest _
  refine ⟨{ rest with index := 1 }, rfl, ?_⟩
  simp [Machine.dispatch, Info.machine, Machine.startReq, noCr, noLf, alpha, leadsTo, guard, oneByte, Machine.pass, Info.count]

theorem switchMethod_space (method : Method) (index : ℕ) :
    switchMethod method index Byte.space = none := by
  unfold switchMethod
  split_ifs <;> simp_all

/-- The byte that `s_req_method` compares with. -/
theorem expected_byte {method : Method} {index : ℕ}
    (inside : index ≤ method.text.length) :
    ∃ expected, (method.text ++ [Byte.nul])[index]? = some expected ∧
      ∀ ch, ch ≠ Byte.nul →
        (method.text[index]? = some ch ↔ ch = expected) := by
  rcases Nat.lt_or_eq_of_le inside with within | rfl
  · refine ⟨method.text[index], ?_, ?_⟩
    · rw [List.getElem?_append_left within, List.getElem?_eq_getElem within]
    · intro ch _
      rw [List.getElem?_eq_getElem within, Option.some.injEq, eq_comm]
  · refine ⟨Byte.nul, by simp, ?_⟩
    intro ch notNul
    simp [notNul]

theorem reqMethod_step (machine : Machine) {method : Method} {ch : UInt8}
    {index : ℕ} (inside : machine.parser.index ≤
      machine.parser.method.text.length)
    (taken : methodStep (machine.parser.method, machine.parser.index) ch =
      some (method, index)) :
    machine.reqMethod ch = some (.next { machine with
      parser := { machine.parser with method := method, index := index } }) := by
  obtain ⟨expected, found, same⟩ := expected_byte inside
  unfold methodStep at taken
  simp only at taken
  split at taken
  · cases taken
  · rename_i notNul
    unfold Machine.reqMethod
    rw [if_neg notNul]
    simp only [found, Option.bind_eq_bind, Option.bind_some]
    split at taken
    · rename_i matched
      have isExpected := (same ch notNul).mp matched
      rw [if_neg fun atEnd => notNul (isExpected.trans atEnd.2),
        if_pos isExpected]
      cases taken
      rfl
    · rename_i differs
      rw [if_neg, if_neg fun isExpected =>
        differs ((same ch notNul).mpr isExpected)]
      · cases switched : switchMethod machine.parser.method
            machine.parser.index ch with
        | none =>
            rw [switched] at taken
            cases taken
        | some other =>
            rw [switched] at taken
            cases taken
            rfl
      · rintro ⟨rfl, -⟩
        rw [switchMethod_space] at taken
        cases taken

theorem leads_methodByte {info : Info} {index next : ℕ} {ch : UInt8}
    {method : Method} (room : info.nread < maxHeaderSize)
    (inside : index ≤ info.method.text.length)
    (taken : methodStep (info.method, index) ch = some (method, next)) :
    Leads Machine.turn
      (In .reqMethod .none (fun _ reached => reached = index) info) [ch]
      (In .reqMethod .none (fun _ reached => reached = next)
        { info.count 1 with method := method }) := by
  apply leads_header .none rfl rfl room
  rintro rest rfl
  refine ⟨{ rest with index := next }, rfl, ?_⟩
  have step := reqMethod_step
    ((info.count 1).machine .reqMethod .none rest) inside taken
  simp only [Machine.dispatch, Info.machine, oneByte] at step ⊢
  rw [step]
  rfl

/-- The index stays within the text of the method. -/
theorem methodStep_inside {method next : Method} {index reached : ℕ}
    {ch : UInt8} (taken : methodStep (method, index) ch = some (next, reached)) :
    reached = index + 1 ∧ reached ≤ next.text.length := by
  unfold methodStep at taken
  simp only at taken
  split_ifs at taken with isNul matched
  · cases taken
    exact ⟨rfl, (List.getElem?_eq_some_iff.mp matched).1⟩
  · obtain ⟨other, switched, same⟩ := Option.map_eq_some_iff.mp taken
    cases same
    exact ⟨rfl, Machine.switchMethod_length switched⟩

theorem leads_methodBytes {bytes : Str} (info : Info) {index reached : ℕ}
    {method : Method} (room : info.nread + bytes.length ≤ maxHeaderSize)
    (inside : index ≤ info.method.text.length)
    (taken : bytes.foldlM methodStep (info.method, index) =
      some (method, reached)) :
    Leads Machine.turn
      (In .reqMethod .none (fun _ other => other = index) info) bytes
      (In .reqMethod .none (fun _ other => other = reached)
        { info.count bytes.length with method := method }) := by
  induction bytes generalizing info index with
  | nil =>
      cases taken
      exact Leads.nil _
  | cons ch bytes induction =>
      rw [List.foldlM_cons] at taken
      cases step : methodStep (info.method, index) ch with
      | none =>
          rw [step] at taken
          cases taken
      | some next =>
          rw [step] at taken
          obtain ⟨other, after⟩ := next
          rw [List.length_cons] at room
          have first := leads_methodByte (by omega) inside step
          have later := induction { info.count 1 with method := other }
            (by simp only [Info.count]; omega) (methodStep_inside step).2 taken
          have counted : info.nread + (ch :: bytes).length =
              info.nread + 1 + bytes.length := by
            rw [List.length_cons]
            omega
          simp only [Info.count, counted] at first later ⊢
          exact Leads.cons first later

theorem leads_methodEnd (info : Info) (room : info.nread < maxHeaderSize) :
    Leads Machine.turn
      (In .reqMethod .none
        (fun _ index => index = info.method.text.length) info) [Byte.space]
      (At .reqSpacesBeforeUrl (info.count 1)) := by
  apply leads_header .none rfl rfl room
  rintro rest isEnd
  refine ⟨{ rest with index := rest.index + 1 }, trivial, ?_⟩
  have expected : (info.method.text ++ [Byte.nul])[rest.index]? =
      some Byte.nul := by
    rw [isEnd]
    simp
  simp only [Machine.dispatch, Info.machine, Machine.reqMethod, Info.count,
    expected, Option.bind_eq_bind, Option.bind_some]
  rfl

theorem leads_method (info : Info) {method : Method} (parsed : method ≠ .msearch)
    (room : info.nread + method.text.length < maxHeaderSize) :
    Leads Machine.turn (At .startReq info) (method.text ++ [Byte.space])
      (At .reqSpacesBeforeUrl { info.count (method.text.length + 1) with
        flags := .none, contentLength := ullongMax, method := method }) := by
  obtain ⟨first, others, start, text, alpha, starts, noCr, noLf, path⟩ :=
    method.path parsed
  have length : method.text.length = others.length + 1 := by
    rw [text, List.length_cons]
  have firstByte := leads_firstByte info (by omega) alpha starts noCr
    noLf
  have otherBytes := leads_methodBytes { info.count 1 with
      flags := .none, contentLength := ullongMax, method := start }
    (by simp only [Info.count]; omega) (start.text_length).1 path
  have lastByte := leads_methodEnd { info.count method.text.length with
      flags := .none, contentLength := ullongMax, method := method }
    (by simp only [Info.count]; omega)
  have counted : info.nread + 1 + others.length =
      info.nread + method.text.length := by
    omega
  simp only [Info.count, counted] at firstByte otherBytes lastByte ⊢
  rw [text, List.cons_append]
  rw [text] at otherBytes lastByte
  exact Leads.cons firstByte (otherBytes.append lastByte)

/-! ## The URL -/

/-- The bytes of a URL behind its first one. -/
def isUrlByte (byte : UInt8) : Bool :=
  isUrlChar byte || byte == chr '?' || byte == chr '#'

/-- The states inside a URL that begins with its path. -/
def State.inUrl (state : State) : Prop :=
  state = .reqPath ∨ state = .reqQueryStringStart ∨ state = .reqQueryString ∨
    state = .reqFragmentStart ∨ state = .reqFragment

theorem isUrlByte_not : ∀ byte : UInt8, isUrlByte byte = true →
    byte ≠ Byte.space ∧ byte ≠ Byte.cr ∧ byte ≠ Byte.lf ∧ byte ≠ 9 ∧
      byte ≠ 12 :=
  Byte.forall_of_lt (by decide +kernel)

theorem parseUrlChar_inUrl {state : State} {byte : UInt8} (inUrl : state.inUrl)
    (isUrl : isUrlByte byte = true) : (parseUrlChar state byte).inUrl := by
  obtain ⟨noSpace, noCr, noLf, noTab, noFeed⟩ := isUrlByte_not byte isUrl
  simp only [isUrlByte, Bool.or_eq_true, beq_iff_eq] at isUrl
  unfold parseUrlChar
  rw [if_neg (by simp [noSpace, noCr, noLf, noTab, noFeed])]
  unfold State.inUrl at inUrl ⊢
  rcases inUrl with rfl | rfl | rfl | rfl | rfl
  all_goals grind

/-- Inside the URL, of which this has been read. -/
def InUrl (url : Str) (info : Info) (machine : Machine) : Prop :=
  ∃ state, state.inUrl ∧ In state (Marks.none.put .url (some url))
    (fun _ _ => True) info machine

theorem State.inUrl.alive {state : State} (inUrl : state.inUrl) :
    state.parsingHeader = true ∧ state ≠ .dead := by
  rcases inUrl with rfl | rfl | rfl | rfl | rfl
  all_goals exact ⟨rfl, nofun⟩

theorem State.inUrl.dispatch {machine : Machine}
    (inUrl : machine.parser.state.inUrl) (ch : UInt8) :
    machine.dispatch ch [] = oneByte (machine.reqUrl ch) := by
  rcases inUrl with here | here | here | here | here
  all_goals simp [Machine.dispatch, here]

theorem urlChar_alive {machine : Machine} {ch : UInt8}
    (alive : parseUrlChar machine.parser.state ch ≠ .dead) :
    machine.urlChar ch =
      (machine.goto (parseUrlChar machine.parser.state ch)).pass := by
  unfold Machine.urlChar
  exact if_neg alive

theorem leads_urlByte (info : Info) (url : Str) {byte : UInt8}
    (room : info.nread < maxHeaderSize) (isUrl : isUrlByte byte = true) :
    Leads Machine.turn (InUrl url info) [byte]
      (InUrl (url ++ [byte]) (info.count 1)) := by
  rintro machine ⟨state, inUrl, isIn⟩
  obtain ⟨noSpace, noCr, noLf, -, -⟩ := isUrlByte_not byte isUrl
  have nextUrl := parseUrlChar_inUrl inUrl isUrl
  have leads : Leads Machine.turn
      (In state (Marks.none.put .url (some url)) (fun _ _ => True) info) [byte]
      (In (parseUrlChar state byte)
        ((Marks.none.put .url (some url)).advance [byte])
        (fun _ _ => True) (info.count 1)) := by
    apply leads_header _ rfl inUrl.alive.1 room
    rintro rest -
    refine ⟨rest, trivial, ?_⟩
    rw [State.inUrl.dispatch (by exact inUrl), Machine.reqUrl, if_neg noSpace,
      if_neg (not_or.mpr ⟨noCr, noLf⟩), urlChar_alive nextUrl.alive.2]
    rfl
  obtain ⟨next, reads, isIn⟩ := leads machine isIn
  exact ⟨next, reads, _, nextUrl, isIn⟩

theorem leads_urlBytes {bytes : Str} (info : Info) (url : Str)
    (room : info.nread + bytes.length ≤ maxHeaderSize)
    (areUrl : ∀ byte ∈ bytes, isUrlByte byte = true) :
    Leads Machine.turn (InUrl url info) bytes
      (InUrl (url ++ bytes) (info.count bytes.length)) := by
  induction bytes generalizing info url with
  | nil =>
      rw [List.append_nil]
      exact Leads.nil _
  | cons byte bytes induction =>
      rw [List.length_cons] at room ⊢
      rw [List.forall_mem_cons] at areUrl
      have first := leads_urlByte info url (by omega) areUrl.1
      have later := induction (info.count 1) (url ++ [byte])
        (by simp only [Info.count]; omega) areUrl.2
      rw [Info.count_count, List.append_assoc, Nat.add_comm 1] at later
      exact Leads.cons first later

/-- The URL of a request that is not `CONNECT`: a path from its first byte on. -/
structure Target where
  first : UInt8
  others : Str
  starts : first = chr '/' ∨ first = chr '*'
  areUrl : ∀ byte ∈ others, isUrlByte byte = true

def Target.text (target : Target) : Str := target.first :: target.others

theorem leads_target (info : Info) (target : Target)
    (room : info.nread + target.text.length < maxHeaderSize)
    (noConnect : info.method ≠ .connect) :
    Leads Machine.turn (At .reqSpacesBeforeUrl info)
      (target.text ++ [Byte.space])
      (At .reqHttpStart ((info.count (target.text.length + 1)).call
        (.data .url target.text))) := by
  have length : target.text.length = target.others.length + 1 := rfl
  have plain : parseUrlChar .reqSpacesBeforeUrl target.first = .reqPath ∧
      target.first ≠ Byte.space := by
    rcases target.starts with slash | star
    · rw [slash]
      decide
    · rw [star]
      decide
  have path : Leads Machine.turn (At .reqSpacesBeforeUrl info) [target.first]
      (In .reqPath (Marks.none.put .url (some [target.first]))
        (fun _ _ => True) (info.count 1)) := by
    apply leads_header (Marks.none.put .url (some [])) rfl rfl (by omega)
    rintro rest -
    refine ⟨rest, trivial, ?_⟩
    change oneByte (Machine.reqSpacesBeforeUrl _ _) = _
    rw [Machine.reqSpacesBeforeUrl, if_neg plain.2, Machine.mark_eq]
    simp only
    have isPath : parseUrlChar .reqSpacesBeforeUrl target.first ≠ .dead := by
      rw [plain.1]
      exact nofun
    rw [if_neg (by exact noConnect), urlChar_alive (by exact isPath)]
    change oneByte (some (.next ((info.count 1).machine
      (parseUrlChar .reqSpacesBeforeUrl target.first) _ rest))) = _
    rw [plain.1]
    rfl
  have others := leads_urlBytes (info.count 1) [target.first]
    (by simp only [Info.count]; omega) target.areUrl
  have last : Leads Machine.turn
      (InUrl target.text (info.count target.text.length)) [Byte.space]
      (At .reqHttpStart ((info.count (target.text.length + 1)).call
        (.data .url target.text))) := by
    rintro machine ⟨state, inUrl, isIn⟩
    have leads : Leads Machine.turn (In state (Marks.none.put .url
        (some target.text)) (fun _ _ => True) (info.count target.text.length))
        [Byte.space] (At .reqHttpStart ((info.count (target.text.length + 1)).call
          (.data .url target.text))) := by
      apply leads_header .none rfl inUrl.alive.1 (by simp only [Info.count]; omega)
      rintro rest -
      refine ⟨rest, trivial, ?_⟩
      rw [State.inUrl.dispatch (by exact inUrl), Machine.reqUrl, if_pos rfl,
        Machine.callbackData_of rfl rfl, List.append_nil]
      rfl
    exact leads machine isIn
  rw [Info.count_count, Nat.add_comm 1] at others
  have first := path.mono fun machine isIn =>
    show InUrl [target.first] (info.count 1) machine from ⟨_, .inl rfl, isIn⟩
  exact (Leads.cons first others).append last

/-! ## The version -/

/-- `HTTP/1.1` and the like, with one digit on either side. -/
structure Version where
  major : UInt8
  minor : UInt8
  majorDigit : 49 ≤ major ∧ major ≤ 57
  minorDigit : 48 ≤ minor ∧ minor ≤ 57

def Version.text (version : Version) : Str :=
  ascii "HTTP/" ++ [version.major, chr '.', version.minor, Byte.cr, Byte.lf]

theorem route_http : Route .reqHttpStart (ascii "HTTP/") .reqFirstHttpMajor := by
  refine .cons .reqHttpH rfl ?_ (.cons .reqHttpHT rfl ?_ (.cons .reqHttpHTT rfl
    ?_ (.cons .reqHttpHTTP rfl ?_ (.cons .reqFirstHttpMajor rfl ?_ (.nil _)))))
  all_goals
    intro machine here
    simp only [Machine.dispatch, here]
    rfl

theorem route_lineEnd :
    Route .reqHttpMinor [Byte.cr, Byte.lf] .headerFieldStart := by
  refine .cons .reqLineAlmostDone rfl ?_ (.cons .headerFieldStart rfl ?_
    (.nil _))
  all_goals
    intro machine here
    simp only [Machine.dispatch, here]
    rfl

theorem leads_version (info : Info) (version : Version)
    (room : info.nread + version.text.length ≤ maxHeaderSize) :
    Leads Machine.turn (At .reqHttpStart info) version.text
      (At .headerFieldStart { info.count version.text.length with
        httpMajor := Machine.digit version.major
        httpMinor := Machine.digit version.minor }) := by
  have length : version.text.length = 10 := rfl
  rw [length] at room ⊢
  have letters := leads_route route_http info
    (show info.nread + 5 ≤ maxHeaderSize by omega)
  have major : Leads Machine.turn (At .reqFirstHttpMajor (info.count 5))
      [version.major] (At .reqHttpMajor { info.count 6 with
        httpMajor := Machine.digit version.major }) := by
    apply leads_header .none rfl rfl (by simp only [Info.count]; omega)
    rintro rest -
    refine ⟨rest, trivial, ?_⟩
    change oneByte (Machine.reqFirstHttpMajor _ _) = _
    rw [Machine.reqFirstHttpMajor, if_neg]
    · rfl
    · rintro (below | above)
      · exact UInt8.not_le.mpr below version.majorDigit.1
      · exact UInt8.not_le.mpr above version.majorDigit.2
  have dot : Route .reqHttpMajor [chr '.'] .reqFirstHttpMinor := by
    refine .cons .reqFirstHttpMinor rfl ?_ (.nil _)
    intro machine here
    simp only [Machine.dispatch, here]
    rfl
  have point := leads_route dot { info.count 6 with
    httpMajor := Machine.digit version.major }
    (show info.nread + 6 + 1 ≤ maxHeaderSize by omega)
  have minor : Leads Machine.turn (At .reqFirstHttpMinor { info.count 7 with
        httpMajor := Machine.digit version.major })
      [version.minor] (At .reqHttpMinor { info.count 8 with
        httpMajor := Machine.digit version.major
        httpMinor := Machine.digit version.minor }) := by
    apply leads_header .none rfl rfl (by simp only [Info.count]; omega)
    rintro rest -
    refine ⟨rest, trivial, ?_⟩
    change oneByte (Machine.reqFirstHttpMinor _ _) = _
    rw [Machine.reqFirstHttpMinor, if_neg]
    · rfl
    · simp [Byte.isDigit, version.minorDigit]
  have lineEnd := leads_route route_lineEnd { info.count 8 with
    httpMajor := Machine.digit version.major
    httpMinor := Machine.digit version.minor }
    (show info.nread + 8 + 2 ≤ maxHeaderSize by omega)
  exact letters.append (.cons major (.cons point (.cons minor lineEnd)))

end HttpParser

end ChatRoom
