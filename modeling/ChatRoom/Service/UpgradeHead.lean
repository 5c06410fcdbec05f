import ChatRoom.Base.Search
import ChatRoom.Service.HttpHandler
import Mathlib.Data.List.DropRight

/-!
# Which heads are taken for an upgrade

A request may spell a field name in any case, write any blanks around a value
and give a field more than once.  `parseHttpHeaders` takes names as they are
spelled, cuts exactly one byte in front of a value and keeps the last field of
a name.
-/

namespace ChatRoom

namespace HttpHandler

/-- A header field.  `raw` is all that stands between the colon and the end of
the line. -/
structure HeaderField where
  name : Str
  raw : Str
  nameClean : Byte.colon ∉ name ∧ Byte.lf ∉ name
  rawClean : Byte.lf ∉ raw

def HeaderField.line (field : HeaderField) : Str :=
  field.name ++ Byte.colon :: field.raw

/-- The head of a request.  `target` is the request line behind the method and
its blank. -/
structure RequestHead where
  method : Str
  target : Str
  fields : List HeaderField
  methodClean : Byte.colon ∉ method ∧ Byte.lf ∉ method
  targetClean : Byte.lf ∉ target

def RequestHead.requestLine (head : RequestHead) : Str :=
  head.method ++ Byte.space :: head.target

def RequestHead.text (head : RequestHead) : Str :=
  crlfLines (head.requestLine :: head.fields.map HeaderField.line) ++
    [Byte.cr, Byte.lf]

/-- Optional whitespace. -/
def isBlank (byte : UInt8) : Bool := byte = Byte.space ∨ byte = 9

def trim (text : Str) : Str :=
  (text.dropWhile isBlank).rdropWhile isBlank

def lower (text : Str) : Str := text.map toLower

/-- The rule of HTTP: an `Upgrade` field with the value `websocket` and a
`Connection` field that has `upgrade` in its value, in any case. -/
def Asks (fields : List HeaderField) : Prop :=
  (∃ field ∈ fields, lower field.name = ascii "upgrade" ∧
    lower (trim field.raw) = ascii "websocket") ∧
  ∃ field ∈ fields, lower field.name = ascii "connection" ∧
    ascii "upgrade" <:+: lower field.raw

/-- The last field with exactly this name. -/
def lastNamed (name : Str) (fields : List HeaderField) : Option HeaderField :=
  fields.reverse.find? fun field => field.name = name

/-- The last field `Upgrade` is one byte and then `websocket`, and the last
field `Connection` has `upgrade` behind its first byte. -/
def Spelled (fields : List HeaderField) : Prop :=
  (∃ field, lastNamed (ascii "Upgrade") fields = some field ∧
    lower (field.raw.drop 1) = ascii "websocket") ∧
  ∃ field, lastNamed (ascii "Connection") fields = some field ∧
    ascii "upgrade" <:+: lower (field.raw.drop 1)

/-- The first byte of the last field `Upgrade` is no blank. -/
def Unspaced (fields : List HeaderField) : Prop :=
  ∃ field, lastNamed (ascii "Upgrade") fields = some field ∧
    ∃ byte ∈ field.raw.head?, isBlank byte = false

/-! ## The lines of a head -/

theorem linesFrom_line {text : Str} (noLf : Byte.lf ∉ text) (line rest : Str) :
    linesFrom line (text ++ Byte.lf :: rest) =
      (line ++ text) :: linesFrom [] rest := by
  induction text generalizing line with
  | nil => rw [List.nil_append, linesFrom, if_pos rfl, List.append_nil]
  | cons byte text induction =>
      rw [List.mem_cons, not_or] at noLf
      rw [List.cons_append, linesFrom, if_neg (Ne.symm noLf.1),
        induction noLf.2, List.append_assoc]
      rfl

theorem linesFrom_crlfLines {lines : List Str}
    (clean : ∀ line ∈ lines, Byte.lf ∉ line) (rest : Str) :
    linesFrom [] (crlfLines lines ++ rest) =
      (lines.map fun line => line ++ [Byte.cr]) ++ linesFrom [] rest := by
  induction lines with
  | nil => rfl
  | cons line lines induction =>
      rw [List.forall_mem_cons] at clean
      have noLf : Byte.lf ∉ line ++ [Byte.cr] := by
        rw [List.mem_append, not_or]
        exact ⟨clean.1, by decide⟩
      have text : crlfLines (line :: lines) ++ rest =
          (line ++ [Byte.cr]) ++ Byte.lf :: (crlfLines lines ++ rest) := by
        simp [crlfLines]
      rw [text, linesFrom_line noLf, induction clean.2]
      rfl

/-- What the loop keeps of a field. -/
def HeaderField.entry (field : HeaderField) : Str × Str :=
  (field.name, field.raw.drop 1)

theorem headerValue_raw (raw : Str) :
    headerValue (raw ++ [Byte.cr]) = some (raw.drop 1) := by
  cases raw with
  | nil => rfl
  | cons blank value =>
      rw [List.cons_append, headerValue, List.dropLast_concat]
      rfl

/-- The fields of a head up to its blank line. -/
theorem headersFrom_fields (headers : List (Str × Str))
    (fields : List HeaderField) (more : List Str) :
    headersFrom headers ((fields.map fun field => field.line ++ [Byte.cr]) ++
        [Byte.cr] :: more) =
      some ((fields.map HeaderField.entry).reverse ++ headers) := by
  induction fields generalizing headers with
  | nil =>
      rw [List.map_nil, List.nil_append, headersFrom, if_pos rfl]
      rfl
  | cons field fields induction =>
      have parts : field.line ++ [Byte.cr] =
          field.name ++ Byte.colon :: (field.raw ++ [Byte.cr]) := by
        simp [HeaderField.line]
      have hasColon : field.line ++ [Byte.cr] ≠ [Byte.cr] := by
        intro equality
        have member : Byte.colon ∈ field.line ++ [Byte.cr] := by
          rw [parts]
          simp
        rw [equality] at member
        exact absurd member (by decide)
      rw [List.map_cons, List.cons_append, headersFrom, if_neg hasColon, parts,
        splitFirst_byte field.nameClean.1]
      simp only [headerValue_raw]
      rw [induction, List.map_cons, List.reverse_cons, List.append_assoc]
      rfl

/-- The request line is passed over, or gives a header whose name has a
blank. -/
theorem headersFrom_requestLine (head : RequestHead) (lines : List Str) :
    ∃ first : List (Str × Str), (∀ entry ∈ first, Byte.space ∈ entry.1) ∧
      headersFrom [] ((head.requestLine ++ [Byte.cr]) :: lines) =
        headersFrom first lines := by
  have hasBlank : head.requestLine ++ [Byte.cr] ≠ [Byte.cr] := by
    intro equality
    have member : Byte.space ∈ head.requestLine ++ [Byte.cr] := by
      simp [RequestHead.requestLine]
    rw [equality] at member
    exact absurd member (by decide)
  have front : head.method ++ [Byte.space] <+:
      head.requestLine ++ [Byte.cr] :=
    ⟨head.target ++ [Byte.cr], by simp [RequestHead.requestLine]⟩
  rw [headersFrom, if_neg hasBlank]
  cases found : splitFirst [Byte.colon] (head.requestLine ++ [Byte.cr]) with
  | none => exact ⟨[], by simp, rfl⟩
  | some parts =>
      obtain ⟨key, behind⟩ := parts
      obtain ⟨isLine, -⟩ := splitFirst_byte_iff.mp found
      have named : Byte.space ∈ key := by
        rw [isLine, prefix_append_cons_iff] at front
        · exact front.subset (by simp)
        · rw [List.mem_append, not_or]
          exact ⟨head.methodClean.1, by decide⟩
      have notBare : behind ≠ [] := by
        rintro rfl
        have last := congrArg List.getLast? isLine
        simp at last
      obtain ⟨blank, value, rfl⟩ := List.exists_cons_of_ne_nil notBare
      refine ⟨[(key, value.dropLast)], ?_, rfl⟩
      intro entry member
      rw [List.mem_singleton.mp member]
      exact named

/-- The headers of a head: the last field of a name comes first. -/
theorem parseHttpHeaders_text (head : RequestHead) (behind : Str) :
    ∃ first : List (Str × Str), (∀ entry ∈ first, Byte.space ∈ entry.1) ∧
      parseHttpHeaders (head.text ++ behind) =
        some ((head.fields.map HeaderField.entry).reverse ++ first) := by
  have clean : ∀ line ∈ head.requestLine ::
      head.fields.map HeaderField.line, Byte.lf ∉ line := by
    rw [List.forall_mem_cons, List.forall_mem_map]
    constructor
    · simp only [RequestHead.requestLine, List.mem_append, List.mem_cons,
        not_or]
      exact ⟨head.methodClean.2, by decide, head.targetClean⟩
    · intro field _
      simp only [HeaderField.line, List.mem_append, List.mem_cons, not_or]
      exact ⟨field.nameClean.2, by decide, field.rawClean⟩
  have noLf : Byte.lf ∉ [Byte.cr] := by decide
  have blank : linesFrom [] ([Byte.cr, Byte.lf] ++ behind) =
      [Byte.cr] :: linesFrom [] behind := linesFrom_line noLf [] behind
  obtain ⟨first, named, passed⟩ := headersFrom_requestLine head
    ((head.fields.map fun field => field.line ++ [Byte.cr]) ++
      [Byte.cr] :: linesFrom [] behind)
  refine ⟨first, named, ?_⟩
  rw [parseHttpHeaders, RequestHead.text, List.append_assoc,
    linesFrom_crlfLines clean, blank, List.map_cons, List.map_map,
    List.cons_append, ← headersFrom_fields first head.fields]
  exact passed

/-! ## The decision -/

/-- A lookup finds the last field with the name. -/
theorem lookup_fields {name : Str} (noBlank : Byte.space ∉ name)
    {first : List (Str × Str)} (named : ∀ entry ∈ first, Byte.space ∈ entry.1)
    (fields : List HeaderField) :
    ((fields.map HeaderField.entry).reverse ++ first).lookup name =
      (lastNamed name fields).map fun field => field.raw.drop 1 := by
  have other : first.lookup name = none := by
    apply List.lookup_eq_none_iff.mpr
    intro entry member
    rw [bne_iff_ne]
    rintro rfl
    exact noBlank (named entry member)
  rw [List.lookup_append, other, Option.or_none, ← List.map_reverse, lastNamed]
  induction fields.reverse with
  | nil => rfl
  | cons field later induction =>
      rw [List.map_cons, List.lookup_cons, List.find?_cons]
      by_cases same : field.name = name
      · simp [HeaderField.entry, same]
      · have different : (name == field.entry.1) = false :=
          beq_eq_false_iff_ne.mpr (Ne.symm same)
        rw [different, decide_eq_false same]
        exact induction

/-- The heads that are taken for an upgrade. -/
theorem classify_text_iff (head : RequestHead) (behind : Str) :
    classify (head.text ++ behind) = some .webSocket ↔
      Spelled head.fields := by
  obtain ⟨first, named, parsed⟩ := parseHttpHeaders_text head behind
  have decided : classify (head.text ++ behind) = some .webSocket ↔
      isWebSocketRequest ((head.fields.map HeaderField.entry).reverse ++
        first) = true := by
    rw [classify, parsed, Option.map_some, Option.some.injEq]
    split
    · rename_i accepted
      exact iff_of_true rfl accepted
    · rename_i refused
      refine iff_of_false ?_ refused
      intro impossible
      cases impossible
  rw [decided, isWebSocketRequest, lookup_fields (by decide) named,
    lookup_fields (by decide) named, Spelled]
  cases lastNamed (ascii "Upgrade") head.fields with
  | none => simp
  | some upgrade =>
      cases lastNamed (ascii "Connection") head.fields with
      | none => simp
      | some connection =>
          simp [lower, splitFirst_isSome_iff]

theorem lastNamed_mem {name : Str} {fields : List HeaderField}
    {field : HeaderField} (isLast : lastNamed name fields = some field) :
    field ∈ fields ∧ field.name = name := by
  constructor
  · exact List.mem_reverse.mp (List.mem_of_find?_eq_some isLast)
  · simpa using List.find?_some isLast

/-- One blank in front of `websocket` is trimmed. -/
theorem trim_websocket {byte : UInt8} {value : Str}
    (blank : isBlank byte = true) (isValue : lower value = ascii "websocket") :
    trim (byte :: value) = value := by
  have noBlank : ∀ other ∈ value, ¬ isBlank other = true := by
    intro other member isBlankByte
    have inValue : toLower other ∈ lower value := List.mem_map_of_mem member
    rw [isValue] at inValue
    rw [isBlank, decide_eq_true_eq] at isBlankByte
    rcases isBlankByte with rfl | rfl
    · exact absurd inValue (by decide)
    · exact absurd inValue (by decide)
  have front : value.dropWhile isBlank = value := by
    apply List.dropWhile_eq_self_iff.mpr
    intro nonempty
    exact noBlank _ (List.getElem_mem nonempty)
  rw [trim, List.dropWhile_cons_of_pos blank, front]
  apply List.rdropWhile_eq_self_iff.mpr
  intro notEmpty
  exact noBlank _ (List.getLast_mem notEmpty)

/-- What is taken for an upgrade asks for one, unless the byte that is cut in
front of the value belongs to it. -/
theorem Spelled.asks {fields : List HeaderField} (spelled : Spelled fields)
    (spaced : ¬ Unspaced fields) : Asks fields := by
  obtain ⟨⟨upgrade, lastUpgrade, isWebSocket⟩,
    connection, lastConnection, hasUpgrade⟩ := spelled
  obtain ⟨upgradeMember, upgradeName⟩ := lastNamed_mem lastUpgrade
  obtain ⟨connectionMember, connectionName⟩ := lastNamed_mem lastConnection
  constructor
  · refine ⟨upgrade, upgradeMember, by rw [upgradeName]; decide, ?_⟩
    cases isRaw : upgrade.raw with
    | nil =>
        rw [isRaw] at isWebSocket
        exact absurd isWebSocket (by decide)
    | cons byte value =>
        rw [isRaw, List.drop_succ_cons, List.drop_zero] at isWebSocket
        have blank : isBlank byte = true := by
          rw [← Bool.not_eq_false]
          intro noBlank
          exact spaced ⟨upgrade, lastUpgrade, byte, by rw [isRaw]; rfl, noBlank⟩
        rw [trim_websocket blank isWebSocket]
        exact isWebSocket
  · refine ⟨connection, connectionMember, by rw [connectionName]; decide, ?_⟩
    apply hasUpgrade.trans
    exact ((List.drop_suffix 1 connection.raw).map toLower).isInfix

/-- Exactly the heads that are told apart as HTTP has it. -/
theorem classify_text_asks_iff (head : RequestHead) (behind : Str) :
    (classify (head.text ++ behind) = some .webSocket ↔ Asks head.fields) ↔
      (Asks head.fields ∧ Spelled head.fields) ∨
      (¬ Asks head.fields ∧
        ¬ (Spelled head.fields ∧ Unspaced head.fields)) := by
  rw [classify_text_iff]
  by_cases asks : Asks head.fields
  · simp [asks]
  · by_cases unspaced : Unspaced head.fields
    · simp [asks, unspaced]
    · have notSpelled : ¬ Spelled head.fields :=
        fun spelled => asks (spelled.asks unspaced)
      simp [asks, notSpelled]

/-- An upgrade with a field name in lower case. -/
def lowerCaseHead : RequestHead where
  method := ascii "GET"
  target := ascii "/ws?uid=7 HTTP/1.1"
  fields := [
    ⟨ascii "upgrade", ascii " websocket", by decide, by decide⟩,
    ⟨ascii "Connection", ascii " Upgrade", by decide, by decide⟩]
  methodClean := by decide
  targetClean := by decide

/-- The head asks for an upgrade and is taken for plain HTTP. -/
theorem lowerCaseHead_is_http :
    Asks lowerCaseHead.fields ∧ classify lowerCaseHead.text = some .http := by
  refine ⟨⟨⟨_, List.mem_cons_self, ?_, ?_⟩,
    ⟨_, List.mem_cons_of_mem _ List.mem_cons_self, ?_, ?_⟩⟩, ?_⟩
  · decide
  · decide
  · decide
  · decide
  · decide +kernel

end HttpHandler

end ChatRoom
