import ChatRoom.Base.Search
import ChatRoom.Service.WebSocketConn

/-!
# The uid of a request line

`extractUidFromUrl` searches all that follows the first question mark for
`uid=`.  It does not look where a parameter starts, so that the name of a
parameter may only end in `uid`, and a value may hold a `uid=` of its own.
-/

namespace ChatRoom

namespace Connection

/-- A parameter of a query. -/
structure Parameter where
  name : Str
  value : Str
  nameClean : Byte.equals ∉ name ∧ Byte.ampersand ∉ name ∧ Byte.space ∉ name
  valueClean : Byte.ampersand ∉ value ∧ Byte.space ∉ value

def Parameter.text (parameter : Parameter) : Str :=
  parameter.name ++ Byte.equals :: parameter.value

/-- The parameters with an ampersand between each two of them. -/
def query : List Parameter → Str
  | [] => []
  | [parameter] => parameter.text
  | parameter :: next :: parameters =>
      parameter.text ++ Byte.ampersand :: query (next :: parameters)

/-- A request line `GET path?query HTTP/1.1`. -/
structure RequestLine where
  path : Str
  parameters : List Parameter
  noQuestion : Byte.question ∉ path

def RequestLine.text (line : RequestLine) : Str :=
  ascii "GET " ++ line.path ++ ascii "?" ++ query line.parameters ++
    ascii " HTTP/1.1"

/-- The value of the first parameter with the name `uid`. -/
def uidValue (parameters : List Parameter) : Str :=
  match parameters.find? fun parameter => parameter.name = ascii "uid" with
  | some parameter => parameter.value
  | none => []

/-- What stands behind the first `uid=` of a parameter. -/
def behindUid (parameter : Parameter) : Option Str :=
  (splitFirst (ascii "uid=") parameter.text).map (·.2)

/-- The first parameter that holds `uid=` is called `uid`, or what stands
behind that `uid=` happens to be the right value. -/
def Unmistaken (parameters : List Parameter) : Prop :=
  ∀ parameter,
    (parameters.find? fun other => (behindUid other).isSome) = some parameter →
      parameter.name = ascii "uid" ∨
        behindUid parameter = some (uidValue parameters)

/-! ## The value of a search -/

/-- The end of the value that `extractUid` takes. -/
def cut (behind : Str) : Str :=
  behind.takeWhile fun byte => byte ≠ Byte.space ∧ byte ≠ Byte.ampersand

theorem extractUid_eq (input : Str) :
    extractUid input =
      ((splitFirst (ascii "uid=") input).map fun found =>
        cut found.2).getD [] := by
  unfold extractUid cut
  cases splitFirst (ascii "uid=") input with
  | none => rfl
  | some found => rfl

theorem cut_eq_self {text : Str} (noSpace : Byte.space ∉ text)
    (noAmpersand : Byte.ampersand ∉ text) : cut text = text := by
  apply List.takeWhile_eq_self_iff.mpr
  intro byte member
  have notSpace : byte ≠ Byte.space := fun same => noSpace (same ▸ member)
  have notAmpersand : byte ≠ Byte.ampersand :=
    fun same => noAmpersand (same ▸ member)
  simpa using ⟨notSpace, notAmpersand⟩

theorem cut_append_cons {stop : UInt8}
    (isStop : stop = Byte.space ∨ stop = Byte.ampersand) (text rest : Str) :
    cut (text ++ stop :: rest) = cut text := by
  have ends : decide (stop ≠ Byte.space ∧ stop ≠ Byte.ampersand) = false := by
    rcases isStop with rfl | rfl
    · rfl
    · rfl
  induction text with
  | nil => simp only [cut, List.nil_append, List.takeWhile_cons, ends,
      Bool.false_eq_true, if_false, List.takeWhile_nil]
  | cons byte text induction =>
      unfold cut at induction ⊢
      rw [List.cons_append, List.takeWhile_cons, List.takeWhile_cons, induction]

section Parameters

variable {parameter : Parameter} {parameters : List Parameter}

theorem text_clean (parameter : Parameter) :
    Byte.space ∉ parameter.text ∧ Byte.ampersand ∉ parameter.text := by
  obtain ⟨-, nameAmpersand, nameSpace⟩ := parameter.nameClean
  obtain ⟨valueAmpersand, valueSpace⟩ := parameter.valueClean
  simp only [Parameter.text, List.mem_append, List.mem_cons, not_or]
  exact ⟨⟨nameSpace, by decide, valueSpace⟩,
    ⟨nameAmpersand, by decide, valueAmpersand⟩⟩

theorem cut_behindUid {before behind : Str}
    (found : splitFirst (ascii "uid=") parameter.text = some (before, behind)) :
    cut behind = behind := by
  obtain ⟨noSpace, noAmpersand⟩ := text_clean parameter
  rw [splitFirst_eq found] at noSpace noAmpersand
  simp only [List.mem_append, not_or] at noSpace noAmpersand
  exact cut_eq_self noSpace.2 noAmpersand.2

theorem uidPattern_ne_nil : ascii "uid=" ≠ [] := List.cons_ne_nil _ _

/-- The search in a query stops at the first parameter that holds `uid=`. -/
theorem search_query (parameters : List Parameter) :
    ((splitFirst (ascii "uid=") (query parameters)).map fun found =>
        cut found.2) =
      parameters.findSome? behindUid := by
  have single : ∀ parameter : Parameter,
      ((splitFirst (ascii "uid=") parameter.text).map fun found =>
        cut found.2) = behindUid parameter := by
    intro parameter
    unfold behindUid
    cases found : splitFirst (ascii "uid=") parameter.text with
    | none => rfl
    | some parts =>
        rw [Option.map_some, Option.map_some, cut_behindUid found]
  induction parameters with
  | nil => rfl
  | cons parameter parameters induction =>
      have here := single parameter
      rw [List.findSome?_cons, ← here]
      cases parameters with
      | nil =>
          rw [query]
          cases (splitFirst (ascii "uid=") parameter.text).map
            fun found => cut found.2 with
          | none => rfl
          | some value => rfl
      | cons next parameters =>
          have absent : Byte.ampersand ∉ ascii "uid=" := by decide
          rw [query, splitFirst_append_cons uidPattern_ne_nil absent,
            ← induction]
          cases found : splitFirst (ascii "uid=") parameter.text with
          | none =>
              rw [Option.map_none, Option.map_map]
              rfl
          | some parts =>
              simp only [Option.map_some, cut_append_cons (.inr rfl)]

/-- What `extractUidFromUrl` finds on a request line. -/
theorem extractUidFromUrl_text (line : RequestLine) :
    extractUidFromUrl line.text =
      (line.parameters.findSome? behindUid).getD [] := by
  have start : splitFirst [Byte.question] line.text =
      some (ascii "GET " ++ line.path,
        query line.parameters ++ ascii " HTTP/1.1") := by
    have mark : ascii "?" = [Byte.question] := by rfl
    have absent : Byte.question ∉ ascii "GET " ++ line.path := by
      rw [List.mem_append, not_or]
      exact ⟨by decide, line.noQuestion⟩
    rw [RequestLine.text, mark]
    simpa only [List.append_assoc, List.cons_append, List.nil_append] using
      splitFirst_byte absent (query line.parameters ++ ascii " HTTP/1.1")
  have version : ascii " HTTP/1.1" = Byte.space :: ascii "HTTP/1.1" := by rfl
  have nothing : splitFirst (ascii "uid=") (ascii "HTTP/1.1") = none := by
    decide
  simp only [extractUidFromUrl, start, extractUid_eq, version]
  have absent : Byte.space ∉ ascii "uid=" := by decide
  rw [splitFirst_append_cons uidPattern_ne_nil absent, nothing, ← search_query]
  cases splitFirst (ascii "uid=") (query line.parameters) with
  | none => rfl
  | some parts =>
      simp only [Option.map_some, cut_append_cons (.inl rfl)]

/-! ## The first uid -/

theorem findSome?_behindUid (parameters : List Parameter) :
    parameters.findSome? behindUid =
      (parameters.find? fun other => (behindUid other).isSome).bind
        behindUid := by
  induction parameters with
  | nil => rfl
  | cons parameter parameters induction =>
      rw [List.findSome?_cons, List.find?_cons]
      cases found : behindUid parameter with
      | none => exact induction
      | some value => exact found.symm

theorem behindUid_of_name (isUid : parameter.name = ascii "uid") :
    behindUid parameter = some parameter.value := by
  have pattern : ascii "uid" ++ Byte.equals :: parameter.value =
      ascii "uid=" ++ parameter.value := by rfl
  rw [behindUid, Parameter.text, isUid, pattern,
    splitFirst_append_self uidPattern_ne_nil]
  rfl

/-- When the first parameter that holds `uid=` is called `uid`, it is the first
one of that name. -/
theorem uidValue_of_first
    (first : (parameters.find? fun other => (behindUid other).isSome) =
      some parameter) (isUid : parameter.name = ascii "uid") :
    uidValue parameters = parameter.value := by
  obtain ⟨-, before, after, rfl, earlier⟩ := List.find?_eq_some_iff_append.mp first
  have isFirst : ((before ++ parameter :: after).find? fun other =>
      decide (other.name = ascii "uid")) = some parameter := by
    apply List.find?_eq_some_iff_append.mpr
    refine ⟨by rw [isUid]; rfl, before, after, rfl, ?_⟩
    intro other member
    have noUid := earlier other member
    rw [Bool.not_eq_true', decide_eq_false_iff_not]
    intro otherUid
    rw [behindUid_of_name otherUid] at noUid
    cases noUid
  rw [uidValue, isFirst]

/-- Without a `uid=` there is no parameter of that name. -/
theorem uidValue_of_none
    (none : (parameters.find? fun other => (behindUid other).isSome) = none) :
    uidValue parameters = [] := by
  have noUid : (parameters.find? fun other =>
      decide (other.name = ascii "uid")) = .none := by
    apply List.find?_eq_none.mpr
    intro other member isUid
    rw [decide_eq_true_eq] at isUid
    have absent := List.find?_eq_none.mp none other member
    rw [behindUid_of_name isUid] at absent
    exact absent rfl
  rw [uidValue, noUid]

end Parameters

/-- Exactly the request lines on which the uid is the value of the first
parameter with that name. -/
theorem extractUidFromUrl_iff (line : RequestLine) :
    extractUidFromUrl line.text = uidValue line.parameters ↔
      Unmistaken line.parameters := by
  rw [extractUidFromUrl_text, findSome?_behindUid]
  unfold Unmistaken
  cases first : line.parameters.find? fun other =>
      (behindUid other).isSome with
  | none =>
      rw [uidValue_of_none first]
      simp
  | some parameter =>
      have hasUid : (behindUid parameter).isSome := List.find?_some
        (p := fun other => (behindUid other).isSome) first
      obtain ⟨value, isValue⟩ := Option.isSome_iff_exists.mp hasUid
      simp only [Option.bind_some, isValue, Option.getD_some,
        Option.some.injEq, forall_eq']
      constructor
      · intro same
        exact .inr same
      · intro unmistaken
        rcases unmistaken with isUid | same
        · rw [behindUid_of_name isUid, Option.some.injEq] at isValue
          rw [uidValue_of_first first isUid, isValue]
        · exact same

/-- The first line of a handshake request is what is searched. -/
theorem requestUid_text (line : RequestLine) (noCr : Byte.cr ∉ line.text)
    (headers : Str) :
    requestUid (line.text ++ [Byte.cr, Byte.lf] ++ headers) =
      extractUidFromUrl line.text := by
  rw [requestUid, untilCrlf, List.append_assoc,
    splitFirst_append_of_not_mem noCr,
    splitFirst_append_self (List.cons_ne_nil _ _)]
  simp

def xuidLine : RequestLine where
  path := ascii "/ws"
  parameters := [⟨ascii "xuid", ascii "7", by decide, by decide⟩]
  noQuestion := by decide

/-- `GET /ws?xuid=7 HTTP/1.1` has no uid, and 7 is taken for it. -/
theorem xuid_is_taken :
    extractUidFromUrl xuidLine.text ≠ uidValue xuidLine.parameters := by
  have found : extractUidFromUrl xuidLine.text = ascii "7" := by decide +kernel
  rw [found]
  decide +kernel

end Connection

end ChatRoom
