import ChatRoom.Mysql.DbPool
import ChatRoom.Service.HttpConn

/-!
# The header fields that are kept

`OnHeaderField` compares the buffer from the name on with each of six names,
as many bytes as the six have, and sets a flag for what is still missing;
`OnHeaderValue` takes the value for each flag.  The length of the name does
not count, so that a longer name will do.
-/

namespace ChatRoom

namespace HeaderCapture

/-- A header field as `http_parser` hands it over: its name, its value, and
what stands in the buffer behind the colon of its name. -/
structure Header where
  name : Str
  value : Str
  behind : Str

/-- The buffer from the name on, which is the `at` of `OnHeaderField`. -/
def Header.at (header : Header) : Str :=
  header.name ++ Byte.colon :: header.behind

/-- `strncasecmp(at, name, strlen(name)) == 0`. -/
def strncasecmpEq (buffer name : Str) : Bool :=
  decide ((buffer.take name.length).map toLower = name.map toLower)

/-- A member of the wrapper and its flag. -/
structure Slot (Value : Type) where
  isRead : Bool
  value : Value

section Slots

variable {Value : Type} [DecidableEq Value]

/-- One of the six checks of `OnHeaderField`; `missing` is the value for which
the `HasRead` of the member is false. -/
def Slot.onField (name : Str) (missing : Value) (buffer : Str)
    (slot : Slot Value) : Slot Value :=
  if slot.value = missing ∧ strncasecmpEq buffer name then
    { slot with isRead := true }
  else slot

/-- One of the six branches of `OnHeaderValue`. -/
def Slot.onValue (set : Value → Str → Value) (text : Str) (slot : Slot Value) :
    Slot Value :=
  if slot.isRead then ⟨false, set slot.value text⟩ else slot

/-- What a field with its value does to a member. -/
def Slot.read (name : Str) (missing : Value) (set : Value → Str → Value)
    (slot : Slot Value) (header : Header) : Slot Value :=
  (slot.onField name missing header.at).onValue set header.value

end Slots

/-- The six members of `CHttpParserWrapper` with their flags. -/
structure Wrapper where
  referer : Slot Str
  forwardIp : Slot Str
  userAgent : Slot Str
  contentType : Slot Str
  contentLen : Slot ℕ
  host : Slot Str

/-- `atoi` as a `uint32_t`. -/
def uint32OfText (text : Str) : ℕ :=
  (Mysql.getInt (leadingNumber (cStr text)) % 2 ^ 32).toNat

def setReferer (referer text : Str) : Str :=
  referer ++ text.take (if 32 < text.length then 32 else text.length)

def setForwardIp (forwardIp text : Str) : Str := forwardIp ++ text

def setUserAgent (userAgent text : Str) : Str := userAgent ++ text

def setContentType (contentType text : Str) : Str := contentType ++ text

def setContentLen (_ : ℕ) (text : Str) : ℕ := uint32OfText text

def setHost (host text : Str) : Str := host ++ text

namespace Wrapper

def onHeaderField (wrapper : Wrapper) (buffer : Str) : Wrapper where
  referer := wrapper.referer.onField (ascii "Referer") [] buffer
  forwardIp := wrapper.forwardIp.onField (ascii "X-Forwarded-For") [] buffer
  userAgent := wrapper.userAgent.onField (ascii "User-Agent") [] buffer
  contentType := wrapper.contentType.onField (ascii "Content-Type") [] buffer
  contentLen := wrapper.contentLen.onField (ascii "Content-Length") 0 buffer
  host := wrapper.host.onField (ascii "Host") [] buffer

def onHeaderValue (wrapper : Wrapper) (text : Str) : Wrapper where
  referer := wrapper.referer.onValue setReferer text
  forwardIp := wrapper.forwardIp.onValue setForwardIp text
  userAgent := wrapper.userAgent.onValue setUserAgent text
  contentType := wrapper.contentType.onValue setContentType text
  contentLen := wrapper.contentLen.onValue setContentLen text
  host := wrapper.host.onValue setHost text

/-- One header field: a call of each callback. -/
def header (wrapper : Wrapper) (header : Header) : Wrapper :=
  (wrapper.onHeaderField header.at).onHeaderValue header.value

/-- The members and flags as `ParseHttpContent` clears them. -/
def cleared : Wrapper :=
  ⟨⟨false, []⟩, ⟨false, []⟩, ⟨false, []⟩, ⟨false, []⟩, ⟨false, 0⟩, ⟨false, []⟩⟩

/-- `ParseHttpContent` on a request with these header fields. -/
def parseHttpContent (headers : List Header) : Wrapper :=
  headers.foldl header cleared

end Wrapper

/-! ## What is meant to be kept -/

/-- The field has exactly this name, up to case. -/
def Header.isNamed (name : Str) (header : Header) : Bool :=
  decide (header.name.map toLower = name.map toLower)

/-- The field has a name that starts with this one, up to case. -/
def Header.startsWith (name : Str) (header : Header) : Bool :=
  (name.map toLower).isPrefixOf (header.name.map toLower)

/-- The first field of a name with a value that is not empty. -/
def firstNamed (name : Str) (headers : List Header) : Option Header :=
  headers.find? fun header => header.isNamed name && header.value ≠ []

/-- The text to keep for a name: nothing when there is no such field. -/
def meantText (name : Str) (cut : Str → Str) (headers : List Header) : Str :=
  match firstNamed name headers with
  | none => []
  | some header => cut header.value

def meantNumber (name : Str) (headers : List Header) : Int :=
  match firstNamed name headers with
  | none => 0
  | some header => leadingNumber (cStr header.value)

/-- The members hold what the fields of their names say. -/
structure Exact (headers : List Header) (wrapper : Wrapper) : Prop where
  host : wrapper.host.value = meantText (ascii "Host") id headers
  referer : wrapper.referer.value =
    meantText (ascii "Referer") (List.take 32) headers
  forwardIp : wrapper.forwardIp.value =
    meantText (ascii "X-Forwarded-For") id headers
  userAgent : wrapper.userAgent.value =
    meantText (ascii "User-Agent") id headers
  contentType : wrapper.contentType.value =
    meantText (ascii "Content-Type") id headers
  contentLen : (wrapper.contentLen.value : Int) =
    meantNumber (ascii "Content-Length") headers

/-- The first field whose name starts with this one and whose value is not
empty. -/
def firstStarting (name : Str) (headers : List Header) : Option Header :=
  headers.find? fun header => header.startsWith name && header.value ≠ []

/-- The first field with a value whose name starts with this one has exactly
this name, or at least the same value as the first that has. -/
def Unshadowed (name : Str) (cut : Str → Str) (headers : List Header) :
    Prop :=
  ∀ header, firstStarting name headers = some header →
    header.isNamed name ∨
      ∃ named, firstNamed name headers = some named ∧
        cut header.value = cut named.value

/-- The first field whose name starts with `Content-Length` and whose number is
not zero as a `uint32_t`. -/
def firstCounted (headers : List Header) : Option Header :=
  headers.find? fun header =>
    header.startsWith (ascii "Content-Length") &&
      uint32OfText header.value ≠ 0

/-- The length fits into a `uint32_t`, and the first field that counts has
that number. -/
def LengthUnshadowed (headers : List Header) : Prop :=
  0 ≤ meantNumber (ascii "Content-Length") headers ∧
    meantNumber (ascii "Content-Length") headers < 2 ^ 32 ∧
    ∀ header, firstCounted headers = some header →
      (uint32OfText header.value : Int) =
        meantNumber (ascii "Content-Length") headers

/-- No field takes the place of another. -/
structure AllUnshadowed (headers : List Header) : Prop where
  host : Unshadowed (ascii "Host") id headers
  referer : Unshadowed (ascii "Referer") (List.take 32) headers
  forwardIp : Unshadowed (ascii "X-Forwarded-For") id headers
  userAgent : Unshadowed (ascii "User-Agent") id headers
  contentType : Unshadowed (ascii "Content-Type") id headers
  contentLen : LengthUnshadowed headers

/-! ## One member -/

/-- A name without a colon is compared with the name of the field only. -/
theorem strncasecmpEq_at {name : Str} (noColon : Byte.colon ∉ name.map toLower)
    (header : Header) :
    strncasecmpEq header.at name = header.startsWith name := by
  rw [Bool.eq_iff_iff, strncasecmpEq, decide_eq_true_iff, Header.startsWith,
    List.isPrefixOf_iff_prefix, Header.at, List.map_take, List.map_append,
    List.map_cons]
  have size : name.length = (name.map toLower).length := by
    rw [List.length_map]
  rw [size, eq_comm, ← List.prefix_iff_eq_take]
  constructor
  · intro inBuffer
    rcases List.prefix_or_prefix_of_prefix inBuffer
      (List.prefix_append _ _) with inName | beyond
    · exact inName
    · obtain ⟨rest, isRest⟩ := beyond
      rw [← isRest] at inBuffer noColon ⊢
      rw [List.prefix_append_right_inj] at inBuffer
      cases rest with
      | nil => rw [List.append_nil]
      | cons byte rest =>
          have atColon : byte = Byte.colon :=
            (List.cons_prefix_cons.mp inBuffer).1
          exact absurd (by simp [atColon]) noColon
  · intro inName
    exact inName.trans (List.prefix_append _ _)

section Slots

variable {Value : Type} [DecidableEq Value] {name : Str} {missing : Value}
  {set : Value → Str → Value}

theorem read_unset (noColon : Byte.colon ∉ name.map toLower) (value : Value)
    (header : Header) :
    Slot.read name missing set ⟨false, value⟩ header =
      ⟨false, if value = missing ∧ header.startsWith name then
        set missing header.value else value⟩ := by
  rw [Slot.read, Slot.onField, strncasecmpEq_at noColon]
  simp only
  split
  · rename_i both
    rw [both.1]
    rfl
  · rfl

/-- What is there stays. -/
theorem foldl_read_present (noColon : Byte.colon ∉ name.map toLower)
    {value : Value} (present : value ≠ missing) (headers : List Header) :
    headers.foldl (Slot.read name missing set) ⟨false, value⟩ =
      ⟨false, value⟩ := by
  induction headers with
  | nil => rfl
  | cons header headers induction =>
      rw [List.foldl_cons, read_unset noColon, if_neg (present ·.1)]
      exact induction

/-- A member is what the first field gives that matches and gives
something. -/
theorem foldl_read (noColon : Byte.colon ∉ name.map toLower)
    (headers : List Header) :
    headers.foldl (Slot.read name missing set) ⟨false, missing⟩ =
      ⟨false,
        match headers.find? fun header =>
          header.startsWith name && set missing header.value ≠ missing with
        | none => missing
        | some header => set missing header.value⟩ := by
  induction headers with
  | nil => rfl
  | cons header headers induction =>
      rw [List.foldl_cons, read_unset noColon, List.find?_cons]
      by_cases matching : header.startsWith name = true
      · rw [if_pos ⟨rfl, matching⟩, matching, Bool.true_and]
        by_cases nothing : set missing header.value = missing
        · simp only [nothing, ne_eq, not_true_eq_false, decide_false]
          exact induction
        · rw [foldl_read_present noColon nothing, decide_eq_true nothing]
      · rw [if_neg (matching ·.2), Bool.of_not_eq_true matching,
          Bool.false_and]
        exact induction

end Slots

theorem Header.startsWith_of_isNamed {name : Str} {header : Header}
    (named : header.isNamed name = true) : header.startsWith name = true := by
  rw [isNamed, decide_eq_true_iff] at named
  rw [startsWith, named, List.isPrefixOf_iff_prefix]

/-- The first of many is the first of some of them, when it belongs to
them. -/
theorem find?_of_imp {α : Type} {some_of all : α → Bool} {items : List α}
    {item : α} (found : items.find? all = some item)
    (belongs : some_of item = true)
    (fewer : ∀ item, some_of item = true → all item = true) :
    items.find? some_of = some item := by
  rw [List.find?_eq_some_iff_append] at found ⊢
  obtain ⟨-, before, behind, split, none_before⟩ := found
  refine ⟨belongs, before, behind, split, ?_⟩
  intro other member
  have not_all := none_before other member
  rw [Bool.not_eq_true'] at not_all ⊢
  exact Bool.of_not_eq_true fun isOne =>
    Bool.false_ne_true (not_all.symm.trans (fewer other isOne))

theorem firstNamed_of_firstStarting {name : Str} {headers : List Header}
    {header : Header} (first : firstStarting name headers = some header)
    (named : header.isNamed name = true) :
    firstNamed name headers = some header := by
  have has_value := List.find?_some first
  rw [Bool.and_eq_true] at has_value
  apply find?_of_imp first
  · rw [Bool.and_eq_true]
    exact ⟨named, has_value.2⟩
  · intro other both
    rw [Bool.and_eq_true] at both ⊢
    exact ⟨other.startsWith_of_isNamed both.1, both.2⟩

theorem firstNamed_of_none {name : Str} {headers : List Header}
    (nothing : firstStarting name headers = none) :
    firstNamed name headers = none := by
  rw [firstStarting, List.find?_eq_none] at nothing
  rw [firstNamed, List.find?_eq_none]
  intro header member both
  rw [Bool.and_eq_true] at both
  apply nothing header member
  rw [Bool.and_eq_true]
  exact ⟨header.startsWith_of_isNamed both.1, both.2⟩

/-- A text is the one that is meant exactly when no other field comes
first. -/
theorem text_iff_unshadowed {name : Str} {set : Str → Str → Str}
    {cut : Str → Str} (noColon : Byte.colon ∉ name.map toLower)
    (sets : ∀ text, set [] text = cut text)
    (keeps : ∀ text, cut text = [] ↔ text = []) (headers : List Header) :
    (headers.foldl (Slot.read name [] set) ⟨false, []⟩).value =
        meantText name cut headers ↔
      Unshadowed name cut headers := by
  have first : (headers.find? fun header =>
      header.startsWith name && set [] header.value ≠ []) =
        firstStarting name headers := by
    rw [firstStarting]
    congr 1
    funext header
    rw [sets, decide_eq_decide.mpr (not_congr (keeps header.value))]
  rw [foldl_read noColon, first, Unshadowed, meantText]
  cases starting : firstStarting name headers with
  | none =>
      rw [firstNamed_of_none starting]
      apply iff_of_true rfl
      intro header impossible
      cases impossible
  | some header =>
      simp only [sets, Option.some.injEq, forall_eq']
      constructor
      · intro same
        right
        cases named : firstNamed name headers with
        | none =>
            have has_value := List.find?_some starting
            rw [named] at same
            rw [Bool.and_eq_true, decide_eq_true_iff] at has_value
            exact absurd ((keeps _).mp same) has_value.2
        | some other =>
            rw [named] at same
            exact ⟨other, rfl, same⟩
      · rintro (named | ⟨other, isFirst, same⟩)
        · rw [firstNamed_of_firstStarting starting named]
        · rw [isFirst]
          exact same

theorem uint32OfText_lt (text : Str) : uint32OfText text < 2 ^ 32 := by
  rw [uint32OfText]
  omega

theorem uint32OfText_eq {text : Str}
    (positive : 0 ≤ leadingNumber (cStr text))
    (small : leadingNumber (cStr text) < 2 ^ 32) :
    (uint32OfText text : Int) = leadingNumber (cStr text) := by
  rw [uint32OfText, Mysql.getInt]
  generalize leadingNumber (cStr text) = number at positive small ⊢
  have inside : max (-2 ^ 63) (min number (2 ^ 63 - 1)) = number := by omega
  have wrapped : number.bmod (2 ^ 32) % 2 ^ 32 = number % 2 ^ 32 :=
    Int.bmod_emod
  rw [inside, wrapped]
  omega

/-- The same for the length. -/
theorem length_iff_unshadowed (headers : List Header) :
    ((headers.foldl (Slot.read (ascii "Content-Length") 0 setContentLen)
        ⟨false, 0⟩).value : Int) =
        meantNumber (ascii "Content-Length") headers ↔
      LengthUnshadowed headers := by
  have first : (headers.find? fun header =>
      header.startsWith (ascii "Content-Length") &&
        setContentLen 0 header.value ≠ 0) = firstCounted headers := rfl
  rw [foldl_read (by decide), first, LengthUnshadowed]
  cases counted : firstCounted headers with
  | some header =>
      simp only [setContentLen, Option.some.injEq, forall_eq']
      constructor
      · intro same
        have below := uint32OfText_lt header.value
        exact ⟨by omega, by omega, same⟩
      · rintro ⟨-, -, same⟩
        exact same
  | none =>
      constructor
      · intro same
        rw [← same]
        refine ⟨Int.le_refl 0, by decide, ?_⟩
        intro header impossible
        cases impossible
      · rintro ⟨positive, small, -⟩
        rw [meantNumber] at positive small ⊢
        cases named : firstNamed (ascii "Content-Length") headers with
        | none => rfl
        | some header =>
            rw [named] at positive small
            have number := uint32OfText_eq positive small
            have isNamed := List.find?_some named
            rw [Bool.and_eq_true] at isNamed
            have not_counted := List.find?_eq_none.mp counted header
              (List.mem_of_find?_eq_some named)
            rw [header.startsWith_of_isNamed isNamed.1, Bool.true_and,
              decide_eq_true_iff, not_not] at not_counted
            rw [not_counted] at number
            exact number

theorem setReferer_nil (text : Str) : setReferer [] text = text.take 32 := by
  rw [setReferer, List.nil_append]
  split
  · rfl
  · rename_i short
    rw [List.take_length, List.take_of_length_le (Nat.le_of_not_lt short)]

theorem take_eq_nil (text : Str) : text.take 32 = [] ↔ text = [] := by
  rw [List.take_eq_nil_iff]
  exact or_iff_right (by decide)

/-- Each member goes its own way through the fields. -/
theorem member_eq {Value : Type} [DecidableEq Value]
    (member : Wrapper → Slot Value) {name : Str} {missing : Value}
    {set : Value → Str → Value}
    (cleared : member Wrapper.cleared = ⟨false, missing⟩)
    (reads : ∀ wrapper header,
      Slot.read name missing set (member wrapper) header =
        member (wrapper.header header)) (headers : List Header) :
    member (Wrapper.parseHttpContent headers) =
      headers.foldl (Slot.read name missing set) ⟨false, missing⟩ := by
  rw [Wrapper.parseHttpContent, ← cleared]
  exact (List.foldl_hom member reads).symm

theorem member_iff_unshadowed (member : Wrapper → Slot Str) {name : Str}
    {set : Str → Str → Str} (cut : Str → Str)
    (cleared : member Wrapper.cleared = ⟨false, []⟩)
    (reads : ∀ wrapper header, Slot.read name [] set (member wrapper) header =
      member (wrapper.header header))
    (noColon : Byte.colon ∉ name.map toLower)
    (sets : ∀ text, set [] text = cut text)
    (keeps : ∀ text, cut text = [] ↔ text = []) (headers : List Header) :
    (member (Wrapper.parseHttpContent headers)).value =
        meantText name cut headers ↔
      Unshadowed name cut headers := by
  rw [member_eq member cleared reads]
  exact text_iff_unshadowed noColon sets keeps headers

/-- The members are the values of their fields exactly when no field takes the
place of another. -/
theorem exact_iff_allUnshadowed (headers : List Header) :
    Exact headers (Wrapper.parseHttpContent headers) ↔
      AllUnshadowed headers := by
  have host := member_iff_unshadowed Wrapper.host id rfl (fun _ _ => rfl)
    (by decide) (fun _ => rfl) (fun _ => Iff.rfl) headers
  have referer := member_iff_unshadowed Wrapper.referer (List.take 32) rfl
    (fun _ _ => rfl) (by decide) setReferer_nil take_eq_nil headers
  have forwardIp := member_iff_unshadowed Wrapper.forwardIp id rfl
    (fun _ _ => rfl) (by decide) (fun _ => rfl) (fun _ => Iff.rfl) headers
  have userAgent := member_iff_unshadowed Wrapper.userAgent id rfl
    (fun _ _ => rfl) (by decide) (fun _ => rfl) (fun _ => Iff.rfl) headers
  have contentType := member_iff_unshadowed Wrapper.contentType id rfl
    (fun _ _ => rfl) (by decide) (fun _ => rfl) (fun _ => Iff.rfl) headers
  have contentLen := length_iff_unshadowed headers
  rw [← member_eq Wrapper.contentLen rfl fun _ _ => rfl] at contentLen
  constructor
  · intro exact
    exact ⟨host.mp exact.host, referer.mp exact.referer,
      forwardIp.mp exact.forwardIp, userAgent.mp exact.userAgent,
      contentType.mp exact.contentType, contentLen.mp exact.contentLen⟩
  · intro unshadowed
    exact ⟨host.mpr unshadowed.host, referer.mpr unshadowed.referer,
      forwardIp.mpr unshadowed.forwardIp, userAgent.mpr unshadowed.userAgent,
      contentType.mpr unshadowed.contentType,
      contentLen.mpr unshadowed.contentLen⟩

/-- A field whose name only starts with `Host`, in front of the host. -/
def hostname : List Header :=
  [⟨ascii "Hostname", ascii "x", ascii " x"⟩,
    ⟨ascii "Host", ascii "y", ascii " y"⟩]

theorem hostname_taken :
    ¬ Exact hostname (Wrapper.parseHttpContent hostname) := by
  intro exact
  have taken : (Wrapper.parseHttpContent hostname).host.value = ascii "x" := by
    decide +kernel
  have meant : meantText (ascii "Host") id hostname = ascii "y" := by
    decide +kernel
  have same := exact.host
  rw [taken, meant] at same
  revert same
  decide

end HeaderCapture

end ChatRoom
