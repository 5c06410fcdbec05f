import ChatRoom.Base.Search
import ChatRoom.Lib.BoundedLines
import Mathlib.Algebra.BigOperators.Group.List.Lemmas
import Mathlib.Data.List.DropRight

/-!
# The configuration file

`_LoadFile` reads lines into a buffer of 256 bytes, `_WriteFIle` writes them
through one of 128 bytes, which cuts off the end of the line as well.
-/

namespace ChatRoom

namespace ConfigFile

open Lib.BoundedLines

@[simp] abbrev hash : UInt8 := 35

/-- `config_map_`, in the order of its keys. -/
abbrev ConfigMap := Std.TreeMap Str Str

def isBlank (byte : UInt8) : Bool := byte = 32 || byte = 9

/-- `_TrimSpace`; `none` for NULL. -/
def trimSpace (name : Str) : Option Str :=
  let start := name.dropWhile isBlank
  if start = [] then none else some (List.rdropWhile isBlank start)

/-- `_ParseLine`; the first value of a key stays. -/
def parseLine (configMap : ConfigMap) (line : Str) : ConfigMap :=
  match splitFirst [Byte.equals] line with
  | none => configMap
  | some (front, behind) =>
      match trimSpace front, trimSpace behind with
      | some key, some value => configMap.insertIfNew key value
      | _, _ => configMap

/-- What the loop of `_LoadFile` does with its buffer; `none` when the buffer
starts with a NUL, where `buf[len - 1]` stands in front of it. -/
def loadLine (configMap : ConfigMap) (buf : Str) : Option ConfigMap :=
  match (cStr buf).getLast? with
  | none => none
  | some last =>
      let line := if last = Byte.lf then (cStr buf).dropLast else cStr buf
      let line := line.takeWhile (· ≠ hash)
      if line = [] then some configMap else some (parseLine configMap line)

/-- `_LoadFile` on the contents of the file: `fgets(buf, 256, fp)` until the
file ends. -/
def loadFile (file : Str) : Option ConfigMap :=
  (pieces Byte.lf 255 [] file).foldlM loadLine ∅

/-- `szPaire` after `snprintf(szPaire, 128, "%s=%s\n", ...)`. -/
def szPaire (entry : Str × Str) : Str :=
  (cStr entry.1 ++ [Byte.equals] ++ cStr entry.2 ++ [Byte.lf]).take 127

/-- What the disk does: whether `fopen` succeeds, and each `fwrite`. -/
structure Disk where
  opens : Bool
  writes : ℕ → Bool

/-- The loop of `_WriteFIle`: its return value and what is in the file. -/
def writeEntries (disk : Disk) (file : Str) (index : ℕ) :
    List (Str × Str) → Int × Str
  | [] => (0, file)
  | entry :: entries =>
      if disk.writes index ∧ szPaire entry ≠ [] then
        writeEntries disk (file ++ szPaire entry) (index + 1) entries
      else (-1, file)

/-- `_WriteFIle`, over a file with these contents. -/
def writeFile (disk : Disk) (file : Str) (configMap : ConfigMap) : Int × Str :=
  if disk.opens then writeEntries disk [] 0 configMap.toList else (-1, file)

/-- `SetConfigValue` on a loaded configuration: the map, the return value and
what is in the file then. -/
def setConfigValue (disk : Disk) (file : Str) (configMap : ConfigMap)
    (name value : Str) : ConfigMap × Int × Str :=
  let updated := configMap.insert name value
  (updated, writeFile disk file updated)

/-! ## Settings -/

/-- A text that a line can hold: not empty, no blank at its ends, no `#`, no
end of line and no NUL. -/
structure Plain (text : Str) : Prop where
  nonempty : text ≠ []
  first : ∀ byte ∈ text.head?, isBlank byte = false
  last : ∀ byte ∈ text.getLast?, isBlank byte = false
  noHash : hash ∉ text
  noLf : Byte.lf ∉ text
  noNul : Byte.nul ∉ text

structure WellFormed (entry : Str × Str) : Prop where
  key : Plain entry.1
  noEquals : Byte.equals ∉ entry.1
  value : Plain entry.2

/-- A configuration that has been loaded from a file. -/
structure Loaded where
  file : Str
  configMap : ConfigMap
  loads : loadFile file = some configMap

/-- A name and a value to set. -/
structure Setting where
  name : Str
  value : Str
  wellFormed : WellFormed (name, value)

/-- When `SetConfigValue` returns 0, the file loads again, with the value for
the name and every other key as it was. -/
def Survives (config : Loaded) (setting : Setting) : Prop :=
  ∀ disk updated file,
    setConfigValue disk config.file config.configMap setting.name
        setting.value = (updated, 0, file) →
      ∃ reloaded, loadFile file = some reloaded ∧
        reloaded[setting.name]? = some setting.value ∧
        ∀ key, key ≠ setting.name → reloaded[key]? = config.configMap[key]?

/-- The length of a line with its end. -/
def lineLength (entry : Str × Str) : ℕ := entry.1.length + entry.2.length + 2

/-- Every line fits into the buffer of `_WriteFIle`; the end of the last one
need not. -/
def LinesFit (configMap : ConfigMap) : Prop :=
  (∀ entry ∈ configMap.toList.dropLast, lineLength entry ≤ 127) ∧
    ∀ entry ∈ configMap.toList.getLast?, lineLength entry ≤ 128

/-! ## Lines -/

theorem trimSpace_plain {text : Str} (plain : Plain text) :
    trimSpace text = some text := by
  have noneInFront : text.dropWhile isBlank = text := by
    apply List.dropWhile_eq_self_iff.mpr
    intro positive
    have first := plain.first text[0] (by simp [List.head?_eq_getElem?])
    rw [first]
    exact Bool.false_ne_true
  have noneBehind : List.rdropWhile isBlank text = text := by
    apply List.rdropWhile_eq_self_iff.mpr
    intro nonempty
    rw [plain.last _ (List.getLast?_eq_some_getLast nonempty)]
    exact Bool.false_ne_true
  rw [trimSpace, noneInFront, if_neg plain.nonempty, noneBehind]

/-- What `_TrimSpace` leaves has no blanks at its ends. -/
theorem trimSpace_spec {name text : Str} (trimmed : trimSpace name = some text) :
    text ≠ [] ∧ (∀ byte ∈ text.head?, isBlank byte = false) ∧
      (∀ byte ∈ text.getLast?, isBlank byte = false) ∧ text.Sublist name := by
  rw [trimSpace] at trimmed
  split at trimmed
  · cases trimmed
  · rename_i something
    cases trimmed
    have first := List.head_dropWhile_not isBlank something
    have nonempty : List.rdropWhile isBlank (name.dropWhile isBlank) ≠ [] := by
      intro empty
      have blank := List.rdropWhile_eq_nil_iff.mp empty _
        (List.head_mem something)
      rw [first] at blank
      cases blank
    have front := List.rdropWhile_prefix isBlank (name.dropWhile isBlank)
    refine ⟨nonempty, ?_, ?_, front.sublist.trans (List.dropWhile_sublist _)⟩
    · intro byte isFirst
      rw [List.head?_eq_some_head nonempty] at isFirst
      cases isFirst
      rw [List.IsPrefix.head front nonempty, first]
    · intro byte isLast
      rw [List.getLast?_eq_some_getLast nonempty] at isLast
      cases isLast
      exact Bool.of_not_eq_true (List.rdropWhile_last_not isBlank _ nonempty)

theorem mem_dropLast_of_prefix {front text : Str} {byte : UInt8}
    (isPrefix : front <+: text) (member : byte ∈ front.dropLast) :
    byte ∈ text.dropLast := by
  obtain ⟨rest, rfl⟩ := isPrefix
  rw [List.dropLast_append]
  split
  · exact member
  · exact List.mem_append_left _ (List.dropLast_subset _ member)

/-- The bytes that `_ParseLine` sees are bytes of the buffer, without the ones
that end a line. -/
theorem line_spec {buf line : Str} {last : UInt8}
    (isLast : (cStr buf).getLast? = some last)
    (isLine : line = List.takeWhile (· ≠ hash)
      (if last = Byte.lf then (cStr buf).dropLast else cStr buf)) :
    line.length ≤ buf.length ∧ hash ∉ line ∧ Byte.nul ∉ line ∧
      (Byte.lf ∉ buf.dropLast → Byte.lf ∉ line) := by
  subst isLine
  have ofC : (if last = Byte.lf then (cStr buf).dropLast else cStr buf).Sublist
      (cStr buf) := by
    split
    · exact List.dropLast_sublist _
    · exact List.Sublist.refl _
  have sub := (List.takeWhile_sublist (· ≠ hash)).trans ofC
  refine ⟨?_, ?_, ?_, ?_⟩
  · exact sub.length_le.trans (List.takeWhile_sublist _).length_le
  · intro member
    have different := List.mem_takeWhile_imp member
    simp at different
  · exact fun member => nul_not_mem_cStr buf (sub.subset member)
  · intro noLf member
    have inside := (List.takeWhile_sublist _).subset member
    apply noLf
    apply mem_dropLast_of_prefix (List.takeWhile_prefix _)
    split at inside
    · exact inside
    · rename_i different
      -- what is not the last byte stands in front of it
      rw [← List.dropLast_append_getLast? last isLast] at inside
      rcases List.mem_append.mp inside with before | atEnd
      · exact before
      · exact absurd (List.mem_singleton.mp atEnd).symm different

/-- A line adds at most one entry, which it has room for; an entry from a
piece of a file is well formed. -/
theorem loadLine_cases {configMap next : ConfigMap} {buf : Str}
    (loaded : loadLine configMap buf = some next) :
    next = configMap ∨ ∃ key value, next = configMap.insertIfNew key value ∧
      key.length + 1 + value.length ≤ buf.length ∧
      (Byte.lf ∉ buf.dropLast → WellFormed (key, value)) := by
  rw [loadLine] at loaded
  split at loaded
  · cases loaded
  · rename_i last isLast
    obtain ⟨size, noHash, noNul, noLf⟩ := line_spec isLast rfl
    simp only at loaded
    generalize List.takeWhile (· ≠ hash)
      (if last = Byte.lf then (cStr buf).dropLast else cStr buf) = line
      at loaded size noHash noNul noLf
    split at loaded
    · cases loaded
      exact .inl rfl
    · cases loaded
      rw [parseLine]
      split
      · exact .inl rfl
      · rename_i front behind isSplit
        split
        · rename_i key value isKey isValue
          right
          obtain ⟨keySome, keyFirst, keyLast, keySub⟩ := trimSpace_spec isKey
          obtain ⟨valueSome, valueFirst, valueLast, valueSub⟩ :=
            trimSpace_spec isValue
          obtain ⟨rfl, noEquals⟩ := splitFirst_byte_iff.mp isSplit
          refine ⟨key, value, rfl, ?_, ?_⟩
          · have keyFits := keySub.length_le
            have valueFits := valueSub.length_le
            simp only [List.length_append, List.length_cons] at size
            omega
          · intro inside
            have keyIn : ∀ byte ∈ key, byte ∈ front ++ Byte.equals :: behind :=
              fun byte member => List.mem_append_left _ (keySub.subset member)
            have valueIn : ∀ byte ∈ value,
                byte ∈ front ++ Byte.equals :: behind :=
              fun byte member => List.mem_append_right _
                (List.mem_cons_of_mem _ (valueSub.subset member))
            exact {
              key := ⟨keySome, keyFirst, keyLast, fun member =>
                noHash (keyIn _ member), fun member =>
                noLf inside (keyIn _ member), fun member =>
                noNul (keyIn _ member)⟩
              noEquals := fun member => noEquals (keySub.subset member)
              value := ⟨valueSome, valueFirst, valueLast, fun member =>
                noHash (valueIn _ member), fun member =>
                noLf inside (valueIn _ member), fun member =>
                noNul (valueIn _ member)⟩ }
        · exact .inl rfl

/-! ## Maps where the first value stays -/

section Maps

/-- The loop of `_LoadFile` over good lines. -/
def insertAll (configMap : ConfigMap) (entries : List (Str × Str)) : ConfigMap :=
  entries.foldl (fun configMap entry => configMap.insertIfNew entry.1 entry.2)
    configMap

theorem getElem?_insertIfNew_iff {configMap : ConfigMap} {key value : Str}
    {name found : Str} :
    (configMap.insertIfNew key value)[name]? = some found ↔
      configMap[name]? = some found ∨
        (configMap[key]? = none ∧ key = name ∧ value = found) := by
  rw [Std.TreeMap.getElem?_insertIfNew]
  split
  · rename_i fresh
    obtain ⟨same, absent⟩ := fresh
    have missing := Std.TreeMap.getElem?_eq_none absent
    rw [Std.LawfulEqCmp.compare_eq_iff_eq] at same
    subst same
    rw [missing, Option.some.injEq]
    simp
  · rename_i taken
    refine (or_iff_left ?_).symm
    rintro ⟨missing, rfl, -⟩
    apply taken
    refine ⟨Std.ReflCmp.compare_self, ?_⟩
    intro member
    rw [Std.TreeMap.mem_iff_isSome_getElem?, missing] at member
    cases member

/-- Entries with different keys that are new are all there. -/
theorem getElem?_insertAll_iff {configMap : ConfigMap}
    {entries : List (Str × Str)} {name found : Str}
    (distinct : (entries.map Prod.fst).Nodup)
    (fresh : ∀ entry ∈ entries, configMap[entry.1]? = none) :
    (insertAll configMap entries)[name]? = some found ↔
      configMap[name]? = some found ∨ (name, found) ∈ entries := by
  induction entries generalizing configMap with
  | nil => simp [insertAll]
  | cons entry entries induction =>
      obtain ⟨firstFresh, othersFresh⟩ := List.forall_mem_cons.mp fresh
      rw [List.map_cons, List.nodup_cons] at distinct
      have stillFresh : ∀ other ∈ entries,
          (configMap.insertIfNew entry.1 entry.2)[other.1]? = none := by
        intro other member
        rw [Option.eq_none_iff_forall_ne_some]
        intro value present
        rcases getElem?_insertIfNew_iff.mp present with before | ⟨-, same, -⟩
        · rw [othersFresh other member] at before
          cases before
        · apply distinct.1
          rw [same]
          exact List.mem_map_of_mem member
      have step := induction distinct.2 stillFresh
      rw [insertAll, List.foldl_cons, ← insertAll, step,
        getElem?_insertIfNew_iff, or_assoc, List.mem_cons]
      have atEntry : configMap[entry.1]? = none ∧ entry.1 = name ∧
          entry.2 = found ↔ (name, found) = entry := by
        rw [Prod.ext_iff]
        constructor
        · rintro ⟨-, isName, isFound⟩
          exact ⟨isName.symm, isFound.symm⟩
        · rintro ⟨isName, isFound⟩
          exact ⟨firstFresh, isName.symm, isFound.symm⟩
      rw [atEntry]

theorem nodup_keys (configMap : ConfigMap) :
    (configMap.toList.map Prod.fst).Nodup := by
  rw [Std.TreeMap.map_fst_toList_eq_keys]
  exact Std.TreeMap.nodup_keys

/-- Maps with the same values have the same number of entries. -/
theorem length_toList_eq {left right : ConfigMap}
    (same : ∀ key : Str, left[key]? = right[key]?) :
    left.toList.length = right.toList.length := by
  have equivalent := Std.TreeMap.Equiv.of_forall_constGet?_eq same
  rw [Std.TreeMap.length_toList, Std.TreeMap.length_toList, equivalent.size_eq]

end Maps

/-! ## Loading and writing whole files -/

/-- What loading pieces keeps: entries that are well formed, and no more than
there are pieces. -/
theorem foldlM_loadLine {lines : List Str} {configMap loaded : ConfigMap}
    (noLf : ∀ line ∈ lines, Byte.lf ∉ line.dropLast)
    (formed : ∀ key value, configMap[key]? = some value →
      WellFormed (key, value))
    (loads : lines.foldlM loadLine configMap = some loaded) :
    loaded.size ≤ configMap.size + lines.length ∧
      ∀ key value, loaded[key]? = some value → WellFormed (key, value) := by
  induction lines generalizing configMap with
  | nil =>
      cases loads
      exact ⟨Nat.le_refl _, formed⟩
  | cons line lines induction =>
      obtain ⟨lineNoLf, othersNoLf⟩ := List.forall_mem_cons.mp noLf
      rw [List.foldlM_cons, Option.bind_eq_bind, Option.bind_eq_some_iff]
        at loads
      obtain ⟨next, first, others⟩ := loads
      rw [List.length_cons]
      rcases loadLine_cases first with rfl | ⟨key, value, rfl, -, isFormed⟩
      · obtain ⟨size, good⟩ := induction othersNoLf formed others
        exact ⟨by omega, good⟩
      · have stillFormed : ∀ name found,
            (configMap.insertIfNew key value)[name]? = some found →
              WellFormed (name, found) := by
          intro name found present
          rcases getElem?_insertIfNew_iff.mp present with
            before | ⟨-, rfl, rfl⟩
          · exact formed name found before
          · exact isFormed lineNoLf
        obtain ⟨size, good⟩ := induction othersNoLf stillFormed others
        have grows : (configMap.insertIfNew key value).size ≤
            configMap.size + 1 := Std.TreeMap.size_insertIfNew_le
        exact ⟨by omega, good⟩

/-- Loading a file gives well-formed entries, at most one for each piece. -/
theorem loadFile_spec {file : Str} {loaded : ConfigMap}
    (loads : loadFile file = some loaded) :
    loaded.size ≤ (pieces Byte.lf 255 [] file).length ∧
      ∀ key value, loaded[key]? = some value → WellFormed (key, value) := by
  rw [loadFile] at loads
  have spec := foldlM_loadLine (fun line member =>
    newline_not_mem_dropLast List.not_mem_nil member) (by simp) loads
  rw [Std.TreeMap.size_emptyc, Nat.zero_add] at spec
  exact spec

theorem writeEntries_spec {disk : Disk} {entries : List (Str × Str)}
    {file written : Str} {index : ℕ}
    (wrote : writeEntries disk file index entries = (0, written)) :
    written = file ++ (entries.map szPaire).flatten := by
  induction entries generalizing file index with
  | nil =>
      cases wrote
      exact (List.append_nil _).symm
  | cons entry entries induction =>
      rw [writeEntries] at wrote
      split at wrote
      · rw [induction wrote, List.append_assoc, List.map_cons,
          List.flatten_cons]
      · cases wrote

theorem szPaire_ne_nil (entry : Str × Str) : szPaire entry ≠ [] := by
  intro empty
  rw [szPaire, List.take_eq_nil_iff] at empty
  simp at empty

/-- On a good disk everything is written. -/
theorem writeEntries_good {entries : List (Str × Str)} {file : Str}
    {index : ℕ} :
    writeEntries ⟨true, fun _ => true⟩ file index entries =
      (0, file ++ (entries.map szPaire).flatten) := by
  induction entries generalizing file index with
  | nil =>
      rw [writeEntries, List.map_nil, List.flatten_nil, List.append_nil]
  | cons entry entries induction =>
      rw [writeEntries, if_pos ⟨rfl, szPaire_ne_nil entry⟩, induction,
        List.append_assoc, List.map_cons, List.flatten_cons]

/-! ## One entry -/

/-- The line of an entry without its end. -/
def entryText (entry : Str × Str) : Str :=
  entry.1 ++ Byte.equals :: entry.2

theorem length_entryText (entry : Str × Str) :
    (entryText entry).length + 1 = lineLength entry := by
  rw [entryText, lineLength, List.length_append, List.length_cons]
  omega

variable {entry : Str × Str}

theorem not_mem_entryText {byte : UInt8} (different : byte ≠ Byte.equals)
    (notKey : byte ∉ entry.1) (notValue : byte ∉ entry.2) :
    byte ∉ entryText entry := by
  rw [entryText, List.mem_append, List.mem_cons]
  rintro (inKey | isEquals | inValue)
  · exact notKey inKey
  · exact different isEquals
  · exact notValue inValue

theorem lf_not_mem_entryText (formed : WellFormed entry) :
    Byte.lf ∉ entryText entry :=
  not_mem_entryText (by decide) formed.key.noLf formed.value.noLf

theorem szPaire_eq (formed : WellFormed entry) :
    szPaire entry = (entryText entry ++ [Byte.lf]).take 127 := by
  rw [szPaire, cStr_eq_self formed.key.noNul, cStr_eq_self formed.value.noNul,
    entryText, List.append_assoc entry.1, List.singleton_append]

theorem szPaire_fits (formed : WellFormed entry)
    (fits : lineLength entry ≤ 127) :
    szPaire entry = entryText entry ++ [Byte.lf] := by
  have size := length_entryText entry
  rw [szPaire_eq formed]
  apply List.take_of_length_le
  rw [List.length_append, List.length_singleton]
  omega

/-- A line that does not fit loses its end at least. -/
theorem szPaire_cut (formed : WellFormed entry)
    (long : 127 < lineLength entry) :
    szPaire entry = (entryText entry).take 127 := by
  have size := length_entryText entry
  rw [szPaire_eq formed]
  exact List.take_append_of_le_length (by omega)

theorem szPaire_isShort (formed : WellFormed entry) :
    IsShort Byte.lf 127 (szPaire entry) where
  length_le := by
    rw [szPaire_eq formed]
    exact List.length_take_le _ _
  inside := by
    rw [szPaire_eq formed]
    intro member
    have inText := mem_dropLast_of_prefix (List.take_prefix 127 _) member
    rw [List.dropLast_concat] at inText
    exact lf_not_mem_entryText formed inText

theorem isWhole_szPaire_iff (formed : WellFormed entry) :
    IsWhole Byte.lf 255 (szPaire entry) ↔ lineLength entry ≤ 127 := by
  constructor
  · rintro ⟨text, isText, -, -⟩
    by_contra long
    rw [szPaire_cut formed (by omega)] at isText
    have member : Byte.lf ∈ (entryText entry).take 127 := by
      rw [isText]
      exact List.mem_append_right _ List.mem_cons_self
    exact lf_not_mem_entryText formed (List.mem_of_mem_take member)
  · intro fits
    have size := length_entryText entry
    exact ⟨entryText entry, szPaire_fits formed fits,
      lf_not_mem_entryText formed, by omega⟩

/-- A line alone is one piece. -/
theorem pieces_szPaire (formed : WellFormed entry) :
    pieces Byte.lf 255 [] (szPaire entry) = [szPaire entry] := by
  have size := length_entryText entry
  by_cases fits : lineLength entry ≤ 127
  · have whole := (isWhole_szPaire_iff formed).mpr fits
    have alone : ∀ line ∈ [szPaire entry], IsWhole Byte.lf 255 line := by
      intro line member
      rw [List.mem_singleton.mp member]
      exact whole
    have pieced : pieces Byte.lf 255 [] ([szPaire entry].flatten ++ []) =
        [szPaire entry] ++ pieces Byte.lf 255 [] [] := pieces_flatten alone
    rw [List.flatten_singleton, List.append_nil] at pieced
    exact pieced
  · have noLf : Byte.lf ∉ szPaire entry := by
      rw [szPaire_cut formed (by omega)]
      exact fun member =>
        lf_not_mem_entryText formed (List.mem_of_mem_take member)
    have short := (szPaire_isShort formed).length_le
    have waits : pieces Byte.lf 255 [] (szPaire entry ++ []) =
        pieces Byte.lf 255 (szPaire entry) [] :=
      pieces_append_nil noLf (by omega)
    rw [List.append_nil] at waits
    rw [waits, pieces, if_neg (szPaire_ne_nil entry)]

theorem parseLine_entryText (formed : WellFormed entry)
    (configMap : ConfigMap) :
    parseLine configMap (entryText entry) =
      configMap.insertIfNew entry.1 entry.2 := by
  rw [parseLine, entryText, splitFirst_byte formed.noEquals]
  simp only [trimSpace_plain formed.key, trimSpace_plain formed.value]

/-- A line that loses at most its end gives its entry back. -/
theorem loadLine_szPaire (formed : WellFormed entry)
    (fits : lineLength entry ≤ 128) (configMap : ConfigMap) :
    loadLine configMap (szPaire entry) =
      some (configMap.insertIfNew entry.1 entry.2) := by
  have size := length_entryText entry
  have noLf := lf_not_mem_entryText formed
  have noNul : Byte.nul ∉ entryText entry :=
    not_mem_entryText (by decide) formed.key.noNul formed.value.noNul
  have noHash : hash ∉ entryText entry :=
    not_mem_entryText (by decide) formed.key.noHash formed.value.noHash
  have uncut : (entryText entry).takeWhile (· ≠ hash) = entryText entry := by
    apply List.takeWhile_eq_self_iff.mpr
    intro byte member
    have different : byte ≠ hash := fun same => noHash (same ▸ member)
    simpa using different
  have nonempty : entryText entry ≠ [] := by
    rw [entryText]
    simp
  by_cases whole : lineLength entry ≤ 127
  · have noNulLine : Byte.nul ∉ entryText entry ++ [Byte.lf] := by
      simpa using noNul
    rw [szPaire_fits formed whole, loadLine, cStr_eq_self noNulLine,
      List.getLast?_concat]
    simp only [if_true, List.dropLast_concat, uncut, if_neg nonempty,
      parseLine_entryText formed]
  · have all : (entryText entry).take 127 = entryText entry :=
      List.take_of_length_le (by omega)
    have last_ne : (entryText entry).getLast nonempty ≠ Byte.lf := by
      intro isLf
      exact noLf (isLf ▸ List.getLast_mem nonempty)
    rw [szPaire_cut formed (by omega), all, loadLine, cStr_eq_self noNul,
      List.getLast?_eq_some_getLast nonempty]
    simp only [if_neg last_ne, uncut, if_neg nonempty,
      parseLine_entryText formed]

/-- Good lines load their entries. -/
theorem foldlM_szPaire {entries : List (Str × Str)}
    (formed : ∀ entry ∈ entries, WellFormed entry)
    (fits : ∀ entry ∈ entries, lineLength entry ≤ 128)
    (configMap : ConfigMap) :
    (entries.map szPaire).foldlM loadLine configMap =
      some (insertAll configMap entries) := by
  induction entries generalizing configMap with
  | nil => rfl
  | cons entry entries induction =>
      obtain ⟨firstFormed, othersFormed⟩ := List.forall_mem_cons.mp formed
      obtain ⟨firstFits, othersFit⟩ := List.forall_mem_cons.mp fits
      rw [List.map_cons, List.foldlM_cons,
        loadLine_szPaire firstFormed firstFits]
      exact induction othersFormed othersFit _

/-! ## The written file -/

/-- The contents of the file after a complete `_WriteFIle`. -/
def written (configMap : ConfigMap) : Str :=
  (configMap.toList.map szPaire).flatten

/-- The file loads again with the same values. -/
def ReadsBack (configMap : ConfigMap) : Prop :=
  ∃ reloaded, loadFile (written configMap) = some reloaded ∧
    ∀ key : Str, reloaded[key]? = configMap[key]?

section Written

variable {configMap : ConfigMap}
  (formed : ∀ entry ∈ configMap.toList, WellFormed entry)

include formed in
/-- Where only the last line may lack its end, every line is a piece. -/
theorem pieces_written {last : Str × Str}
    (isLast : configMap.toList.getLast? = some last)
    (fits : ∀ entry ∈ configMap.toList.dropLast, lineLength entry ≤ 127) :
    pieces Byte.lf 255 [] (written configMap) =
      configMap.toList.map szPaire := by
  have split := List.dropLast_append_getLast? last isLast
  have whole : ∀ line ∈ configMap.toList.dropLast.map szPaire,
      IsWhole Byte.lf 255 line := by
    intro line member
    obtain ⟨entry, inFront, rfl⟩ := List.mem_map.mp member
    exact (isWhole_szPaire_iff
      (formed entry (List.dropLast_subset _ inFront))).mpr
      (fits entry inFront)
  have lastFormed := formed last (List.mem_of_mem_getLast? isLast)
  rw [written, ← split, List.map_append, List.flatten_append,
    pieces_flatten whole, List.map_singleton, List.flatten_singleton,
    pieces_szPaire lastFormed]

include formed in
/-- With a piece for every entry, only the last line can lack its end. -/
theorem front_fits_of_length_le (enough : configMap.toList.length ≤
      (pieces Byte.lf 255 [] (written configMap)).length) :
    ∀ entry ∈ configMap.toList.dropLast, lineLength entry ≤ 127 := by
  have isShort : ∀ line ∈ configMap.toList.map szPaire,
      IsShort Byte.lf 127 line := by
    intro line member
    obtain ⟨entry, inMap, rfl⟩ := List.mem_map.mp member
    exact szPaire_isShort (formed entry inMap)
  rw [← List.length_map szPaire, written] at enough
  have whole := isWhole_of_length_le (by decide) isShort enough
  rw [← List.map_dropLast] at whole
  intro entry member
  exact (isWhole_szPaire_iff
    (formed entry (List.dropLast_subset _ member))).mp
    (whole _ (List.mem_map_of_mem member))

/-- The entries in front leave the last key free. -/
theorem last_not_in_front {last : Str × Str}
    (isLast : configMap.toList.getLast? = some last) (found : Str) :
    (insertAll ∅ configMap.toList.dropLast)[last.1]? ≠ some found := by
  intro present
  have distinct := nodup_keys configMap
  rw [← List.dropLast_append_getLast? last isLast, List.map_append,
    List.map_singleton, List.nodup_append] at distinct
  rw [getElem?_insertAll_iff distinct.1 (by simp)] at present
  rcases present with impossible | member
  · simp at impossible
  · exact distinct.2.2 _ (List.mem_map_of_mem member) _
      (List.mem_singleton_self _) rfl

include formed in
/-- A configuration with a line that is cut gives fewer pieces than it has
entries, or a last line that is shorter than its entry. -/
theorem linesFit_of_readsBack (readsBack : ReadsBack configMap) :
    LinesFit configMap := by
  obtain ⟨reloaded, loads, same⟩ := readsBack
  have counted := (loadFile_spec loads).1
  rw [← Std.TreeMap.length_toList, length_toList_eq same] at counted
  have fits := front_fits_of_length_le formed counted
  refine ⟨fits, ?_⟩
  intro last isLast
  have split := List.dropLast_append_getLast? last isLast
  have lastFormed := formed last (List.mem_of_mem_getLast? isLast)
  by_contra long
  -- the entries in front are loaded when the last line is read
  have frontLoads := foldlM_szPaire
    (fun entry member => formed entry (List.dropLast_subset _ member))
    (fun entry member => (fits entry member).trans (by decide)) ∅
  rw [loadFile, pieces_written formed isLast fits, ← split, List.map_append,
    List.map_singleton, List.foldlM_append, frontLoads] at loads
  simp only [Option.bind_eq_bind, Option.bind_some, List.foldlM_cons,
    List.foldlM_nil, Option.pure_def, Option.bind_eq_some_iff,
    Option.some.injEq, exists_eq_right] at loads
  have present : reloaded[last.1]? = some last.2 := by
    rw [same]
    exact Std.TreeMap.mem_toList_iff_getElem?_eq_some.mp
      (List.mem_of_mem_getLast? isLast)
  rcases loadLine_cases loads with rfl | ⟨key, value, rfl, room, -⟩
  · exact last_not_in_front isLast _ present
  · rcases getElem?_insertIfNew_iff.mp present with before | ⟨-, rfl, rfl⟩
    · exact last_not_in_front isLast _ before
    · have short := (szPaire_isShort lastFormed).length_le
      rw [lineLength] at long
      omega

include formed in
/-- Where the lines fit, each one is a piece and gives its entry. -/
theorem readsBack_of_linesFit (fits : LinesFit configMap) :
    ReadsBack configMap := by
  have loaded : loadFile (written configMap) =
      some (insertAll ∅ configMap.toList) := by
    cases isLast : configMap.toList.getLast? with
    | none =>
        have empty := List.getLast?_eq_none_iff.mp isLast
        rw [loadFile, written, empty]
        rfl
    | some last =>
        have split := List.dropLast_append_getLast? last isLast
        have allFit : ∀ entry ∈ configMap.toList, lineLength entry ≤ 128 := by
          intro entry member
          rw [← split] at member
          rcases List.mem_append.mp member with inFront | atEnd
          · exact (fits.1 entry inFront).trans (by decide)
          · rw [List.mem_singleton.mp atEnd]
            exact fits.2 last isLast
        rw [loadFile, pieces_written formed isLast fits.1]
        exact foldlM_szPaire formed allFit ∅
  refine ⟨insertAll ∅ configMap.toList, loaded, ?_⟩
  intro key
  apply Option.ext
  intro value
  rw [getElem?_insertAll_iff (nodup_keys configMap) (by simp),
    Std.TreeMap.mem_toList_iff_getElem?_eq_some]
  simp

end Written

theorem getElem?_insert_self (configMap : ConfigMap) (name value : Str) :
    (configMap.insert name value)[name]? = some value := by
  rw [Std.TreeMap.getElem?_insert, if_pos Std.ReflCmp.compare_self]

theorem getElem?_insert_other (configMap : ConfigMap) {name key : Str}
    (other : key ≠ name) (value : Str) :
    (configMap.insert name value)[key]? = configMap[key]? := by
  rw [Std.TreeMap.getElem?_insert, if_neg]
  intro same
  exact other (Std.LawfulEqCmp.compare_eq_iff_eq.mp same).symm

/-- All entries stay well formed. -/
theorem updated_formed (config : Loaded) (setting : Setting) :
    ∀ entry ∈ (config.configMap.insert setting.name setting.value).toList,
      WellFormed entry := by
  rintro ⟨key, value⟩ member
  have present := Std.TreeMap.mem_toList_iff_getElem?_eq_some.mp member
  by_cases isName : key = setting.name
  · rw [isName, getElem?_insert_self] at present
    cases present
    rw [isName]
    exact setting.wellFormed
  · rw [getElem?_insert_other _ isName] at present
    exact (loadFile_spec config.loads).2 key value present

/-- The update survives when what is written reads back. -/
theorem survives_iff_readsBack (config : Loaded) (setting : Setting) :
    Survives config setting ↔
      ReadsBack (config.configMap.insert setting.name setting.value) := by
  constructor
  · intro survives
    obtain ⟨reloaded, loads, atName, atOthers⟩ :=
      survives ⟨true, fun _ => true⟩ _ _ (by
        rw [setConfigValue, writeFile, if_pos rfl, writeEntries_good])
    rw [List.nil_append] at loads
    refine ⟨reloaded, loads, ?_⟩
    intro key
    by_cases isName : key = setting.name
    · rw [isName, atName, getElem?_insert_self]
    · rw [atOthers key isName, getElem?_insert_other _ isName]
  · rintro ⟨reloaded, loads, same⟩ disk updated file set
    rw [setConfigValue] at set
    simp only [Prod.mk.injEq] at set
    obtain ⟨rfl, wrote⟩ := set
    rw [writeFile] at wrote
    split at wrote
    · have isWritten := writeEntries_spec wrote
      rw [List.nil_append, ← written] at isWritten
      rw [isWritten]
      refine ⟨reloaded, loads, ?_, ?_⟩
      · rw [same, getElem?_insert_self]
      · intro key other
        rw [same, getElem?_insert_other _ other]
    · cases wrote

/-- `b=1` in a file. -/
def shortFile : Loaded where
  file := ascii "b=1\n"
  configMap := Std.TreeMap.insertIfNew ∅ (ascii "b") (ascii "1")
  loads := by rfl

/-- A value of 126 bytes, for a key in front of `b`. -/
def longValue : Setting where
  name := ascii "a"
  value := List.replicate 126 120
  wellFormed := by
    refine ⟨⟨?_, ?_, ?_, ?_, ?_, ?_⟩, ?_, ⟨?_, ?_, ?_, ?_, ?_, ?_⟩⟩ <;>
      decide +kernel

end ConfigFile

end ChatRoom
