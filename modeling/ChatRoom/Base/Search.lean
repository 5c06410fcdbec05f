import ChatRoom.Base.Bytes
import Mathlib.Data.List.Infix

/-!
# Searching a byte string

What `find` gives for a text that is put together from parts.
-/

namespace ChatRoom

/-- A prefix without the byte ends in front of it. -/
theorem prefix_append_cons_iff {pattern : Str} {byte : UInt8}
    (absent : byte ∉ pattern) (front rest : Str) :
    pattern <+: front ++ byte :: rest ↔ pattern <+: front := by
  constructor
  · intro isPrefix
    rcases List.prefix_or_prefix_of_prefix isPrefix
        (List.prefix_append front (byte :: rest)) with inside | ⟨more, isMore⟩
    · exact inside
    · rw [← isMore] at isPrefix absent ⊢
      rw [List.prefix_append_right_inj] at isPrefix
      cases more with
      | nil => rw [List.append_nil]
      | cons first more =>
          obtain ⟨rfl, -⟩ := List.cons_prefix_cons.mp isPrefix
          exact absurd (by simp) absent
  · intro isPrefix
    exact isPrefix.trans (List.prefix_append front _)

theorem splitFirst_cons_here {pattern text : Str} {byte : UInt8}
    (isPrefix : pattern <+: byte :: text) :
    splitFirst pattern (byte :: text) =
      some ([], (byte :: text).drop pattern.length) := by
  rw [splitFirst, if_pos (List.isPrefixOf_iff_prefix.mpr isPrefix)]

theorem splitFirst_cons_later {pattern text : Str} {byte : UInt8}
    (noPrefix : ¬ pattern <+: byte :: text) :
    splitFirst pattern (byte :: text) =
      (splitFirst pattern text).map fun (before, behind) =>
        (byte :: before, behind) := by
  rw [splitFirst, if_neg (mt List.isPrefixOf_iff_prefix.mp noPrefix)]

/-- A pattern does not reach over a byte that it does not have. -/
theorem splitFirst_append_cons {pattern : Str} {byte : UInt8}
    (notEmpty : pattern ≠ []) (absent : byte ∉ pattern) (front rest : Str) :
    splitFirst pattern (front ++ byte :: rest) =
      match splitFirst pattern front with
      | some (before, behind) => some (before, behind ++ byte :: rest)
      | none => (splitFirst pattern rest).map fun (before, behind) =>
          (front ++ byte :: before, behind) := by
  induction front with
  | nil =>
      have noPrefix : ¬ pattern <+: byte :: rest := by
        intro isPrefix
        have short := (prefix_append_cons_iff absent [] rest).mp
          isPrefix
        exact notEmpty (List.prefix_nil.mp short)
      rw [List.nil_append, splitFirst_cons_later noPrefix, splitFirst,
        if_neg notEmpty]
      rfl
  | cons first front induction =>
      by_cases isPrefix : pattern <+: first :: front
      · have longer : pattern <+: first :: (front ++ byte :: rest) :=
          isPrefix.trans (List.prefix_append (first :: front) _)
        rw [List.cons_append, splitFirst_cons_here isPrefix,
          splitFirst_cons_here longer, ← List.cons_append,
          List.drop_append_of_le_length isPrefix.length_le]
      · have longer : ¬ pattern <+: first :: (front ++ byte :: rest) :=
          mt (prefix_append_cons_iff absent (first :: front) rest).mp isPrefix
        rw [List.cons_append, splitFirst_cons_later isPrefix,
          splitFirst_cons_later longer, induction]
        cases splitFirst pattern front with
        | some found => rfl
        | none =>
            cases splitFirst pattern rest with
            | none => rfl
            | some found => rfl

/-- The search passes over what does not have the first byte of the
pattern. -/
theorem splitFirst_append_of_not_mem {byte : UInt8} {pattern front : Str}
    (absent : byte ∉ front) (rest : Str) :
    splitFirst (byte :: pattern) (front ++ rest) =
      (splitFirst (byte :: pattern) rest).map fun (before, behind) =>
        (front ++ before, behind) := by
  induction front with
  | nil => simp
  | cons first front induction =>
      rw [List.mem_cons, not_or] at absent
      have noPrefix : ¬ byte :: pattern <+: first :: (front ++ rest) := by
        intro isPrefix
        exact absent.1 (List.cons_prefix_cons.mp isPrefix).1
      rw [List.cons_append, splitFirst_cons_later noPrefix,
        induction absent.2, Option.map_map]
      rfl

/-- The search for one byte cuts a text at its first occurrence. -/
theorem splitFirst_byte_iff {byte : UInt8} {text before behind : Str} :
    splitFirst [byte] text = some (before, behind) ↔
      text = before ++ byte :: behind ∧ byte ∉ before := by
  constructor
  · intro found
    refine ⟨by simpa using splitFirst_eq found, ?_⟩
    intro member
    obtain ⟨front, rest, rfl, absent⟩ := List.eq_append_cons_of_mem member
    rw [splitFirst_eq found] at found
    simp only [List.append_assoc, List.cons_append,
      splitFirst_byte absent] at found
    have shorter := congrArg (fun parts => parts.map (·.1.length)) found
    simp at shorter
  · rintro ⟨rfl, absent⟩
    exact splitFirst_byte absent behind

/-- `find` succeeds on the texts that have the pattern inside. -/
theorem splitFirst_isSome_iff {pattern text : Str} :
    (splitFirst pattern text).isSome ↔ pattern <:+: text := by
  constructor
  · intro found
    obtain ⟨⟨before, behind⟩, isSplit⟩ := Option.isSome_iff_exists.mp found
    exact ⟨before, behind, (splitFirst_eq isSplit).symm⟩
  · intro isInfix
    induction text with
    | nil => simp [splitFirst, List.infix_nil.mp isInfix]
    | cons byte text induction =>
        by_cases isPrefix : pattern <+: byte :: text
        · rw [splitFirst_cons_here isPrefix]
          rfl
        · rw [splitFirst_cons_later isPrefix, Option.isSome_map]
          rcases List.infix_cons_iff.mp isInfix with first | later
          · exact absurd first isPrefix
          · exact induction later

/-- Texts that differ before the shorter one ends. -/
theorem not_prefix_append {pattern front : Str} (noPrefix : ¬ pattern <+: front)
    (notLonger : ¬ front <+: pattern) (rest : Str) :
    ¬ pattern <+: front ++ rest := by
  intro isPrefix
  rcases List.prefix_or_prefix_of_prefix isPrefix
      (List.prefix_append front rest) with inside | longer
  · exact noPrefix inside
  · exact notLonger longer

/-! ## Lines -/

/-- Lines, each ended by CRLF. -/
def crlfLines (lines : List Str) : Str :=
  lines.flatMap fun line => line ++ [Byte.cr, Byte.lf]

/-- A line that is not empty and has no carriage return starts with another
byte. -/
theorem head_of_line {line : Str} (noCr : Byte.cr ∉ line) (notEmpty : line ≠ [])
    (rest : Str) :
    ∃ byte more, line ++ rest = byte :: more ∧ byte ≠ Byte.cr := by
  cases line with
  | nil => exact absurd rfl notEmpty
  | cons byte line =>
      refine ⟨byte, line ++ rest, rfl, ?_⟩
      intro isCr
      rw [isCr] at noCr
      exact noCr List.mem_cons_self

/-- The blank line comes behind all lines that are not empty. -/
theorem splitFirst_blankLine {lines : List Str} {last : Str}
    (clean : ∀ line ∈ lines, Byte.cr ∉ line ∧ line ≠ [])
    (lastNoCr : Byte.cr ∉ last) (lastNotEmpty : last ≠ []) (behind : Str) :
    splitFirst [Byte.cr, Byte.lf, Byte.cr, Byte.lf]
      (crlfLines lines ++ (last ++
        ([Byte.cr, Byte.lf, Byte.cr, Byte.lf] ++ behind))) =
      some (crlfLines lines ++ last, behind) := by
  induction lines with
  | nil =>
      rw [crlfLines, List.flatMap_nil, List.nil_append,
        splitFirst_append_of_not_mem lastNoCr,
        splitFirst_append_self (List.cons_ne_nil _ _)]
      simp
  | cons line lines induction =>
      rw [List.forall_mem_cons] at clean
      have next : ∃ byte more, crlfLines lines ++ (last ++
          ([Byte.cr, Byte.lf, Byte.cr, Byte.lf] ++ behind)) = byte :: more ∧
            byte ≠ Byte.cr := by
        cases lines with
        | nil => exact head_of_line lastNoCr lastNotEmpty _
        | cons second lines =>
            obtain ⟨noCr, notEmpty⟩ := (List.forall_mem_cons.mp clean.2).1
            rw [crlfLines, List.flatMap_cons, List.append_assoc,
              List.append_assoc]
            exact head_of_line noCr notEmpty _
      obtain ⟨byte, more, isRest, notCr⟩ := next
      have later := induction clean.2
      have text : crlfLines (line :: lines) ++ (last ++
          ([Byte.cr, Byte.lf, Byte.cr, Byte.lf] ++ behind)) =
          line ++ (Byte.cr :: Byte.lf :: (byte :: more)) := by
        rw [← isRest, crlfLines, List.flatMap_cons]
        simp [crlfLines]
      have atCr : ¬ [Byte.cr, Byte.lf, Byte.cr, Byte.lf] <+:
          Byte.cr :: Byte.lf :: (byte :: more) := by
        intro isPrefix
        simp only [List.cons_prefix_cons] at isPrefix
        exact notCr isPrefix.2.2.1.symm
      have atLf : ¬ [Byte.cr, Byte.lf, Byte.cr, Byte.lf] <+:
          Byte.lf :: (byte :: more) := by
        intro isPrefix
        cases (List.cons_prefix_cons.mp isPrefix).1
      rw [text, splitFirst_append_of_not_mem clean.1.1,
        splitFirst_cons_later atCr, splitFirst_cons_later atLf,
        ← isRest, later]
      simp [crlfLines]

/-- The search for the start of a line passes over a line when another one
follows. -/
theorem splitFirst_lineStart_skip {name line rest : Str}
    (noCr : Byte.cr ∉ line) (other : ¬ name <+: rest) :
    splitFirst (Byte.cr :: Byte.lf :: name)
        (line ++ Byte.cr :: Byte.lf :: rest) =
      (splitFirst (Byte.cr :: Byte.lf :: name) rest).map
        fun (before, behind) =>
          (line ++ Byte.cr :: Byte.lf :: before, behind) := by
  have atCr : ¬ Byte.cr :: Byte.lf :: name <+: Byte.cr :: Byte.lf :: rest := by
    simp only [List.cons_prefix_cons, true_and]
    exact other
  have atLf : ¬ Byte.cr :: Byte.lf :: name <+: Byte.lf :: rest := by
    intro isPrefix
    cases (List.cons_prefix_cons.mp isPrefix).1
  rw [splitFirst_append_of_not_mem noCr, splitFirst_cons_later atCr,
    splitFirst_cons_later atLf, Option.map_map, Option.map_map]
  rfl

theorem splitFirst_lineStart {name line : Str} (noCr : Byte.cr ∉ line)
    (behind : Str) :
    splitFirst (Byte.cr :: Byte.lf :: name)
        (line ++ Byte.cr :: Byte.lf :: (name ++ behind)) =
      some (line, behind) := by
  rw [splitFirst_append_of_not_mem noCr]
  have found := splitFirst_append_self
    (List.cons_ne_nil Byte.cr (Byte.lf :: name)) behind
  rw [List.cons_append, List.cons_append] at found
  rw [found]
  simp

end ChatRoom
