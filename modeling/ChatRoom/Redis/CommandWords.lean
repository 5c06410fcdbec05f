import ChatRoom.Redis.FormatCommand
import Mathlib.Algebra.BigOperators.Group.List.Basic

/-!
# Splitting a concatenated command

How `wordsFrom` reads a text that was put together from pieces: word by word,
across a blank, and as a whole.  The main result says exactly which lists of
words survive being joined by blanks.
-/

namespace ChatRoom

/-- The words joined by single blanks. -/
def commandText : List Str → Str
  | [] => []
  | word :: words => word ++ words.flatMap fun later => Byte.space :: later

/-- The words a command text can carry: none is empty, none holds a NUL or a
blank, and no percent sign stands before the last byte of the text. -/
def Intact (words : List Str) : Prop :=
  (∀ word ∈ words, word ≠ [] ∧ Byte.nul ∉ word ∧ Byte.space ∉ word) ∧
    Byte.percent ∉ (commandText words).dropLast

instance (words : List Str) : Decidable (Intact words) :=
  inferInstanceAs (Decidable (_ ∧ _))

/-! ## Reading across pieces -/

theorem wordsFrom_cons_plain {argv : List Str} {current : Str}
    {touched : Bool} {byte : UInt8} (rest : Str)
    (notSpace : byte ≠ Byte.space) (notPercent : byte ≠ Byte.percent) :
    wordsFrom argv current touched (byte :: rest) =
      wordsFrom argv (current ++ [byte]) true rest := by
  cases rest with
  | nil => simp [wordsFrom, notSpace]
  | cons next rest => simp [wordsFrom, notSpace, notPercent]

theorem wordsFrom_cons_space (argv : List Str) (current : Str)
    (rest : Str) :
    wordsFrom argv current true (Byte.space :: rest) =
      wordsFrom (argv ++ [current]) [] false rest := by
  cases rest with
  | nil => simp [wordsFrom]
  | cons next rest => simp [wordsFrom]

theorem wordsFrom_cons_space_untouched (argv : List Str) (current : Str)
    (rest : Str) :
    wordsFrom argv current false (Byte.space :: rest) =
      wordsFrom argv current false rest := by
  cases rest with
  | nil => simp [wordsFrom]
  | cons next rest => simp [wordsFrom]

/-- A blank ends the reading of what stands before it, whatever follows. -/
theorem wordsFrom_append_space {argv : List Str} {current : Str}
    {touched : Bool} (fresh : touched = false → current = [])
    (text rest : Str) :
    wordsFrom argv current touched (text ++ Byte.space :: rest) =
      (wordsFrom argv current touched (text ++ [Byte.space])).bind
        fun out => wordsFrom out [] false rest := by
  induction argv, current, touched, text using wordsFrom.induct with
  | case1 argv current touched =>
      cases touched with
      | true => simp [wordsFrom_cons_space, wordsFrom]
      | false =>
          rw [fresh rfl]
          simp [wordsFrom_cons_space_untouched, wordsFrom]
  | case2 argv current touched =>
      cases touched with
      | true =>
          simp [wordsFrom_cons_space, wordsFrom_cons_space_untouched, wordsFrom]
      | false =>
          rw [fresh rfl]
          simp [wordsFrom_cons_space_untouched, wordsFrom]
  | case3 argv current touched byte notSpace =>
      by_cases isPercent : byte = Byte.percent
      · subst isPercent
        simp [wordsFrom]
      · simp [wordsFrom_cons_plain, notSpace, isPercent,
          wordsFrom_cons_space, wordsFrom]
  | case4 argv current touched rest' induction =>
      simpa [wordsFrom] using induction (by simp)
  | case5 argv current touched next rest' notPercent =>
      simp [wordsFrom, notPercent]
  | case6 argv current next rest' notPercent induction =>
      simpa [wordsFrom_cons_space] using induction (by simp)
  | case7 argv current touched next rest' untouched notPercent induction =>
      simp only [Bool.not_eq_true] at untouched
      subst untouched
      simpa [wordsFrom_cons_space_untouched] using induction fresh
  | case8 argv current touched byte next rest' notPercent notSpace induction =>
      simpa [wordsFrom_cons_plain, notPercent, notSpace] using induction (by simp)

/-- A word without blanks is read whole.  A percent sign is harmless only at
the very end of the text. -/
theorem wordsFrom_append_word {argv : List Str} {current word : Str}
    {touched : Bool} {rest : Str} (nonempty : word ≠ [])
    (noSpace : Byte.space ∉ word)
    (noPercent : Byte.percent ∉ (word ++ rest).dropLast) :
    wordsFrom argv current touched (word ++ rest) =
      wordsFrom argv (current ++ word) true rest := by
  induction word generalizing current touched with
  | nil => exact absurd rfl nonempty
  | cons byte word induction =>
      have notSpace : byte ≠ Byte.space := by
        intro equality
        exact noSpace (by simp [equality])
      have tailNoSpace : Byte.space ∉ word := by
        intro member
        exact noSpace (by simp [member])
      by_cases last : word ++ rest = []
      · obtain ⟨rfl, rfl⟩ := List.append_eq_nil_iff.mp last
        simp [wordsFrom, notSpace]
      · rw [List.cons_append, List.dropLast_cons_of_ne_nil last] at noPercent
        have notPercent : byte ≠ Byte.percent := by
          intro equality
          exact noPercent (by simp [equality])
        have tailNoPercent : Byte.percent ∉ (word ++ rest).dropLast := by
          intro member
          exact noPercent (List.mem_cons_of_mem _ member)
        rw [List.cons_append, wordsFrom_cons_plain _ notSpace notPercent]
        by_cases empty : word = []
        · subst empty
          simp
        · rw [induction empty tailNoSpace tailNoPercent]
          simp

/-! ## What a successful reading shows -/

private theorem forall_mem_snoc {Whole : Str → Prop} {argv : List Str}
    {word : Str} (earlier : ∀ word ∈ argv, Whole word) (last : Whole word) :
    ∀ other ∈ argv ++ [word], Whole other :=
  List.forall_mem_append.mpr ⟨earlier, List.forall_mem_singleton.mpr last⟩

section Words

variable {Whole : Str → Prop} (Open : Bool → Str → Prop)
  {Allowed : UInt8 → Prop}

/-- What every word under construction keeps with every byte holds of the
words read. -/
theorem wordsFrom_forall (whole : ∀ {current}, Open true current → Whole current)
    (reset : Open false [])
    (grow : ∀ {touched current byte}, Allowed byte → byte ≠ Byte.space →
      Open touched current → Open true (current ++ [byte]))
    {argv : List Str} {current : Str} {touched : Bool} {text : Str}
    {out : List Str} (read : wordsFrom argv current touched text = some out)
    (allowed : ∀ byte ∈ text, Allowed byte)
    (earlier : ∀ word ∈ argv, Whole word) (isOpen : Open touched current) :
    ∀ word ∈ out, Whole word := by
  induction argv, current, touched, text using wordsFrom.induct with
  | case1 argv current touched =>
      simp only [wordsFrom, Option.some.injEq] at read
      subst read
      split
      · rename_i isTouched
        subst isTouched
        exact forall_mem_snoc earlier (whole isOpen)
      · exact earlier
  | case2 argv current touched =>
      simp only [wordsFrom, if_true, Option.some.injEq] at read
      subst read
      split
      · rename_i isTouched
        subst isTouched
        exact forall_mem_snoc earlier (whole isOpen)
      · exact earlier
  | case3 argv current touched byte notSpace =>
      simp only [wordsFrom, if_neg notSpace, Option.some.injEq] at read
      subst read
      apply forall_mem_snoc earlier
      apply whole
      exact grow (allowed byte List.mem_cons_self) notSpace isOpen
  | case4 argv current touched rest induction =>
      simp only [wordsFrom, if_true] at read
      obtain ⟨percent, later⟩ := List.forall_mem_cons.mp allowed
      apply induction read (List.forall_mem_cons.mp later).2 earlier
      exact grow percent (by decide) isOpen
  | case5 argv current touched next rest notPercent =>
      simp [wordsFrom, notPercent] at read
  | case6 argv current next rest notPercent induction =>
      rw [wordsFrom_cons_space] at read
      exact induction read (List.forall_mem_cons.mp allowed).2
        (forall_mem_snoc earlier (whole isOpen)) reset
  | case7 argv current touched next rest untouched notPercent induction =>
      simp only [Bool.not_eq_true] at untouched
      subst untouched
      rw [wordsFrom_cons_space_untouched] at read
      exact induction read (List.forall_mem_cons.mp allowed).2 earlier isOpen
  | case8 argv current touched byte next rest notPercent notSpace induction =>
      rw [wordsFrom_cons_plain _ notSpace notPercent] at read
      obtain ⟨first, later⟩ := List.forall_mem_cons.mp allowed
      exact induction read later earlier (grow first notSpace isOpen)

end Words

/-- A word under construction has no blank, and a byte once it is begun. -/
def Begun (touched : Bool) (current : Str) : Prop :=
  (touched = true → current ≠ []) ∧ Byte.space ∉ current

/-- Every word read is nonempty and free of blanks. -/
theorem wordsFrom_words {argv : List Str} {current : Str} {touched : Bool}
    {text : Str} {out : List Str}
    (read : wordsFrom argv current touched text = some out)
    (earlier : ∀ word ∈ argv, word ≠ [] ∧ Byte.space ∉ word)
    (started : touched = true → current ≠ [])
    (noSpace : Byte.space ∉ current) :
    ∀ word ∈ out, word ≠ [] ∧ Byte.space ∉ word := by
  have grow : ∀ {touched current byte}, True → byte ≠ Byte.space →
      Begun touched current → Begun true (current ++ [byte]) := by
    rintro touched current byte - notSpace ⟨-, noSpace⟩
    have different : Byte.space ≠ byte := Ne.symm notSpace
    exact ⟨by simp, by simp [noSpace, different]⟩
  apply wordsFrom_forall Begun _ _ grow read _ earlier ⟨started, noSpace⟩
  · rintro current ⟨nonempty, noSpace⟩
    exact ⟨nonempty rfl, noSpace⟩
  · exact ⟨by simp, List.not_mem_nil⟩
  · intro byte _
    trivial

/-- The bytes read, against the bytes there were: blanks separate words and
each `%%` loses a byte, so equality leaves no percent sign before the end. -/
theorem wordsFrom_length {argv : List Str} {current : Str} {touched : Bool}
    {text : Str} {out : List Str}
    (read : wordsFrom argv current touched text = some out)
    (fresh : touched = false → current = []) :
    out.flatten.length + text.count Byte.space ≤
        argv.flatten.length + current.length + text.length ∧
      (out.flatten.length + text.count Byte.space =
          argv.flatten.length + current.length + text.length →
        Byte.percent ∉ text.dropLast) := by
  induction argv, current, touched, text using wordsFrom.induct with
  | case1 argv current touched =>
      simp only [wordsFrom, Option.some.injEq] at read
      subst read
      split
      · simp
      · simp
  | case2 argv current touched =>
      simp only [wordsFrom, if_true, Option.some.injEq] at read
      subst read
      split
      · simp
      · simp
  | case3 argv current touched byte notSpace =>
      simp only [wordsFrom, if_neg notSpace, Option.some.injEq] at read
      subst read
      rw [List.count_cons_of_ne notSpace]
      simp only [List.flatten_append, List.flatten_singleton,
        List.length_append, List.length_singleton, List.count_nil,
        List.dropLast_singleton, List.not_mem_nil]
      constructor
      · omega
      · simp
  | case4 argv current touched rest induction =>
      simp only [wordsFrom, if_true] at read
      obtain ⟨bound, -⟩ := induction read (by simp)
      simp only [List.length_append, List.length_singleton] at bound
      have noBlank : (Byte.percent :: Byte.percent :: rest).count Byte.space =
          rest.count Byte.space := by
        simp
      rw [noBlank]
      simp only [List.length_cons]
      constructor
      · omega
      · omega
  | case5 argv current touched next rest notPercent =>
      simp [wordsFrom, notPercent] at read
  | case6 argv current next rest notPercent induction =>
      rw [wordsFrom_cons_space] at read
      obtain ⟨bound, exactly⟩ := induction read (by simp)
      simp only [List.flatten_append, List.flatten_singleton,
        List.length_append, List.length_nil] at bound exactly
      rw [List.count_cons_self, List.length_cons,
        List.dropLast_cons_of_ne_nil (by simp)]
      refine ⟨by omega, ?_⟩
      intro equality
      simpa using exactly (by omega)
  | case7 argv current touched next rest untouched notPercent induction =>
      simp only [Bool.not_eq_true] at untouched
      subst untouched
      rw [wordsFrom_cons_space_untouched] at read
      obtain ⟨bound, exactly⟩ := induction read fresh
      rw [List.count_cons_self, List.length_cons,
        List.dropLast_cons_of_ne_nil (by simp)]
      refine ⟨by omega, ?_⟩
      intro equality
      simpa using exactly (by omega)
  | case8 argv current touched byte next rest notPercent notSpace induction =>
      rw [wordsFrom_cons_plain _ notSpace notPercent] at read
      obtain ⟨bound, exactly⟩ := induction read (by simp)
      simp only [List.length_append, List.length_singleton] at bound exactly
      have different : Byte.percent ≠ byte := Ne.symm notPercent
      rw [List.count_cons_of_ne notSpace, List.length_cons,
        List.dropLast_cons_of_ne_nil (by simp)]
      refine ⟨by omega, ?_⟩
      intro equality
      simpa [different] using exactly (by omega)

/-! ## The texts that keep their words -/

theorem commandText_cons_cons (word next : Str) (words : List Str) :
    commandText (word :: next :: words) =
      word ++ Byte.space :: commandText (next :: words) := by
  simp [commandText]

theorem wordsFrom_commandText {argv : List Str} {word : Str}
    {words : List Str}
    (sound : ∀ other ∈ word :: words, other ≠ [] ∧ Byte.space ∉ other)
    (noPercent : Byte.percent ∉ (commandText (word :: words)).dropLast) :
    wordsFrom argv [] false (commandText (word :: words)) =
      some (argv ++ word :: words) := by
  induction words generalizing argv word with
  | nil =>
      obtain ⟨nonempty, noSpace⟩ := sound word (by simp)
      have whole : commandText [word] = word ++ [] := by simp [commandText]
      rw [whole] at noPercent ⊢
      rw [wordsFrom_append_word nonempty noSpace noPercent]
      simp [wordsFrom]
  | cons next words induction =>
      obtain ⟨nonempty, noSpace⟩ := sound word (by simp)
      have later : ∀ other ∈ next :: words,
          other ≠ [] ∧ Byte.space ∉ other := by
        intro other member
        exact sound other (List.mem_cons_of_mem _ member)
      have nextNonempty : commandText (next :: words) ≠ [] := by
        simp [commandText, (later next (by simp)).1]
      rw [commandText_cons_cons] at noPercent ⊢
      have tailNoPercent :
          Byte.percent ∉ (commandText (next :: words)).dropLast := by
        intro member
        apply noPercent
        rw [List.dropLast_append_of_ne_nil (by simp),
          List.dropLast_cons_of_ne_nil nextNonempty]
        simp [member]
      rw [wordsFrom_append_word nonempty noSpace noPercent,
        wordsFrom_cons_space, List.nil_append, induction later tailNoPercent,
        List.append_assoc, List.singleton_append]

theorem length_commandText {words : List Str}
    (noSpace : ∀ word ∈ words, Byte.space ∉ word) :
    (commandText words).length =
      words.flatten.length + (commandText words).count Byte.space := by
  cases words with
  | nil => rfl
  | cons word words =>
      induction words generalizing word with
      | nil =>
          have none := List.count_eq_zero.mpr (noSpace word (by simp))
          simp only [commandText, List.flatMap_nil, List.append_nil,
            List.flatten_cons, List.flatten_nil]
          omega
      | cons next words induction =>
          have none := List.count_eq_zero.mpr (noSpace word (by simp))
          have later := induction next fun other member =>
            noSpace other (List.mem_cons_of_mem _ member)
          rw [commandText_cons_cons, List.flatten_cons, List.count_append,
            List.count_cons_self]
          simp only [List.length_append, List.length_cons]
          omega

theorem nul_not_mem_of_commandText {words : List Str}
    (noNul : Byte.nul ∉ commandText words) :
    ∀ word ∈ words, Byte.nul ∉ word := by
  cases words with
  | nil => simp
  | cons first words =>
      intro word member inWord
      apply noNul
      rcases List.mem_cons.mp member with rfl | later
      · simp [commandText, inWord]
      · exact List.mem_append_right _
          (List.mem_flatMap.mpr ⟨word, later, List.mem_cons_of_mem _ inWord⟩)

theorem nul_not_mem_commandText {words : List Str}
    (noNul : ∀ word ∈ words, Byte.nul ∉ word) :
    Byte.nul ∉ commandText words := by
  cases words with
  | nil => simp [commandText]
  | cons first words =>
      intro member
      rcases List.mem_append.mp member with inFirst | inLater
      · exact noNul first (by simp) inFirst
      · obtain ⟨word, later, inside⟩ := List.mem_flatMap.mp inLater
        rcases List.mem_cons.mp inside with isSpace | inWord
        · simp at isSpace
        · exact noNul word (List.mem_cons_of_mem _ later) inWord

/-- A text cut at its first NUL cannot give all the words back: the words of
the whole text account for every byte that is no blank. -/
private theorem cStr_commandText_of_read {words : List Str}
    (noSpace : ∀ word ∈ words, Byte.space ∉ word)
    (bound : words.flatten.length +
        (cStr (commandText words)).count Byte.space ≤
      (cStr (commandText words)).length) :
    cStr (commandText words) = commandText words := by
  have split : cStr (commandText words) ++
      (commandText words).dropWhile (· ≠ Byte.nul) = commandText words :=
    List.takeWhile_append_dropWhile
  have total := length_commandText noSpace
  cases rest : (commandText words).dropWhile (· ≠ Byte.nul) with
  | nil =>
      rw [rest, List.append_nil] at split
      exact split
  | cons byte rest' =>
      have isNul : byte = Byte.nul := by
        have nonempty :
            (commandText words).dropWhile (· ≠ Byte.nul) ≠ [] := by
          rw [rest]
          exact List.cons_ne_nil _ _
        have stopped := List.head_dropWhile_not _ nonempty
        simpa only [rest, List.head_cons, decide_eq_false_iff_not,
          ne_eq, not_not] using stopped
      have lengths := congrArg List.length split
      have counts := congrArg (List.count Byte.space) split
      rw [rest] at lengths counts
      rw [List.count_append, isNul, List.count_cons_of_ne (by simp)] at counts
      rw [List.length_append, List.length_cons] at lengths
      have countBound : rest'.count Byte.space ≤ rest'.length :=
        List.count_le_length
      omega

/-- Words joined by blanks come back as they were exactly when they are
intact. -/
theorem wordsOf_commandText_iff (words : List Str) :
    wordsOf (cStr (commandText words)) = some words ↔ Intact words := by
  constructor
  · intro read
    have sound := wordsFrom_words read (by simp) (by simp) (by simp)
    have noSpace : ∀ word ∈ words, Byte.space ∉ word :=
      fun word member => (sound word member).2
    obtain ⟨bound, exactly⟩ := wordsFrom_length read (by simp)
    simp only [List.flatten_nil, List.length_nil, Nat.zero_add] at bound exactly
    have whole := cStr_commandText_of_read noSpace bound
    rw [whole] at bound exactly
    have noNul := nul_not_mem_of_commandText (cStr_eq_self_iff.mp whole)
    refine ⟨?_, exactly (length_commandText noSpace).symm⟩
    intro word member
    exact ⟨(sound word member).1, noNul word member, noSpace word member⟩
  · rintro ⟨sound, noPercent⟩
    rw [cStr_eq_self (nul_not_mem_commandText fun word member =>
      (sound word member).2.1)]
    cases words with
    | nil => rfl
    | cons word words =>
        exact wordsFrom_commandText
          (fun other member => ⟨(sound other member).1, (sound other member).2.2⟩)
          noPercent

/-! ## Texts put together from other texts -/

/-- The words already read stay in front. -/
theorem wordsFrom_append_argv (first argv : List Str) (current : Str)
    (touched : Bool) (text : Str) :
    wordsFrom (first ++ argv) current touched text =
      (wordsFrom argv current touched text).map (first ++ ·) := by
  induction argv, current, touched, text using wordsFrom.induct with
  | case1 argv current touched => cases touched <;> simp [wordsFrom]
  | case2 argv current touched => cases touched <;> simp [wordsFrom]
  | case3 argv current touched byte notSpace => simp [wordsFrom, notSpace]
  | case4 argv current touched rest induction =>
      simpa [wordsFrom] using induction
  | case5 argv current touched next rest notPercent =>
      simp [wordsFrom, notPercent]
  | case6 argv current next rest notPercent induction =>
      simpa [wordsFrom] using induction
  | case7 argv current touched next rest untouched notPercent induction =>
      simp only [Bool.not_eq_true] at untouched
      subst untouched
      simpa [wordsFrom] using induction
  | case8 argv current touched byte next rest notPercent notSpace induction =>
      simpa [wordsFrom, notPercent, notSpace] using induction

/-- The words of two texts with a blank between them. -/
theorem wordsOf_append_space (text rest : Str) :
    wordsOf (text ++ Byte.space :: rest) =
      (wordsOf (text ++ [Byte.space])).bind fun words =>
        (wordsOf rest).map (words ++ ·) := by
  rw [wordsOf, wordsFrom_append_space (fun _ => rfl), wordsOf]
  congr 1
  funext words
  have shifted := wordsFrom_append_argv words [] [] false rest
  rw [List.append_nil] at shifted
  exact shifted

/-- A text that reads with a blank behind it reads the same without. -/
theorem wordsFrom_of_append_space {argv : List Str} {current : Str}
    {touched : Bool} {text : Str} {words : List Str}
    (fresh : touched = false → current = [])
    (read : wordsFrom argv current touched (text ++ [Byte.space]) = some words) :
    wordsFrom argv current touched text = some words := by
  induction argv, current, touched, text using wordsFrom.induct with
  | case1 argv current touched => simpa [wordsFrom] using read
  | case2 argv current touched =>
      cases touched with
      | true =>
          simpa [wordsFrom_cons_space, wordsFrom_cons_space_untouched,
            wordsFrom] using read
      | false =>
          rw [fresh rfl] at read ⊢
          simpa [wordsFrom_cons_space_untouched, wordsFrom] using read
  | case3 argv current touched byte notSpace =>
      by_cases isPercent : byte = Byte.percent
      · subst isPercent
        simp [wordsFrom] at read
      · simpa [wordsFrom_cons_plain, notSpace, isPercent, wordsFrom] using read
  | case4 argv current touched rest induction =>
      simp only [List.cons_append, wordsFrom, if_true] at read ⊢
      exact induction (by simp) read
  | case5 argv current touched next rest notPercent =>
      simp [wordsFrom, notPercent] at read
  | case6 argv current next rest notPercent induction =>
      rw [List.cons_append, List.cons_append, wordsFrom_cons_space] at read
      rw [wordsFrom_cons_space]
      exact induction (by simp) read
  | case7 argv current touched next rest untouched notPercent induction =>
      simp only [Bool.not_eq_true] at untouched
      subst untouched
      rw [List.cons_append, List.cons_append,
        wordsFrom_cons_space_untouched] at read
      rw [wordsFrom_cons_space_untouched]
      exact induction fresh read
  | case8 argv current touched byte next rest notPercent notSpace induction =>
      rw [List.cons_append, List.cons_append,
        wordsFrom_cons_plain _ notSpace notPercent] at read
      rw [wordsFrom_cons_plain _ notSpace notPercent]
      exact induction (by simp) read

theorem wordsOf_of_append_space {text : Str} {words : List Str}
    (read : wordsOf (text ++ [Byte.space]) = some words) :
    wordsOf text = some words :=
  wordsFrom_of_append_space (fun _ => rfl) read

/-- The words of a text hold no byte that the text does not hold. -/
theorem wordsFrom_bytes {argv : List Str} {current : Str} {touched : Bool}
    {text : Str} {words : List Str} {byte : UInt8}
    (notBefore : ∀ word ∈ argv, byte ∉ word) (notInside : byte ∉ current)
    (notBehind : byte ∉ text)
    (read : wordsFrom argv current touched text = some words) :
    ∀ word ∈ words, byte ∉ word := by
  have grow : ∀ {current : Str} {other : UInt8}, other ≠ byte →
      other ≠ Byte.space → byte ∉ current → byte ∉ current ++ [other] := by
    intro current other different _ inside
    simp [inside, different.symm]
  have allowed : ∀ other ∈ text, other ≠ byte := by
    intro other member isByte
    exact notBehind (isByte ▸ member)
  exact wordsFrom_forall (fun _ current => byte ∉ current) id
    List.not_mem_nil grow read allowed notBefore notInside

theorem nul_not_mem_of_wordsOf {text : Str} {words : List Str}
    (noNul : Byte.nul ∉ text) (read : wordsOf text = some words) :
    ∀ word ∈ words, Byte.nul ∉ word :=
  wordsFrom_bytes (by simp) (by simp) noNul read

end ChatRoom
