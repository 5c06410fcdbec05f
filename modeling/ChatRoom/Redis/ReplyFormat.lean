import ChatRoom.Redis.ReplyText

/-!
# The format of replies

`Wires` is the grammar of what the reply reader takes: replies in order, arrays
nested up to a depth.  The reader with unbounded lines hands out a reply
exactly when its input begins with a wire form of it, and goes wrong on arrays
that are nested too deeply.
-/

namespace ChatRoom

namespace Hiredis

open Api (intText)
open Lib.Incremental (Move Pause Reader)

/-! ## The grammar -/

def typeByte : ItemType → UInt8
  | .error => 45
  | .status => 43
  | .integer => 58
  | .string => 36
  | .array => 42

/-- The replies that are not arrays, with what follows their type byte.  The
two bytes behind the content of a bulk are free. -/
inductive Leaf : ItemType → Reply → Str → Prop where
  | error {line : Str} : ¬ crlf <:+: line →
      Leaf .error (.error line) (line ++ crlf)
  | status {line : Str} : ¬ crlf <:+: line →
      Leaf .status (.status line) (line ++ crlf)
  | integer {value : Int} : -(2 ^ 63) ≤ value → value < 2 ^ 63 →
      Leaf .integer (.integer value) (intText value ++ crlf)
  | string {text stop : Str} : text.length < 2 ^ 63 → stop.length = 2 →
      Leaf .string (.string text)
        (intText text.length ++ crlf ++ (text ++ stop))
  | nil : Leaf .string .nil (intText (-1) ++ crlf)

/-- The text is made of wire forms of the replies, in order, with arrays that
are nested at most `depth` times.  An array of -1 elements is the nil reply. -/
inductive Wires : ℕ → List Reply → Str → Prop where
  | nil (depth : ℕ) : Wires depth [] []
  | leaf {depth : ℕ} {type : ItemType} {reply : Reply} {body text : Str}
      {replies : List Reply} :
      Leaf type reply body → Wires depth replies text →
      Wires depth (reply :: replies) (typeByte type :: (body ++ text))
  | nilArray {depth : ℕ} {text : Str} {replies : List Reply} :
      Wires (depth + 1) replies text →
      Wires (depth + 1) (.nil :: replies)
        (typeByte .array :: (intText (-1) ++ crlf ++ text))
  | array {depth : ℕ} {body text : Str} {elements replies : List Reply} :
      elements.length < 2 ^ 31 → Wires depth elements body →
      Wires (depth + 1) replies text →
      Wires (depth + 1) (.array elements :: replies)
        (typeByte .array :: (intText elements.length ++ crlf ++ (body ++ text)))

/-! ## Lines -/

theorem splitFirst_append_of_some {pattern text before behind : Str}
    (notEmpty : pattern ≠ [])
    (found : splitFirst pattern text = some (before, behind)) (extra : Str) :
    splitFirst pattern (text ++ extra) = some (before, behind ++ extra) := by
  induction text generalizing before with
  | nil =>
      rw [splitFirst, if_neg notEmpty] at found
      cases found
  | cons byte text induction =>
      by_cases here : pattern <+: byte :: text
      · have longer := here.trans (List.prefix_append (byte :: text) extra)
        rw [splitFirst_cons_here here] at found
        cases found
        rw [List.cons_append] at longer ⊢
        rw [splitFirst_cons_here longer, ← List.cons_append,
          List.drop_append_of_le_length here.length_le]
      · rw [splitFirst_cons_later here] at found
        obtain ⟨⟨front, rest⟩, later, equality⟩ :=
          Option.map_eq_some_iff.mp found
        cases equality
        have notHere : ¬ pattern <+: byte :: (text ++ extra) := by
          intro isPrefix
          have size := congrArg List.length (splitFirst_eq later)
          have inside : pattern <+: byte :: text := by
            apply List.prefix_of_prefix_length_le isPrefix
              (List.prefix_append (byte :: text) extra)
            simp only [List.length_append, List.length_cons] at size ⊢
            omega
          exact here inside
        rw [List.cons_append, splitFirst_cons_later notHere, induction later]
        rfl

theorem crlf_ne_nil : crlf ≠ [] := List.cons_ne_nil _ _

/-- The first end of a line is behind a line without one. -/
theorem splitFirst_crlf_iff {text line rest : Str} :
    splitFirst crlf text = some (line, rest) ↔
      text = line ++ crlf ++ rest ∧ ¬ crlf <:+: line := by
  constructor
  · intro found
    refine ⟨splitFirst_eq found, ?_⟩
    intro inside
    obtain ⟨⟨before, behind⟩, earlier⟩ :=
      Option.isSome_iff_exists.mp (splitFirst_isSome_iff.mpr inside)
    have again := splitFirst_append_of_some crlf_ne_nil earlier (crlf ++ rest)
    rw [← List.append_assoc, ← splitFirst_eq found, found] at again
    have size := congrArg List.length (splitFirst_eq earlier)
    have same := congrArg (fun parts => parts.map (·.1.length)) again
    simp [crlf] at same size
    omega
  · rintro ⟨rfl, absent⟩
    induction line with
    | nil =>
        rw [List.nil_append]
        exact splitFirst_append_self crlf_ne_nil rest
    | cons byte line induction =>
        have later := induction fun inside =>
          absent (inside.trans (List.suffix_cons byte line).isInfix)
        have notHere : ¬ crlf <+: byte :: (line ++ crlf ++ rest) := by
          rw [prefix_crlf_iff]
          rintro ⟨rfl, next⟩
          cases line with
          | nil => cases next
          | cons second line =>
              cases next
              exact absent (List.prefix_append crlf line).isInfix
        rw [List.cons_append, List.cons_append, splitFirst_cons_later notHere,
          later]
        rfl

/-- A number has no end of a line in it. -/
theorem crlf_not_infix_intText (value : Int) : ¬ crlf <:+: intText value := by
  intro inside
  have member : Byte.cr ∈ intText value := by
    apply inside.subset
    simp [crlf]
  rw [intText] at member
  split at member
  · rcases List.mem_append.mp member with sign | digit
    · exact absurd sign (by decide)
    · exact absurd (isDigit_of_mem_decimal digit) (by decide)
  · exact absurd (isDigit_of_mem_decimal member) (by decide)

/-- A line with a number. -/
theorem numberLine_exists {value : Int} (lower : -(2 ^ 63) ≤ value)
    (upper : value < 2 ^ 63) (rest : Str) :
    ∃ line, splitFirst crlf (intText value ++ crlf ++ rest) =
        some (line, rest) ∧ string2ll line = some value := by
  refine ⟨intText value, ?_, string2ll_eq_some_iff.mpr ⟨rfl, lower, upper⟩⟩
  exact splitFirst_crlf_iff.mpr ⟨rfl, crlf_not_infix_intText value⟩

theorem numberLine_eq {text line rest : Str} {value : Int}
    (found : splitFirst crlf text = some (line, rest))
    (number : string2ll line = some value) :
    text = intText value ++ crlf ++ rest ∧
      -(2 ^ 63) ≤ value ∧ value < 2 ^ 63 := by
  obtain ⟨rfl, bounds⟩ := string2ll_eq_some_iff.mp number
  exact ⟨(splitFirst_crlf_iff.mp found).1, bounds⟩

/-! ## Items -/

theorem itemType_eq_some_iff {byte : UInt8} {type : ItemType} :
    itemType byte = some type ↔ byte = typeByte type := by
  constructor
  · intro found
    unfold itemType at found
    split_ifs at found with isError isStatus isInteger isString isArray
    all_goals
      cases found
      assumption
  · rintro rfl
    cases type <;> rfl

theorem processLineItem_object_iff {type : ItemType} {unread rest : Str}
    {obj : Reply} (isLine : type = .error ∨ type = .status ∨ type = .integer) :
    processLineItem (splitFirst crlf) type unread = .object obj rest ↔
      ∃ body, unread = body ++ rest ∧ Leaf type obj body := by
  constructor
  · intro processed
    unfold processLineItem at processed
    split at processed
    · cases processed
    · rename_i line behind found
      have cut := splitFirst_crlf_iff.mp found
      cases type with
      | integer =>
          simp only [] at processed
          split at processed
          · cases processed
          · rename_i value number
            cases processed
            obtain ⟨text, lower, upper⟩ :=
              numberLine_eq found number
            exact ⟨_, text, .integer lower upper⟩
      | error =>
          cases processed
          exact ⟨_, cut.1, .error cut.2⟩
      | status =>
          cases processed
          exact ⟨_, cut.1, .status cut.2⟩
      | string => simp at isLine
      | array => simp at isLine
  · rintro ⟨body, rfl, leaf⟩
    cases leaf with
    | error absent =>
        rw [processLineItem, splitFirst_crlf_iff.mpr ⟨rfl, absent⟩]
    | status absent =>
        rw [processLineItem, splitFirst_crlf_iff.mpr ⟨rfl, absent⟩]
    | integer lower upper =>
        obtain ⟨line, found, number⟩ :=
          numberLine_exists lower upper rest
        rw [processLineItem, found]
        simp only [number]
    | string => simp at isLine
    | nil => simp at isLine

theorem processBulkItem_object_iff {unread rest : Str} {obj : Reply} :
    processBulkItem (splitFirst crlf) unread = .object obj rest ↔
      ∃ body, unread = body ++ rest ∧ Leaf .string obj body := by
  constructor
  · intro processed
    unfold processBulkItem at processed
    split at processed
    · cases processed
    · rename_i line behind found
      split at processed
      · cases processed
      · rename_i len number
        obtain ⟨text, lower, upper⟩ := numberLine_eq found number
        split at processed
        · cases processed
        · rename_i inRange
          split at processed
          · rename_i isNil
            cases processed
            rw [isNil] at text
            exact ⟨_, text, .nil⟩
          · rename_i notNil
            split at processed
            · rename_i complete
              cases processed
              have size : (behind.take len.toNat).length = len.toNat := by
                rw [List.length_take]
                omega
              have sizeInt : ((behind.take len.toNat).length : Int) = len := by
                omega
              refine ⟨intText (behind.take len.toNat).length ++ crlf ++
                (behind.take len.toNat ++ (behind.drop len.toNat).take 2),
                ?_, .string ?_ ?_⟩
              · have parts : behind = behind.take len.toNat ++
                    (behind.drop len.toNat).take 2 ++
                      behind.drop (len.toNat + 2) := by
                  rw [List.append_assoc, ← List.drop_drop,
                    List.take_append_drop, List.take_append_drop]
                rw [sizeInt, List.append_assoc _ _ (behind.drop _), ← parts]
                exact text
              · omega
              · rw [List.length_take, List.length_drop]
                omega
            · cases processed
  · rintro ⟨body, rfl, leaf⟩
    cases leaf with
    | @string text stop short two =>
        obtain ⟨line, found, number⟩ :=
          numberLine_exists (show -(2 ^ 63) ≤ (text.length : Int) by omega)
            (by omega) (text ++ stop ++ rest)
        have complete :
            (text.length : Int).toNat + 2 ≤ (text ++ stop ++ rest).length := by
          simp only [List.length_append]
          omega
        have content : (text ++ stop ++ rest).take (text.length : Int).toNat =
            text := by
          rw [Int.toNat_natCast, List.append_assoc, List.take_left]
        have behind :
            (text ++ stop ++ rest).drop ((text.length : Int).toNat + 2) =
              rest := by
          have size : (text.length : Int).toNat + 2 = (text ++ stop).length := by
            simp [two]
          rw [size, List.drop_left]
        have notSmall : ¬ (text.length : Int) < -1 := by omega
        have notNil : ¬ (text.length : Int) = -1 := by omega
        rw [List.append_assoc (intText _ ++ crlf), processBulkItem, found]
        simp only [number]
        rw [if_neg notSmall, if_neg notNil, if_pos complete, content, behind]
    | nil =>
        obtain ⟨line, found, number⟩ :=
          numberLine_exists (show -(2 ^ 63) ≤ (-1 : Int) by decide)
            (by decide) rest
        rw [processBulkItem, found]
        simp only [number]
        rfl

theorem processMultiBulkItem_object_iff {ridx : ℕ} {unread rest : Str}
    {obj : Reply} :
    processMultiBulkItem (splitFirst crlf) ridx unread = .object obj rest ↔
      ridx ≠ 8 ∧
        (obj = .nil ∧ unread = intText (-1) ++ crlf ++ rest ∨
          obj = .array [] ∧ unread = intText 0 ++ crlf ++ rest) := by
  constructor
  · intro processed
    unfold processMultiBulkItem at processed
    split at processed
    · cases processed
    · rename_i notDeep
      refine ⟨notDeep, ?_⟩
      split at processed
      · cases processed
      · rename_i line behind found
        split at processed
        · cases processed
        · rename_i elements number
          have text := (numberLine_eq found number).1
          split_ifs at processed with outOfRange isNil isMore
          · cases processed
            exact .inl ⟨rfl, isNil ▸ text⟩
          · cases processed
            have isZero : elements = 0 := by omega
            exact .inr ⟨rfl, isZero ▸ text⟩
  · rintro ⟨notDeep, ⟨rfl, rfl⟩ | ⟨rfl, rfl⟩⟩
    · obtain ⟨line, found, number⟩ :=
        numberLine_exists (show -(2 ^ 63) ≤ (-1 : Int) by decide)
          (by decide) rest
      rw [processMultiBulkItem, if_neg notDeep, found]
      simp only [number]
      rfl
    · obtain ⟨line, found, number⟩ :=
        numberLine_exists (show -(2 ^ 63) ≤ (0 : Int) by decide)
          (by decide) rest
      rw [processMultiBulkItem, if_neg notDeep, found]
      simp only [number]
      rfl

theorem processMultiBulkItem_opened_iff {ridx elements : ℕ}
    {unread rest : Str} :
    processMultiBulkItem (splitFirst crlf) ridx unread =
        .opened elements rest ↔
      ridx ≠ 8 ∧ 0 < elements ∧ elements < 2 ^ 31 ∧
        unread = intText elements ++ crlf ++ rest := by
  constructor
  · intro processed
    unfold processMultiBulkItem at processed
    split at processed
    · cases processed
    · rename_i notDeep
      refine ⟨notDeep, ?_⟩
      split at processed
      · cases processed
      · rename_i line behind found
        split at processed
        · cases processed
        · rename_i value number
          have text := (numberLine_eq found number).1
          split_ifs at processed with outOfRange isNil isMore
          cases processed
          have same : ((value.toNat : ℕ) : Int) = value := by omega
          rw [same]
          exact ⟨by omega, by omega, text⟩
  · rintro ⟨notDeep, positive, small, rfl⟩
    obtain ⟨line, found, number⟩ :=
      numberLine_exists (show -(2 ^ 63) ≤ (elements : Int) by omega)
        (by omega) rest
    have inRange : ¬ ((elements : Int) < -1 ∨ (elements : Int) > 2 ^ 31 - 1) := by
      omega
    have notNil : ¬ (elements : Int) = -1 := by omega
    have isMore : (elements : Int) > 0 := by omega
    rw [processMultiBulkItem, if_neg notDeep, found]
    simp only [number]
    rw [if_neg inRange, if_neg notNil, if_pos isMore, Int.toNat_natCast]

/-- What follows the type byte of an array without elements. -/
inductive EmptyArray : Reply → Str → Prop where
  | nil : EmptyArray .nil (intText (-1) ++ crlf)
  | array : EmptyArray (.array []) (intText 0 ++ crlf)

theorem processTyped_object_iff {type : ItemType} {ridx : ℕ}
    {unread rest : Str} {obj : Reply} :
    processTyped (splitFirst crlf) type ridx unread = .object obj rest ↔
      ∃ body, unread = body ++ rest ∧
        (Leaf type obj body ∨
          type = .array ∧ ridx ≠ 8 ∧ EmptyArray obj body) := by
  have leaves (notArray : type ≠ .array) (body : Str) :
      Leaf type obj body ∨
          type = .array ∧ ridx ≠ 8 ∧ EmptyArray obj body ↔
        Leaf type obj body :=
    or_iff_left fun isArray => notArray isArray.1
  cases type with
  | error =>
      simp only [leaves (by decide)]
      exact processLineItem_object_iff (.inl rfl)
  | status =>
      simp only [leaves (by decide)]
      exact processLineItem_object_iff (.inr (.inl rfl))
  | integer =>
      simp only [leaves (by decide)]
      exact processLineItem_object_iff (.inr (.inr rfl))
  | string =>
      simp only [leaves (by decide)]
      exact processBulkItem_object_iff
  | array =>
      rw [processTyped, processMultiBulkItem_object_iff]
      constructor
      · rintro ⟨notDeep, ⟨rfl, rfl⟩ | ⟨rfl, rfl⟩⟩
        · exact ⟨_, rfl, .inr ⟨rfl, notDeep, .nil⟩⟩
        · exact ⟨_, rfl, .inr ⟨rfl, notDeep, .array⟩⟩
      · rintro ⟨body, rfl, leaf | ⟨-, notDeep, empty⟩⟩
        · cases leaf
        · refine ⟨notDeep, ?_⟩
          cases empty with
          | nil => exact .inl ⟨rfl, rfl⟩
          | array => exact .inr ⟨rfl, rfl⟩

theorem processTyped_opened_iff {type : ItemType} {ridx elements : ℕ}
    {unread rest : Str} :
    processTyped (splitFirst crlf) type ridx unread =
        .opened elements rest ↔
      type = .array ∧ ridx ≠ 8 ∧ 0 < elements ∧ elements < 2 ^ 31 ∧
        unread = intText elements ++ crlf ++ rest := by
  have neverLine (type : ItemType) :
      processLineItem (splitFirst crlf) type unread ≠
        .opened elements rest := by
    unfold processLineItem
    split
    · simp
    · split
      · split <;> simp
      · simp
      · simp
  have neverBulk : processBulkItem (splitFirst crlf) unread ≠
      .opened elements rest := by
    unfold processBulkItem
    split
    · simp
    · split
      · simp
      · split_ifs <;> simp
  cases type with
  | error => simpa [processTyped] using neverLine .error
  | status => simpa [processTyped] using neverLine .status
  | integer => simpa [processTyped] using neverLine .integer
  | string => simpa [processTyped] using neverBulk
  | array => simpa [processTyped] using processMultiBulkItem_opened_iff

/-! ## The reader with unbounded lines -/

/-- An item when more input is there. -/
def Item.append (item : Item) (extra : Str) : Item :=
  match item with
  | .incomplete => .incomplete
  | .bad error => .bad error
  | .object obj unread => .object obj (unread ++ extra)
  | .opened elements unread => .opened elements (unread ++ extra)

theorem processLineItem_append (type : ItemType) {unread : Str}
    (complete : processLineItem (splitFirst crlf) type unread ≠ .incomplete)
    (extra : Str) :
    processLineItem (splitFirst crlf) type (unread ++ extra) =
      (processLineItem (splitFirst crlf) type unread).append extra := by
  unfold processLineItem at complete ⊢
  cases found : splitFirst crlf unread with
  | none => simp [found] at complete
  | some line =>
      rw [splitFirst_append_of_some crlf_ne_nil found]
      cases type with
      | integer =>
          simp only []
          cases string2ll line.1 <;> rfl
      | _ => rfl

theorem processBulkItem_append {unread : Str}
    (complete : processBulkItem (splitFirst crlf) unread ≠ .incomplete)
    (extra : Str) :
    processBulkItem (splitFirst crlf) (unread ++ extra) =
      (processBulkItem (splitFirst crlf) unread).append extra := by
  unfold processBulkItem at complete ⊢
  cases found : splitFirst crlf unread with
  | none => simp [found] at complete
  | some line =>
      obtain ⟨p, rest⟩ := line
      rw [splitFirst_append_of_some crlf_ne_nil found]
      simp only [found] at complete ⊢
      cases number : string2ll p with
      | none => rfl
      | some len =>
          simp only [number] at complete ⊢
          by_cases whole : len.toNat + 2 ≤ rest.length
          · have longer : len.toNat + 2 ≤ (rest ++ extra).length := by
              rw [List.length_append]
              omega
            rw [if_pos whole, if_pos longer,
              List.take_append_of_le_length (by omega),
              List.drop_append_of_le_length whole]
            split_ifs <;> rfl
          · rw [if_neg whole] at complete ⊢
            split_ifs at complete ⊢ with outOfRange isNil
            · rfl
            · rfl
            all_goals exact absurd rfl complete

theorem processMultiBulkItem_append {ridx : ℕ} {unread : Str}
    (complete : processMultiBulkItem (splitFirst crlf) ridx unread ≠
      .incomplete) (extra : Str) :
    processMultiBulkItem (splitFirst crlf) ridx (unread ++ extra) =
      (processMultiBulkItem (splitFirst crlf) ridx unread).append extra := by
  unfold processMultiBulkItem at complete ⊢
  by_cases deep : ridx = 8
  · rw [if_pos deep, if_pos deep]
    rfl
  · rw [if_neg deep] at complete ⊢
    rw [if_neg deep]
    cases found : splitFirst crlf unread with
    | none => simp [found] at complete
    | some line =>
        obtain ⟨p, rest⟩ := line
        rw [splitFirst_append_of_some crlf_ne_nil found]
        simp only []
        cases string2ll p with
        | none => rfl
        | some elements =>
            simp only []
            split_ifs <;> rfl

theorem processTyped_append {type : ItemType} {ridx : ℕ} {unread : Str}
    (complete : processTyped (splitFirst crlf) type ridx unread ≠ .incomplete)
    (extra : Str) :
    processTyped (splitFirst crlf) type ridx (unread ++ extra) =
      (processTyped (splitFirst crlf) type ridx unread).append extra := by
  cases type with
  | error => exact processLineItem_append .error complete extra
  | status => exact processLineItem_append .status complete extra
  | integer => exact processLineItem_append .integer complete extra
  | string => exact processBulkItem_append complete extra
  | array => exact processMultiBulkItem_append complete extra

theorem Leaf.length_pos {type : ItemType} {reply : Reply} {body : Str}
    (leaf : Leaf type reply body) : 0 < body.length := by
  have positive : 0 < crlf.length := by decide
  cases leaf <;> simp only [List.length_append] <;> omega

theorem processTyped_shrinks {type : ItemType} {ridx : ℕ} {unread rest : Str}
    (used : (∃ obj, processTyped (splitFirst crlf) type ridx unread =
        .object obj rest) ∨
      ∃ elements, processTyped (splitFirst crlf) type ridx unread =
        .opened elements rest) : rest.length < unread.length := by
  rcases used with ⟨obj, object⟩ | ⟨elements, opened⟩
  · obtain ⟨body, rfl, leaf | ⟨-, -, empty⟩⟩ :=
      processTyped_object_iff.mp object
    · have := leaf.length_pos
      rw [List.length_append]
      omega
    · cases empty <;> simp [crlf] <;> omega
  · obtain ⟨-, -, -, -, rfl⟩ := processTyped_opened_iff.mp opened
    simp [crlf]
    omega

theorem processKnown_shrinks {type : ItemType} {cur : ReadTask}
    {below rstack : List ReadTask} {unread rest : Str}
    (used : processKnown (splitFirst crlf) type cur below unread =
        .go rstack rest ∨
      ∃ reply, processKnown (splitFirst crlf) type cur below unread =
        .stop (.out reply rstack rest)) : rest.length < unread.length := by
  unfold processKnown at used
  cases item : processTyped (splitFirst crlf) type below.length unread with
  | incomplete => simp [item] at used
  | bad error => simp [item] at used
  | object obj left =>
      have shrinks := processTyped_shrinks (.inl ⟨obj, item⟩)
      simp only [item] at used
      split at used
      · rcases used with went | ⟨reply, stopped⟩
        · cases went
          exact shrinks
        · cases stopped
      · rcases used with went | ⟨reply, stopped⟩
        · cases went
        · cases stopped
          exact shrinks
  | opened elements left =>
      have shrinks := processTyped_shrinks (.inr ⟨elements, item⟩)
      simp only [item] at used
      rcases used with went | ⟨reply, stopped⟩
      · cases went
        exact shrinks
      · cases stopped

theorem processItem_shrinks {rstack later : List ReadTask} {unread rest : Str}
    (used : processItem (splitFirst crlf) rstack unread = .go later rest ∨
      ∃ reply, processItem (splitFirst crlf) rstack unread =
        .stop (.out reply later rest)) : rest.length < unread.length := by
  unfold processItem at used
  simp only [] at used
  split at used
  · exact processKnown_shrinks used
  · split at used
    · simp at used
    · split at used
      · simp at used
      · have := processKnown_shrinks used
        rw [List.length_cons]
        omega

theorem processTyped_suffix {type : ItemType} {ridx : ℕ} {unread rest : Str}
    (used : (∃ obj, processTyped (splitFirst crlf) type ridx unread =
        .object obj rest) ∨
      ∃ elements, processTyped (splitFirst crlf) type ridx unread =
        .opened elements rest) : rest <:+ unread := by
  rcases used with ⟨obj, object⟩ | ⟨elements, opened⟩
  · obtain ⟨body, rfl, -⟩ := processTyped_object_iff.mp object
    exact List.suffix_append body rest
  · obtain ⟨-, -, -, -, rfl⟩ := processTyped_opened_iff.mp opened
    exact List.suffix_append _ rest

theorem processKnown_suffix {type : ItemType} {cur : ReadTask}
    {below : List ReadTask} {unread rest : Str}
    (kept : (processKnown (splitFirst crlf) type cur below unread).rest =
      some rest) : rest <:+ unread := by
  unfold processKnown at kept
  cases item : processTyped (splitFirst crlf) type below.length unread with
  | incomplete =>
      rw [item] at kept
      cases kept
      exact List.suffix_refl unread
  | bad error =>
      rw [item] at kept
      cases kept
  | object obj left =>
      have suffix := processTyped_suffix (.inl ⟨obj, item⟩)
      simp only [item] at kept
      split at kept <;> cases kept <;> exact suffix
  | opened elements left =>
      have suffix := processTyped_suffix (.inr ⟨elements, item⟩)
      rw [item] at kept
      cases kept
      exact suffix

theorem processItem_suffix {rstack : List ReadTask} {unread rest : Str}
    (kept : (processItem (splitFirst crlf) rstack unread).rest = some rest) :
    rest <:+ unread := by
  unfold processItem at kept
  simp only [] at kept
  split at kept
  · exact processKnown_suffix kept
  · split at kept
    · cases kept
      exact List.suffix_refl []
    · split at kept
      · cases kept
      · exact (processKnown_suffix kept).trans (List.suffix_cons _ _)

theorem processKnown_append {type : ItemType} {cur : ReadTask}
    {below : List ReadTask} (unread extra : Str) :
    processKnown (splitFirst crlf) type cur below (unread ++ extra) =
      (processKnown (splitFirst crlf) type cur below unread).more
        (processItem (splitFirst crlf)) extra := by
  cases item : processTyped (splitFirst crlf) type below.length unread with
  | incomplete =>
      rw [processKnown.eq_def _ _ _ _ unread, item]
      rfl
  | bad error =>
      have longer := processTyped_append (by rw [item]; simp) extra
      rw [item] at longer
      rw [processKnown, processKnown, longer, item]
      rfl
  | object obj rest =>
      have longer := processTyped_append (by rw [item]; simp) extra
      rw [item] at longer
      rw [processKnown, processKnown, longer, item]
      simp only [Item.append]
      split <;> rfl
  | opened elements rest =>
      have longer := processTyped_append (by rw [item]; simp) extra
      rw [item] at longer
      rw [processKnown, processKnown, longer, item]
      rfl

theorem processItem_append (rstack : List ReadTask) (unread extra : Str) :
    processItem (splitFirst crlf) rstack (unread ++ extra) =
      (processItem (splitFirst crlf) rstack unread).more
        (processItem (splitFirst crlf)) extra := by
  cases known : (rstack.headD rootTask).type with
  | some type =>
      unfold processItem
      simp only [known]
      exact processKnown_append unread extra
  | none =>
      cases unread with
      | nil =>
          have waits : processItem (splitFirst crlf) rstack [] =
              .stop (.wait (rstack.headD rootTask :: rstack.tail) []) := by
            unfold processItem
            simp only [known]
          rw [waits]
          rfl
      | cons byte rest =>
          unfold processItem
          rw [List.cons_append]
          simp only [known]
          cases itemType byte with
          | none => rfl
          | some type => exact processKnown_append rest extra

/-- The reader for inputs of any length. -/
def plainReader : Reader (List ReadTask) UInt8 Reply ReadError where
  move := processItem (splitFirst crlf)
  go_shrinks moved := processItem_shrinks (.inl moved)
  out_shrinks moved := processItem_shrinks (.inr ⟨_, moved⟩)
  suffix kept := processItem_suffix kept
  resumes := processItem_append

theorem plainReader_move :
    plainReader.move = processItem (splitFirst crlf) :=
  rfl

end Hiredis

end ChatRoom
