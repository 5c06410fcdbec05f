import ChatRoom.Redis.ReplyFormat

/-!
# Nested replies

The stack of the reply reader against the grammar: an element is read into its
array, an array into its parent, and the reply comes out when nothing is left.
-/

namespace ChatRoom

namespace Hiredis

open Api (intText)
open Lib.Incremental (Move Pause Reader)

/-! ## One item on the stack -/

/-- The reader when an object is complete. -/
def deliver (obj : Reply) (idx : Int) (below : List ReadTask) (rest : Str) :
    Pause (List ReadTask) UInt8 Reply ReadError :=
  match moveToNextTask obj idx below with
  | (rstack, none) => plainReader.next rstack rest
  | (rstack, some reply) => .out reply rstack rest

theorem deliver_root (obj : Reply) (idx : Int) (rest : Str) :
    deliver obj idx [] rest = .out obj [] rest :=
  rfl

theorem deliver_last (obj : Reply) {idx : Int} {prv : ReadTask}
    (isLast : idx = prv.elements - 1) (below : List ReadTask) (rest : Str) :
    deliver obj idx (prv :: below) rest =
      deliver (.array (prv.obj ++ [obj])) prv.idx below rest := by
  rw [deliver, moveToNextTask, if_pos isLast]
  rfl

theorem deliver_more (obj : Reply) {idx : Int} {prv : ReadTask}
    (notLast : idx ≠ prv.elements - 1) (below : List ReadTask) (rest : Str) :
    deliver obj idx (prv :: below) rest =
      plainReader.next
        (newTask (idx + 1) :: { prv with obj := prv.obj ++ [obj] } :: below)
        rest := by
  rw [deliver, moveToNextTask, if_neg notLast]

/-- The reader in front of a type byte. -/
theorem move_typeByte (type : ItemType) (idx : Int) (below : List ReadTask)
    (rest : Str) :
    plainReader.move (newTask idx :: below) (typeByte type :: rest) =
      processKnown (splitFirst crlf) type (newTask idx) below rest := by
  have isType := itemType_eq_some_iff.mpr (rfl : typeByte type = typeByte type)
  rw [plainReader_move, processItem]
  simp only [List.headD_cons, List.tail_cons, newTask, isType]

theorem next_of_object {type : ItemType} {idx : Int} {below : List ReadTask}
    {unread rest : Str} {obj : Reply}
    (item : processTyped (splitFirst crlf) type below.length unread =
      .object obj rest) :
    plainReader.next (newTask idx :: below) (typeByte type :: unread) =
      deliver obj idx below rest := by
  have moved := move_typeByte type idx below unread
  rw [processKnown, item] at moved
  simp only [newTask] at moved
  rw [deliver]
  cases delivered : moveToNextTask obj idx below with
  | mk rstack reply =>
      rw [delivered] at moved
      cases reply with
      | none => exact plainReader.next_of_go moved
      | some reply => exact plainReader.next_of_stop moved

theorem next_of_opened {type : ItemType} {idx : Int} {below : List ReadTask}
    {unread rest : Str} {elements : ℕ}
    (item : processTyped (splitFirst crlf) type below.length unread =
      .opened elements rest) :
    plainReader.next (newTask idx :: below) (typeByte type :: unread) =
      plainReader.next (newTask 0 :: ⟨some type, elements, idx, []⟩ :: below)
        rest := by
  have moved := move_typeByte type idx below unread
  rw [processKnown, item] at moved
  exact plainReader.next_of_go moved

/-- A leaf or an empty array. -/
theorem next_of_leaf {type : ItemType} {idx : Int} {below : List ReadTask}
    {body : Str} {obj : Reply}
    (leaf : Leaf type obj body ∨
      type = .array ∧ below.length ≠ 8 ∧ EmptyArray obj body) (rest : Str) :
    plainReader.next (newTask idx :: below) (typeByte type :: (body ++ rest)) =
      deliver obj idx below rest :=
  next_of_object (processTyped_object_iff.mpr ⟨body, rfl, leaf⟩)

theorem next_of_header {idx : Int} {below : List ReadTask} {elements : ℕ}
    (notDeep : below.length ≠ 8) (positive : 0 < elements)
    (small : elements < 2 ^ 31) (rest : Str) :
    plainReader.next (newTask idx :: below)
        (typeByte .array :: (intText elements ++ crlf ++ rest)) =
      plainReader.next
        (newTask 0 :: ⟨some .array, elements, idx, []⟩ :: below) rest :=
  next_of_opened
    (processTyped_opened_iff.mpr ⟨rfl, notDeep, positive, small, rfl⟩)

theorem moveToNextTask_some {obj reply : Reply} {idx : Int}
    {below rstack : List ReadTask}
    (made : moveToNextTask obj idx below = (rstack, some reply)) :
    rstack = [] := by
  induction below generalizing obj idx with
  | nil =>
      cases made
      rfl
  | cons prv below induction =>
      rw [moveToNextTask] at made
      split at made
      · exact induction made
      · cases made

/-- With a reply the stack is empty. -/
theorem rstack_of_out {text rest : Str} {state rstack : List ReadTask}
    {reply : Reply} (found : plainReader.next state text =
      .out reply rstack rest) : rstack = [] := by
  obtain ⟨last, unread, moved⟩ := plainReader.next_out_move found
  rw [plainReader_move] at moved
  have known {type : ItemType} {cur : ReadTask} {below : List ReadTask}
      {input : Str}
      (made : processKnown (splitFirst crlf) type cur below input =
        .stop (.out reply rstack rest)) : rstack = [] := by
    unfold processKnown at made
    simp only [] at made
    split at made
    · cases made
    · cases made
    · split at made
      · cases made
      · rename_i delivered
        cases made
        exact moveToNextTask_some delivered
    · cases made
  unfold processItem at moved
  simp only [] at moved
  split at moved
  · exact known moved
  · split at moved
    · cases moved
    · split at moved
      · cases moved
      · exact known moved

/-! ## From the grammar to the reader -/

theorem Wires.text_of_nil {depth : ℕ} {text : Str}
    (wires : Wires depth [] text) : text = [] := by
  cases wires
  rfl

theorem size_snoc {elements : Int} {made replies : List Reply} {obj : Reply}
    (size : elements = made.length + (obj :: replies).length) :
    elements = (made ++ [obj]).length + replies.length := by
  rw [size]
  simp
  omega

/-- Behind an element that is not the last one comes the next. -/
theorem deliver_next {obj : Reply} {replies : List Reply} {prv : ReadTask}
    (size : prv.elements = prv.obj.length + (obj :: replies).length)
    (more : replies ≠ []) (below : List ReadTask) (rest : Str) :
    deliver obj prv.obj.length (prv :: below) rest =
      plainReader.next
        (newTask (prv.obj ++ [obj]).length ::
          { prv with obj := prv.obj ++ [obj] } :: below) rest := by
  have notLast : (prv.obj.length : Int) ≠ prv.elements - 1 := by
    have := List.length_pos_of_ne_nil more
    rw [size, List.length_cons]
    omega
  rw [deliver_more obj notLast, List.length_append]
  rfl

/-- An element goes into its array, and the elements behind it follow. -/
theorem deliver_element {obj : Reply} {replies : List Reply} {prv : ReadTask}
    {below : List ReadTask} {text rest : Str}
    (size : prv.elements = prv.obj.length + (obj :: replies).length)
    (ends : replies = [] → text = [])
    (later : replies ≠ [] →
      plainReader.next
          (newTask (prv.obj ++ [obj]).length ::
            { prv with obj := prv.obj ++ [obj] } :: below) (text ++ rest) =
        deliver (.array (prv.obj ++ [obj] ++ replies)) prv.idx below rest) :
    deliver obj prv.obj.length (prv :: below) (text ++ rest) =
      deliver (.array (prv.obj ++ obj :: replies)) prv.idx below rest := by
  by_cases last : replies = []
  · subst last
    have isLast : (prv.obj.length : Int) = prv.elements - 1 := by
      rw [size]
      simp
    rw [ends rfl, deliver_last obj isLast]
    rfl
  · rw [deliver_next size last, later last, List.append_assoc]
    rfl

/-- An array, when the reader takes its elements. -/
theorem next_of_array {idx : Int} {below : List ReadTask} {body rest : Str}
    {elements : List Reply} (notDeep : below.length ≠ 8)
    (small : elements.length < 2 ^ 31) (ends : elements = [] → body = [])
    (taken : elements ≠ [] →
      plainReader.next
          (newTask 0 :: ⟨some .array, elements.length, idx, []⟩ :: below)
          (body ++ rest) = deliver (.array elements) idx below rest) :
    plainReader.next (newTask idx :: below)
        (typeByte .array ::
          (intText elements.length ++ crlf ++ (body ++ rest))) =
      deliver (.array elements) idx below rest := by
  cases elements with
  | nil =>
      rw [ends rfl]
      exact next_of_leaf (.inr ⟨rfl, notDeep, .array⟩) rest
  | cons element elements =>
      have positive : 0 < (element :: elements).length :=
        List.length_pos_of_ne_nil (List.cons_ne_nil element elements)
      rw [next_of_header notDeep positive small]
      exact taken (List.cons_ne_nil element elements)

/-- The reader takes the elements that an array still misses. -/
theorem next_of_wires {depth : ℕ} {replies : List Reply} {text : Str}
    (wires : Wires depth replies text) (prv : ReadTask)
    (below : List ReadTask) (rest : Str) (missing : replies ≠ [])
    (size : prv.elements = prv.obj.length + replies.length)
    (level : below.length + 1 + depth = 8) :
    plainReader.next (newTask prv.obj.length :: prv :: below) (text ++ rest) =
      deliver (.array (prv.obj ++ replies)) prv.idx below rest := by
  induction wires generalizing prv below rest with
  | nil depth => exact absurd rfl missing
  | @leaf depth type reply body text replies leaf wires induction =>
      rw [List.cons_append, List.append_assoc, next_of_leaf (.inl leaf)]
      apply deliver_element size
      · rintro rfl
        exact wires.text_of_nil
      · intro more
        exact induction { prv with obj := prv.obj ++ [reply] } below rest more
          (size_snoc size) level
  | @nilArray depth text replies wires induction =>
      have notDeep : (prv :: below).length ≠ 8 := by
        rw [List.length_cons]
        omega
      rw [List.cons_append, List.append_assoc,
        next_of_leaf (.inr ⟨rfl, notDeep, .nil⟩)]
      apply deliver_element size
      · rintro rfl
        exact wires.text_of_nil
      · intro more
        exact induction { prv with obj := prv.obj ++ [.nil] } below rest more
          (size_snoc size) level
  | @array depth body text elements replies small inside wires
      insideInduction induction =>
      have notDeep : (prv :: below).length ≠ 8 := by
        rw [List.length_cons]
        omega
      have taken (more : elements ≠ []) :=
        insideInduction ⟨some .array, elements.length, prv.obj.length, []⟩
          (prv :: below) (text ++ rest) more (by simp)
          (by rw [List.length_cons]; omega)
      have opens := next_of_array notDeep small
        (fun none => (none ▸ inside).text_of_nil) taken
      rw [List.cons_append, List.append_assoc _ (body ++ text),
        List.append_assoc body, opens]
      apply deliver_element size
      · rintro rfl
        exact wires.text_of_nil
      · intro more
        exact induction { prv with obj := prv.obj ++ [.array elements] } below rest more
          (size_snoc size) level

theorem next_idle (text : Str) :
    plainReader.next [] text = plainReader.next [rootTask] text :=
  plainReader.next_congr rfl

/-- A wire form in front of the reader is handed out as its reply. -/
theorem next_of_reply {reply : Reply} {wire : Str}
    (wires : Wires 8 [reply] wire) (rest : Str) :
    plainReader.next [] (wire ++ rest) = .out reply [] rest := by
  rw [next_idle]
  generalize isDepth : 8 = depth at wires
  cases wires with
  | leaf leaf none =>
      rw [none.text_of_nil, List.append_nil, List.cons_append]
      exact next_of_leaf (.inl leaf) rest
  | nilArray none =>
      rw [none.text_of_nil, List.append_nil, List.cons_append]
      exact next_of_leaf (.inr ⟨rfl, by simp, .nil⟩) rest
  | @array depth body _ elements _ small inside none =>
      have taken (more : elements ≠ []) :=
        next_of_wires inside ⟨some .array, elements.length, -1, []⟩ [] rest
          more (by simp) (by rw [List.length_nil]; omega)
      rw [none.text_of_nil, List.append_nil, List.cons_append,
        List.append_assoc _ body]
      apply next_of_array (by simp) small _ taken
      rintro rfl
      exact inside.text_of_nil

/-! ## Too many levels -/

theorem next_of_deep {idx : Int} {below : List ReadTask}
    (deep : below.length = 8) (rest : Str) :
    plainReader.next (newTask idx :: below) (typeByte .array :: rest) =
      .fail .tooDeep := by
  have moved := move_typeByte .array idx below rest
  rw [processKnown, processTyped, processMultiBulkItem, if_pos deep] at moved
  exact plainReader.next_of_stop moved

theorem ne_nil_of_not_wires {budget : ℕ} {replies : List Reply} {text : Str}
    (deeper : ¬ Wires budget replies text) (ends : replies = [] → text = []) :
    replies ≠ [] := by
  intro none
  rw [none, ends none] at deeper
  exact deeper (.nil budget)

theorem next_of_deeper {depth budget : ℕ} {replies : List Reply} {text : Str}
    (wires : Wires depth replies text)
    (deeper : ¬ Wires budget replies text) (prv : ReadTask)
    (below : List ReadTask) (rest : Str)
    (size : prv.elements = prv.obj.length + replies.length)
    (level : below.length + 1 + budget = 8) :
    plainReader.next (newTask prv.obj.length :: prv :: below) (text ++ rest) =
      .fail .tooDeep := by
  induction wires generalizing budget prv below rest with
  | nil depth => exact absurd (.nil budget) deeper
  | @leaf depth type reply body text replies leaf wires induction =>
      have later : ¬ Wires budget replies text :=
        fun within => deeper (.leaf leaf within)
      have more := ne_nil_of_not_wires later fun none =>
        (none ▸ wires).text_of_nil
      rw [List.cons_append, List.append_assoc, next_of_leaf (.inl leaf),
        deliver_next size more]
      exact induction later { prv with obj := prv.obj ++ [reply] } below rest
        (size_snoc size) level
  | @nilArray depth text replies wires induction =>
      rw [List.cons_append, List.append_assoc]
      cases budget with
      | zero => exact next_of_deep (by rw [List.length_cons]; omega) _
      | succ budget =>
          have later : ¬ Wires (budget + 1) replies text :=
            fun within => deeper (.nilArray within)
          have more := ne_nil_of_not_wires later fun none =>
            (none ▸ wires).text_of_nil
          have notDeep : (prv :: below).length ≠ 8 := by
            rw [List.length_cons]
            omega
          rw [next_of_leaf (.inr ⟨rfl, notDeep, .nil⟩), deliver_next size more]
          exact induction later { prv with obj := prv.obj ++ [.nil] } below
            rest (size_snoc size) level
  | @array depth body text elements replies small inside wires
      insideInduction induction =>
      rw [List.cons_append, List.append_assoc _ (body ++ text),
        List.append_assoc body]
      cases budget with
      | zero => exact next_of_deep (by rw [List.length_cons]; omega) _
      | succ budget =>
          have notDeep : (prv :: below).length ≠ 8 := by
            rw [List.length_cons]
            omega
          by_cases fits : Wires budget elements body
          · have later : ¬ Wires (budget + 1) replies text :=
              fun within => deeper (.array small fits within)
            have more := ne_nil_of_not_wires later fun none =>
              (none ▸ wires).text_of_nil
            have taken (some : elements ≠ []) :=
              next_of_wires fits
                ⟨.some .array, elements.length, prv.obj.length, []⟩
                (prv :: below) (text ++ rest) some (by simp)
                (by rw [List.length_cons]; omega)
            have opens := next_of_array notDeep small
              (fun none => (none ▸ inside).text_of_nil) taken
            rw [opens]
            exact (deliver_next size more below _).trans <|
              induction later { prv with obj := prv.obj ++ [.array elements] }
                below rest (size_snoc size) level
          · have some := ne_nil_of_not_wires fits fun none =>
              (none ▸ inside).text_of_nil
            rw [next_of_header notDeep (List.length_pos_of_ne_nil some) small]
            exact insideInduction fits
              ⟨.some .array, elements.length, prv.obj.length, []⟩
              (prv :: below) (text ++ rest) (by simp)
              (by rw [List.length_cons]; omega)

/-- **A ninth level of arrays is a protocol error.** -/
theorem next_of_deeper_reply {depth : ℕ} {reply : Reply} {wire : Str}
    (wires : Wires depth [reply] wire) (deeper : ¬ Wires 8 [reply] wire)
    (rest : Str) :
    plainReader.next [] (wire ++ rest) = .fail .tooDeep := by
  rw [next_idle]
  cases wires with
  | leaf leaf none =>
      obtain rfl := none.text_of_nil
      exact absurd (.leaf leaf (.nil 8)) deeper
  | nilArray none =>
      obtain rfl := none.text_of_nil
      exact absurd (.nilArray (.nil 8)) deeper
  | @array depth body _ elements _ small inside none =>
      obtain rfl := none.text_of_nil
      have later : ¬ Wires 7 elements body :=
        fun within => deeper (.array small within (.nil 8))
      have some := ne_nil_of_not_wires later fun none =>
        (none ▸ inside).text_of_nil
      rw [List.append_nil, List.cons_append, List.append_assoc _ body, rootTask,
        next_of_header (by simp) (List.length_pos_of_ne_nil some) small]
      exact next_of_deeper inside later
        ⟨.some .array, elements.length, -1, []⟩ [] rest (by simp) (by simp)

/-! ## From the reader to the grammar -/

theorem Wires.append {depth : ℕ} {first second : List Reply}
    {front back : Str} (wires : Wires depth first front)
    (more : Wires depth second back) :
    Wires depth (first ++ second) (front ++ back) := by
  induction wires with
  | nil depth => exact more
  | leaf leaf _ induction =>
      rw [List.cons_append, List.cons_append, List.append_assoc]
      exact .leaf leaf (induction more)
  | nilArray _ induction =>
      rw [List.cons_append, List.cons_append, List.append_assoc]
      exact .nilArray (induction more)
  | @array depth body text elements replies small inside _ _ induction =>
      rw [List.cons_append, List.cons_append, List.append_assoc _ (body ++ text),
        List.append_assoc body]
      exact .array small inside (induction more)

theorem wires_of_object {type : ItemType} {depth ridx : ℕ}
    {unread behind : Str} {obj : Reply}
    (item : processTyped (splitFirst crlf) type ridx unread =
      .object obj behind) (level : ridx + depth = 8) :
    ∃ body, unread = body ++ behind ∧
      Wires depth [obj] (typeByte type :: body) := by
  obtain ⟨body, rfl, leaf | ⟨rfl, notDeep, empty⟩⟩ :=
    processTyped_object_iff.mp item
  · refine ⟨body, rfl, ?_⟩
    have wires := Wires.leaf leaf (.nil depth)
    rwa [List.append_nil] at wires
  · refine ⟨body, rfl, ?_⟩
    cases depth with
    | zero => omega
    | succ depth =>
        cases empty with
        | nil =>
            have wires := Wires.nilArray (.nil (depth + 1))
            rwa [List.append_nil] at wires
        | array =>
            have wires := Wires.array (show ([] : List Reply).length < 2 ^ 31
              by decide) (.nil depth) (.nil (depth + 1))
            rwa [List.append_nil, List.append_nil] at wires

theorem next_nil (idx : Int) (below : List ReadTask) :
    plainReader.move (newTask idx :: below) [] =
      .stop (.wait (newTask idx :: below) []) :=
  rfl

theorem move_badByte {byte : UInt8} (noType : itemType byte = none)
    (idx : Int) (below : List ReadTask) (rest : Str) :
    plainReader.move (newTask idx :: below) (byte :: rest) =
      .stop (.fail (.typeByte byte)) := by
  rw [plainReader_move, processItem]
  simp only [List.headD_cons, newTask, noType]

/-- A reader that hands something out has read an item first. -/
theorem item_of_next {text left : Str} {idx : Int}
    {below later : List ReadTask} {result : Reply} {depth : ℕ}
    (found : plainReader.next (newTask idx :: below) text =
      .out result later left)
    (level : below.length + depth = 8)
    (elements : ∀ {shorter : Str} (prv : ReadTask) (under : List ReadTask)
      {level : ℕ}, shorter.length < text.length →
      (prv.obj.length : Int) < prv.elements → under.length + 1 + level = 8 →
      plainReader.next (newTask prv.obj.length :: prv :: under) shorter =
        .out result later left →
      ∃ replies body behind, prv.elements = prv.obj.length + replies.length ∧
        Wires level replies body ∧ shorter = body ++ behind ∧
        deliver (.array (prv.obj ++ replies)) prv.idx under behind =
          .out result later left) :
    ∃ reply body behind, Wires depth [reply] body ∧ text = body ++ behind ∧
      behind.length < text.length ∧
      deliver reply idx below behind = .out result later left := by
  cases text with
  | nil =>
      rw [plainReader.next_of_stop (next_nil idx below)] at found
      cases found
  | cons byte unread =>
      cases isType : itemType byte with
      | none =>
          rw [plainReader.next_of_stop (move_badByte isType idx below unread)]
            at found
          cases found
      | some type =>
          obtain rfl := itemType_eq_some_iff.mp isType
          have moved := move_typeByte type idx below unread
          rw [processKnown] at moved
          cases item :
              processTyped (splitFirst crlf) type below.length unread with
          | incomplete =>
              rw [item] at moved
              rw [plainReader.next_of_stop moved] at found
              cases found
          | bad error =>
              rw [item] at moved
              rw [plainReader.next_of_stop moved] at found
              cases found
          | object obj behind =>
              have shorter := processTyped_shrinks (.inl ⟨obj, item⟩)
              rw [next_of_object item] at found
              obtain ⟨body, rfl, wires⟩ := wires_of_object item level
              refine ⟨obj, _, behind, wires, rfl, ?_, found⟩
              rw [List.length_cons]
              omega
          | opened count behind =>
              have shorter := processTyped_shrinks (.inr ⟨count, item⟩)
              rw [next_of_opened item] at found
              obtain ⟨rfl, notDeep, positive, small, rfl⟩ :=
                processTyped_opened_iff.mp item
              cases depth with
              | zero => omega
              | succ depth =>
                  obtain ⟨replies, body, rest, size, inside, rfl, delivered⟩ :=
                    elements ⟨some .array, count, idx, []⟩ below
                      (by rw [List.length_cons]; omega) (by simpa using positive)
                      (show below.length + 1 + depth = 8 by omega) found
                  obtain rfl : count = replies.length := by
                    simp only [List.length_nil] at size
                    omega
                  have wires := Wires.array small inside (.nil (depth + 1))
                  rw [List.append_nil] at wires
                  refine ⟨_, _, rest, wires, ?_, ?_, delivered⟩
                  · simp
                  · simp [crlf]
                    omega

theorem elements_of_next {text left : Str} (prv : ReadTask)
    (below : List ReadTask) {later : List ReadTask} {result : Reply}
    {depth : ℕ}
    (missing : (prv.obj.length : Int) < prv.elements)
    (level : below.length + 1 + depth = 8)
    (found : plainReader.next (newTask prv.obj.length :: prv :: below) text =
      .out result later left) :
    ∃ replies body behind, prv.elements = prv.obj.length + replies.length ∧
      Wires depth replies body ∧ text = body ++ behind ∧
      deliver (.array (prv.obj ++ replies)) prv.idx below behind =
        .out result later left := by
  induction size : text.length using Nat.strongRecOn
    generalizing text prv below depth with
  | _ size induction =>
      obtain ⟨reply, body, behind, wires, rfl, shorter, delivered⟩ :=
        item_of_next found
          (show (prv :: below).length + depth = 8 by rw [List.length_cons]; omega)
          fun inner under _ less few levels next =>
            induction _ (size ▸ less) inner under few levels next rfl
      by_cases isLast : (prv.obj.length : Int) = prv.elements - 1
      · rw [deliver_last reply isLast] at delivered
        refine ⟨[reply], body, behind, ?_, wires, rfl, delivered⟩
        rw [List.length_singleton]
        omega
      · rw [deliver_more reply isLast] at delivered
        have few : ((prv.obj ++ [reply]).length : Int) < prv.elements := by
          simp
          omega
        have next : plainReader.next
            (newTask (prv.obj ++ [reply]).length ::
              { prv with obj := prv.obj ++ [reply] } :: below) behind =
            .out result later left := by
          rw [List.length_append]
          exact delivered
        obtain ⟨replies, text, rest, sizes, more, rfl, last⟩ :=
          induction _ (size ▸ shorter) { prv with obj := prv.obj ++ [reply] }
            below few level next rfl
        refine ⟨reply :: replies, body ++ text, rest, ?_, wires.append more,
          ?_, ?_⟩
        · simp at sizes ⊢
          omega
        · rw [List.append_assoc]
        · rw [List.append_assoc] at last
          exact last

/-- **What the reader hands out, and only that, is a reply of the grammar with
at most eight levels of arrays.** -/
theorem next_out_iff {text rest : Str} {reply : Reply}
    {rstack : List ReadTask} :
    plainReader.next [] text = .out reply rstack rest ↔
      rstack = [] ∧ ∃ wire, Wires 8 [reply] wire ∧ text = wire ++ rest := by
  constructor
  · intro found
    rw [next_idle] at found
    obtain ⟨obj, wire, behind, wires, rfl, -, delivered⟩ :=
      item_of_next found (show ([] : List ReadTask).length + 8 = 8 by rfl)
        fun prv under _ _ few level next =>
          elements_of_next prv under few level next
    rw [deliver_root] at delivered
    cases delivered
    exact ⟨rfl, wire, wires, rfl⟩
  · rintro ⟨rfl, wire, wires, rfl⟩
    exact next_of_reply wires rest

end Hiredis

end ChatRoom
