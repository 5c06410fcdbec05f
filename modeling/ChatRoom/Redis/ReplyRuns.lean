import ChatRoom.Lib.Run
import ChatRoom.Redis.NestedReplies

/-!
# The reply reader in use

`redisReaderFeed` and `redisReaderGetReply` in any order, with the bytes cut
into any pieces: as long as the buffer stays below 2^31 bytes, the reader hands
out what it would find in all of the bytes at once.
-/

namespace ChatRoom

namespace Hiredis

open Lib.Incremental (Progress Session)

/-! ## The buffer -/

/-- What an `int` can count. -/
def bufferBound : ℕ := 2 ^ 31

theorem toInt_eq {value : Int} (lower : -(2 ^ 31) ≤ value)
    (upper : value < 2 ^ 31) : toInt value = value := by
  rw [toInt, Int.bmod_def]
  split_ifs <;> omega

/-- What has been read is dropped. -/
theorem sdsrange_pos {s : Str} {pos : ℕ} (inside : pos ≤ s.length)
    (small : s.length < bufferBound) : sdsrange s pos (-1) = s.drop pos := by
  have bound : s.length < 2 ^ 31 := small
  have len : toInt s.length = s.length := toInt_eq (by omega) (by omega)
  have start : sdsIndex s.length pos = pos := by
    rw [sdsIndex, toInt_eq (by omega) (by omega), if_neg (by omega)]
  have stop : sdsIndex s.length (-1) = max 0 ((s.length : Int) - 1) := by
    rw [sdsIndex, toInt_eq (by decide) (by decide), if_pos (by decide),
      toInt_eq (by omega) (by omega)]
    rfl
  have newlen :
      (if (pos : Int) > max 0 ((s.length : Int) - 1) ∨
            (pos : Int) ≥ toInt s.length then 0
        else if max 0 ((s.length : Int) - 1) ≥ toInt s.length then
          toInt ((s.length : Int) - 1) - pos + 1
        else max 0 ((s.length : Int) - 1) - pos + 1).toNat =
        s.length - pos := by
    rw [len]
    split_ifs <;> omega
  rw [sdsrange]
  simp only [start, stop]
  rw [newlen, Int.toNat_natCast]
  apply List.take_of_length_le
  rw [List.length_drop]

/-! ## The reader and the plain one -/

theorem processItem_readLine (rstack : List ReadTask) {unread : Str}
    (small : unread.length ≤ bufferBound) :
    processItem readLine rstack unread =
      processItem (splitFirst crlf) rstack unread := by
  have typed {input : Str} (short : input.length ≤ unread.length)
      (type : ItemType) (ridx : ℕ) :
      processTyped readLine type ridx input =
        processTyped (splitFirst crlf) type ridx input := by
    have line : readLine input = splitFirst crlf input :=
      readLine_eq (short.trans small)
    cases type <;>
      simp only [processTyped, processLineItem, processBulkItem,
        processMultiBulkItem, line]
  unfold processItem
  simp only []
  split
  · rw [processKnown, processKnown, typed (le_refl _)]
  · cases unread with
    | nil => rfl
    | cons byte rest =>
        simp only []
        split
        · rfl
        · rw [processKnown, processKnown, typed (by simp)]

theorem read_readLine (rstack : List ReadTask) {unread : Str}
    (small : unread.length ≤ bufferBound) :
    Lib.Incremental.read (processItem readLine) rstack unread =
      plainReader.next rstack unread :=
  plainReader.read_eq_next
    (fun state _ fits => processItem_readLine state fits) rstack small

namespace RedisReader

/-- How far the reader is. -/
def progress (r : RedisReader) : Progress (List ReadTask) UInt8 ReadError :=
  match r.err with
  | none => .working r.rstack r.unread
  | some error => .failed error

/-- What the calls rely on: the cursor is in the buffer, whose length an `int`
can hold, and with an empty buffer there is nothing to find. -/
structure Sound (r : RedisReader) : Prop where
  inside : r.pos ≤ r.buf.length
  small : r.buf.length < bufferBound
  idle : r.buf = [] → ∃ rstack, plainReader.next r.rstack [] = .wait rstack []

/-- The state in which a reader stops in front of `rest`. -/
def Stops (rstack : List ReadTask) (rest : Str) : Prop :=
  rest = [] → ∃ later, plainReader.next rstack [] = .wait later []

theorem stops_start : Stops [] [] := by
  intro _
  rw [next_idle]
  exact ⟨[rootTask], plainReader.next_of_stop (next_nil (-1) [])⟩

theorem stops_of_wait {state rstack : List ReadTask} {text rest : Str}
    (found : plainReader.next state text = .wait rstack rest) :
    Stops rstack rest := by
  rintro rfl
  exact ⟨rstack, (plainReader.next_of_wait found).symm.trans found⟩

theorem stops_of_out {state rstack : List ReadTask} {text rest : Str}
    {reply : Reply}
    (found : plainReader.next state text = .out reply rstack rest) :
    Stops rstack rest := by
  intro _
  rw [rstack_of_out found]
  exact stops_start rfl

theorem unread_length {r : RedisReader} (sound : r.Sound) :
    r.unread.length ≤ bufferBound := by
  have := sound.small
  rw [unread, List.length_drop]
  omega

theorem progress_feed {r : RedisReader} (sound : r.Sound) (chunk : Str)
    (handed : List Reply) :
    (⟨(r.feed chunk).progress, handed⟩ :
        Session (List ReadTask) UInt8 Reply ReadError) =
      Session.feed ⟨r.progress, handed⟩ chunk := by
  cases failed : r.err with
  | none =>
      simp [feed, progress, failed, Session.feed, unread,
        List.drop_append_of_le_length sound.inside]
  | some error => simp [feed, progress, failed, Session.feed]

theorem stopAt_spec {r : RedisReader} (sound : r.Sound)
    {rstack : List ReadTask} {rest : Str} (kept : rest <:+ r.unread)
    (stops : Stops rstack rest) :
    (r.stopAt rstack rest).Sound ∧
      (r.stopAt rstack rest).unread = rest ∧
      (r.stopAt rstack rest).rstack = rstack ∧
      (r.stopAt rstack rest).err = r.err := by
  have suffix : rest <:+ r.buf := kept.trans (List.drop_suffix r.pos r.buf)
  have read : r.buf.drop (r.buf.length - rest.length) = rest :=
    (List.suffix_iff_eq_drop.mp suffix).symm
  have inside : r.buf.length - rest.length ≤ r.buf.length := Nat.sub_le _ _
  have small := sound.small
  by_cases long : r.buf.length - rest.length ≥ 1024
  · have stopped : r.stopAt rstack rest =
        { r with buf := rest, pos := 0, rstack := rstack } := by
      rw [stopAt]
      simp only [if_pos long]
      rw [sdsrange_pos inside small, read]
    rw [stopped]
    have shorter := suffix.length_le
    have shortEnough := Nat.lt_of_le_of_lt shorter small
    exact ⟨⟨Nat.zero_le _, shortEnough, stops⟩, rfl, rfl, rfl⟩
  · have stopped : r.stopAt rstack rest =
        { r with pos := r.buf.length - rest.length, rstack := rstack } := by
      rw [stopAt]
      simp only [if_neg long]
    rw [stopped]
    refine ⟨⟨inside, small, ?_⟩, read, rfl, rfl⟩
    intro empty
    apply stops
    rw [show r.buf = [] from empty] at suffix
    exact List.suffix_nil.mp suffix

theorem progress_of_none {r : RedisReader} (noErr : r.err = none) :
    r.progress = .working r.rstack r.unread := by
  rw [progress, noErr]

theorem progress_of_some {r : RedisReader} {error : ReadError}
    (failed : r.err = some error) : r.progress = .failed error := by
  rw [progress, failed]

/-- What a call of `redisReaderGetReply` does, in terms of the plain reader. -/
theorem getReply_cases {r : RedisReader} (sound : r.Sound) :
    (∃ error, r.err = some error ∧ r.getReply = (r, none)) ∨
    (r.err = none ∧ r.buf = [] ∧ r.getReply = (r, some none)) ∨
    r.err = none ∧
      match plainReader.next r.rstack r.unread with
      | .fail error => r.getReply = (⟨some error, [], 0, []⟩, none)
      | .wait rstack rest =>
          r.getReply = (r.stopAt rstack rest, some none)
      | .out reply rstack rest =>
          r.getReply = (r.stopAt rstack rest, some (some reply)) := by
  cases failed : r.err with
  | some error => exact .inl ⟨error, rfl, by simp [getReply, failed]⟩
  | none =>
      right
      by_cases empty : r.buf.length = 0
      · exact .inl ⟨rfl, List.length_eq_zero_iff.mp empty,
          by simp [getReply, failed, empty]⟩
      · refine .inr ⟨rfl, ?_⟩
        have plain := read_readLine r.rstack (unread_length sound)
        rw [getReply, failed, plain]
        simp only [Option.isSome_none, Bool.false_eq_true, if_false,
          if_neg empty]
        cases plainReader.next r.rstack r.unread <;> rfl

theorem sound_getReply {r : RedisReader} (sound : r.Sound) :
    r.getReply.1.Sound := by
  rcases getReply_cases sound with ⟨_, -, same⟩ | ⟨-, -, same⟩ | ⟨-, stops⟩
  · rw [same]
    exact sound
  · rw [same]
    exact sound
  · cases found : plainReader.next r.rstack r.unread with
    | fail error =>
        rw [found] at stops
        rw [stops]
        exact ⟨le_refl _, Nat.two_pow_pos 31, fun _ => stops_start rfl⟩
    | wait rstack rest =>
        rw [found] at stops
        rw [stops]
        exact (stopAt_spec sound
          (plainReader.next_suffix (by rw [found]; rfl))
          (stops_of_wait found)).1
    | out reply rstack rest =>
        rw [found] at stops
        rw [stops]
        exact (stopAt_spec sound
          (plainReader.next_suffix (by rw [found]; rfl))
          (stops_of_out found)).1

end RedisReader

/-! ## Runs -/

/-- A reader with the replies it has handed out so far. -/
structure ReaderRun where
  reader : RedisReader
  handed : List Reply

inductive ReaderEvent where
  | feed (chunk : Str)
  | getReply

namespace ReaderRun

def start : ReaderRun := ⟨redisReaderCreate, []⟩

def step (run : ReaderRun) : ReaderEvent → Option ReaderRun
  | .feed chunk => some { run with reader := run.reader.feed chunk }
  | .getReply =>
      let (reader, answer) := run.reader.getReply
      some ⟨reader, run.handed ++ (answer.getD none).toList⟩

/-- The bytes that a list of events feeds. -/
def fedBytes (events : List ReaderEvent) : Str :=
  events.flatMap fun event =>
    match event with
    | .feed chunk => chunk
    | .getReply => []

/-- The buffer is one that an `int` can count. -/
def Small (run : ReaderRun) : Prop := run.reader.buf.length < bufferBound

/-- The run has handed out what the plain reader finds in the bytes. -/
def Serves (run : ReaderRun) (fed : Str) : Prop :=
  Session.Serves plainReader [] fed ⟨run.reader.progress, run.handed⟩

theorem serves_feed {run : ReaderRun} {fed : Str} (serves : run.Serves fed)
    (sound : run.reader.Sound) (chunk : Str) :
    Serves { run with reader := run.reader.feed chunk } (fed ++ chunk) := by
  have fedOn := Session.Serves.feed serves chunk
  rw [← RedisReader.progress_feed sound] at fedOn
  exact fedOn

theorem serves_getReply {run : ReaderRun} {fed : Str}
    (serves : run.Serves fed) (sound : run.reader.Sound) :
    Serves ⟨run.reader.getReply.1,
      run.handed ++ (run.reader.getReply.2.getD none).toList⟩ fed := by
  rcases RedisReader.getReply_cases sound with
    ⟨_, -, same⟩ | ⟨-, -, same⟩ | ⟨noErr, stops⟩
  · rw [same]
    simpa using serves
  · rw [same]
    simpa using serves
  · have asked := Session.Serves.ask serves
    rw [Session.ask, RedisReader.progress_of_none noErr] at asked
    simp only [] at asked
    cases found :
        plainReader.next run.reader.rstack run.reader.unread with
    | fail error =>
        rw [found] at stops asked
        rw [stops]
        change Serves ⟨⟨some error, [], 0, []⟩, run.handed ++ []⟩ fed
        rw [List.append_nil]
        exact asked
    | wait rstack rest =>
        rw [found] at stops asked
        obtain ⟨-, unread, stack, err⟩ := RedisReader.stopAt_spec sound
          (plainReader.next_suffix (by rw [found]; rfl))
          (RedisReader.stops_of_wait found)
        rw [stops]
        change Serves ⟨run.reader.stopAt rstack rest, run.handed ++ []⟩ fed
        rw [List.append_nil, Serves,
          RedisReader.progress_of_none (err.trans noErr), unread, stack]
        exact asked
    | out reply rstack rest =>
        rw [found] at stops asked
        obtain ⟨-, unread, stack, err⟩ := RedisReader.stopAt_spec sound
          (plainReader.next_suffix (by rw [found]; rfl))
          (RedisReader.stops_of_out found)
        rw [stops, Serves,
          RedisReader.progress_of_none (err.trans noErr), unread, stack]
        exact asked

theorem step_small {run next : ReaderRun} {event : ReaderEvent}
    (sound : run.reader.Sound) (taken : run.step event = some next)
    (small : next.Small) : next.reader.Sound := by
  cases event with
  | feed chunk =>
      cases taken
      have inside := sound.inside
      cases failed : run.reader.err.isSome with
      | true =>
          have same : run.reader.feed chunk = run.reader := if_pos failed
          exact same.symm ▸ sound
      | false =>
          have fed : run.reader.feed chunk =
              { run.reader with buf := run.reader.buf ++ chunk } :=
            if_neg (by simp [failed])
          refine ⟨?_, small, ?_⟩
          · rw [fed, List.length_append]
            exact Nat.le_add_right_of_le inside
          · rw [fed]
            intro empty
            exact sound.idle (List.append_eq_nil_iff.mp empty).1
  | getReply =>
      cases taken
      exact RedisReader.sound_getReply sound

theorem serves_step {run next : ReaderRun} {fed : Str} {event : ReaderEvent}
    (serves : run.Serves fed) (sound : run.reader.Sound)
    (taken : run.step event = some next) :
    next.Serves (fed ++ fedBytes [event]) := by
  cases event with
  | feed chunk =>
      obtain rfl := Option.some.inj taken
      rw [fedBytes, List.flatMap_singleton]
      exact serves_feed serves sound chunk
  | getReply =>
      obtain rfl := Option.some.inj taken
      rw [fedBytes, List.flatMap_singleton, List.append_nil]
      exact serves_getReply serves sound

/-- A run hands out what is in the bytes. -/
theorem serves_of_run {run final : ReaderRun} {fed : Str}
    {events : List ReaderEvent} (sound : run.reader.Sound)
    (serves : run.Serves fed)
    (small : Lib.Always ReaderRun.step Small run events)
    (ran : Lib.exec ReaderRun.step run events = some final) :
    final.reader.Sound ∧ final.Serves (fed ++ fedBytes events) := by
  induction events generalizing run fed with
  | nil =>
      cases ran
      rw [fedBytes, List.flatMap_nil, List.append_nil]
      exact ⟨sound, serves⟩
  | cons event events induction =>
      obtain ⟨next, taken, rest⟩ := Lib.exec_cons_iff.mp ran
      have later := (Lib.always_cons_iff.mp small).2 next taken
      have nextSmall : next.Small :=
        later [] List.nil_prefix next rfl
      have nextSound := step_small sound taken nextSmall
      have whole :=
        induction nextSound (serves_step serves sound taken) later rest
      have bytes : fedBytes (event :: events) =
          fedBytes [event] ++ fedBytes events := by
        rw [fedBytes, fedBytes, List.flatMap_cons, List.flatMap_singleton]
        rfl
      rw [bytes, ← List.append_assoc]
      exact whole

theorem start_sound : start.reader.Sound :=
  ⟨le_refl _, Nat.two_pow_pos 31, fun _ => RedisReader.stops_start rfl⟩

theorem start_serves : start.Serves [] := Session.serves_start []

/-! ## Runs that receive little -/

theorem getReply_buf_le (r : RedisReader) :
    r.getReply.1.buf.length ≤ r.buf.length := by
  have range (start stop : Int) : (sdsrange r.buf start stop).length ≤
      r.buf.length := by
    rw [sdsrange, List.length_take, List.length_drop]
    omega
  have stopped (rstack : List ReadTask) (rest : Str) :
      (r.stopAt rstack rest).buf.length ≤ r.buf.length := by
    by_cases long : r.buf.length - rest.length ≥ 1024
    · rw [RedisReader.stopAt]
      simp only [if_pos long]
      exact range _ _
    · rw [RedisReader.stopAt]
      simp only [if_neg long]
      exact le_refl _
  unfold RedisReader.getReply
  split_ifs
  · exact le_refl _
  · exact le_refl _
  · split
    · exact Nat.zero_le _
    · exact stopped _ _
    · exact stopped _ _

/-- A run that receives less than 2^31 bytes in all keeps its buffer small. -/
theorem always_small {run : ReaderRun} {events : List ReaderEvent}
    (fits : run.reader.buf.length + (fedBytes events).length < bufferBound) :
    Lib.Always step Small run events := by
  induction events generalizing run with
  | nil =>
      rw [fedBytes, List.flatMap_nil, List.length_nil] at fits
      exact Lib.always_nil_iff.mpr fits
  | cons event events induction =>
      have bytes : fedBytes (event :: events) =
          fedBytes [event] ++ fedBytes events := by
        rw [fedBytes, fedBytes, List.flatMap_cons, List.flatMap_singleton]
        rfl
      rw [bytes, List.length_append] at fits
      refine Lib.always_cons_iff.mpr ⟨?_, ?_⟩
      · change run.reader.buf.length < bufferBound
        omega
      · intro next taken
        apply induction
        have grows : next.reader.buf.length ≤
            run.reader.buf.length + (fedBytes [event]).length := by
          cases event with
          | feed chunk =>
              obtain rfl := Option.some.inj taken
              change (run.reader.feed chunk).buf.length ≤ _
              rw [RedisReader.feed]
              split_ifs <;> simp [fedBytes]
          | getReply =>
              obtain rfl := Option.some.inj taken
              have := getReply_buf_le run.reader
              change run.reader.getReply.1.buf.length ≤ _
              omega
        omega

end ReaderRun

/-! ## The replies of a run -/

theorem Wires.cons_split {depth : ℕ} {reply : Reply} {replies : List Reply}
    {wire : Str} (wires : Wires depth (reply :: replies) wire) :
    ∃ form behind, wire = form ++ behind ∧ Wires depth [reply] form ∧
      Wires depth replies behind := by
  have single {form behind : Str} (whole : wire = form ++ behind)
      (first : Wires depth [reply] form) (later : Wires depth replies behind) :
      ∃ form behind, wire = form ++ behind ∧ Wires depth [reply] form ∧
        Wires depth replies behind :=
    ⟨form, behind, whole, first, later⟩
  cases wires with
  | leaf leaf later =>
      refine single ?_ (.leaf leaf (.nil _)) later
      simp
  | nilArray later =>
      refine single ?_ (.nilArray (.nil _)) later
      simp
  | array small inside later =>
      refine single ?_ (.array small inside (.nil _)) later
      simp

theorem hands_of_wires {replies : List Reply} {wire : Str}
    (wires : Wires 8 replies wire) (rest : Str) :
    plainReader.Hands [] (wire ++ rest) replies [] rest := by
  induction replies generalizing wire with
  | nil =>
      rw [wires.text_of_nil]
      exact .nil [] rest
  | cons reply replies induction =>
      obtain ⟨form, behind, rfl, first, later⟩ := wires.cons_split
      rw [List.append_assoc]
      exact .cons (next_of_reply first (behind ++ rest)) (induction later)

theorem wires_of_hands {replies : List Reply} {text rest : Str}
    {start rstack : List ReadTask}
    (hands : plainReader.Hands start text replies rstack rest)
    (isStart : start = []) :
    rstack = [] ∧ ∃ wire, Wires 8 replies wire ∧ text = wire ++ rest := by
  induction hands with
  | nil state input => exact ⟨isStart, [], .nil 8, rfl⟩
  | cons found later induction =>
      subst isStart
      obtain ⟨rfl, form, first, rfl⟩ := next_out_iff.mp found
      obtain ⟨isEnd, wire, wires, rfl⟩ := induction rfl
      refine ⟨isEnd, form ++ wire, first.append wires, ?_⟩
      rw [List.append_assoc]

namespace ReaderRun

/-- The next call of `redisReaderGetReply` finds what the plain reader finds in
the bytes that have not been handed out. -/
def Answers (run : ReaderRun) (rest : Str) : Prop :=
  match plainReader.next [] rest with
  | .wait _ _ => run.reader.getReply.2 = some none
  | .fail error =>
      run.reader.getReply.2 = none ∧ run.reader.getReply.1.err = some error
  | .out reply _ _ => run.reader.getReply.2 = some (some reply)

theorem answers_of_serves {run : ReaderRun} {fed : Str}
    (sound : run.reader.Sound) (serves : run.Serves fed) :
    ∃ wire rest, fed = wire ++ rest ∧ Wires 8 run.handed wire ∧
      run.Answers rest := by
  obtain ⟨origin, rest, hands, goesOn⟩ := serves
  obtain ⟨rfl, wire, wires, rfl⟩ := wires_of_hands hands rfl
  refine ⟨wire, rest, rfl, wires, ?_⟩
  unfold Answers
  rcases RedisReader.getReply_cases sound with
    ⟨error, failed, same⟩ | ⟨noErr, empty, same⟩ | ⟨noErr, stops⟩
  · rw [RedisReader.progress_of_some failed] at goesOn
    have fails : plainReader.next [] rest = .fail error := goesOn
    rw [fails, same]
    exact ⟨rfl, failed⟩
  · rw [RedisReader.progress_of_none noErr] at goesOn
    have goes : plainReader.next run.reader.rstack run.reader.unread =
      plainReader.next [] rest := goesOn
    obtain ⟨later, waits⟩ := sound.idle empty
    rw [RedisReader.unread, empty, List.drop_nil, waits] at goes
    rw [← goes, same]
  · rw [RedisReader.progress_of_none noErr] at goesOn
    have goes : plainReader.next run.reader.rstack run.reader.unread =
      plainReader.next [] rest := goesOn
    rw [← goes]
    cases found :
        plainReader.next run.reader.rstack run.reader.unread with
    | fail error =>
        rw [found] at stops
        simp only [] at stops ⊢
        rw [stops]
        exact ⟨rfl, rfl⟩
    | wait rstack left =>
        rw [found] at stops
        simp only [] at stops ⊢
        rw [stops]
    | out reply rstack left =>
        rw [found] at stops
        simp only [] at stops ⊢
        rw [stops]

theorem answers_of_run {events : List ReaderEvent} {final : ReaderRun}
    (small : Lib.Always step Small start events)
    (ran : Lib.exec step start events = some final) :
    ∃ wire rest, fedBytes events = wire ++ rest ∧
      Wires 8 final.handed wire ∧ final.Answers rest := by
  obtain ⟨sound, serves⟩ :=
    serves_of_run start_sound start_serves small ran
  exact answers_of_serves sound serves

/-- **However the bytes are cut into pieces, and whenever the caller asks**: the
bytes fed are the wire forms of the replies handed out, in order, and a rest.
The next call hands out a reply exactly when the rest begins with a wire form
of it, and fails only where no more bytes could complete one. -/
theorem replies_of_run {events : List ReaderEvent} {final : ReaderRun}
    (small : Lib.Always step Small start events)
    (ran : Lib.exec step start events = some final) :
    ∃ wire rest, fedBytes events = wire ++ rest ∧
      Wires 8 final.handed wire ∧
      (∀ reply, final.reader.getReply.2 = some (some reply) ↔
        ∃ form behind, Wires 8 [reply] form ∧ rest = form ++ behind) ∧
      (final.reader.getReply.2 = none →
        ∀ more reply form behind, Wires 8 [reply] form →
          rest ++ more ≠ form ++ behind) := by
  obtain ⟨wire, rest, fed, wires, answers⟩ := answers_of_run small ran
  refine ⟨wire, rest, fed, wires, ?_, ?_⟩
  · intro reply
    have isFirst : (∃ form behind, Wires 8 [reply] form ∧
        rest = form ++ behind) ↔
        ∃ behind, plainReader.next [] rest = .out reply [] behind := by
      constructor
      · rintro ⟨form, behind, first, rfl⟩
        exact ⟨behind, next_of_reply first behind⟩
      · rintro ⟨behind, found⟩
        obtain ⟨-, form, first, text⟩ := next_out_iff.mp found
        exact ⟨form, behind, first, text⟩
    rw [isFirst]
    unfold Answers at answers
    cases found : plainReader.next [] rest with
    | wait rstack left =>
        rw [found] at answers
        have nothing : final.reader.getReply.2 = some none := answers
        simp [nothing]
    | fail error =>
        rw [found] at answers
        simp [answers.1]
    | out other rstack left =>
        rw [found] at answers
        obtain rfl := rstack_of_out found
        simp only [] at answers
        rw [answers]
        constructor
        · intro same
          cases same
          exact ⟨left, rfl⟩
        · rintro ⟨behind, same⟩
          cases same
          rfl
  · intro fails more reply form behind first whole
    have found := next_of_reply first behind
    rw [← whole, plainReader.next_append] at found
    unfold Answers at answers
    cases stopped : plainReader.next [] rest with
    | wait rstack left =>
        rw [stopped, fails] at answers
        cases answers
    | fail error =>
        rw [stopped] at found
        cases found
    | out other rstack left =>
        rw [stopped, fails] at answers
        cases answers

/-- A status and an integer, cut in the middle of the integer. -/
def cutEvents : List ReaderEvent :=
  [.feed (ascii "+OK\r\n:1"), .getReply, .getReply, .feed (ascii "2\r\n")]

theorem replies_of_run_cut : ∃ final,
    Lib.exec step start cutEvents = some final ∧
      final.handed = [.status (ascii "OK")] ∧
      ∃ wire rest, fedBytes cutEvents = wire ++ rest ∧
        Wires 8 final.handed wire ∧
        (∀ reply, final.reader.getReply.2 = some (some reply) ↔
          ∃ form behind, Wires 8 [reply] form ∧ rest = form ++ behind) ∧
        (final.reader.getReply.2 = none →
          ∀ more reply form behind, Wires 8 [reply] form →
            rest ++ more ≠ form ++ behind) :=
  ⟨_, rfl, rfl, replies_of_run (always_small (by decide)) rfl⟩

/-- What has been handed out, and what follows in the bytes of known
replies. -/
theorem handed_or_next {events : List ReaderEvent} {final : ReaderRun}
    {expected : List Reply} {wire more : Str}
    (small : Lib.Always step Small start events)
    (ran : Lib.exec step start events = some final)
    (wires : Wires 8 expected wire) (fed : fedBytes events = wire ++ more) :
    (∃ later rest, final.handed = expected ++ later ∧
        plainReader.Hands [] more later [] rest ∧ final.Answers rest) ∨
      ∃ reply later, expected = final.handed ++ reply :: later ∧
        final.reader.getReply.2 = some (some reply) := by
  obtain ⟨handedWire, rest, fedToo, handedWires, answers⟩ :=
    answers_of_run small ran
  have hands := hands_of_wires handedWires rest
  rw [← fedToo, fed] at hands
  rcases hands.prefix_or_prefix (hands_of_wires wires more) with
    ⟨later, isHanded, goesOn⟩ | ⟨reply, later, isExpected, goesOn⟩
  · exact .inl ⟨later, rest, isHanded, goesOn, answers⟩
  · right
    refine ⟨reply, later, isExpected, ?_⟩
    cases goesOn with
    | cons found _ =>
        unfold Answers at answers
        rw [found] at answers
        exact answers

/-- **Pipelined replies come out in order**: whatever the pieces, replies that
have arrived completely have been handed out, or the next call hands out the
first of them that has not. -/
theorem pipelined_replies {events : List ReaderEvent} {final : ReaderRun}
    {expected : List Reply} {wire more : Str}
    (small : Lib.Always step Small start events)
    (ran : Lib.exec step start events = some final)
    (wires : Wires 8 expected wire) (fed : fedBytes events = wire ++ more) :
    (∃ later, final.handed = expected ++ later) ∨
      ∃ reply later, expected = final.handed ++ reply :: later ∧
        final.reader.getReply.2 = some (some reply) := by
  rcases handed_or_next small ran wires fed with
    ⟨later, rest, isHanded, -⟩ | next
  · exact .inl ⟨later, isHanded⟩
  · exact .inr next

theorem wires_cut :
    Wires 8 [.status (ascii "OK"), .integer 12] (ascii "+OK\r\n:12\r\n") := by
  have status : Leaf .status (.status (ascii "OK")) (ascii "OK\r\n") :=
    .status (by decide)
  have integer : Leaf .integer (.integer 12) (ascii "12\r\n") :=
    .integer (by decide) (by decide)
  exact .leaf status (.leaf integer (.nil 8))

theorem pipelined_replies_cut : ∃ final,
    Lib.exec step start cutEvents = some final ∧
      ((∃ later, final.handed =
          [.status (ascii "OK"), .integer 12] ++ later) ∨
        ∃ reply later, [.status (ascii "OK"), .integer 12] =
            final.handed ++ reply :: later ∧
          final.reader.getReply.2 = some (some reply)) := by
  have small : Lib.Always step Small start cutEvents :=
    always_small (by decide)
  have fed : fedBytes cutEvents = ascii "+OK\r\n:12\r\n" ++ [] := rfl
  exact ⟨_, rfl, pipelined_replies small rfl wires_cut fed⟩

/-- **A reply of nine levels of arrays ends the connection**: the replies in
front of it come out, then every call fails with the error of the depth. -/
theorem deep_reply_fails {events : List ReaderEvent} {final : ReaderRun}
    {expected : List Reply} {deep : Reply} {depth : ℕ}
    {wire form more : Str} (small : Lib.Always step Small start events)
    (ran : Lib.exec step start events = some final)
    (wires : Wires 8 expected wire) (deepWires : Wires depth [deep] form)
    (tooDeep : ¬ Wires 8 [deep] form)
    (fed : fedBytes events = wire ++ (form ++ more)) :
    (final.handed = expected ∧ final.reader.getReply.2 = none ∧
        final.reader.getReply.1.err = some .tooDeep) ∨
      ∃ reply later, expected = final.handed ++ reply :: later ∧
        final.reader.getReply.2 = some (some reply) := by
  have fails := next_of_deeper_reply deepWires tooDeep more
  rcases handed_or_next small ran wires fed with
    ⟨later, rest, isHanded, goesOn, answers⟩ | next
  · left
    cases goesOn with
    | nil =>
        rw [List.append_nil] at isHanded
        unfold Answers at answers
        rw [fails] at answers
        exact ⟨isHanded, answers⟩
    | cons found _ =>
        rw [fails] at found
        cases found
  · exact .inr next

/-- An integer in arrays of one element. -/
def nested : ℕ → Reply
  | 0 => .integer 1
  | levels + 1 => .array [nested levels]

def nestedWire : ℕ → Str
  | 0 => ascii ":1\r\n"
  | levels + 1 => ascii "*1\r\n" ++ nestedWire levels

theorem wires_nested (levels : ℕ) :
    Wires levels [nested levels] (nestedWire levels) := by
  induction levels with
  | zero =>
      have integer : Leaf .integer (.integer 1) (ascii "1\r\n") :=
        .integer (by decide) (by decide)
      exact .leaf integer (.nil 0)
  | succ levels induction =>
      have header : ascii "*1\r\n" =
          typeByte .array :: (Api.intText 1 ++ crlf) := by
        decide
      have small : [nested levels].length < 2 ^ 31 := by
        rw [List.length_singleton]
        decide
      have wires := Wires.array small induction (.nil (levels + 1))
      rw [List.append_nil, ← List.cons_append] at wires
      rw [nestedWire, header]
      exact wires

theorem not_wires_nested : ¬ Wires 8 [nested 9] (nestedWire 9) := by
  intro wires
  have found := next_of_reply wires []
  have fails : plainReader.next [] (nestedWire 9 ++ []) = .fail .tooDeep := rfl
  rw [fails] at found
  cases found

/-- A status, and a reply of nine levels behind it. -/
def nestedEvents : List ReaderEvent :=
  [.feed (ascii "+OK\r\n"), .getReply, .feed (nestedWire 9)]

theorem deep_reply_fails_nested : ∃ final,
    Lib.exec step start nestedEvents = some final ∧
      ((final.handed = [.status (ascii "OK")] ∧
          final.reader.getReply.2 = none ∧
          final.reader.getReply.1.err = some .tooDeep) ∨
        ∃ reply later, [.status (ascii "OK")] =
            final.handed ++ reply :: later ∧
          final.reader.getReply.2 = some (some reply)) := by
  have status : Leaf .status (.status (ascii "OK")) (ascii "OK\r\n") :=
    .status (by decide)
  have wires : Wires 8 [.status (ascii "OK")] (ascii "+OK\r\n") :=
    .leaf status (.nil 8)
  have small : Lib.Always step Small start nestedEvents :=
    always_small (by decide)
  have fed : fedBytes nestedEvents =
    ascii "+OK\r\n" ++ (nestedWire 9 ++ []) := rfl
  exact ⟨_, rfl, deep_reply_fails small rfl wires (wires_nested 9)
    not_wires_nested fed⟩

end ReaderRun

end Hiredis

end ChatRoom
