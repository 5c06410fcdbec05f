import ChatRoom.Api.Paging
import ChatRoom.Api.Statements
import ChatRoom.Lib.Newest
import ChatRoom.Mysql.DbPool

/-!
# The history from both stores

`ApiGetRoomHistoryTiered` reads a page of the stream of the room.  When that is
too short it asks MySQL for as many rows as are missing, by their timestamps,
and appends them: it does not look which rows are in the stream as well.
-/

namespace ChatRoom

namespace Api

open Redis
open Mysql (getInt)

/-- A row of the table `messages`; a column may be NULL. -/
structure TableRow where
  id : Int
  userId : Option Str
  content : Option Str
  timestamp : Int
  redisId : Option Str

/-- The message of a row; a NULL assigned to a `std::string` has no defined
behaviour. -/
def TableRow.message (row : TableRow) : Option Message := do
  let content ← row.content
  let userId ← row.userId
  let id := match row.redisId with
    | some redisId => cStr redisId
    | none => intText (getInt row.id)
  return ⟨id, cStr content, (getInt row.timestamp % 2 ^ 64).toNat, cStr userId⟩

/-- `batch.size() >= static_cast<size_t>(msg_count)`. -/
def enough (msgCount : Int) (messages : List Message) : Bool :=
  decide (0 ≤ msgCount ∧ msgCount ≤ messages.length)

/-- `ApiGetRoomHistoryTiered`, with what it adds to an empty batch.
`connection` tells whether `GetDBConn` gives one; `query` is what MySQL gives
for the statement with a `LIMIT`, if it executes it. -/
def apiGetRoomHistoryTiered (lib : JsonCpp) (link : Link) (keys : Keyspace)
    (now : Nat) (room : Room) (msgCount : Int) (connection : Bool)
    (query : Int → Option (List TableRow)) : Option (Int × MessageBatch) :=
  match apiGetRoomHistory lib link keys now room msgCount with
  | none => none
  | some (redisResult, batch) =>
      if redisResult = 0 ∧ enough msgCount batch.messages = true then
        some (0, batch)
      else if connection then
        match query (msgCount - batch.messages.length) with
        | none => some (0, { batch with hasMore := enough msgCount batch.messages })
        | some rows =>
            (rows.mapM TableRow.message).map fun more =>
              let messages := batch.messages ++ more
              (0, ⟨messages, enough msgCount messages⟩)
      else some (redisResult, batch)

/-! ## The newest messages -/

/-- A correct answer to the statement: the rows by their timestamps, newest
first, with those of one timestamp in any order. -/
def Answers (table : List TableRow) (limit : Nat) (answer : List TableRow) :
    Prop :=
  ∃ ordered : List TableRow, ordered.Perm table ∧
    ordered.Pairwise (fun first second =>
      second.timestamp ≤ first.timestamp) ∧
    answer = ordered.take limit

/-- The ids of a page of the stream. -/
def pageIds (entries : List Entry) (msgCount : Int) : List StreamId :=
  (entries.map Entry.id).reverse.take msgCount.toNat

/-- The rows that MySQL is asked for: none when the page is full. -/
def givenRows (query : Int → Option (List TableRow)) (entries : List Entry)
    (msgCount : Int) : List TableRow :=
  if msgCount ≤ entries.length then []
  else (query (msgCount - entries.length)).getD []

section History

variable (roomId : Str) (msgCount : Int) (entries : List Entry)
  (messages : List Message) (table : List TableRow)
  (entryOf : TableRow → StreamId) (query : Int → Option (List TableRow))

/-- The call returns 0; no id occurs twice, and the ids are the newest of both
stores, as many as asked for. -/
def ShowsNewest (outcome : Option (Int × MessageBatch)) : Prop :=
  ∃ batch ids, outcome = some (0, batch) ∧
    (batch.messages.map (·.id)).Nodup ∧
    batch.messages.map (·.id) = ids.map StreamId.text ∧
    Lib.Newest msgCount.toNat (entries.map Entry.id ++ table.map entryOf) ids ∧
    ∀ message ∈ batch.messages, message ∈ messages ∨
      ∃ row ∈ table, row.message = some message

/-- When the two stores can be put together by count: what MySQL gives is not
in the page and nothing twice, and what it keeps back is older than all that
is shown. -/
structure Mergeable : Prop where
  plain : msgCount ≤ entries.length ∨ Lib.Sql.isPlain roomId = true
  columns : ∀ row ∈ givenRows query entries msgCount,
    row.content.isSome ∧ row.userId.isSome
  fresh : ∀ row ∈ givenRows query entries msgCount,
    entryOf row ∉ pageIds entries msgCount
  once : ((givenRows query entries msgCount).map entryOf).Nodup
  older : ∀ row ∈ table, entryOf row ∈ pageIds entries msgCount ∨
    entryOf row ∈ (givenRows query entries msgCount).map entryOf ∨
    ∀ id ∈ pageIds entries msgCount ++
      (givenRows query entries msgCount).map entryOf, entryOf row < id

end History

/-! ## The two parts of a batch -/

theorem text_injective : Function.Injective StreamId.text := by
  intro first second same
  have parsed := parseId_text 0 first
  rw [same, parseId_text] at parsed
  exact (Option.some.inj parsed).symm

theorem nul_not_mem_text (id : StreamId) : Byte.nul ∉ id.text := by
  intro member
  rcases mem_text member with digit | dash
  · cases digit
  · cases dash

theorem id_of_message {row : TableRow} {message : Message} {id : StreamId}
    (carries : row.redisId = some id.text)
    (isMessage : row.message = some message) : message.id = id.text := by
  simp only [TableRow.message, carries, Option.bind_eq_bind, Option.pure_def,
    Option.bind_eq_some_iff, Option.some.injEq] at isMessage
  obtain ⟨content, -, userId, -, rfl⟩ := isMessage
  exact cStr_eq_self (nul_not_mem_text id)

theorem message_isSome_iff (row : TableRow) :
    row.message.isSome ↔ row.content.isSome ∧ row.userId.isSome := by
  cases content : row.content with
  | none => simp [TableRow.message, content]
  | some text =>
      cases userId : row.userId with
      | none => simp [TableRow.message, content, userId]
      | some user => simp [TableRow.message, content, userId]

theorem mapM_isSome_iff {Item Value : Type} {read : Item → Option Value}
    {items : List Item} :
    (items.mapM read).isSome ↔ ∀ item ∈ items, (read item).isSome := by
  induction items with
  | nil => simp
  | cons item items induction =>
      cases first : read item with
      | none => simp [List.mapM_cons, first]
      | some value =>
          rw [List.forall_mem_cons, first, ← induction]
          cases rest : items.mapM read with
          | none => simp [List.mapM_cons, first, rest]
          | some values => simp [List.mapM_cons, first, rest]

theorem mapM_forall₂ {Item Value : Type} {read : Item → Option Value}
    {items : List Item} {values : List Value}
    (mapped : items.mapM read = some values) :
    List.Forall₂ (fun item value => read item = some value) items values := by
  induction items generalizing values with
  | nil =>
      cases mapped
      exact .nil
  | cons item items induction =>
      simp only [List.mapM_cons, Option.bind_eq_bind, Option.pure_def,
        Option.bind_eq_some_iff, Option.some.injEq] at mapped
      obtain ⟨value, first, others, rest, rfl⟩ := mapped
      exact .cons first (induction rest)

theorem exists_mem_of_forall₂ {Item Value : Type}
    {related : Item → Value → Prop} {items : List Item} {values : List Value}
    (pairs : List.Forall₂ related items values) {value : Value}
    (member : value ∈ values) : ∃ item ∈ items, related item value := by
  induction pairs with
  | nil => cases member
  | cons first rest induction =>
      rcases List.mem_cons.mp member with rfl | later
      · exact ⟨_, List.mem_cons_self, first⟩
      · obtain ⟨item, inside, isRelated⟩ := induction later
        exact ⟨item, List.mem_cons_of_mem _ inside, isRelated⟩

section History

variable {lib : JsonCpp} {link : Link} {keys : Keyspace} {roomId : Str}
  {msgCount : Int} {entries : List Entry} {messages : List Message}
  {table : List TableRow} {entryOf : TableRow → StreamId}
  {query : Int → Option (List TableRow)}

/-- The messages of the page. -/
def pageMessages (messages : List Message) (msgCount : Int) : List Message :=
  messages.reverse.take msgCount.toNat

theorem pageMessages_ids
    (decodes : List.Forall₂ (Decodes lib) entries messages) :
    (pageMessages messages msgCount).map (·.id) =
      (pageIds entries msgCount).map StreamId.text := by
  have ids : messages.map (·.id) = (entries.map Entry.id).map StreamId.text := by
    induction decodes with
    | nil => rfl
    | cons first rest induction =>
        rw [List.map_cons, List.map_cons, List.map_cons, induction,
          id_of_readHistoryEntry first]
  rw [pageMessages, pageIds, List.map_take, List.map_reverse, ids,
    List.map_take, List.map_reverse]

/-- What the call does, in terms of the two stores. -/
theorem apiGetRoomHistoryTiered_eq (positive : 1 ≤ msgCount)
    (stream : roomStream keys roomId = some entries)
    (decodes : List.Forall₂ (Decodes lib) entries messages)
    (answered : entries.length < msgCount →
      ∃ answer, query (msgCount - entries.length) = some answer)
    (now : Nat) :
    apiGetRoomHistoryTiered lib link keys now ⟨roomId, []⟩ msgCount true query =
      ((givenRows query entries msgCount).mapM TableRow.message).map
        fun more =>
          let all := pageMessages messages msgCount ++ more
          (0, ⟨all, enough msgCount all⟩) := by
  have page : List.Forall₂ (Decodes lib)
      (Lib.Paging.page Entry.id msgCount.toNat entries none)
      (pageMessages messages msgCount) := by
    rw [Lib.Paging.page, Lib.Paging.remaining_none]
    exact List.forall₂_take _ (List.rel_reverse decodes)
  have isAt : (⟨roomId, []⟩ : Room).At none := rfl
  have read : apiGetRoomHistory lib link keys now ⟨roomId, []⟩ msgCount =
      some (0, ⟨pageMessages messages msgCount,
        decide (msgCount.toNat ≤ (pageMessages messages msgCount).length)⟩) :=
    apiGetRoomHistory_page (by omega) stream isAt page now
  have sameLength := decodes.length_eq
  have size : (pageMessages messages msgCount).length =
      min msgCount.toNat entries.length := by
    rw [pageMessages, List.length_take, List.length_reverse, sameLength]
  have isEnough : enough msgCount (pageMessages messages msgCount) =
      decide (msgCount ≤ entries.length) := by
    rw [enough, decide_eq_decide]
    omega
  simp only [apiGetRoomHistoryTiered, read, isEnough, true_and,
    decide_eq_true_eq, if_true]
  by_cases full : msgCount ≤ entries.length
  · have isFull : msgCount.toNat ≤ (pageMessages messages msgCount).length := by
      omega
    simp [givenRows, full, isEnough, isFull]
  · obtain ⟨answer, isAnswer⟩ := answered (by omega)
    have isWhole : (pageMessages messages msgCount).length =
        entries.length := by
      omega
    simp only [if_neg full, isWhole, isAnswer, givenRows, Option.getD_some]

/-- The ids of the batch. -/
theorem batch_ids
    (decodes : List.Forall₂ (Decodes lib) entries messages)
    (carries : ∀ row ∈ givenRows query entries msgCount,
      row.redisId = some (entryOf row).text) {more : List Message}
    (isMore : (givenRows query entries msgCount).mapM TableRow.message =
      some more) :
    (pageMessages messages msgCount ++ more).map (·.id) =
      (pageIds entries msgCount ++
        (givenRows query entries msgCount).map entryOf).map StreamId.text := by
  have related := mapM_forall₂ isMore
  have later : more.map (·.id) =
      ((givenRows query entries msgCount).map entryOf).map StreamId.text := by
    generalize givenRows query entries msgCount = given at carries related
    clear isMore
    induction related with
    | nil => rfl
    | @cons row message rows rest first others induction =>
        rw [List.forall_mem_cons] at carries
        rw [List.map_cons, List.map_cons, List.map_cons,
          induction carries.2, id_of_message carries.1 first]
  rw [List.map_append, List.map_append, pageMessages_ids decodes, later]

/-- The batch is right exactly when its rows can be read and its ids are the
newest. -/
theorem showsNewest_iff (positive : 1 ≤ msgCount)
    (stream : roomStream keys roomId = some entries)
    (decodes : List.Forall₂ (Decodes lib) entries messages)
    (carries : ∀ row ∈ givenRows query entries msgCount,
      row.redisId = some (entryOf row).text)
    (answered : entries.length < msgCount →
      ∃ answer, query (msgCount - entries.length) = some answer)
    (inTable : ∀ row ∈ givenRows query entries msgCount, row ∈ table)
    (now : Nat) :
    ShowsNewest msgCount entries messages table entryOf
        (apiGetRoomHistoryTiered lib link keys now ⟨roomId, []⟩ msgCount true
          query) ↔
      (∀ row ∈ givenRows query entries msgCount,
        row.content.isSome ∧ row.userId.isSome) ∧
      Lib.Newest msgCount.toNat (entries.map Entry.id ++ table.map entryOf)
        (pageIds entries msgCount ++
          (givenRows query entries msgCount).map entryOf) := by
  have columns : (∀ row ∈ givenRows query entries msgCount,
      row.content.isSome ∧ row.userId.isSome) ↔
      ((givenRows query entries msgCount).mapM TableRow.message).isSome := by
    rw [mapM_isSome_iff]
    simp only [message_isSome_iff]
  rw [apiGetRoomHistoryTiered_eq positive stream decodes answered, columns]
  cases isMore : (givenRows query entries msgCount).mapM TableRow.message with
  | none =>
      constructor
      · intro shows
        obtain ⟨batch, ids, impossible, -⟩ := shows
        cases impossible
      · intro impossible
        cases impossible.1
  | some more =>
      have ids := batch_ids decodes carries isMore
      constructor
      · intro shows
        obtain ⟨batch, picked, isBatch, -, sameIds, newest, -⟩ := shows
        cases isBatch
        rw [ids] at sameIds
        rw [List.map_injective_iff.mpr text_injective sameIds]
        exact ⟨rfl, newest⟩
      · intro conditions
        obtain ⟨-, newest⟩ := conditions
        refine ⟨_, _, rfl, ?_, ids, newest, ?_⟩
        · simp only [ids]
          exact newest.distinct.map text_injective
        · intro message member
          rcases List.mem_append.mp member with inPage | inMore
          · exact .inl (List.mem_reverse.mp (List.mem_of_mem_take inPage))
          · obtain ⟨row, inGiven, isMessage⟩ :=
              exists_mem_of_forall₂ (mapM_forall₂ isMore) inMore
            exact .inr ⟨row, inTable row inGiven, isMessage⟩

/-- A correct answer, or none when the page is full, is a part of the table, as
large as asked for. -/
theorem givenRows_of_answers
    (answered : entries.length < msgCount →
      ∃ answer, query (msgCount - entries.length) = some answer ∧
        Answers table (msgCount - entries.length).toNat answer) :
    (givenRows query entries msgCount).Subperm table ∧
      (givenRows query entries msgCount).length =
        min (msgCount.toNat - (pageIds entries msgCount).length)
          table.length := by
  have size : (pageIds entries msgCount).length =
      min msgCount.toNat entries.length := by
    rw [pageIds, List.length_take, List.length_reverse, List.length_map]
  by_cases full : msgCount ≤ entries.length
  · have nothing : givenRows query entries msgCount = [] := if_pos full
    rw [nothing, List.length_nil]
    exact ⟨List.nil_subperm, by omega⟩
  · obtain ⟨answer, isAnswer, ordered, permutation, -, isFront⟩ :=
      answered (by omega)
    have isGiven : givenRows query entries msgCount = answer := by
      rw [givenRows, if_neg full, isAnswer]
      rfl
    rw [isGiven, isFront]
    refine ⟨(List.take_sublist _ _).subperm.trans permutation.subperm, ?_⟩
    rw [List.length_take, permutation.length_eq]
    omega

/-- For a correct answer the two parts are the newest of both stores exactly
when they can be put together by count. -/
theorem newest_iff_mergeable
    (ascending : Lib.Paging.Ascending Entry.id entries)
    (plain : msgCount ≤ entries.length ∨ Lib.Sql.isPlain roomId = true)
    (answered : entries.length < msgCount →
      ∃ answer, query (msgCount - entries.length) = some answer ∧
        Answers table (msgCount - entries.length).toNat answer) :
    ((∀ row ∈ givenRows query entries msgCount,
        row.content.isSome ∧ row.userId.isSome) ∧
      Lib.Newest msgCount.toNat (entries.map Entry.id ++ table.map entryOf)
        (pageIds entries msgCount ++
          (givenRows query entries msgCount).map entryOf)) ↔
      Mergeable roomId msgCount entries table entryOf query := by
  have ids : (entries.map Entry.id).Pairwise (· < ·) :=
    List.pairwise_map.mpr ascending
  have page : Lib.Newest msgCount.toNat (entries.map Entry.id)
      (pageIds entries msgCount) := Lib.Newest.of_ascending _ ids
  obtain ⟨subperm, size⟩ := givenRows_of_answers answered
  have filled : ((givenRows query entries msgCount).map entryOf).length =
      min (msgCount.toNat - (pageIds entries msgCount).length)
        (table.map entryOf).length := by
    rw [List.length_map, List.length_map, size]
  have subpermIds : ((givenRows query entries msgCount).map entryOf).Subperm
      (table.map entryOf) := by
    obtain ⟨part, permutation, sublist⟩ := subperm
    exact ⟨part.map entryOf, permutation.map entryOf, sublist.map entryOf⟩
  rw [page.append_iff subpermIds filled, List.nodup_append]
  constructor
  · intro conditions
    obtain ⟨columns, ⟨-, once, apart⟩, older⟩ := conditions
    refine ⟨plain, columns, ?_, once, ?_⟩
    · intro row member inPage
      exact apart _ inPage _ (List.mem_map_of_mem member) rfl
    · intro row member
      by_cases inPage : entryOf row ∈ pageIds entries msgCount
      · exact .inl inPage
      · by_cases inGiven : entryOf row ∈
            (givenRows query entries msgCount).map entryOf
        · exact .inr (.inl inGiven)
        · apply Or.inr ∘ Or.inr
          apply older _ (List.mem_map_of_mem member)
          rw [List.mem_append, not_or]
          exact ⟨inPage, inGiven⟩
  · intro mergeable
    refine ⟨mergeable.columns, ⟨page.distinct, mergeable.once, ?_⟩, ?_⟩
    · rintro id inPage other inGiven rfl
      obtain ⟨row, member, rfl⟩ := List.mem_map.mp inGiven
      exact mergeable.fresh row member inPage
    · intro id member notShown
      obtain ⟨row, inTable, rfl⟩ := List.mem_map.mp member
      rw [List.mem_append, not_or] at notShown
      rcases mergeable.older row inTable with inPage | inGiven | older
      · exact absurd inPage notShown.1
      · exact absurd inGiven notShown.2
      · exact older

end History

/-- The row that persists an entry of amy's. -/
def helloRow (ms : Nat) : TableRow :=
  ⟨ms, some (ascii "amy"), some (ascii "hello"), 1, some (helloEntry ms).id.text⟩

/-- The entry of a row, by the time stamp in its id. -/
def helloEntryOf (row : TableRow) : StreamId := ⟨row.id.toNat, 0⟩

theorem helloStream (entries : List Entry) :
    roomStream (storedAt entries) (ascii "0001") = some entries := by
  have isKey : roomKey (ascii "0001") = some (ascii "0001") := by
    decide +kernel
  simp [roomStream, isKey, storedAt]

theorem helloEntry_decodes (ms : Nat) :
    List.Forall₂ (Decodes helloJson) [helloEntry ms]
      [hello (helloEntry ms).id.text] :=
  .cons (helloEntry_holds ms).decodes .nil

theorem helloRow_answers (limit : Nat) (positive : 0 < limit) (ms : Nat) :
    Answers [helloRow ms] limit [helloRow ms] := by
  refine ⟨[helloRow ms], .refl _, List.pairwise_singleton _ _, ?_⟩
  rw [List.take_of_length_le]
  exact positive

end Api

end ChatRoom
