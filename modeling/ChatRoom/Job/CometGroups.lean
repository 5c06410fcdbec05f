import ChatRoom.Job.SharedContext
import ChatRoom.Lib.Grouping

/-!
# Connections by Comet node

`GroupConnectionsByComet` asks for the hash of every connection of a room and
files the connection under the `comet_id` it finds there; the consumer then
calls each Comet node once and counts its connections.  The texts of a reply
are read up to their first NUL, and the counters are of type `int`.
-/

namespace ChatRoom

namespace Job

namespace CometGroups

open Lib (Groups)
open RouteService (ConnectionInfo readInfo)

/-- A hash as `HGETALL` lists it; `trailing` is an element behind the last
pair. -/
structure Hash where
  fields : List (Str × Str)
  distinct : (fields.map Prod.fst).Nodup
  trailing : Option Str

def Hash.elements (hash : Hash) : List Str :=
  hash.fields.flatMap (fun field => [field.1, field.2]) ++
    hash.trailing.toList

/-- What Redis holds and answers during a call: whether the two
`CheckConnection` come out true, the hash under each key, and the connections
with whether their `HGETALL` succeeds. -/
structure Answers where
  connected : Bool
  stillConnected : Bool
  hashes : Str → Hash
  calls : List (Str × Bool)

def infoKey (connId : Str) : Str := ascii "connection:info:" ++ connId

/-- The body of the loop of `GetConnectionInfoBatch`. -/
def appendInfo (hashes : Str → Hash) (infos : List ConnectionInfo)
    (call : Str × Bool) : List ConnectionInfo :=
  let elements := (hashes (cStr (infoKey call.1))).elements
  if call.2 && !elements.isEmpty then
    let info := readInfo ⟨call.1, [], [], []⟩ (elements.map cStr)
    if info.cometAddr.isEmpty then infos else infos ++ [info]
  else infos

/-- `GetConnectionInfoBatch`, `none` when it returns false. -/
def getConnectionInfoBatch (answers : Answers) :
    Option (List ConnectionInfo) :=
  if answers.stillConnected then
    let infos := answers.calls.foldl (appendInfo answers.hashes) []
    if infos.isEmpty then none else some infos
  else none

/-- `GroupConnectionsByComet`, `none` when it returns false. -/
def groupConnectionsByComet (answers : Answers) : Option (Groups Str Str) :=
  if answers.connected then
    match getConnectionInfoBatch answers with
    | none => none
    | some infos =>
        let groups := Groups.groupBy ConnectionInfo.cometAddr
          ConnectionInfo.connId infos
        if groups.isEmpty then none else some groups
  else none

/-- The Comet nodes that were called, in order, and the counters. -/
structure Distribution where
  called : List Str
  totalSent : Int
  failedCount : Int

/-- The conversion to `int`. -/
def asInt (value : Int) : Int := value.bmod (2 ^ 32)

/-- `+=` of a `size_t` on an `int`. -/
def addSize (counter : Int) (size : Nat) : Int := asInt (counter + size)

/-- The body of the broadcast loop; `sent` is what `broadcastToComet`
returns. -/
def broadcastGroup (sent : Str → Bool) (state : Distribution)
    (group : Str × List Str) : Distribution :=
  if sent group.1 then
    { state with
      called := state.called ++ [group.1]
      totalSent := addSize state.totalSent group.2.length }
  else
    { state with
      called := state.called ++ [group.1]
      failedCount := addSize state.failedCount group.2.length }

def distribute (sent : Str → Bool) (groups : Groups Str Str) : Distribution :=
  groups.toList.foldl (broadcastGroup sent) ⟨[], 0, 0⟩

/-! ## What the groups are meant to be -/

/-- The field `comet_id`. -/
def Hash.comet (hash : Hash) : Str :=
  (hash.fields.lookup (ascii "comet_id")).getD []

namespace Answers

variable (answers : Answers)

/-- The `comet_id` of the connection. -/
def stored (connId : Str) : Str := (answers.hashes (infoKey connId)).comet

/-- The connections whose `HGETALL` succeeds and whose `comet_id` is the
address. -/
def connectionsAt (addr : Str) : List Str :=
  (answers.calls.filter fun call =>
    call.2 && decide (answers.stored call.1 = addr)).map Prod.fst

/-- The connections whose `HGETALL` succeeds and that have a `comet_id`. -/
def qualifying : List Str :=
  (answers.calls.filter fun call =>
    call.2 && decide (answers.stored call.1 ≠ [])).map Prod.fst

/-- The qualifying connections on nodes with this outcome of the call. -/
def reached (sent : Str → Bool) (outcome : Bool) : Nat :=
  answers.qualifying.countP fun connId =>
    sent (answers.stored connId) == outcome

end Answers

/-- The groups are those of the `comet_id`, with the connections in order. -/
structure Exact (answers : Answers) (groups : Groups Str Str) : Prop where
  group : ∀ addr, addr ≠ [] →
    groups.getD addr [] = answers.connectionsAt addr
  nonempty : ∀ entry ∈ groups.toList, entry.1 ≠ [] ∧ entry.2 ≠ []

/-- Each node with a qualifying connection is called once, and the counters
add up. -/
structure Delivered (answers : Answers) (distribution : Distribution) :
    Prop where
  once : distribution.called.Nodup
  called : ∀ addr, addr ∈ distribution.called ↔
    addr ≠ [] ∧ answers.connectionsAt addr ≠ []
  counted : distribution.totalSent + distribution.failedCount =
    answers.qualifying.length

/-- Grouping is an exact partition, and the broadcast loop follows it. -/
structure Partitions (answers : Answers) (sent : Str → Bool) : Prop where
  nobody : answers.qualifying = [] → groupConnectionsByComet answers = none
  groups : ∀ groups, groupConnectionsByComet answers = some groups →
    Exact answers groups ∧ Delivered answers (distribute sent groups)

/-! ## What the code reads -/

/-- The value, up to a NUL, of the last field whose name up to a NUL is
`comet_id`. -/
def Hash.seen (hash : Hash) : Str :=
  ((hash.fields.reverse.find? fun field =>
    cStr field.1 = ascii "comet_id").map fun field => cStr field.2).getD []

/-- The `comet_id` that the connection seems to have. -/
def Answers.seen (answers : Answers) (connId : Str) : Str :=
  (answers.hashes (cStr (infoKey connId))).seen

/-- No NUL hides or changes a `comet_id` that is asked for, and the counters
do not overflow. -/
structure Legible (answers : Answers) (sent : Str → Bool) : Prop where
  read : ∀ call ∈ answers.calls, call.2 = true →
    answers.seen call.1 = answers.stored call.1
  fits : ∀ outcome, answers.reached sent outcome < 2 ^ 31

/-- Without NULs the last field of that name is the only one. -/
theorem lastComet_eq_lookup {fields : List (Str × Str)}
    (distinct : (fields.map Prod.fst).Nodup)
    (noNul : ∀ field ∈ fields, Byte.nul ∉ field.1 ∧ Byte.nul ∉ field.2) :
    ((fields.reverse.find? fun field =>
      cStr field.1 = ascii "comet_id").map fun field => cStr field.2) =
      fields.lookup (ascii "comet_id") := by
  induction fields with
  | nil => rfl
  | cons field fields induction =>
      obtain ⟨name, value⟩ := field
      obtain ⟨isNew, others⟩ := List.nodup_cons.mp distinct
      obtain ⟨plain, rest⟩ := List.forall_mem_cons.mp noNul
      have nameRead := cStr_eq_self plain.1
      have valueRead := cStr_eq_self plain.2
      dsimp only at nameRead valueRead
      rw [List.reverse_cons, List.find?_append, Option.map_or,
        induction others rest]
      by_cases isComet : name = ascii "comet_id"
      · have noOther : fields.lookup (ascii "comet_id") = none := by
          apply List.lookup_eq_none_iff.mpr
          intro other member
          rw [bne_iff_ne]
          intro same
          apply isNew
          rw [isComet, same]
          exact List.mem_map.mpr ⟨other, member, rfl⟩
        rw [noOther, isComet, List.lookup_cons_self, Option.none_or,
          List.find?_cons_of_pos]
        · rw [Option.map_some, valueRead]
        · rw [← isComet, nameRead, decide_eq_true rfl]
      · rw [List.find?_cons_of_neg, List.find?_nil, Option.map_none,
          Option.or_none, List.lookup_cons,
          beq_eq_false_iff_ne.mpr (Ne.symm isComet)]
        rw [nameRead, decide_eq_true_eq]
        exact isComet

/-- A `comet_id` is read as it is stored when there are no NULs. -/
theorem Answers.seen_eq_stored {answers : Answers} {connId : Str}
    (plainId : Byte.nul ∉ connId)
    (noNul : ∀ field ∈ (answers.hashes (infoKey connId)).fields,
      Byte.nul ∉ field.1 ∧ Byte.nul ∉ field.2) :
    answers.seen connId = answers.stored connId := by
  have plainKey : Byte.nul ∉ infoKey connId := by
    rw [infoKey, List.mem_append]
    rintro (inName | inId)
    · revert inName
      decide
    · exact plainId inId
  rw [Answers.seen, cStr_eq_self plainKey, Answers.stored, Hash.seen,
    Hash.comet, lastComet_eq_lookup (Hash.distinct _) noNul]

/-! ## The loop over the connections -/

theorem readInfo_connId (info : ConnectionInfo) (elements : List Str) :
    (readInfo info elements).connId = info.connId := by
  fun_induction readInfo info elements with
  | case1 info field value fields induction =>
      rw [induction]
      split_ifs <;> rfl
  | case2 info elements notPair => rfl

/-- The last pair that is taken for `comet_id` counts. -/
theorem readInfo_cometAddr (fields : List (Str × Str)) (trailing : Option Str)
    (info : ConnectionInfo) :
    (readInfo info ((fields.flatMap (fun field => [field.1, field.2]) ++
      trailing.toList).map cStr)).cometAddr =
      ((fields.reverse.find? fun field =>
        cStr field.1 = ascii "comet_id").map fun field =>
          cStr field.2).getD info.cometAddr := by
  induction fields generalizing info with
  | nil => cases trailing <;> rfl
  | cons field fields induction =>
      have split : (readInfo info (((field :: fields).flatMap
          (fun field => [field.1, field.2]) ++ trailing.toList).map
            cStr)).cometAddr = _ := induction _
      rw [split, List.reverse_cons, List.find?_append]
      cases (fields.reverse.find? fun field =>
          cStr field.1 = ascii "comet_id") with
      | some last => rfl
      | none =>
          by_cases isComet : cStr field.1 = ascii "comet_id"
          · simp [isComet]
          · rw [if_neg isComet]
            split_ifs <;> simp [isComet]

/-- The connections that are filed, each with the address it is filed
under. -/
def filed (answers : Answers) : List (Str × Str) :=
  (answers.calls.filter fun call =>
    call.2 && decide (answers.seen call.1 ≠ [])).map fun call =>
      (answers.seen call.1, call.1)

/-- What one connection adds. -/
theorem map_appendInfo (answers : Answers) (infos : List ConnectionInfo)
    (call : Str × Bool) :
    (appendInfo answers.hashes infos call).map
        (fun info => (info.cometAddr, info.connId)) =
      infos.map (fun info => (info.cometAddr, info.connId)) ++
        if call.2 && decide (answers.seen call.1 ≠ []) then
          [(answers.seen call.1, call.1)]
        else [] := by
  unfold appendInfo
  dsimp only
  have read : (readInfo ⟨call.1, [], [], []⟩
      ((answers.hashes (cStr (infoKey call.1))).elements.map
        cStr)).cometAddr = answers.seen call.1 :=
    readInfo_cometAddr _ _ _
  have kept := readInfo_connId ⟨call.1, [], [], []⟩
    ((answers.hashes (cStr (infoKey call.1))).elements.map cStr)
  generalize (answers.hashes (cStr (infoKey call.1))).elements = elements
    at read kept ⊢
  cases call.2 with
  | false => simp
  | true =>
      cases elements with
      | nil =>
          have nothing : answers.seen call.1 = [] := read.symm
          simp [nothing]
      | cons element elements =>
          simp only [List.isEmpty_cons, Bool.not_false, Bool.and_self, if_true,
            Bool.true_and, decide_eq_true_eq, List.isEmpty_iff, read]
          by_cases nothing : answers.seen call.1 = []
          · simp [nothing]
          · rw [if_neg nothing, if_pos nothing, List.map_append,
              List.map_singleton, read, kept]

/-- The loop appends the connections that have an address, in order. -/
theorem map_foldl_appendInfo (answers : Answers) (infos : List ConnectionInfo)
    (calls : List (Str × Bool)) :
    (calls.foldl (appendInfo answers.hashes) infos).map
        (fun info => (info.cometAddr, info.connId)) =
      infos.map (fun info => (info.cometAddr, info.connId)) ++
        (calls.filter fun call =>
          call.2 && decide (answers.seen call.1 ≠ [])).map fun call =>
            (answers.seen call.1, call.1) := by
  induction calls generalizing infos with
  | nil => simp
  | cons call calls induction =>
      rw [List.foldl_cons, induction, map_appendInfo, List.append_assoc,
        List.filter_cons]
      split_ifs <;> rfl

/-- The groups are those of the connections that are filed. -/
theorem groupConnectionsByComet_eq (answers : Answers) :
    groupConnectionsByComet answers =
      if answers.connected && answers.stillConnected &&
          !(filed answers).isEmpty then
        some (Groups.groupBy Prod.fst Prod.snd (filed answers))
      else none := by
  have pairs : (answers.calls.foldl (appendInfo answers.hashes) []).map
      (fun info => (info.cometAddr, info.connId)) = filed answers :=
    map_foldl_appendInfo answers [] answers.calls
  unfold groupConnectionsByComet getConnectionInfoBatch
  cases answers.connected with
  | false => rfl
  | true =>
      cases answers.stillConnected with
      | false => rfl
      | true =>
          rw [← pairs, ← Groups.groupBy_eq_pairs, List.isEmpty_map]
          generalize answers.calls.foldl (appendInfo answers.hashes) [] = infos
          simp only [if_true, Bool.true_and]
          cases infos with
          | nil => rfl
          | cons info infos =>
              simp [Groups.isEmpty_groupBy]

/-! ## The groups -/

section

variable {answers : Answers}

theorem filed_eq_nil_iff :
    filed answers = [] ↔
      ∀ call ∈ answers.calls, call.2 = true → answers.seen call.1 = [] := by
  rw [filed, List.map_eq_nil_iff, List.filter_eq_nil_iff]
  simp

theorem Answers.mem_connectionsAt {connId addr : Str} :
    connId ∈ answers.connectionsAt addr ↔
      (connId, true) ∈ answers.calls ∧ answers.stored connId = addr := by
  simp [Answers.connectionsAt]

theorem Answers.mem_qualifying {connId : Str} :
    connId ∈ answers.qualifying ↔
      (connId, true) ∈ answers.calls ∧ answers.stored connId ≠ [] := by
  simp [Answers.qualifying]

theorem group_filed {addr : Str} (isAddr : addr ≠ []) :
    (Groups.groupBy Prod.fst Prod.snd (filed answers)).getD addr [] =
      (answers.calls.filter fun call =>
        call.2 && decide (answers.seen call.1 = addr)).map Prod.fst := by
  rw [Groups.getD_groupBy, filed, List.filter_map, List.map_map,
    List.filter_filter]
  have same : ∀ call : Str × Bool,
      ((decide (answers.seen call.1 = addr)) &&
        (call.2 && decide (answers.seen call.1 ≠ []))) =
      (call.2 && decide (answers.seen call.1 = addr)) := by
    intro call
    by_cases isThis : answers.seen call.1 = addr
    · simp [isThis, isAddr]
    · simp [isThis]
  exact congrArg (List.map Prod.fst) (List.filter_congr fun call _ => same call)

theorem filter_seen (read : ∀ call ∈ answers.calls, call.2 = true →
      answers.seen call.1 = answers.stored call.1)
    (wanted : Str → Prop) [DecidablePred wanted] :
    (answers.calls.filter fun call =>
      call.2 && decide (wanted (answers.seen call.1))) =
      answers.calls.filter fun call =>
        call.2 && decide (wanted (answers.stored call.1)) := by
  apply List.filter_congr
  intro call asked
  cases answered : call.2 with
  | false => rfl
  | true => rw [read call asked answered]

/-- The groups are exact when no `comet_id` is read for another. -/
theorem exact_iff_read :
    Exact answers (Groups.groupBy Prod.fst Prod.snd (filed answers)) ↔
      ∀ call ∈ answers.calls, call.2 = true →
        answers.seen call.1 = answers.stored call.1 := by
  constructor
  · rintro isExact ⟨connId, answered⟩ asked rfl
    have sameMembers : ∀ addr, addr ≠ [] →
        (answers.seen connId = addr ↔ answers.stored connId = addr) := by
      intro addr isAddr
      have groups := isExact.group addr isAddr
      rw [group_filed isAddr] at groups
      have members := congrArg (fun group => connId ∈ group) groups
      simpa [Answers.mem_connectionsAt, asked] using members
    by_cases nothing : answers.seen connId = []
    · by_contra different
      rw [nothing] at different
      exact different
        (nothing ▸ (sameMembers _ (Ne.symm different)).mpr rfl)
    · exact ((sameMembers _ nothing).mp rfl).symm
  · intro read
    constructor
    · intro addr isAddr
      rw [group_filed isAddr, Answers.connectionsAt]
      apply congrArg (List.map Prod.fst)
      exact filter_seen read (· = addr)
    · rintro ⟨addr, group⟩ member
      obtain ⟨⟨pair, isFiled, rfl⟩, rfl⟩ := Groups.mem_toList_groupBy.mp member
      constructor
      · simp only [filed, List.mem_map, List.mem_filter, Bool.and_eq_true,
          decide_eq_true_eq] at isFiled
        obtain ⟨call, ⟨-, -, isAddr⟩, rfl⟩ := isFiled
        exact isAddr
      · apply List.ne_nil_of_mem
        apply List.mem_map_of_mem
        exact List.mem_filter.mpr ⟨isFiled, decide_eq_true rfl⟩

/-! ## The broadcast loop -/

theorem addSize_asInt (count size : Nat) :
    addSize (asInt count) size = asInt (count + size : Nat) := by
  rw [addSize, asInt, asInt, Int.bmod_add_bmod, Int.natCast_add, asInt]

/-- The loop calls the nodes in order and adds up the sizes of the groups,
modulo 2^32. -/
theorem foldl_broadcastGroup (sent : Str → Bool)
    (entries : List (Str × List Str)) (called : List Str)
    (reached missed : Nat) :
    entries.foldl (broadcastGroup sent)
        ⟨called, asInt reached, asInt missed⟩ =
      ⟨called ++ entries.map Prod.fst,
        asInt (reached + ((entries.filter fun entry => sent entry.1).map
          fun entry => entry.2.length).sum : Nat),
        asInt (missed + ((entries.filter fun entry => !sent entry.1).map
          fun entry => entry.2.length).sum : Nat)⟩ := by
  induction entries generalizing called reached missed with
  | nil => simp
  | cons entry entries induction =>
      rw [List.foldl_cons, broadcastGroup]
      by_cases isSent : sent entry.1 = true
      · simp only [isSent, if_true, addSize_asInt]
        rw [induction]
        simp [isSent, Nat.add_assoc]
      · simp only [isSent, Bool.false_eq_true, if_false, addSize_asInt]
        rw [induction]
        simp [isSent, Nat.add_assoc]

theorem distribute_groupBy (sent : Str → Bool) (pairs : List (Str × Str)) :
    distribute sent (Groups.groupBy Prod.fst Prod.snd pairs) =
      ⟨(Groups.groupBy Prod.fst Prod.snd pairs).keys,
        asInt (pairs.countP fun pair => sent pair.1),
        asInt (pairs.countP fun pair => !sent pair.1)⟩ := by
  have loop := foldl_broadcastGroup sent
    (Groups.groupBy Prod.fst Prod.snd pairs).toList [] 0 0
  rw [Groups.sum_sizes sent, Groups.sum_sizes fun addr => !sent addr,
    Nat.zero_add, Nat.zero_add, Std.TreeMap.map_fst_toList_eq_keys] at loop
  exact loop

/-- Two counters of 32 bits add up to what they count as long as both stay
below 2^31. -/
theorem asInt_add_eq_iff (reached missed : Nat) :
    asInt reached + asInt missed = (reached + missed : Nat) ↔
      reached < 2 ^ 31 ∧ missed < 2 ^ 31 := by
  rw [asInt, asInt, Int.bmod_def, Int.bmod_def]
  split_ifs <;> omega

theorem Answers.length_qualifying (answers : Answers) (sent : Str → Bool) :
    answers.qualifying.length =
      answers.reached sent true + answers.reached sent false := by
  rw [Answers.reached, Answers.reached]
  have parts := List.length_eq_countP_add_countP (l := answers.qualifying)
    fun connId => sent (answers.stored connId)
  simpa using parts

/-- The qualifying connections are those that are filed, under their own
address. -/
theorem filed_eq_of_read (read : ∀ call ∈ answers.calls, call.2 = true →
      answers.seen call.1 = answers.stored call.1) :
    filed answers =
      answers.qualifying.map fun connId =>
        (answers.stored connId, connId) := by
  rw [filed, Answers.qualifying, List.map_map, filter_seen read (· ≠ [])]
  apply List.map_congr_left
  intro call member
  obtain ⟨asked, isAnswered⟩ := List.mem_filter.mp member
  rw [Bool.and_eq_true] at isAnswered
  simp only [read call asked isAnswered.1, Function.comp]

theorem countP_filed (read : ∀ call ∈ answers.calls, call.2 = true →
      answers.seen call.1 = answers.stored call.1) (chosen : Str → Bool) :
    ((filed answers).countP fun pair => chosen pair.1) =
      answers.qualifying.countP fun connId =>
        chosen (answers.stored connId) := by
  rw [filed_eq_of_read read, List.countP_map]
  rfl

/-- The broadcast loop is right when the counters do not overflow. -/
theorem delivered_iff_fits (sent : Str → Bool)
    (read : ∀ call ∈ answers.calls, call.2 = true →
      answers.seen call.1 = answers.stored call.1) :
    Delivered answers
        (distribute sent
          (Groups.groupBy Prod.fst Prod.snd (filed answers))) ↔
      ∀ outcome, answers.reached sent outcome < 2 ^ 31 := by
  have reached : (filed answers).countP (fun pair => sent pair.1) =
      answers.reached sent true := by
    rw [countP_filed read sent, Answers.reached]
    simp
  have missed : (filed answers).countP (fun pair => !sent pair.1) =
      answers.reached sent false := by
    rw [countP_filed read fun addr => !sent addr, Answers.reached]
    simp
  have counters := asInt_add_eq_iff (answers.reached sent true)
    (answers.reached sent false)
  rw [← answers.length_qualifying sent] at counters
  rw [distribute_groupBy, reached, missed]
  constructor
  · intro delivered outcome
    have counted := delivered.counted
    dsimp only at counted
    obtain ⟨reachedFits, missedFits⟩ := counters.mp counted
    cases outcome with
    | false => exact missedFits
    | true => exact reachedFits
  · intro fits
    refine ⟨Std.TreeMap.nodup_keys, ?_, ?_⟩
    · intro addr
      dsimp only
      rw [Std.TreeMap.mem_keys, Groups.mem_groupBy, filed_eq_of_read read]
      simp only [List.mem_map, exists_exists_and_eq_and]
      constructor
      · rintro ⟨connId, member, rfl⟩
        obtain ⟨asked, isAddr⟩ := Answers.mem_qualifying.mp member
        refine ⟨isAddr, List.ne_nil_of_mem (a := connId) ?_⟩
        exact Answers.mem_connectionsAt.mpr ⟨asked, rfl⟩
      · rintro ⟨isAddr, someone⟩
        obtain ⟨connId, member⟩ := List.exists_mem_of_ne_nil _ someone
        obtain ⟨asked, rfl⟩ := Answers.mem_connectionsAt.mp member
        exact ⟨connId, Answers.mem_qualifying.mpr ⟨asked, isAddr⟩, rfl⟩
    · dsimp only
      exact counters.mpr ⟨fits true, fits false⟩

end

/-! ## The result -/

/-- Grouping is an exact partition that the broadcast loop follows exactly
when a check of the connection fails, or nothing is read as a `comet_id`, or
every `comet_id` that is asked for is read as it is stored and the counters do
not overflow. -/
theorem partitions_iff (answers : Answers) (sent : Str → Bool) :
    Partitions answers sent ↔
      answers.connected = false ∨ answers.stillConnected = false ∨
        (∀ call ∈ answers.calls, call.2 = true →
          answers.seen call.1 = []) ∨
        Legible answers sent := by
  rw [← filed_eq_nil_iff]
  have result := groupConnectionsByComet_eq answers
  by_cases returns : answers.connected = true ∧
      answers.stillConnected = true ∧ filed answers ≠ []
  · obtain ⟨connected, stillConnected, someone⟩ := returns
    rw [connected, stillConnected, Bool.true_and, Bool.true_and,
      if_pos (by simpa using someone)] at result
    have reduced : Partitions answers sent ↔ Legible answers sent := by
      constructor
      · intro partitions
        obtain ⟨isExact, delivered⟩ := partitions.groups _ result
        have read := exact_iff_read.mp isExact
        exact ⟨read, (delivered_iff_fits sent read).mp delivered⟩
      · intro legible
        constructor
        · intro nobody
          rw [filed_eq_of_read legible.read, nobody] at someone
          exact absurd rfl someone
        · intro groups isResult
          rw [result] at isResult
          cases isResult
          exact ⟨exact_iff_read.mpr legible.read,
            (delivered_iff_fits sent legible.read).mpr legible.fits⟩
    simp [reduced, connected, stillConnected, someone]
  · have fails : groupConnectionsByComet answers = none := by
      rw [result]
      apply if_neg
      simpa [and_assoc] using returns
    constructor
    · intro _
      by_contra notAny
      simp only [not_or, Bool.not_eq_false] at notAny
      exact returns ⟨notAny.1, notAny.2.1, notAny.2.2.1⟩
    · intro _
      constructor
      · intro _
        exact fails
      · intro groups isResult
        rw [fails] at isResult
        cases isResult

/-- The connection `c` on the node whose name has a NUL. -/
def nulInAddress : Answers where
  connected := true
  stillConnected := true
  hashes := fun _ =>
    ⟨[(ascii "comet_id", ascii "a" ++ Byte.nul :: ascii "b")],
      List.nodup_singleton _, none⟩
  calls := [(ascii "c", true)]

/-- The connection is filed under the node `a`, and `a` is called. -/
theorem nulInAddress_filed_elsewhere :
    ¬ Partitions nulInAddress fun _ => true := by
  intro partitions
  have returned : (groupConnectionsByComet nulInAddress).isSome = true := by
    decide +kernel
  obtain ⟨groups, isResult⟩ := Option.isSome_iff_exists.mp returned
  obtain ⟨isExact, -⟩ := partitions.groups groups isResult
  have group := isExact.group (ascii "a") (by decide)
  have filed : (groupConnectionsByComet nulInAddress).map
      (fun groups => groups.getD (ascii "a") []) = some [ascii "c"] := by
    decide +kernel
  rw [isResult, Option.map_some, group] at filed
  have nobody : nulInAddress.connectionsAt (ascii "a") = [] := by
    decide +kernel
  rw [nobody] at filed
  cases filed

end CometGroups

end Job

end ChatRoom
