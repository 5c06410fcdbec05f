import ChatRoom.Base.Bytes
import ChatRoom.Lib.Run
import Mathlib.Data.Finset.Basic

/-!
# The room topics

`PubSubService` next to the history of its calls: what a call should answer is
read off the calls in front of it.  `DeleteRoomTopic` returns early for the
rooms it finds, so a deleted room lives on.
-/

namespace ChatRoom

structure RoomTopic where
  roomId : Str
  roomTopic : Str
  creatorId : Str
  userIds : Finset Str

namespace RoomTopic

def addSubscriber (topic : RoomTopic) (userid : Str) : RoomTopic :=
  { topic with userIds := insert userid topic.userIds }

def deleteSubscriber (topic : RoomTopic) (userid : Str) : RoomTopic :=
  { topic with userIds := topic.userIds.erase userid }

end RoomTopic

/-- `room_topic_map_`. -/
abbrev PubSubService := Str → Option RoomTopic

namespace PubSubService

def addRoomTopic (service : PubSubService) (roomId roomTopic creatorId : Str) :
    PubSubService × Bool :=
  match service roomId with
  | some _ => (service, false)
  | none =>
      (Function.update service roomId
        (some ⟨roomId, roomTopic, creatorId, ∅⟩), true)

/-- A room that is found is left alone; `erase` only sees missing ones. -/
def deleteRoomTopic (service : PubSubService) (roomId : Str) : PubSubService :=
  match service roomId with
  | some _ => service
  | none => Function.update service roomId none

def addSubscriber (service : PubSubService) (roomId userid : Str) :
    PubSubService × Bool :=
  match service roomId with
  | none => (service, false)
  | some topic =>
      (Function.update service roomId (some (topic.addSubscriber userid)), true)

def deleteSubscriber (service : PubSubService) (roomId userid : Str) :
    PubSubService :=
  match service roomId with
  | none => service
  | some topic =>
      Function.update service roomId (some (topic.deleteSubscriber userid))

/-- The user sets the callback of `PublishMessage` is called with. -/
def publishMessage (service : PubSubService) (roomId : Str) :
    List (Finset Str) :=
  match service roomId with
  | none => []
  | some topic => [topic.userIds]

/-! ## Calls and their answers -/

inductive Call where
  | addRoomTopic (room topic creator : Str)
  | deleteRoomTopic (room : Str)
  | addSubscriber (room user : Str)
  | deleteSubscriber (room user : Str)
  | publishMessage (room : Str)

/-- What a caller sees: a return value, nothing, or the calls of its
callback. -/
inductive Answer where
  | returned (value : Bool)
  | nothing
  | callbacks (users : List (Finset Str))

def serve (service : PubSubService) : Call → PubSubService × Answer
  | .addRoomTopic room topic creator =>
      let (next, added) := service.addRoomTopic room topic creator
      (next, .returned added)
  | .deleteRoomTopic room => (service.deleteRoomTopic room, .nothing)
  | .addSubscriber room user =>
      let (next, added) := service.addSubscriber room user
      (next, .returned added)
  | .deleteSubscriber room user => (service.deleteSubscriber room user, .nothing)
  | .publishMessage room => (service, .callbacks (service.publishMessage room))

/-- The service, the calls so far, newest first, and the latest answer. -/
structure State where
  service : PubSubService
  past : List Call
  answer : Answer

def step (state : State) (call : Call) : Option State :=
  some ⟨(state.service.serve call).1, call :: state.past,
    (state.service.serve call).2⟩

def start : State := ⟨fun _ => none, [], .nothing⟩

/-! ## What the history says -/

/-- The room was added and not deleted since. -/
def present : List Call → Str → Bool
  | [], _ => false
  | .addRoomTopic added _ _ :: past, room => added = room || present past room
  | .deleteRoomTopic deleted :: past, room =>
      deleted ≠ room && present past room
  | _ :: past, room => present past room

/-- The last subscription or unsubscription of the user since the latest
creation of the room is a successful `AddSubscriber`. -/
def subscribed : List Call → Str → Str → Bool
  | [], _, _ => false
  | .addRoomTopic added _ _ :: past, room, user =>
      if added = room ∧ present past room = false then false
      else subscribed past room user
  | .addSubscriber joined joining :: past, room, user =>
      if joined = room ∧ joining = user then present past room
      else subscribed past room user
  | .deleteSubscriber left leaving :: past, room, user =>
      if left = room ∧ leaving = user then false
      else subscribed past room user
  | _ :: past, room, user => subscribed past room user

/-- The answer a call should get after the calls in front of it. -/
def Expected (past : List Call) : Call → Answer → Prop
  | .addRoomTopic room _ _, answer => answer = .returned (!present past room)
  | .addSubscriber room _, answer => answer = .returned (present past room)
  | .publishMessage room, answer =>
      if present past room then
        ∃ users, answer = .callbacks [users] ∧
          ∀ user, user ∈ users ↔ subscribed past room user = true
      else answer = .callbacks []
  | .deleteRoomTopic _, answer => answer = .nothing
  | .deleteSubscriber _ _, answer => answer = .nothing

/-- The latest call got the answer it should. -/
def Answered (state : State) : Prop :=
  match state.past with
  | [] => True
  | call :: past => Expected past call state.answer

/-! ## When the service keeps up -/

/-- The room was deleted while it existed. -/
def stale : List Call → Str → Bool
  | [], _ => false
  | .deleteRoomTopic deleted :: past, room =>
      (deleted = room && present past room) || stale past room
  | _ :: past, room => stale past room

/-- The room whose existence a call makes visible. -/
def Call.observes : Call → Option Str
  | .addRoomTopic room _ _ => some room
  | .addSubscriber room _ => some room
  | .publishMessage room => some room
  | _ => none

/-- No call adds, joins or publishes to a room that was deleted while it
existed. -/
def guard (state : State) (call : Call) : Prop :=
  ∀ room, call.observes = some room → stale state.past room = false

/-- The service has what the history says about a room. -/
def Agrees (service : PubSubService) (past : List Call) (room : Str) : Prop :=
  match service room with
  | none => present past room = false
  | some topic => present past room = true ∧
      ∀ user, user ∈ topic.userIds ↔ subscribed past room user = true

/-- Rooms deleted while they existed live on; all others agree. -/
structure Follows (state : State) : Prop where
  answered : Answered state
  zombies : ∀ room, stale state.past room = true →
    present state.past room = false ∧ (state.service room).isSome
  agrees : ∀ room, stale state.past room = false →
    Agrees state.service state.past room

/-! ## One call -/

def Call.room : Call → Str
  | .addRoomTopic room _ _ => room
  | .deleteRoomTopic room => room
  | .addSubscriber room _ => room
  | .deleteSubscriber room _ => room
  | .publishMessage room => room

/-- A call says nothing about other rooms. -/
theorem history_other {call : Call} {room : Str} (other : call.room ≠ room)
    (past : List Call) :
    present (call :: past) room = present past room ∧
    stale (call :: past) room = stale past room ∧
    ∀ user, subscribed (call :: past) room user = subscribed past room user := by
  cases call with
  | addRoomTopic added topic creator =>
      have different : added ≠ room := other
      simp [present, stale, subscribed, different]
  | deleteRoomTopic deleted =>
      have different : deleted ≠ room := other
      simp [present, stale, subscribed, different]
  | addSubscriber joined user =>
      have different : joined ≠ room := other
      simp [present, stale, subscribed, different]
  | deleteSubscriber left user =>
      have different : left ≠ room := other
      simp [present, stale, subscribed, different]
  | publishMessage published =>
      simp [present, stale, subscribed]

/-- Nor does it change them. -/
theorem serve_other {call : Call} {room : Str} (other : call.room ≠ room)
    (service : PubSubService) : (service.serve call).1 room = service room := by
  have different : room ≠ call.room := other.symm
  cases call with
  | addRoomTopic added topic creator =>
      simp only [serve, addRoomTopic]
      split
      · rfl
      · exact Function.update_of_ne different _ _
  | deleteRoomTopic deleted =>
      cases known : service deleted with
      | none =>
          simp only [serve, deleteRoomTopic, known]
          exact Function.update_of_ne different _ _
      | some topic => simp only [serve, deleteRoomTopic, known]
  | addSubscriber joined user =>
      simp only [serve, addSubscriber]
      split
      · rfl
      · exact Function.update_of_ne different _ _
  | deleteSubscriber left user =>
      cases known : service left with
      | none => simp only [serve, deleteSubscriber, known]
      | some topic =>
          simp only [serve, deleteSubscriber, known]
          exact Function.update_of_ne different _ _
  | publishMessage published => rfl

/-- A call on a room that agrees gets the answer it should. -/
theorem Agrees.expected {service : PubSubService} {past : List Call}
    {call : Call} (agrees : Agrees service past call.room) :
    Expected past call (service.serve call).2 := by
  cases call with
  | addRoomTopic room topic creator =>
      cases known : service room with
      | none =>
          simp only [Agrees, Call.room, known] at agrees
          simp [Expected, serve, addRoomTopic, known, agrees]
      | some found =>
          simp only [Agrees, Call.room, known] at agrees
          simp [Expected, serve, addRoomTopic, known, agrees.1]
  | deleteRoomTopic room => rfl
  | addSubscriber room user =>
      cases known : service room with
      | none =>
          simp only [Agrees, Call.room, known] at agrees
          simp [Expected, serve, addSubscriber, known, agrees]
      | some found =>
          simp only [Agrees, Call.room, known] at agrees
          simp [Expected, serve, addSubscriber, known, agrees.1]
  | deleteSubscriber room user => rfl
  | publishMessage room =>
      cases known : service room with
      | none =>
          simp only [Agrees, Call.room, known] at agrees
          simp [Expected, serve, publishMessage, known, agrees]
      | some found =>
          simp only [Agrees, Call.room, known] at agrees
          simp only [Expected, agrees.1, if_true, serve, publishMessage, known]
          exact ⟨found.userIds, rfl, agrees.2⟩

/-- A room that lives on shows itself to every call that looks at it. -/
theorem not_expected_of_zombie {service : PubSubService} {past : List Call}
    {call : Call} {room : Str} (observes : call.observes = some room)
    (absent : present past room = false) (lives : (service room).isSome) :
    ¬ Expected past call (service.serve call).2 := by
  obtain ⟨topic, known⟩ := Option.isSome_iff_exists.mp lives
  cases call with
  | addRoomTopic added name creator =>
      cases observes
      simp [Expected, serve, addRoomTopic, known, absent]
  | deleteRoomTopic deleted => cases observes
  | addSubscriber joined user =>
      cases observes
      simp [Expected, serve, addSubscriber, known, absent]
  | deleteSubscriber left user => cases observes
  | publishMessage published =>
      cases observes
      simp [Expected, serve, publishMessage, known, absent]

/-- What a call makes of its own room when the room agreed: it agrees again,
or it was deleted and lives on. -/
theorem Agrees.serve {service : PubSubService} {past : List Call}
    {call : Call} (agrees : Agrees service past call.room)
    (fresh : stale past call.room = false) :
    (stale (call :: past) call.room = true ∧
      present (call :: past) call.room = false ∧
      ((service.serve call).1 call.room).isSome) ∨
    (stale (call :: past) call.room = false ∧
      Agrees (service.serve call).1 (call :: past) call.room) := by
  cases call with
  | addRoomTopic room topic creator =>
      right
      refine ⟨fresh, ?_⟩
      cases known : service room with
      | none =>
          simp only [Agrees, Call.room, known] at agrees
          simp [Agrees, Call.room, PubSubService.serve, addRoomTopic, known,
            present, subscribed, agrees]
      | some found =>
          simp only [Agrees, Call.room, known] at agrees
          simp [Agrees, Call.room, PubSubService.serve, addRoomTopic, known,
            present, subscribed, agrees]
  | deleteRoomTopic room =>
      cases known : service room with
      | none =>
          right
          simp only [Agrees, Call.room, known] at agrees fresh
          simp [Agrees, Call.room, PubSubService.serve, deleteRoomTopic, known,
            present, stale, agrees, fresh]
      | some found =>
          left
          simp only [Agrees, Call.room, known] at agrees
          simp [Call.room, PubSubService.serve, deleteRoomTopic, known, present,
            stale, agrees.1]
  | addSubscriber room user =>
      right
      refine ⟨fresh, ?_⟩
      cases known : service room with
      | none =>
          simp only [Agrees, Call.room, known] at agrees
          simp [Agrees, Call.room, PubSubService.serve, addSubscriber, known,
            present, agrees]
      | some found =>
          simp only [Agrees, Call.room, known] at agrees
          simp only [Agrees, Call.room, PubSubService.serve, addSubscriber, known,
            present, Function.update_self, agrees.1, true_and]
          intro other
          by_cases same : user = other
          · simp [subscribed, same, RoomTopic.addSubscriber, agrees.1]
          · have different : other ≠ user := fun equality => same equality.symm
            simp [subscribed, same, different, RoomTopic.addSubscriber,
              agrees.2 other]
  | deleteSubscriber room user =>
      right
      refine ⟨fresh, ?_⟩
      cases known : service room with
      | none =>
          simp only [Agrees, Call.room, known] at agrees
          simp [Agrees, Call.room, PubSubService.serve, deleteSubscriber, known,
            present, agrees]
      | some found =>
          simp only [Agrees, Call.room, known] at agrees
          simp only [Agrees, Call.room, PubSubService.serve, deleteSubscriber,
            known, present, Function.update_self, agrees.1, true_and]
          intro other
          by_cases same : user = other
          · simp [subscribed, same, RoomTopic.deleteSubscriber]
          · have different : other ≠ user := fun equality => same equality.symm
            simp [subscribed, same, different, RoomTopic.deleteSubscriber,
              agrees.2 other]
  | publishMessage room =>
      right
      exact ⟨fresh, agrees⟩

/-! ## Whole runs -/

theorem follows_start : Follows start := by
  constructor
  · trivial
  · intro room isStale
    cases isStale
  · intro room _
    rfl

/-- A call on a room that lives on leaves it so, if it does not look at it. -/
theorem zombie_serve {service : PubSubService} {past : List Call} {call : Call}
    (unseen : call.observes ≠ some call.room)
    (absent : present past call.room = false)
    (lives : (service call.room).isSome) :
    present (call :: past) call.room = false ∧
      ((service.serve call).1 call.room).isSome := by
  obtain ⟨topic, known⟩ := Option.isSome_iff_exists.mp lives
  cases call with
  | addRoomTopic room name creator => exact absurd rfl unseen
  | deleteRoomTopic room =>
      simp only [Call.room] at known
      simp [present, serve, deleteRoomTopic, Call.room, known]
  | addSubscriber room user => exact absurd rfl unseen
  | deleteSubscriber room user =>
      simp only [Call.room] at known absent
      simp [present, serve, deleteSubscriber, Call.room, known, absent]
  | publishMessage room => exact absurd rfl unseen

theorem stale_cons {past : List Call} {room : Str} (call : Call)
    (isStale : stale past room = true) : stale (call :: past) room = true := by
  cases call with
  | deleteRoomTopic deleted => simp [stale, isStale]
  | _ => exact isStale

theorem Follows.step {state next : State} {call : Call}
    (follows : Follows state) (guarded : guard state call)
    (taken : step state call = some next) : Follows next := by
  simp only [PubSubService.step, Option.some.injEq] at taken
  subst taken
  have unseen : stale state.past call.room = true →
      call.observes ≠ some call.room := by
    intro isStale observes
    rw [guarded call.room observes] at isStale
    cases isStale
  have own : (stale (call :: state.past) call.room = true ∧
      present (call :: state.past) call.room = false ∧
      ((state.service.serve call).1 call.room).isSome) ∨
    (stale (call :: state.past) call.room = false ∧
      Agrees (state.service.serve call).1 (call :: state.past) call.room) := by
    cases isStale : stale state.past call.room with
    | true =>
        left
        obtain ⟨absent, lives⟩ := follows.zombies call.room isStale
        obtain ⟨stillAbsent, stillLives⟩ :=
          zombie_serve (unseen isStale) absent lives
        exact ⟨stale_cons call isStale, stillAbsent, stillLives⟩
    | false => exact (follows.agrees call.room isStale).serve isStale
  constructor
  · change Expected state.past call (state.service.serve call).2
    cases isStale : stale state.past call.room with
    | false => exact (follows.agrees call.room isStale).expected
    | true =>
        -- only the calls without an answer go to a room that lives on
        cases call with
        | deleteRoomTopic room => rfl
        | deleteSubscriber room user => rfl
        | addRoomTopic room name creator => exact absurd rfl (unseen isStale)
        | addSubscriber room user => exact absurd rfl (unseen isStale)
        | publishMessage room => exact absurd rfl (unseen isStale)
  · intro room isStale
    by_cases same : call.room = room
    · subst same
      rcases own with ⟨-, zombie⟩ | ⟨isFresh, -⟩
      · exact zombie
      · rw [isFresh] at isStale
        cases isStale
    · obtain ⟨samePresent, sameStale, -⟩ := history_other same state.past
      simp only [samePresent, sameStale] at isStale ⊢
      rw [serve_other same]
      exact follows.zombies room isStale
  · intro room isFresh
    by_cases same : call.room = room
    · subst same
      rcases own with ⟨isStale, -⟩ | ⟨-, agrees⟩
      · rw [isStale] at isFresh
        cases isFresh
      · exact agrees
    · obtain ⟨samePresent, sameStale, sameSubscribed⟩ :=
        history_other same state.past
      simp only [sameStale] at isFresh
      simp only [Agrees, serve_other same, samePresent, sameSubscribed]
      exact follows.agrees room isFresh

/-- A step that is answered as it should be was guarded. -/
theorem Follows.guard_of_answered {state next : State} {call : Call}
    (follows : Follows state)
    (taken : PubSubService.step state call = some next)
    (answered : Answered next) : guard state call := by
  simp only [PubSubService.step, Option.some.injEq] at taken
  subst taken
  intro room observes
  cases isStale : stale state.past room with
  | false => rfl
  | true =>
      obtain ⟨absent, lives⟩ := follows.zombies room isStale
      exact absurd answered (not_expected_of_zombie observes absent lives)

/-- The service answers every call as the history says exactly when no call
looks at a room that was deleted while it existed. -/
theorem answered_iff (calls : List Call) :
    Lib.Always step Answered start calls ↔ Lib.Meets step guard start calls := by
  apply Lib.always_iff_meets _ _ _ follows_start
  · intro state follows
    exact follows.answered
  · intro state next call follows guarded taken
    exact follows.step guarded taken
  · intro state next call follows taken answered
    exact follows.guard_of_answered taken answered

/-- A deleted room still publishes. -/
theorem deleted_room_publishes :
    ¬ Lib.Always step Answered start
      [.addRoomTopic (ascii "0001") (ascii "lobby") (ascii "1"),
        .addSubscriber (ascii "0001") (ascii "amy"),
        .deleteRoomTopic (ascii "0001"),
        .publishMessage (ascii "0001")] := by
  intro always
  have answered := always _ (List.prefix_refl _) _ rfl
  cases answered

end PubSubService

end ChatRoom
