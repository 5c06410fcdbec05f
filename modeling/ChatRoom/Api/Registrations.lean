import ChatRoom.Api.Account
import ChatRoom.Lib.Run

/-!
# Registrations side by side

`registerUser` looks whether the username or the email is taken and inserts
the row in a second statement.  Any number of servers do so against one table,
which has no constraint of its own, and their statements interleave.
-/

namespace ChatRoom

namespace Registrations

open Api Mysql

/-- A member of a request that must not be null, as a string; `none` is a
return value of -1. -/
def requiredText (env : Environment) (root : Json) (name : Str) :
    Except Exception (Option Str) :=
  match root.get name with
  | none => .error .jsonError
  | some field =>
      if field.isNull then .ok none
      else
        match field.asString env.toJsonCpp with
        | none => .error .jsonError
        | some text => .ok (some text)

/-- `decodeRegisterJson`: username, email and password.  A missing email is
only logged. -/
def decodeRegisterJson (env : Environment) (text : Str) :
    Except Exception (Option (Str × Str × Str)) :=
  match env.parse text with
  | none => .ok none
  | some root => do
      match ← requiredText env root (ascii "username") with
      | none => return none
      | some username =>
          let email ← requiredText env root (ascii "email")
          match ← requiredText env root (ascii "password") with
          | none => return none
          | some password => return some (username, email.getD [], password)

/-- The registration that `ApiRegisterUser` makes of a request, with the salt
it draws. -/
def requested (env : Environment) (postData salt : Str) :
    Option Registration :=
  if postData = [] then none
  else
    match decodeRegisterJson env postData with
    | .ok (some (username, email, password)) =>
        some ⟨username, email, password, salt⟩
    | _ => none

/-- The reply to the existence check; a query that fails has none. -/
def existing (server : Server) (database : Database)
    (registration : Registration) (answered : Bool) : Option ResultSet :=
  if answered then
    (Statement.registerUser registration.username registration.email).text.bind
      (server.query database)
  else none

/-- The row of a registration. -/
def userOf (env : Environment) (registration : Registration) : User where
  username := registration.username
  email := registration.email
  passwordHash := env.md5 (registration.password ++ registration.salt)
  salt := registration.salt

/-- A call between its two statements: the rows there were at the first one,
and whether that had a reply. -/
structure Pending where
  registration : Registration
  seen : List User
  answered : Bool

structure State where
  database : Database
  pending : List Pending

/-- The first statement of a call, and the second one of a pending call, with
whether MySQL executes it. -/
inductive Event where
  | select (postData salt : Str) (answered : Bool)
  | insert (index : Nat) (executed : Bool)

def step (env : Environment) (server : Server) (state : State) :
    Event → Option State
  | .select postData salt answered =>
      match requested env postData salt with
      | none => some state
      | some registration =>
          let reply := existing server state.database registration answered
          if reply.any fun result => !result.rows.isEmpty then some state
          else
            some { state with
              pending := ⟨registration, state.database.users, reply.isSome⟩ ::
                state.pending }
  | .insert index executed =>
      match state.pending[index]? with
      | none => none
      | some call =>
          some {
            database :=
              if executed then
                { state.database with
                  users := state.database.users ++
                    [userOf env call.registration] }
              else state.database
            pending := state.pending.eraseIdx index }

/-- No two rows have a username or a non-empty email in common. -/
def Unique (users : List User) : Prop :=
  users.Pairwise fun first second => first.username ≠ second.username ∧
    (first.email = second.email → first.email = [])

/-- A row with the username or the non-empty email of the registration. -/
def Taken (registration : Registration) (users : List User) : Prop :=
  ∃ user ∈ users, user.username = registration.username ∨
    (user.email = registration.email ∧ registration.email ≠ [])

/-- The values read in the statement as they are. -/
structure Readable (registration : Registration) : Prop where
  usernameNoNul : Byte.nul ∉ registration.username
  emailNoNul : Byte.nul ∉ registration.email
  username : Lib.Sql.isPlain registration.username = true
  email : Lib.Sql.isPlain registration.email = true

/-- For values that read as they are the existence check finds a row if there
is one with the username or the email. -/
def Finds (server : Server) : Prop :=
  ∀ (database : Database) (registration : Registration) (sql : Str)
    (result : ResultSet), Readable registration →
    (Statement.registerUser registration.username registration.email).text =
      some sql →
    server.query database sql = some result →
    (∃ user ∈ database.users, user.username = registration.username ∨
      user.email = registration.email) → result.rows ≠ []

/-- An executed `INSERT` comes from a call whose check was effective, or found
the name free anyhow, and no row with its username or email has come in
between. -/
def guard (state : State) : Event → Prop
  | .select .. => True
  | .insert index executed => executed = true →
      ∀ call ∈ state.pending[index]?,
        (call.answered = true ∧ Readable call.registration ∨
          ¬ Taken call.registration call.seen) ∧
        ¬ Taken call.registration
          (state.database.users.drop call.seen.length)

/-! ## The two statements of one call -/

/-- Without anything in between the two statements are `registerUser`. -/
theorem registerUser_database (env : Environment) (server : Server)
    (database : Database) (registration : Registration)
    (errorId : ApiErrorId) :
    (registerUser env (some server) database registration errorId).2.2 =
      if (existing server database registration true).any
          fun result => !result.rows.isEmpty then database
      else
        match server.insertUser database (userOf env registration) with
        | .inserted =>
            { database with
              users := database.users ++ [userOf env registration] }
        | _ => database := by
  have inserts : (insertUser env server database registration).2 =
      match server.insertUser database (userOf env registration) with
      | .inserted =>
          { database with
            users := database.users ++ [userOf env registration] }
      | _ => database := by
    have isUser : userOf env registration =
        ⟨registration.username, registration.email,
          env.md5 (registration.password ++ registration.salt),
          registration.salt⟩ := rfl
    rw [insertUser]
    simp only [← isUser]
    cases server.insertUser database (userOf env registration) with
    | prepareFailed => rfl
    | refused => rfl
    | inserted => rfl
  rw [registerUser, existing, if_pos rfl, ← inserts]
  cases (Statement.registerUser registration.username
      registration.email).text.bind (server.query database) with
  | none => rfl
  | some result =>
      obtain ⟨fields, rows⟩ := result
      cases rows with
      | nil => rfl
      | cons row rows => rfl

/-! ## What keeps the rows apart -/

theorem unique_append_iff {users : List User} {user : User} :
    Unique (users ++ [user]) ↔ Unique users ∧
      ¬ ∃ other ∈ users, other.username = user.username ∨
        (other.email = user.email ∧ user.email ≠ []) := by
  rw [Unique, List.pairwise_append]
  constructor
  · intro unique
    obtain ⟨before, -, apart⟩ := unique
    refine ⟨before, ?_⟩
    intro taken
    obtain ⟨other, member, clash⟩ := taken
    obtain ⟨username, email⟩ := apart other member user (List.mem_singleton_self _)
    rcases clash with sameName | ⟨sameEmail, nonempty⟩
    · exact username sameName
    · rw [← sameEmail] at nonempty
      exact nonempty (email sameEmail)
  · intro conditions
    obtain ⟨before, free⟩ := conditions
    refine ⟨before, List.pairwise_singleton _ _, ?_⟩
    intro other member last isLast
    rw [List.mem_singleton] at isLast
    subst isLast
    constructor
    · intro sameName
      exact free ⟨other, member, .inl sameName⟩
    · intro sameEmail
      by_contra nonempty
      rw [sameEmail] at nonempty
      exact free ⟨other, member, .inr ⟨sameEmail, nonempty⟩⟩

theorem taken_append_iff {registration : Registration}
    {first second : List User} :
    Taken registration (first ++ second) ↔
      Taken registration first ∨ Taken registration second := by
  simp only [Taken, List.mem_append, or_and_right, exists_or]

/-- The rows are unique, and every pending call has seen a front of them; an
effective check has found it free. -/
structure Invariant (state : State) : Prop where
  unique : Unique state.database.users
  seen : ∀ call ∈ state.pending, call.seen <+: state.database.users
  free : ∀ call ∈ state.pending, call.answered = true →
    Readable call.registration → ¬ Taken call.registration call.seen

section Step

variable {env : Environment} {server : Server} {state next : State}

/-- An effective check that finds nothing has found the name free. -/
theorem free_of_existing (finds : Finds server) {database : Database}
    {registration : Registration} {answered : Bool}
    (nothing : ((existing server database registration answered).any
      fun result => !result.rows.isEmpty) = false)
    (replied : (existing server database registration answered).isSome = true)
    (readable : Readable registration) :
    ¬ Taken registration database.users := by
  obtain ⟨result, isReply⟩ := Option.isSome_iff_exists.mp replied
  have noRows : result.rows = [] := by
    rw [isReply, Option.any_some, Bool.not_eq_false'] at nothing
    exact List.isEmpty_iff.mp nothing
  unfold existing at isReply
  split at isReply
  · obtain ⟨sql, text, query⟩ := Option.bind_eq_some_iff.mp isReply
    intro taken
    obtain ⟨user, member, clash⟩ := taken
    apply finds database registration sql result readable text query _ noRows
    rcases clash with sameName | ⟨sameEmail, -⟩
    · exact ⟨user, member, .inl sameName⟩
    · exact ⟨user, member, .inr sameEmail⟩
  · cases isReply

theorem invariant_select (finds : Finds server) {postData salt : Str}
    {answered : Bool} (invariant : Invariant state)
    (taken : step env server state (.select postData salt answered) =
      some next) : Invariant next := by
  simp only [step] at taken
  split at taken
  · cases taken
    exact invariant
  · rename_i registration asked
    split at taken
    · cases taken
      exact invariant
    · rename_i nothing
      rw [Bool.not_eq_true] at nothing
      cases taken
      refine ⟨invariant.unique, ?_, ?_⟩
      · intro call member
        rcases List.mem_cons.mp member with rfl | earlier
        · exact List.prefix_refl _
        · exact invariant.seen call earlier
      · intro call member replied readable
        rcases List.mem_cons.mp member with rfl | earlier
        · exact free_of_existing finds nothing replied readable
        · exact invariant.free call earlier replied readable

/-- A pending call that stays pending. -/
theorem invariant_erase {index : Nat} {users : List User}
    (invariant : Invariant state) (unique : Unique users)
    (grown : state.database.users <+: users) :
    Invariant ⟨{ state.database with users := users },
      state.pending.eraseIdx index⟩ where
  unique := unique
  seen := fun call member =>
    (invariant.seen call (List.mem_of_mem_eraseIdx member)).trans grown
  free := fun call member =>
    invariant.free call (List.mem_of_mem_eraseIdx member)

/-- A call takes a name that is free exactly when it is guarded. -/
theorem taken_iff_guard {call : Pending} {index : Nat}
    (invariant : Invariant state)
    (isCall : state.pending[index]? = some call) :
    ¬ Taken call.registration state.database.users ↔
      (call.answered = true ∧ Readable call.registration ∨
        ¬ Taken call.registration call.seen) ∧
      ¬ Taken call.registration
        (state.database.users.drop call.seen.length) := by
  have member := List.mem_of_getElem? isCall
  obtain ⟨later, split⟩ := invariant.seen call member
  have behind : state.database.users.drop call.seen.length = later := by
    rw [← split, List.drop_left]
  rw [behind, ← split, taken_append_iff, not_or]
  constructor
  · intro free
    exact ⟨.inr free.1, free.2⟩
  · intro guarded
    obtain ⟨effective | free, between⟩ := guarded
    · exact ⟨invariant.free call member effective.1 effective.2, between⟩
    · exact ⟨free, between⟩

theorem invariant_insert {index : Nat} {executed : Bool}
    (invariant : Invariant state)
    (guarded : guard state (.insert index executed))
    (taken : step env server state (.insert index executed) = some next) :
    Invariant next := by
  simp only [step] at taken
  split at taken
  · cases taken
  · rename_i call isCall
    cases taken
    cases executed with
    | false =>
        exact invariant_erase invariant invariant.unique (List.prefix_refl _)
    | true =>
        have free := (taken_iff_guard invariant isCall).mpr
          (guarded rfl call isCall)
        exact invariant_erase invariant
          (unique_append_iff.mpr ⟨invariant.unique, free⟩)
          (List.prefix_append _ _)

/-- An insert that keeps the rows apart was guarded. -/
theorem guard_of_unique {index : Nat} {executed : Bool}
    (invariant : Invariant state)
    (taken : step env server state (.insert index executed) = some next)
    (unique : Unique next.database.users) :
    guard state (.insert index executed) := by
  intro isExecuted call isCall
  subst isExecuted
  have found : state.pending[index]? = some call := isCall
  simp only [step, found, if_true] at taken
  cases taken
  exact (taken_iff_guard invariant found).mp (unique_append_iff.mp unique).2

end Step

/-- A run of registrations only appends rows. -/
theorem users_append (env : Environment) (server : Server)
    {start final : State} {events : List Event}
    (ran : Lib.exec (step env server) start events = some final) :
    start.database.users <+: final.database.users := by
  have kept : ∀ {state next : State} {event : Event},
      start.database.users <+: state.database.users →
      step env server state event = some next →
      start.database.users <+: next.database.users := by
    intro state next event grown taken
    cases event with
    | select postData salt answered =>
        simp only [step] at taken
        split at taken
        · cases taken
          exact grown
        · split at taken
          · cases taken
            exact grown
          · cases taken
            exact grown
    | insert index executed =>
        simp only [step] at taken
        split at taken
        · cases taken
        · cases taken
          cases executed with
          | false => exact grown
          | true => exact grown.trans (List.prefix_append _ _)
  exact Lib.exec_invariant kept (List.prefix_refl _) ran

/-- Against a table with unique rows the registrations keep the rows unique in
exactly the runs in which every executed `INSERT` is guarded. -/
theorem users_unique_iff (env : Environment) (server : Server)
    (finds : Finds server) (start : Database) (unique : Unique start.users)
    (events : List Event) :
    Lib.Always (step env server) (fun state => Unique state.database.users)
        ⟨start, []⟩ events ↔
      Lib.Meets (step env server) guard ⟨start, []⟩ events := by
  have initially : Invariant ⟨start, []⟩ := by
    refine ⟨unique, ?_, ?_⟩
    · intro call member
      cases member
    · intro call member
      cases member
  apply Lib.always_iff_meets (fun invariant => invariant.unique) _ _ initially
  · intro state next event invariant guarded taken
    cases event with
    | select postData salt answered =>
        exact invariant_select finds invariant taken
    | insert index executed => exact invariant_insert invariant guarded taken
  · intro state next event invariant taken good
    cases event with
    | select postData salt answered => trivial
    | insert index executed => exact guard_of_unique invariant taken good

/-! ## One user, registered twice -/

def amyRequest : Str :=
  ascii "\x7b\"username\":\"amy\",\"email\":\"a@b.c\",\"password\":\"x\"\x7d"

/-- jsoncpp on the request. -/
def amyEnvironment : Environment where
  parse text :=
    if text = amyRequest then
      some (.object [(ascii "email", .string (ascii "a@b.c")),
        (ascii "password", .string (ascii "x")),
        (ascii "username", .string (ascii "amy"))])
    else none
  writeString _ := []
  fastWrite _ := []
  realText _ := []
  md5 text := text

/-- A MySQL server for one user: a query of `users` finds every row. -/
def amyServer : Server where
  query database _ :=
    some ⟨[ascii "username", ascii "email"],
      database.users.map fun user => [some user.username, some user.email]⟩
  insertUser _ _ := .inserted

theorem amyServer_finds : Finds amyServer := by
  intro database registration sql result _ _ replied someRow noRows
  obtain ⟨user, member, -⟩ := someRow
  cases replied
  rw [List.map_eq_nil_iff] at noRows
  rw [noRows] at member
  cases member

def amyWith (salt : Str) : Registration :=
  ⟨ascii "amy", ascii "a@b.c", ascii "x", salt⟩

theorem amy_decoded : decodeRegisterJson amyEnvironment amyRequest =
    .ok (some (ascii "amy", ascii "a@b.c", ascii "x")) := by
  have parsed : amyEnvironment.parse amyRequest =
      some (.object [(ascii "email", .string (ascii "a@b.c")),
        (ascii "password", .string (ascii "x")),
        (ascii "username", .string (ascii "amy"))]) := by
    simp only [amyEnvironment, if_true]
  rw [decodeRegisterJson, parsed]
  rfl

theorem amy_requested (salt : Str) :
    requested amyEnvironment amyRequest salt = some (amyWith salt) := by
  have nonempty : amyRequest ≠ [] := by decide +kernel
  rw [requested, if_neg nonempty, amy_decoded]
  rfl

/-- In an empty table every check finds nothing. -/
theorem amy_selects (salt : Str) (pending : List Pending) :
    ∃ replied, step amyEnvironment amyServer ⟨⟨[ascii "users"], []⟩, pending⟩
        (.select amyRequest salt true) =
      some ⟨⟨[ascii "users"], []⟩, ⟨amyWith salt, [], replied⟩ :: pending⟩ := by
  have nothing : ((existing amyServer ⟨[ascii "users"], []⟩ (amyWith salt)
      true).any fun result => !result.rows.isEmpty) = false := by
    rw [existing, if_pos rfl]
    cases (Statement.registerUser (amyWith salt).username
        (amyWith salt).email).text with
    | none => rfl
    | some sql => rfl
  refine ⟨(existing amyServer ⟨[ascii "users"], []⟩ (amyWith salt)
    true).isSome, ?_⟩
  simp only [step, amy_requested, nothing]
  rfl

theorem amy_registers :
    Lib.Always (step amyEnvironment amyServer)
      (fun state => Unique state.database.users) ⟨⟨[ascii "users"], []⟩, []⟩
      [.select amyRequest (ascii "s") true, .insert 0 true] := by
  apply (users_unique_iff amyEnvironment amyServer amyServer_finds
    ⟨[ascii "users"], []⟩ .nil
    [.select amyRequest (ascii "s") true, .insert 0 true]).2
  obtain ⟨replied, selects⟩ := amy_selects (ascii "s") []
  have free : ∀ registration, ¬ Taken registration [] := by
    intro registration taken
    obtain ⟨user, member, -⟩ := taken
    cases member
  intro behindSelect selected
  rw [selects] at selected
  cases selected
  refine ⟨trivial, ?_⟩
  intro behindInsert _
  refine ⟨?_, trivial⟩
  intro _ call isCall
  cases isCall
  exact ⟨.inr (free _), free _⟩

/-- Two servers check before either inserts. -/
theorem amy_registers_twice :
    ¬ Lib.Always (step amyEnvironment amyServer)
      (fun state => Unique state.database.users) ⟨⟨[ascii "users"], []⟩, []⟩
      [.select amyRequest (ascii "s") true, .select amyRequest (ascii "t") true,
        .insert 0 true, .insert 0 true] := by
  obtain ⟨first, firstSelects⟩ := amy_selects (ascii "s") []
  obtain ⟨second, secondSelects⟩ := amy_selects (ascii "t")
    [⟨amyWith (ascii "s"), [], first⟩]
  intro always
  have inserted : Lib.exec (step amyEnvironment amyServer)
      ⟨⟨[ascii "users"], []⟩, []⟩
      [.select amyRequest (ascii "s") true, .select amyRequest (ascii "t") true,
        .insert 0 true, .insert 0 true] =
      some ⟨⟨[ascii "users"], [userOf amyEnvironment (amyWith (ascii "t")),
        userOf amyEnvironment (amyWith (ascii "s"))]⟩, []⟩ := by
    rw [Lib.exec_cons_of_some firstSelects, Lib.exec_cons_of_some secondSelects]
    rfl
  have unique := always _ (List.prefix_refl _) _ inserted
  have names := (List.pairwise_cons.mp unique).1 _ List.mem_cons_self
  exact names.1 rfl

end Registrations

end ChatRoom
