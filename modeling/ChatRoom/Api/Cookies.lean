import ChatRoom.Api.Registrations

/-!
# From a cookie back to its user

Redis has for a token the email of the request it was issued for; who the user
is, MySQL is asked for when the cookie comes back.  So a cookie stands for the
rows that have this email then.
-/

namespace ChatRoom

namespace Cookies

open Api Mysql
open Registrations (decodeRegisterJson userOf)

/-! ## Issuing a cookie -/

/-- `encdoeRegisterJson`. -/
def encodeRegisterJson (env : Environment) (errorId : ApiErrorId)
    (message : Str) : Str :=
  env.fastWrite (.object [
    (ascii "id", .string errorId.text), (ascii "message", .string message)])

/-- The `SETEX` of `ApiSetCookie`: token, seconds and email, when the pool has
a connection.  Nobody looks at the return value. -/
def apiSetCookie (cacheConn : Bool) (token email : Str) :
    Option (Str × Nat × Str) :=
  if cacheConn then some (token, 86400, email) else none

/-- `ApiRegisterUser`, with the token and the salt it draws. -/
def apiRegisterUser (env : Environment) (connection : Option Server)
    (database : Database) (cacheConn : Bool) (token salt postData : Str) :
    Except Exception (LoginAnswer × Database) :=
  if postData = [] then
    .ok (⟨-1, encodeRegisterJson env .badRequest [], none⟩, database)
  else do
    match ← decodeRegisterJson env postData with
    | none =>
        return (⟨-1, encodeRegisterJson env .badRequest (utf8 "请求参数不全"),
          none⟩, database)
    | some (username, email, password) =>
        let (ret, _, next) := registerUser env connection database
          ⟨username, email, password, salt⟩ .badRequest
        if ret ≠ 0 then
          return (⟨ret, encodeRegisterJson env .usernameExists [], none⟩, next)
        else return (⟨ret, token, apiSetCookie cacheConn token email⟩, next)

/-- Redis has executed a `SETEX`, whose arguments it gets as C strings. -/
def setEx (tokens : Str → Option Str) (executed : Bool) :
    Option (Str × Nat × Str) → Str → Option Str
  | some (token, _, email) =>
      if executed then Function.update tokens (cStr token) (some (cStr email))
      else tokens
  | none => tokens

/-! ## Looking the user up -/

/-- A row of `users` with its id, as the lookup reads it. -/
structure Account where
  id : Int
  username : Str
  email : Str
  deriving DecidableEq

/-- The rows of a table; `ids` are the numbers MySQL has given them. -/
def accounts (ids : Nat → Int) (users : List User) : List Account :=
  users.mapIdx fun index user => ⟨ids index, user.username, user.email⟩

/-- `GetUsernameAndUseridByEmail` on the reply to its query: the first row
counts. -/
def getUsernameAndUseridByEmail : Option (List Account) → Option (Str × Int)
  | some (account :: _) => some (cStr account.username, getInt account.id)
  | _ => none

/-- `ApiGetUserInfoByCookie`; `none` is its return value -1.  The query of an
email is on the text up to its first NUL. -/
def apiGetUserInfoByCookie (tokens : Str → Option Str) (cookie : Str)
    (query : Str → Option (List Account)) : Option (Str × Int) :=
  let email := (tokens (cStr cookie)).getD []
  if email = [] then none else getUsernameAndUseridByEmail (query (cStr email))

/-- What MySQL may reply: for an email that reads as it is the rows whose
email compares as equal, in any order, and anything for another statement. -/
def Replies (equal : Str → Str → Bool) (table : List Account) (email : Str)
    (reply : Option (List Account)) : Prop :=
  Lib.Sql.isPlain email = true →
    ∃ rows, reply = some rows ∧
      rows.Perm (table.filter fun account => equal account.email email)

/-- The lookup returns 0 with the username and the id, whatever MySQL replies
that is correct. -/
def Identifies (equal : Str → Str → Bool) (table : List Account)
    (tokens : Str → Option Str) (cookie username : Str) (id : Int) : Prop :=
  ∀ query : Str → Option (List Account),
    (∀ email, Replies equal table email (query email)) →
      apiGetUserInfoByCookie tokens cookie query = some (username, id)

/-- When the rows of an email are all those of one user. -/
structure OneUser (equal : Str → Str → Bool) (table : List Account)
    (email username : Str) (id : Int) : Prop where
  nonempty : email ≠ []
  plain : Lib.Sql.isPlain email = true
  known : ∃ account ∈ table, equal account.email email = true
  same : ∀ account ∈ table, equal account.email email = true →
    cStr account.username = username ∧ getInt account.id = id

/-! ## A lookup by email -/

theorem cStr_cStr (text : Str) : cStr (cStr text) = cStr text := by
  apply cStr_eq_self
  intro member
  have kept := List.mem_takeWhile_imp member
  simp at kept

/-- The replies with given rows for one email. -/
def replyWith (equal : Str → Str → Bool) (table : List Account) (email : Str)
    (rows : List Account) (asked : Str) : Option (List Account) :=
  if Lib.Sql.isPlain asked = true then
    if asked = email then some rows
    else some (table.filter fun account => equal account.email asked)
  else none

theorem replies_replyWith {equal : Str → Str → Bool} {table : List Account}
    {email : Str} {rows : List Account}
    (permutation : rows.Perm
      (table.filter fun account => equal account.email email)) :
    ∀ asked, Replies equal table asked
      (replyWith equal table email rows asked) := by
  intro asked plain
  rw [replyWith, if_pos plain]
  by_cases isEmail : asked = email
  · rw [if_pos isEmail, isEmail]
    exact ⟨rows, rfl, permutation⟩
  · rw [if_neg isEmail]
    exact ⟨_, rfl, .refl _⟩

/-- A cookie with an email asks for the rows of that email. -/
theorem apiGetUserInfoByCookie_of_email {tokens : Str → Option Str}
    {cookie email : Str} (isEmail : tokens (cStr cookie) = some (cStr email))
    (query : Str → Option (List Account)) :
    apiGetUserInfoByCookie tokens cookie query =
      if cStr email = [] then none
      else getUsernameAndUseridByEmail (query (cStr email)) := by
  rw [apiGetUserInfoByCookie, isEmail, Option.getD_some, cStr_cStr]

/-- MySQL may answer with the rows in any order, so that each of them may be
the one that is read. -/
theorem oneUser_of_identifies {equal : Str → Str → Bool} {table : List Account}
    {tokens : Str → Option Str} {cookie email username : Str} {id : Int}
    (isEmail : tokens (cStr cookie) = some (cStr email))
    (identifies : Identifies equal table tokens cookie username id) :
    OneUser equal table (cStr email) username id := by
  have found : ∀ rows : List Account,
      rows.Perm (table.filter fun account =>
        equal account.email (cStr email)) →
      (if cStr email = [] then none
        else getUsernameAndUseridByEmail
          (replyWith equal table (cStr email) rows (cStr email))) =
        some (username, id) := by
    intro rows permutation
    rw [← apiGetUserInfoByCookie_of_email isEmail]
    exact identifies _ (replies_replyWith permutation)
  have nonempty : cStr email ≠ [] := by
    intro empty
    have impossible := found _ (.refl _)
    rw [if_pos empty] at impossible
    cases impossible
  simp only [if_neg nonempty] at found
  have plain : Lib.Sql.isPlain (cStr email) = true := by
    by_contra unreadable
    have impossible := found _ (.refl _)
    rw [replyWith, if_neg unreadable] at impossible
    cases impossible
  simp only [replyWith, if_pos plain, if_true] at found
  refine ⟨nonempty, plain, ?_, ?_⟩
  · cases rows : table.filter fun account =>
        equal account.email (cStr email) with
    | nil =>
        have impossible := found [] (by rw [rows])
        cases impossible
    | cons account others =>
        have member : account ∈ table.filter fun account =>
            equal account.email (cStr email) := by
          rw [rows]
          exact List.mem_cons_self
        exact ⟨account, List.mem_filter.mp member⟩
  · intro account member isEqual
    have inside : account ∈ table.filter fun account =>
        equal account.email (cStr email) :=
      List.mem_filter.mpr ⟨member, isEqual⟩
    have first := found _ (List.perm_cons_erase inside).symm
    simp only [getUsernameAndUseridByEmail, Option.some.injEq,
      Prod.mk.injEq] at first
    exact first

theorem identifies_of_oneUser {equal : Str → Str → Bool} {table : List Account}
    {tokens : Str → Option Str} {cookie email username : Str} {id : Int}
    (isEmail : tokens (cStr cookie) = some (cStr email))
    (oneUser : OneUser equal table (cStr email) username id) :
    Identifies equal table tokens cookie username id := by
  intro query replies
  rw [apiGetUserInfoByCookie_of_email isEmail, if_neg oneUser.nonempty]
  obtain ⟨rows, isReply, permutation⟩ := replies _ oneUser.plain
  obtain ⟨account, member, isEqual⟩ := oneUser.known
  have inReply : account ∈ rows :=
    permutation.mem_iff.mpr (List.mem_filter.mpr ⟨member, isEqual⟩)
  cases rows with
  | nil => cases inReply
  | cons first others =>
      obtain ⟨inTable, firstEqual⟩ := List.mem_filter.mp
        (permutation.mem_iff.mp List.mem_cons_self)
      obtain ⟨name, number⟩ := oneUser.same first inTable firstEqual
      rw [isReply, getUsernameAndUseridByEmail, name, number]

theorem identifies_email_iff (equal : Str → Str → Bool) (table : List Account)
    {tokens : Str → Option Str} {cookie email username : Str} {id : Int}
    (isEmail : tokens (cStr cookie) = some (cStr email)) :
    Identifies equal table tokens cookie username id ↔
      OneUser equal table (cStr email) username id := by
  constructor
  · exact oneUser_of_identifies isEmail
  · exact identifies_of_oneUser isEmail

/-! ## Issued cookies -/

/-- A registration or a login has returned 0: the table behind it, the place of
the user's row there, the email of the request, and the answer. -/
inductive Issued (env : Environment) (equal : Str → Str → Bool)
    (connection : Option Server) (database : Database) (cacheConn : Bool)
    (token : Str) : Database → Nat → Str → LoginAnswer → Prop
  | registered {salt postData username email password : Str}
      {answer : LoginAnswer} {next : Database}
      (decoded : decodeRegisterJson env postData =
        .ok (some (username, email, password)))
      (called : apiRegisterUser env connection database cacheConn token salt
        postData = .ok (answer, next))
      (success : answer.ret = 0) :
      Issued env equal connection database cacheConn token next
        database.users.length email answer
  | loggedIn {postData email password : Str} {answer : LoginAnswer}
      {index : Nat} {user : User}
      (decoded : decodeLoginJson env postData = .ok (some (email, password)))
      (called : apiUserLogin env connection database cacheConn token postData =
        .ok answer)
      (success : answer.ret = 0)
      (isUser : database.users[index]? = some user)
      (isEmail : equal user.email email = true)
      (isPassword : user.passwordHash = env.md5 (password ++ user.salt)) :
      Issued env equal connection database cacheConn token database index email
        answer

theorem insertUser_zero {env : Environment} {server : Server}
    {database next : Database} {registration : Registration}
    (called : insertUser env server database registration = (0, next)) :
    next.users = database.users ++ [userOf env registration] := by
  unfold insertUser at called
  simp only at called
  split at called
  · cases (Prod.mk.inj called).1
  · cases (Prod.mk.inj called).1
  · obtain ⟨-, rfl⟩ := Prod.mk.inj called
    rfl

/-- A registration that returns 0 has appended its row. -/
theorem registerUser_zero {env : Environment} {connection : Option Server}
    {database : Database} {registration : Registration}
    {errorId : ApiErrorId}
    (success : (registerUser env connection database registration
      errorId).1 = 0) :
    (registerUser env connection database registration errorId).2.2.users =
      database.users ++ [userOf env registration] := by
  unfold registerUser at success ⊢
  cases connection with
  | none => cases success
  | some server =>
      simp only at success ⊢
      split at success
      · split at success
        · cases success
        · exact insertUser_zero (Prod.ext success rfl)
      · exact insertUser_zero (Prod.ext success rfl)

theorem registered_spec {env : Environment} {connection : Option Server}
    {database next : Database} {cacheConn : Bool}
    {token salt postData username email password : Str} {answer : LoginAnswer}
    (decoded : decodeRegisterJson env postData =
      .ok (some (username, email, password)))
    (called : apiRegisterUser env connection database cacheConn token salt
      postData = .ok (answer, next))
    (success : answer.ret = 0) :
    next.users = database.users ++
        [userOf env ⟨username, email, password, salt⟩] ∧
      answer.respData = token ∧
      answer.setEx = apiSetCookie cacheConn token email := by
  unfold apiRegisterUser at called
  split at called
  · cases called
    cases success
  · rw [decoded] at called
    by_cases zero : (registerUser env connection database
        ⟨username, email, password, salt⟩ .badRequest).1 = 0
    · have row := registerUser_zero zero
      simp only [bind, Except.bind, zero, ne_eq, not_true_eq_false, if_false]
        at called
      cases called
      exact ⟨row, rfl, rfl⟩
    · simp only [bind, Except.bind, ne_eq, zero, not_false_eq_true, if_true]
        at called
      cases called
      exact absurd success zero

theorem loggedIn_spec {env : Environment} {connection : Option Server}
    {database : Database} {cacheConn : Bool} {token postData email password : Str}
    {answer : LoginAnswer}
    (decoded : decodeLoginJson env postData = .ok (some (email, password)))
    (called : apiUserLogin env connection database cacheConn token postData =
      .ok answer) (success : answer.ret = 0) :
    answer.respData = token ∧
      answer.setEx = apiSetCookie cacheConn token email := by
  unfold apiUserLogin at called
  rw [decoded] at called
  simp only [bind, Except.bind] at called
  split at called
  · cases called
  · split at called
    · cases called
      exact ⟨rfl, rfl⟩
    · rename_i nonzero
      cases called
      exact absurd success nonzero

/-- Every issued cookie is for the email of its request, and the user's row
stands at its place. -/
theorem issued_spec {env : Environment} {equal : Str → Str → Bool}
    {connection : Option Server} {database next : Database} {cacheConn : Bool}
    {token email : Str} {index : Nat} {answer : LoginAnswer}
    (issued : Issued env equal connection database cacheConn token next index
      email answer) :
    (∃ user, next.users[index]? = some user) ∧
      answer.respData = token ∧
      answer.setEx = apiSetCookie cacheConn token email := by
  cases issued with
  | registered decoded called success =>
      obtain ⟨row, isToken, isSetEx⟩ := registered_spec decoded called success
      rw [row]
      exact ⟨⟨_, List.getElem?_concat_length⟩, isToken, isSetEx⟩
  | loggedIn decoded called success isUser isEmail isPassword =>
      obtain ⟨isToken, isSetEx⟩ := loggedIn_spec decoded called success
      exact ⟨⟨_, isUser⟩, isToken, isSetEx⟩

/-- A token that was not known before identifies the user exactly when Redis
has got it and all rows with its email are the user's. -/
theorem cookie_identifies_iff (env : Environment) (equal : Str → Str → Bool)
    (connection : Option Server) (ids : Nat → Int) (database next : Database)
    (cacheConn : Bool) (token email : Str) (index : Nat) (answer : LoginAnswer)
    (issued : Issued env equal connection database cacheConn token next index
      email answer)
    (executed : Bool) (tokens later : Str → Option Str)
    (fresh : tokens (cStr token) = none)
    (kept : later (cStr token) =
      setEx tokens executed answer.setEx (cStr token))
    (final : List User) (grown : next.users <+: final) :
    ∃ user, final[index]? = some user ∧
      (Identifies equal (accounts ids final) later answer.respData
          user.username (ids index) ↔
        (cacheConn = true ∧ executed = true) ∧
          OneUser equal (accounts ids final) (cStr email) user.username
            (ids index)) := by
  obtain ⟨⟨user, isUser⟩, isToken, isSetEx⟩ := issued_spec issued
  have inFinal : final[index]? = some user := by
    obtain ⟨more, rfl⟩ := grown
    rw [List.getElem?_append_left (List.getElem?_eq_some_iff.mp isUser).1,
      isUser]
  refine ⟨user, inFinal, ?_⟩
  rw [isToken]
  by_cases stored : cacheConn = true ∧ executed = true
  · have isEmail : later (cStr token) = some (cStr email) := by
      rw [kept, isSetEx, apiSetCookie, stored.1, stored.2, if_pos rfl]
      exact Function.update_self _ _ _
    rw [identifies_email_iff equal _ isEmail]
    exact (and_iff_right stored).symm
  · have missing : later (cStr token) = none := by
      rw [kept, isSetEx, ← fresh, apiSetCookie]
      cases cacheConn with
      | false => rfl
      | true =>
          have unexecuted : executed = false := by simpa using stored
          rw [unexecuted]
          rfl
    constructor
    · intro identifies
      have impossible := identifies
        (replyWith equal (accounts ids final) [] _)
        (replies_replyWith (.refl _))
      rw [apiGetUserInfoByCookie, missing] at impossible
      cases impossible
    · intro conditions
      exact absurd conditions.1 stored

/-! ## A registration with an email, and one without -/

open Registrations (amyEnvironment amyServer amyRequest amy_decoded)

def emptyUsers : Database := ⟨[ascii "users"], []⟩

/-- Into an empty table everyone can register. -/
theorem registerUser_first (env : Environment) (registration : Registration)
    (errorId : ApiErrorId) :
    registerUser env (some amyServer) emptyUsers registration errorId =
      (0, errorId, ⟨[ascii "users"], [userOf env registration]⟩) := by
  rw [registerUser]
  cases (Statement.registerUser registration.username registration.email).text
      with
  | none => rfl
  | some sql => rfl

theorem apiRegisterUser_first {env : Environment}
    {token salt postData username email password : Str}
    (nonempty : postData ≠ [])
    (decoded : decodeRegisterJson env postData =
      .ok (some (username, email, password))) :
    apiRegisterUser env (some amyServer) emptyUsers true token salt postData =
      .ok (⟨0, token, some (token, 86400, email)⟩,
        ⟨[ascii "users"], [userOf env ⟨username, email, password, salt⟩]⟩) := by
  rw [apiRegisterUser, if_neg nonempty, decoded]
  simp only [bind, Except.bind, registerUser_first]
  rfl

theorem amy_is_identified :
    ∃ user, [userOf amyEnvironment
        ⟨ascii "amy", ascii "a@b.c", ascii "x", ascii "s"⟩][0]? = some user ∧
      (Identifies (· == ·) (accounts (fun _ => 1)
          [userOf amyEnvironment
            ⟨ascii "amy", ascii "a@b.c", ascii "x", ascii "s"⟩])
          (setEx (fun _ => none) true
            (some (ascii "t", 86400, ascii "a@b.c")))
          (ascii "t") user.username 1 ↔
        (true = true ∧ true = true) ∧
          OneUser (· == ·) (accounts (fun _ => 1)
            [userOf amyEnvironment
              ⟨ascii "amy", ascii "a@b.c", ascii "x", ascii "s"⟩])
            (cStr (ascii "a@b.c")) user.username 1) := by
  have nonempty : amyRequest ≠ [] := by decide +kernel
  exact cookie_identifies_iff amyEnvironment (· == ·) (some amyServer)
    (fun _ => 1) emptyUsers _ true (ascii "t") (ascii "a@b.c") 0 _
    (.registered amy_decoded (apiRegisterUser_first nonempty amy_decoded) rfl)
    true (fun _ => none) _ rfl rfl _ (List.prefix_refl _)

/-- jsoncpp on a request without an email. -/
def namedEnvironment : Environment where
  parse _ := some (.object [(ascii "password", .string (ascii "x")),
    (ascii "username", .string (ascii "amy"))])
  writeString _ := []
  fastWrite _ := []
  realText _ := []
  md5 text := text

def namedRequest : Str :=
  ascii "\x7b\"username\":\"amy\",\"password\":\"x\"\x7d"

/-- The registration returns 0 with a token, and the token is nobody's. -/
theorem no_email_is_not_identified :
    ∃ answer next, apiRegisterUser namedEnvironment (some amyServer) emptyUsers
        true (ascii "t") (ascii "s") namedRequest = .ok (answer, next) ∧
      answer.ret = 0 ∧
      next.users = [userOf namedEnvironment
        ⟨ascii "amy", [], ascii "x", ascii "s"⟩] ∧
      ¬ Identifies (· == ·) (accounts (fun _ => 1) next.users)
        (setEx (fun _ => none) true answer.setEx) answer.respData
        (ascii "amy") 1 := by
  have nonempty : namedRequest ≠ [] := by decide +kernel
  have decoded : decodeRegisterJson namedEnvironment namedRequest =
      .ok (some (ascii "amy", [], ascii "x")) := by
    rfl
  refine ⟨_, _, apiRegisterUser_first nonempty decoded, rfl, rfl, ?_⟩
  have isEmail : setEx (fun _ => none) true
      (some (ascii "t", 86400, [])) (cStr (ascii "t")) = some (cStr []) := by
    rw [setEx, if_pos rfl]
    exact Function.update_self _ _ _
  rw [identifies_email_iff _ _ isEmail]
  intro oneUser
  exact oneUser.nonempty rfl

end Cookies

end ChatRoom
