import ChatRoom.Api.Statements
import ChatRoom.Base.Json
import ChatRoom.Mysql.DbPool

/-!
# Registration and login

`registerUser` writes salt and hash through a prepared statement;
`verifyUserPassword` lists the tables of the database before it reads them
back.  The listing asks a row for the column with a null name, so a login
throws as soon as there is a table.
-/

namespace ChatRoom

namespace Api

open Mysql

/-- The libraries behind registration and login. -/
structure Environment extends JsonCpp where
  md5 : Str → Str

inductive ApiErrorId where
  | badRequest
  | loginFailed
  | emailExists
  | usernameExists
  deriving DecidableEq

/-- `api_error_id_to_string`. -/
def ApiErrorId.text : ApiErrorId → Str
  | loginFailed => ascii "LOGIN_FAILED"
  | usernameExists => ascii "USERNAME_EXISTS"
  | emailExists => ascii "EMAIL_EXISTS"
  | badRequest => ascii "BAD_REQUEST"

/-! ## Registration -/

/-- The arguments of `registerUser`, with the salt `RandomString` draws. -/
structure Registration where
  username : Str
  email : Str
  password : Str
  salt : Str

/-- A column of the current row that is not null and equal to a text. -/
def isColumn (result : ResultSet) (row : List (Option Str))
    (column text : Str) : Bool :=
  match result.getString row (some column) with
  | .ok (some value) => value = text
  | _ => false

/-- The error id a row of the existence check leads to. -/
def existingError (result : ResultSet) (row : List (Option Str))
    (registration : Registration) (errorId : ApiErrorId) : ApiErrorId :=
  if isColumn result row (ascii "email") registration.email then .emailExists
  else if isColumn result row (ascii "username") registration.username then
    .usernameExists
  else errorId

/-- The insert behind the existence check. -/
def insertUser (env : Environment) (server : Server) (database : Database)
    (registration : Registration) : Int × Database :=
  let user : User :=
    { username := registration.username
      email := registration.email
      passwordHash := env.md5 (registration.password ++ registration.salt)
      salt := registration.salt }
  match server.insertUser database user with
  | .prepareFailed => (-1, database)
  | .refused => (1, database)
  | .inserted => (0, { database with users := database.users ++ [user] })

/-- `registerUser`: the connection is `none` when the pool has none. -/
def registerUser (env : Environment) (connection : Option Server)
    (database : Database) (registration : Registration)
    (errorId : ApiErrorId) : Int × ApiErrorId × Database :=
  match connection with
  | none => (1, errorId, database)
  | some server =>
      let sql := (Statement.registerUser registration.username
        registration.email).text
      match sql.bind (server.query database) with
      | some result =>
          match result.rows with
          | row :: _ =>
              (-1, existingError result row registration errorId, database)
          | [] =>
              let (ret, next) := insertUser env server database registration
              (ret, errorId, next)
      | none =>
          let (ret, next) := insertUser env server database registration
          (ret, errorId, next)

/-! ## Login -/

/-- `decodeLoginJson`: `none` for a return value of -1. -/
def decodeLoginJson (env : Environment) (text : Str) :
    Except Exception (Option (Str × Str)) :=
  match env.parse text with
  | none => .ok none
  | some root =>
      match root.get (ascii "email") with
      | none => .error .jsonError
      | some emailField =>
          if emailField.isNull then .ok none
          else
            match emailField.asString env.toJsonCpp,
              root.get (ascii "password") with
            | some email, some passwordField =>
                if passwordField.isNull then .ok none
                else
                  match passwordField.asString env.toJsonCpp with
                  | some password => .ok (some (email, password))
                  | none => .error .jsonError
            | _, _ => .error .jsonError

/-- `encodeLoginJson`. -/
def encodeLoginJson (env : Environment) (errorId : ApiErrorId)
    (message : Str) : Str :=
  env.fastWrite (.object [
    (ascii "id", .string errorId.text), (ascii "message", .string message)])

/-- The loop over `SHOW TABLES`, whose rows are only logged. -/
def logTables (result : ResultSet) : Except Exception Unit :=
  result.rows.forM fun row => do
    let tableName ← result.getString row none
    let _ ← stdString tableName
    return ()

/-- The part of `verifyUserPassword` that reads the user back. -/
def comparePassword (env : Environment) (server : Server)
    (database : Database) (email password : Str) : Except Exception Int :=
  match (Statement.verifyUserPassword email).text.bind
      (server.query database) with
  | none => .ok (-1)
  | some result =>
      match result.rows with
      | [] => .ok (-1)
      | row :: _ => do
          let _ ← stdString (← result.getString row (some (ascii "username")))
          let hash ←
            stdString (← result.getString row (some (ascii "password_hash")))
          let salt ← stdString (← result.getString row (some (ascii "salt")))
          return if hash = env.md5 (password ++ salt) then 0 else -1

/-- `verifyUserPassword`. -/
def verifyUserPassword (env : Environment) (connection : Option Server)
    (database : Database) (email password : Str) : Except Exception Int :=
  match connection with
  | none => .ok (-1)
  | some server => do
      match server.query database (ascii "SHOW TABLES") with
      | none => pure ()
      | some tables => logTables tables
      comparePassword env server database email password

/-- What `ApiUserLogin` returns, the response, and the `SETEX` it sends:
token, seconds and email. -/
structure LoginAnswer where
  ret : Int
  respData : Str
  setEx : Option (Str × Nat × Str)
  deriving DecidableEq

/-- `ApiUserLogin`.  The return value of `ApiSetCookie` is dropped; without a
Redis connection the token is only returned. -/
def apiUserLogin (env : Environment) (connection : Option Server)
    (database : Database) (cacheConn : Bool) (token postData : Str) :
    Except Exception LoginAnswer := do
  match ← decodeLoginJson env postData with
  | none =>
      return ⟨-1,
        encodeLoginJson env .badRequest (ascii "email or password no fill"),
        none⟩
  | some (email, password) =>
      let ret ← verifyUserPassword env connection database email password
      if ret = 0 then
        return ⟨0, token, if cacheConn then some (token, 86400, email) else none⟩
      else
        return ⟨ret,
          encodeLoginJson env .badRequest (ascii "email password no match"),
          none⟩

/-! ## Register, then log in -/

/-- The database behind a list of registrations, and the accounts of those
that returned 0. -/
def registerAll (env : Environment) (connection : Option Server) :
    Database → List Registration → Database × List (Str × Str)
  | database, [] => (database, [])
  | database, registration :: registrations =>
      let (ret, _, next) :=
        registerUser env connection database registration .badRequest
      let (final, accounts) := registerAll env connection next registrations
      (final,
        if ret = 0 then (registration.email, registration.password) :: accounts
        else accounts)

/-- A login returns 0 and sets a cookie for the password of an account, and
-1 with an error body for everything else. -/
def LoginAnswers (env : Environment) (accounts : List (Str × Str))
    (token email password : Str) (outcome : Except Exception LoginAnswer) :
    Prop :=
  ∃ answer, outcome = .ok answer ∧
    if (email, password) ∈ accounts then
      answer.ret = 0 ∧ answer.respData = token
    else
      answer.ret = -1 ∧ ∃ errorId message,
        answer.respData = encodeLoginJson env errorId message

theorem logTables_throws {result : ResultSet} (nonempty : result.rows ≠ []) :
    logTables result = .error .logicError := by
  obtain ⟨row, rows, isCons⟩ := List.exists_cons_of_ne_nil nonempty
  rw [logTables, isCons]
  rfl

/-- With a table in the database no password is ever compared. -/
theorem verifyUserPassword_throws (env : Environment) {server : Server}
    (shows : server.ShowsTables) {database : Database}
    (nonempty : database.tables ≠ []) (email password : Str) :
    verifyUserPassword env (some server) database email password =
      .error .logicError := by
  obtain ⟨field, listing⟩ := shows database
  have rows : (database.tables.map fun table => [some table]) ≠ [] := by
    simpa using nonempty
  have thrown : logTables
      ⟨[field], database.tables.map fun table => [some table]⟩ =
        .error .logicError := logTables_throws rows
  rw [verifyUserPassword, listing]
  simp only [thrown]
  rfl

theorem apiUserLogin_throws (env : Environment) {server : Server}
    (shows : server.ShowsTables) {database : Database}
    (nonempty : database.tables ≠ []) (cacheConn : Bool) (token : Str)
    {postData email password : Str}
    (decoded : decodeLoginJson env postData = .ok (some (email, password))) :
    apiUserLogin env (some server) database cacheConn token postData =
      .error .logicError := by
  rw [apiUserLogin, decoded]
  have thrown := verifyUserPassword_throws env shows nonempty email password
  change (do
    let ret ← verifyUserPassword env (some server) database email password
    _) = _
  rw [thrown]
  rfl

/-- An exception is no answer. -/
theorem not_loginAnswers_of_thrown (env : Environment)
    (accounts : List (Str × Str)) (token email password : Str)
    (exception : Exception) :
    ¬ LoginAnswers env accounts token email password (.error exception) := by
  intro answers
  obtain ⟨answer, returned, -⟩ := answers
  cases returned

/-- After every sequence of registrations into a database with the table
`users`, no login is answered, with the right password or a wrong one. -/
theorem login_never_answers (env : Environment) (server : Server)
    (shows : server.ShowsTables) (start : Database)
    (registrations : List Registration)
    (users : ascii "users" ∈
      (registerAll env (some server) start registrations).1.tables)
    (cacheConn : Bool) (token postData email password : Str)
    (decoded : decodeLoginJson env postData = .ok (some (email, password))) :
    ¬ LoginAnswers env (registerAll env (some server) start registrations).2
      token email password
      (apiUserLogin env (some server)
        (registerAll env (some server) start registrations).1 cacheConn token
        postData) := by
  have nonempty : (registerAll env (some server) start registrations).1.tables ≠
      [] := List.ne_nil_of_mem users
  rw [apiUserLogin_throws env shows nonempty cacheConn token decoded]
  apply not_loginAnswers_of_thrown

/-- A login request of the user below. -/
def loginRequest (password : Str) : Str :=
  ascii "\x7b\"email\":\"amy@example.com\",\"password\":\"" ++ password ++
    ascii "\"\x7d"

/-- jsoncpp and MD5 on the texts of one user. -/
def sampleEnvironment : Environment where
  parse text :=
    let login (password : Str) : Json :=
      .object [(ascii "email", .string (ascii "amy@example.com")),
        (ascii "password", .string password)]
    if text = loginRequest (ascii "secret") then some (login (ascii "secret"))
    else if text = loginRequest (ascii "wrong") then some (login (ascii "wrong"))
    else none
  writeString _ := ascii "null"
  fastWrite _ := ascii "null\n"
  realText _ := []
  md5 text := text

/-- A MySQL server for one user: a query of `users` finds every row. -/
def sampleServer : Server where
  query database sql :=
    if (ascii "SHOW").isPrefixOf sql then
      some ⟨[ascii "Tables_in_chatroom"],
        database.tables.map fun table => [some table]⟩
    else
      some ⟨[ascii "username", ascii "password_hash", ascii "salt"],
        database.users.map fun user =>
          [some user.username, some user.passwordHash, some user.salt]⟩
  insertUser _ _ := .inserted

theorem sampleServer_showsTables : sampleServer.ShowsTables := by
  intro database
  refine ⟨ascii "Tables_in_chatroom", ?_⟩
  have shows : (ascii "SHOW").isPrefixOf (ascii "SHOW TABLES") = true := by
    decide
  simp only [sampleServer, shows, if_true]

/-- The registration of the user. -/
def amy : Registration where
  username := ascii "amy"
  email := ascii "amy@example.com"
  password := ascii "secret"
  salt := ascii "abcdefghijklmnop"

/-- The tables of a database with the user, and the account. -/
theorem registerAll_amy :
    (registerAll sampleEnvironment (some sampleServer)
      ⟨[ascii "users"], []⟩ [amy]).1.tables = [ascii "users"] ∧
    (registerAll sampleEnvironment (some sampleServer)
      ⟨[ascii "users"], []⟩ [amy]).2 =
        [(ascii "amy@example.com", ascii "secret")] := by
  decide +kernel

/-- The user is not told that her password is wrong. -/
theorem wrong_password_never_answers :
    ¬ LoginAnswers sampleEnvironment
      (registerAll sampleEnvironment (some sampleServer)
        ⟨[ascii "users"], []⟩ [amy]).2 (ascii "token")
      (ascii "amy@example.com") (ascii "wrong")
      (apiUserLogin sampleEnvironment (some sampleServer)
        (registerAll sampleEnvironment (some sampleServer)
          ⟨[ascii "users"], []⟩ [amy]).1 true (ascii "token")
        (loginRequest (ascii "wrong"))) := by
  apply login_never_answers sampleEnvironment sampleServer
    sampleServer_showsTables
  · rw [registerAll_amy.1]
    decide
  · rfl

/-- The registration of the user returned 0, and her login is not answered. -/
theorem registered_login_throws :
    (ascii "amy@example.com", ascii "secret") ∈
      (registerAll sampleEnvironment (some sampleServer)
        ⟨[ascii "users"], []⟩ [amy]).2 ∧
    ¬ LoginAnswers sampleEnvironment
      (registerAll sampleEnvironment (some sampleServer)
        ⟨[ascii "users"], []⟩ [amy]).2 (ascii "token")
      (ascii "amy@example.com") (ascii "secret")
      (apiUserLogin sampleEnvironment (some sampleServer)
        (registerAll sampleEnvironment (some sampleServer)
          ⟨[ascii "users"], []⟩ [amy]).1 true (ascii "token")
        (loginRequest (ascii "secret"))) := by
  constructor
  · rw [registerAll_amy.2]
    exact List.mem_cons_self ..
  · have nonempty : (registerAll sampleEnvironment (some sampleServer)
        ⟨[ascii "users"], []⟩ [amy]).1.tables ≠ [] := by
      rw [registerAll_amy.1]
      exact List.cons_ne_nil _ _
    have decoded : decodeLoginJson sampleEnvironment
        (loginRequest (ascii "secret")) =
          .ok (some (ascii "amy@example.com", ascii "secret")) := by
      rfl
    rw [apiUserLogin_throws sampleEnvironment sampleServer_showsTables nonempty
      true (ascii "token") decoded]
    apply not_loginAnswers_of_thrown

end Api

end ChatRoom
