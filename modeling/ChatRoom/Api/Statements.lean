import ChatRoom.Api.FormatString

/-!
# The SQL statements of the API

The statements the API builds with `FormatString`.  Each keeps the tokens of
its template exactly when all user data in it is plain.
-/

namespace ChatRoom

namespace Api

open Lib.Sql

namespace Statement

def getUserIdByUsername (username : Str) : Statement :=
  ⟨ascii "select id from users where username='%s'", [.string username]⟩

def getUsernameByEmail (email : Str) : Statement :=
  ⟨ascii "select username from users where email='%s'", [.string email]⟩

def getUsernameAndUseridByEmail (email : Str) : Statement :=
  ⟨ascii "select id, username from users where email='%s'", [.string email]⟩

def apiGetUserInfoById (userid : Str) : Statement :=
  ⟨ascii "select * from user where id='%s'", [.string userid]⟩

def verifyUserPassword (email : Str) : Statement :=
  ⟨ascii "select username, password_hash, salt from users where email='%s'",
    [.string email]⟩

/-- The existence check of `registerUser`. -/
def registerUser (username email : Str) : Statement :=
  ⟨ascii "select id, username, email from users where username='%s' or email='%s' ",
    [.string username, .string email]⟩

def apiGetRoomHistoryTiered (roomId : Str) (neededCount : Int) : Statement :=
  ⟨ascii "SELECT id, room_id, user_id, content, timestamp, redis_id FROM messages " ++
      ascii "WHERE room_id='%s' ORDER BY timestamp DESC LIMIT %d",
    [.string roomId, .int neededCount]⟩

end Statement

/-- What one queued message puts into a row of `messages`. -/
structure PersistRow where
  redisId : Str
  roomId : Str
  userId : Str
  content : Str
  timestamp : Nat
  deriving DecidableEq

namespace PersistRow

/-- The row of the batch insert. -/
def statement (row : PersistRow) : Statement :=
  ⟨ascii "('%s', '%s', '%s', '%s', %lu)",
    [.string row.redisId, .string row.roomId, .string row.userId,
      .string row.content, .unsignedLong row.timestamp]⟩

end PersistRow

/-- The head of the batch insert. -/
def insertHead : Str :=
  ascii "INSERT INTO messages (redis_id, room_id, user_id, content, timestamp) VALUES "

/-- The loop of `ApiBatchPersistMessages`, with its flag `first`. -/
def appendRows (sql : Str) (first : Bool) : List PersistRow → Option Str
  | [] => some sql
  | row :: rows =>
      match row.statement.text with
      | none => none
      | some text =>
          appendRows (sql ++ (if first then [] else ascii ",") ++ text) false rows

/-- The statement `ApiBatchPersistMessages` executes. -/
def batchPersistSql (rows : List PersistRow) : Option Str :=
  appendRows insertHead true rows

/-- The tokens of the template of the batch insert. -/
def rowTokens (first : Bool) : List PersistRow → List Token
  | [] => []
  | row :: rows =>
      (if first then [] else lex (ascii ",")) ++ row.statement.tokens ++
        rowTokens false rows

/-! ## The lookups -/

theorem getUserIdByUsername_splices {username : Str}
    (noNul : Byte.nul ∉ username) :
    Splices (.getUserIdByUsername username)
      (ascii "select id from users where username=") [(username, [])] := by
  apply Splices.only _ rfl noNul
  · decide +kernel
  · simp only [Statement.getUserIdByUsername]
    decide +kernel

theorem getUsernameByEmail_splices {email : Str} (noNul : Byte.nul ∉ email) :
    Splices (.getUsernameByEmail email)
      (ascii "select username from users where email=") [(email, [])] := by
  apply Splices.only _ rfl noNul
  · decide +kernel
  · simp only [Statement.getUsernameByEmail]
    decide +kernel

theorem getUsernameAndUseridByEmail_splices {email : Str}
    (noNul : Byte.nul ∉ email) :
    Splices (.getUsernameAndUseridByEmail email)
      (ascii "select id, username from users where email=")
      [(email, [])] := by
  apply Splices.only _ rfl noNul
  · decide +kernel
  · simp only [Statement.getUsernameAndUseridByEmail]
    decide +kernel

theorem apiGetUserInfoById_splices {userid : Str} (noNul : Byte.nul ∉ userid) :
    Splices (.apiGetUserInfoById userid)
      (ascii "select * from user where id=") [(userid, [])] := by
  apply Splices.only _ rfl noNul
  · decide +kernel
  · simp only [Statement.apiGetUserInfoById]
    decide +kernel

theorem verifyUserPassword_splices {email : Str} (noNul : Byte.nul ∉ email) :
    Splices (.verifyUserPassword email)
      (ascii "select username, password_hash, salt from users where email=")
      [(email, [])] := by
  apply Splices.only _ rfl noNul
  · decide +kernel
  · simp only [Statement.verifyUserPassword]
    decide +kernel

theorem registerUser_splices {username email : Str}
    (usernameNoNul : Byte.nul ∉ username) (emailNoNul : Byte.nul ∉ email) :
    Splices (.registerUser username email)
      (ascii "select id, username, email from users where username=")
      [(username, ascii " or email="), (email, ascii " ")] := by
  have rest : ascii " or email='%s' " =
      ascii " or email=" ++ ascii "'%s'" ++ ascii " " := by
    decide +kernel
  have second : Splices ⟨ascii " or email='%s' ", [.string email]⟩
      (ascii " or email=") [(email, ascii " ")] := by
    apply Splices.literal rest rfl emailNoNul
    · decide +kernel
    · decide +kernel
    · decide +kernel
    · intro nonempty
      exact absurd rfl nonempty
    · exact Splices.last rfl rfl
  apply Splices.literal _ rfl usernameNoNul _ _ _ _ second
  · simp only [Statement.registerUser]
    decide +kernel
  · decide +kernel
  · decide +kernel
  · decide +kernel
  · intro _
    decide +kernel

theorem run_decimal (number : Nat) :
    run .plain (decimal number) = ([], .word (decimal number)) := by
  apply run_digits (decimal_ne_nil number)
  intro byte member
  simpa [Byte.isDigit] using isDigit_of_mem_decimal member

theorem lex_decimal (number : Nat) :
    lex (decimal number) = [.word (decimal number)] := by
  have whole := lexFrom_append .plain (decimal number) []
  rw [List.append_nil, run_decimal] at whole
  exact whole

theorem apiGetRoomHistoryTiered_splices {roomId : Str}
    (noNul : Byte.nul ∉ roomId) (neededCount : Int) :
    Splices (.apiGetRoomHistoryTiered roomId neededCount)
      (ascii "SELECT id, room_id, user_id, content, timestamp, redis_id FROM messages WHERE room_id=")
      [(roomId,
        ascii " ORDER BY timestamp DESC LIMIT " ++ intText neededCount)] := by
  have starts : ∀ rest : Str,
      Ordinary (ascii " ORDER BY timestamp DESC LIMIT " ++ rest) := by
    intro rest byte first
    have isSpace : 32 = byte := Option.some.inj first
    subst isSpace
    decide +kernel
  have split : ascii " ORDER BY timestamp DESC LIMIT %d" =
      ascii " ORDER BY timestamp DESC LIMIT " ++ ascii "%d" := by
    decide +kernel
  have noPercent : Byte.percent ∉ ascii " ORDER BY timestamp DESC LIMIT " := by
    decide +kernel
  have ran : (run .plain (ascii " ORDER BY timestamp DESC LIMIT ")).2 =
      .plain := by
    decide +kernel
  have fixed : (lex (ascii " ORDER BY timestamp DESC LIMIT ")).all isFixed =
      true := by
    decide +kernel
  have last : Splices
      ⟨ascii " ORDER BY timestamp DESC LIMIT %d", [.int neededCount]⟩
      (ascii " ORDER BY timestamp DESC LIMIT " ++ intText neededCount) [] := by
    rw [split]
    apply Splices.last
    · have conversion : formatString (ascii "%d") [.int neededCount] =
          some (intText neededCount ++ []) := rfl
      rw [formatString_append noPercent, conversion, List.append_nil]
      rfl
    · have conversion : fillSlots (lex (ascii "%d")) [.int neededCount] =
          lex (intText neededCount) ++ [] := rfl
      rw [lex_append_of_plain ran, lex_append_of_plain ran,
        fillSlots_append fixed, conversion, List.append_nil]
  apply Splices.literal _ rfl noNul _ _ _ _ last
  · simp only [Statement.apiGetRoomHistoryTiered]
    decide +kernel
  · decide +kernel
  · rw [split]
    exact starts _
  · exact starts _
  · intro nonempty
    exact absurd rfl nonempty

/-! ## The batch insert -/

/-- The slots of one row. -/
def rowSlots (row : PersistRow) (behind : Str) : List (Str × Str) :=
  [(row.redisId, ascii ", "), (row.roomId, ascii ", "),
    (row.userId, ascii ", "),
    (row.content, ascii ", " ++ decimal row.timestamp ++ ascii ")" ++ behind)]

def batchSlots : List PersistRow → List (Str × Str)
  | [] => []
  | row :: rows =>
      rowSlots row (if rows = [] then [] else ascii ",(") ++ batchSlots rows

/-- No value of the row holds a NUL. -/
def PersistRow.NulFree (row : PersistRow) : Prop :=
  ∀ slot ∈ rowSlots row [], Byte.nul ∉ slot.1

theorem run_number (number : Nat) (behind : Str) :
    run .plain (ascii ", " ++ decimal number ++ ascii ")" ++ behind) =
      ([.symbol 44, .word (decimal number), .symbol 41] ++
        (run .plain behind).1, (run .plain behind).2) := by
  have comma : run .plain (ascii ", ") = ([.symbol 44], .plain) := by
    decide +kernel
  have closing : run (.word (decimal number)) (ascii ")") =
      ([.word (decimal number), .symbol 41], .plain) := rfl
  rw [run_append, run_append, run_append, comma, run_decimal, closing]
  simp

theorem lex_number (number : Nat) (behind : Str) :
    lex (ascii ", " ++ decimal number ++ ascii ")" ++ behind) =
      [.symbol 44, .word (decimal number), .symbol 41] ++ lex behind := by
  have ran := run_number number []
  rw [List.append_nil] at ran
  have plain : (run .plain
      (ascii ", " ++ decimal number ++ ascii ")")).2 = .plain := by
    rw [ran]
    rfl
  have whole := lexFrom_append .plain
    (ascii ", " ++ decimal number ++ ascii ")") []
  rw [List.append_nil, ran] at whole
  rw [lex_append_of_plain plain]
  exact congrArg (· ++ lex behind) whole

theorem ordinary_number (number : Nat) (behind : Str) :
    Ordinary (ascii ", " ++ decimal number ++ ascii ")" ++ behind) := by
  intro byte first
  have isComma : 44 = byte := Option.some.inj first
  subst isComma
  decide +kernel

/-- The tokens of a row behind its opening bracket. -/
def rowBody (row : PersistRow) : List Token :=
  [.string row.redisId, .symbol 44, .string row.roomId, .symbol 44,
    .string row.userId, .symbol 44, .string row.content, .symbol 44,
    .word (decimal row.timestamp), .symbol 41]

theorem ordinary_comma : Ordinary (ascii ", ") := by decide +kernel

/-- A quoted column behind a comma. -/
theorem Splices.column {format rest value behind : Str}
    {arguments : List FormatArgument} {slots : List (Str × Str)}
    (split : format = ascii ", " ++ ascii "'%s'" ++ rest)
    (noNul : Byte.nul ∉ value) (ordinaryRest : Ordinary rest)
    (ordinary : Ordinary behind) (nonempty : slots ≠ [] → behind ≠ [])
    (splices : Splices ⟨rest, arguments⟩ behind slots) :
    Splices ⟨format, .string value :: arguments⟩ (ascii ", ")
      ((value, behind) :: slots) := by
  apply Splices.literal split rfl noNul _ ordinaryRest ordinary nonempty splices
  decide +kernel

theorem statement_splices {row : PersistRow} (noNul : row.NulFree) :
    Splices row.statement (ascii "(") (rowSlots row []) := by
  simp only [PersistRow.NulFree, rowSlots, List.forall_mem_cons] at noNul
  obtain ⟨redisId, roomId, userId, content, -⟩ := noNul
  have number : Splices ⟨ascii ", %lu)", [.unsignedLong row.timestamp]⟩
      (ascii ", " ++ decimal row.timestamp ++ ascii ")" ++ []) [] := by
    apply Splices.last
    · have noPercent : Byte.percent ∉ ascii ", " := by decide +kernel
      have conversion : formatString (ascii "%lu)")
          [.unsignedLong row.timestamp] =
            some (decimal row.timestamp ++ ascii ")") := rfl
      have whole := formatString_append noPercent (ascii "%lu)")
        [.unsignedLong row.timestamp]
      rw [conversion] at whole
      rw [List.append_assoc, List.append_nil]
      exact whole
    · rw [lex_number]
      have conversion : fillSlots (lex (ascii ", %lu)"))
          [.unsignedLong row.timestamp] =
            .symbol 44 :: (lex (decimal row.timestamp) ++ [.symbol 41]) := rfl
      rw [conversion, lex_decimal]
      rfl
  have fourth : Splices ⟨ascii ", '%s', %lu)",
      [.string row.content, .unsignedLong row.timestamp]⟩ (ascii ", ")
      [(row.content, ascii ", " ++ decimal row.timestamp ++ ascii ")" ++ [])] := by
    apply Splices.column _ content _ (ordinary_number _ _) _ number
    · decide +kernel
    · decide +kernel
    · intro nonempty
      exact absurd rfl nonempty
  have third : Splices ⟨ascii ", '%s', '%s', %lu)", [.string row.userId,
      .string row.content, .unsignedLong row.timestamp]⟩ (ascii ", ")
      ((rowSlots row []).drop 2) := by
    apply Splices.column _ userId _ ordinary_comma _ fourth
    · decide +kernel
    · decide +kernel
    · intro _
      decide +kernel
  have second : Splices ⟨ascii ", '%s', '%s', '%s', %lu)", [.string row.roomId,
      .string row.userId, .string row.content,
      .unsignedLong row.timestamp]⟩ (ascii ", ") ((rowSlots row []).drop 1) := by
    apply Splices.column _ roomId _ ordinary_comma _ third
    · decide +kernel
    · decide +kernel
    · intro _
      decide +kernel
  apply Splices.literal _ rfl redisId _ _ ordinary_comma _ second
  · simp only [PersistRow.statement]
    decide +kernel
  · decide +kernel
  · decide +kernel
  · intro _
    decide +kernel

/-- The text of a row behind its opening bracket. -/
theorem spliced_rowSlots (front : Str) (row : PersistRow) (behind : Str)
    (slots : List (Str × Str)) :
    spliced front (rowSlots row behind ++ slots) =
      spliced front (rowSlots row []) ++ spliced behind slots := by
  simp [rowSlots, spliced, spliced_append]

theorem appendRows_eq {rows : List PersistRow} {row : PersistRow}
    (noNul : ∀ other ∈ row :: rows, other.NulFree) (sql : Str) (first : Bool) :
    appendRows sql first (row :: rows) =
      some (spliced (sql ++ (if first then [] else ascii ",") ++ ascii "(")
        (batchSlots (row :: rows))) := by
  induction rows generalizing row sql first with
  | nil =>
      have text := (statement_splices (noNul row (by simp))).text
      simp only [appendRows, text, batchSlots, if_true, List.append_nil,
        spliced_append _ (ascii "(")]
  | cons next rows induction =>
      have text := (statement_splices (noNul row (by simp))).text
      have later := @induction next (fun other member =>
        noNul other (List.mem_cons_of_mem _ member))
      have separator : batchSlots (row :: next :: rows) =
          rowSlots row (ascii "," ++ ascii "(") ++ batchSlots (next :: rows) :=
        rfl
      rw [separator, spliced_rowSlots, spliced_append _ (ascii "("),
        appendRows, text]
      simp only [later, Bool.false_eq_true, if_false, spliced_append,
        List.append_assoc]

theorem splicedTokens_rowSlots (front : Str) (row : PersistRow) (behind : Str)
    (slots : List (Str × Str)) :
    splicedTokens front (rowSlots row behind ++ slots) =
      lex front ++ (rowBody row).dropLast.dropLast.dropLast ++
        splicedTokens (ascii ", " ++ decimal row.timestamp ++ ascii ")" ++ behind)
          slots := by
  have comma : lex (ascii ", ") = [.symbol 44] := by decide +kernel
  simp [rowSlots, splicedTokens, rowBody, comma]

theorem lex_comma : lex (ascii ",") = [.symbol 44] := by decide +kernel

theorem lex_open : lex (ascii "(") = [.symbol 40] := by decide +kernel

theorem statement_tokens {row : PersistRow} (noNul : row.NulFree) :
    row.statement.tokens = .symbol 40 :: rowBody row := by
  have tokens := splicedTokens_rowSlots (ascii "(") row [] []
  rw [List.append_nil] at tokens
  rw [(statement_splices noNul).tokens, tokens, splicedTokens, lex_number,
    lex_open]
  simp [rowBody, lex, lexFrom, finish]

theorem splicedTokens_batchSlots {rows : List PersistRow} {row : PersistRow}
    (noNul : ∀ other ∈ row :: rows, other.NulFree) (front : Str) :
    splicedTokens front (batchSlots (row :: rows)) =
      lex front ++ rowBody row ++ rowTokens false rows := by
  induction rows generalizing row front with
  | nil =>
      rw [batchSlots, splicedTokens_rowSlots, batchSlots, splicedTokens,
        lex_number]
      simp [rowBody, rowTokens, lex, lexFrom, finish]
  | cons next rows induction =>
      have later := @induction next (fun other member =>
        noNul other (List.mem_cons_of_mem _ member))
      have tokens := statement_tokens (noNul next (by simp))
      have separator : lex (ascii ",(") = [.symbol 44, .symbol 40] := by decide +kernel
      rw [batchSlots, if_neg (List.cons_ne_nil _ _), splicedTokens_rowSlots,
        later, lex_number, separator, rowTokens, tokens, lex_comma]
      simp [rowBody]

theorem separated_batchSlots (rows : List PersistRow) :
    Separated (batchSlots rows) := by
  have comma : Separates (ascii ", ") :=
    ⟨by decide, by decide +kernel, closed_of_run (by decide +kernel)⟩
  induction rows with
  | nil => trivial
  | cons row rows induction =>
      refine ⟨comma, comma, comma, ?_⟩
      cases rows with
      | nil => exact ordinary_number row.timestamp []
      | cons next rows =>
          refine ⟨⟨by simp [ascii], ordinary_number _ _, ?_⟩, induction⟩
          apply closed_of_run
          rw [if_neg (List.cons_ne_nil _ _), run_number]
          rfl

/-! ## Every statement -/

/-- The statements the API builds with `FormatString`. -/
inductive Query where
  | getUserIdByUsername (username : Str)
  | getUsernameByEmail (email : Str)
  | getUsernameAndUseridByEmail (email : Str)
  | apiGetUserInfoById (userid : Str)
  | verifyUserPassword (email : Str)
  | registerUser (username email : Str)
  | apiGetRoomHistoryTiered (roomId : Str) (neededCount : Int)
  | apiBatchPersistMessages (rows : List PersistRow)

namespace Query

/-- The text handed to MySQL. -/
def text : Query → Option Str
  | getUserIdByUsername username =>
      (Statement.getUserIdByUsername username).text
  | getUsernameByEmail email => (Statement.getUsernameByEmail email).text
  | getUsernameAndUseridByEmail email =>
      (Statement.getUsernameAndUseridByEmail email).text
  | apiGetUserInfoById userid => (Statement.apiGetUserInfoById userid).text
  | verifyUserPassword email => (Statement.verifyUserPassword email).text
  | registerUser username email => (Statement.registerUser username email).text
  | apiGetRoomHistoryTiered roomId neededCount =>
      (Statement.apiGetRoomHistoryTiered roomId neededCount).text
  | apiBatchPersistMessages rows => batchPersistSql rows

/-- The tokens of its template. -/
def tokens : Query → List Token
  | getUserIdByUsername username =>
      (Statement.getUserIdByUsername username).tokens
  | getUsernameByEmail email => (Statement.getUsernameByEmail email).tokens
  | getUsernameAndUseridByEmail email =>
      (Statement.getUsernameAndUseridByEmail email).tokens
  | apiGetUserInfoById userid => (Statement.apiGetUserInfoById userid).tokens
  | verifyUserPassword email => (Statement.verifyUserPassword email).tokens
  | registerUser username email =>
      (Statement.registerUser username email).tokens
  | apiGetRoomHistoryTiered roomId neededCount =>
      (Statement.apiGetRoomHistoryTiered roomId neededCount).tokens
  | apiBatchPersistMessages rows => lex insertHead ++ rowTokens true rows

/-- The user data in it. -/
def values : Query → List Str
  | getUserIdByUsername username => [username]
  | getUsernameByEmail email => [email]
  | getUsernameAndUseridByEmail email => [email]
  | apiGetUserInfoById userid => [userid]
  | verifyUserPassword email => [email]
  | registerUser username email => [username, email]
  | apiGetRoomHistoryTiered roomId _ => [roomId]
  | apiBatchPersistMessages rows =>
      rows.flatMap fun row =>
        [row.redisId, row.roomId, row.userId, row.content]

end Query

/-- The rows behind `VALUES`, as MySQL reads them. -/
def parseRows : List Token → Option (List PersistRow)
  | .symbol 40 :: .string redisId :: .symbol 44 :: .string roomId ::
      .symbol 44 :: .string userId :: .symbol 44 :: .string content ::
      .symbol 44 :: .word timestamp :: .symbol 41 :: rest => do
      let value ← parseDecimal timestamp
      let rows ←
        match rest with
        | [] => some []
        | .symbol 44 :: more => parseRows more
        | _ => none
      return ⟨redisId, roomId, userId, content, value⟩ :: rows
  | _ => none

/-- The rows a batch insert adds; `none` for a text of another form. -/
def insertedRows (sql : Str) : Option (List PersistRow) :=
  if (lex insertHead).isPrefixOf (lex sql) then
    parseRows ((lex sql).drop (lex insertHead).length)
  else none

/-- User data does not change the structure of the statement: its tokens are
those of the template, and every queued message becomes one row of its own. -/
def Query.Intact (query : Query) : Prop :=
  ∃ sql, query.text = some sql ∧ lex sql = query.tokens ∧
    match query with
    | .apiBatchPersistMessages rows => rows = [] ∨ insertedRows sql = some rows
    | _ => True

theorem parseRows_rowBody {rows : List PersistRow} {row : PersistRow}
    (noNul : ∀ other ∈ rows, other.NulFree) :
    parseRows (.symbol 40 :: (rowBody row ++ rowTokens false rows)) =
      some (row :: rows) := by
  induction rows generalizing row with
  | nil => simp [rowBody, rowTokens, parseRows, parseDecimal_decimal]
  | cons next rows induction =>
      have tokens := statement_tokens (noNul next (by simp))
      have later := @induction next fun other member =>
        noNul other (List.mem_cons_of_mem _ member)
      rw [rowTokens, tokens, lex_comma]
      simp only [Bool.false_eq_true, if_false, List.cons_append,
        List.nil_append]
      simp only [rowBody, List.cons_append, List.nil_append] at later ⊢
      simp [parseRows, parseDecimal_decimal, later]

theorem Splices.intact_iff {statement : Statement} {front : Str}
    {slots : List (Str × Str)} (splices : Splices statement front slots) :
    (∃ sql, statement.text = some sql ∧ lex sql = statement.tokens) ↔
      ∀ slot ∈ slots, isPlain slot.1 = true := by
  rw [splices.text, splices.tokens,
    ← lex_spliced_iff splices.closed splices.separated]
  simp

/-- A lookup with one slot. -/
theorem Splices.intact_single_iff {statement : Statement}
    {front value behind : Str}
    (splices : Splices statement front [(value, behind)]) :
    (∃ sql, statement.text = some sql ∧ lex sql = statement.tokens ∧ True) ↔
      ∀ other ∈ [value], isPlain other = true := by
  have intact := splices.intact_iff
  simpa using intact

theorem batch_text {rows : List PersistRow} {row : PersistRow}
    (noNul : ∀ other ∈ row :: rows, other.NulFree) :
    batchPersistSql (row :: rows) =
      some (spliced (insertHead ++ ascii "(") (batchSlots (row :: rows))) := by
  rw [batchPersistSql, appendRows_eq noNul]
  simp

theorem lex_insertHead (rest : Str) :
    lex (insertHead ++ rest) = lex insertHead ++ lex rest := by
  apply lex_append_of_plain
  decide +kernel

theorem batch_tokens {rows : List PersistRow} {row : PersistRow}
    (noNul : ∀ other ∈ row :: rows, other.NulFree) :
    splicedTokens (insertHead ++ ascii "(") (batchSlots (row :: rows)) =
      lex insertHead ++ rowTokens true (row :: rows) := by
  rw [splicedTokens_batchSlots noNul, rowTokens,
    statement_tokens (noNul row (by simp)), lex_insertHead, lex_open]
  simp

theorem batch_lex_iff {rows : List PersistRow} {row : PersistRow}
    (noNul : ∀ other ∈ row :: rows, other.NulFree) :
    (∃ sql, batchPersistSql (row :: rows) = some sql ∧
      lex sql = lex insertHead ++ rowTokens true (row :: rows)) ↔
    ∀ slot ∈ batchSlots (row :: rows), isPlain slot.1 = true := by
  have closed : Closed (insertHead ++ ascii "(") := by
    apply closed_of_run
    decide +kernel
  rw [batch_text noNul, ← batch_tokens noNul,
    ← lex_spliced_iff (fun _ => closed) (separated_batchSlots (row :: rows))]
  simp

/-- The rows of an intact batch insert are the queued messages. -/
theorem insertedRows_eq {rows : List PersistRow} {row : PersistRow} {sql : Str}
    (noNul : ∀ other ∈ row :: rows, other.NulFree)
    (tokens : lex sql = lex insertHead ++ rowTokens true (row :: rows)) :
    insertedRows sql = some (row :: rows) := by
  have isPrefix : (lex insertHead).isPrefixOf (lex sql) = true := by
    rw [tokens]
    exact List.isPrefixOf_iff_prefix.mpr (List.prefix_append _ _)
  rw [insertedRows, if_pos isPrefix, tokens, List.drop_left, rowTokens,
    statement_tokens (noNul row (by simp))]
  apply parseRows_rowBody
  intro other member
  exact noNul other (List.mem_cons_of_mem _ member)

theorem forall_mem_batchSlots_iff (rows : List PersistRow)
    (holds : Str → Prop) :
    (∀ slot ∈ batchSlots rows, holds slot.1) ↔
      ∀ value ∈ (Query.apiBatchPersistMessages rows).values, holds value := by
  induction rows with
  | nil => simp [batchSlots, Query.values]
  | cons row rows induction =>
      simp only [Query.values] at induction
      simp only [batchSlots, Query.values, List.flatMap_cons,
        List.forall_mem_append, induction]
      simp [rowSlots]

/-- Every statement keeps its structure exactly when all user data in it is
plain. -/
theorem statements_intact_iff (query : Query)
    (noNul : ∀ value ∈ query.values, Byte.nul ∉ value) :
    query.Intact ↔ ∀ value ∈ query.values, isPlain value = true := by
  cases query with
  | getUserIdByUsername username =>
      exact (getUserIdByUsername_splices
        (noNul username (by simp [Query.values]))).intact_single_iff
  | getUsernameByEmail email =>
      exact (getUsernameByEmail_splices
        (noNul email (by simp [Query.values]))).intact_single_iff
  | getUsernameAndUseridByEmail email =>
      exact (getUsernameAndUseridByEmail_splices
        (noNul email (by simp [Query.values]))).intact_single_iff
  | apiGetUserInfoById userid =>
      exact (apiGetUserInfoById_splices
        (noNul userid (by simp [Query.values]))).intact_single_iff
  | verifyUserPassword email =>
      exact (verifyUserPassword_splices
        (noNul email (by simp [Query.values]))).intact_single_iff
  | registerUser username email =>
      have intact := (registerUser_splices
        (noNul username (by simp [Query.values]))
        (noNul email (by simp [Query.values]))).intact_iff
      simpa [Query.Intact, Query.text, Query.tokens, Query.values] using intact
  | apiGetRoomHistoryTiered roomId neededCount =>
      exact (apiGetRoomHistoryTiered_splices
        (noNul roomId (by simp [Query.values])) neededCount).intact_single_iff
  | apiBatchPersistMessages rows =>
      have nulFree : ∀ row ∈ rows, row.NulFree := by
        intro row member slot inside
        apply noNul slot.1
        refine List.mem_flatMap.mpr ⟨row, member, ?_⟩
        simp only [rowSlots, List.mem_cons, List.not_mem_nil,
          or_false] at inside
        rcases inside with rfl | rfl | rfl | rfl <;> simp
      cases rows with
      | nil =>
          constructor
          · intro _ value member
            cases member
          · intro _
            exact ⟨insertHead, rfl, (List.append_nil _).symm, .inl rfl⟩
      | cons row rows =>
          rw [← forall_mem_batchSlots_iff (row :: rows)
            fun value => isPlain value = true, ← batch_lex_iff nulFree]
          constructor
          · intro intact
            obtain ⟨sql, text, tokens, -⟩ := intact
            exact ⟨sql, text, tokens⟩
          · intro lexes
            obtain ⟨sql, text, tokens⟩ := lexes
            exact ⟨sql, text, tokens, .inr (insertedRows_eq nulFree tokens)⟩

/-- A login with an ordinary address. -/
theorem statements_intact_of_address :
    (Query.verifyUserPassword (ascii "amy@example.com")).Intact := by
  apply (statements_intact_iff _ _).mpr
  · decide +kernel
  · decide +kernel

/-- One message with an apostrophe breaks the statement of its whole batch. -/
theorem apostrophe_breaks_batch :
    ¬ (Query.apiBatchPersistMessages
      [⟨ascii "1-0", ascii "0001", ascii "7", ascii "hello", 1⟩,
        ⟨ascii "2-0", ascii "0001", ascii "8", ascii "it's me", 2⟩]).Intact := by
  intro intact
  obtain ⟨sql, text, tokens, -⟩ := intact
  have plain := (batch_lex_iff (by
    simp only [PersistRow.NulFree]
    decide +kernel)).mp ⟨sql, text, tokens⟩
  revert plain
  decide +kernel

end Api

end ChatRoom
