import ChatRoom.Base.Bytes

/-!
# Results of MySQL queries

`CResultSet` over the rows of a query, and the MySQL server behind a
connection as the source sees it: the answer to a query, and the outcome of
the prepared insert into `users`.
-/

namespace ChatRoom

namespace Mysql

inductive Exception where
  | logicError
  | jsonError
  deriving DecidableEq

/-- A `std::string` from a `char *`: a null pointer throws. -/
def stdString : Option Str → Except Exception Str
  | some text => .ok text
  | none => .error .logicError

/-- The columns and rows of a result; `none` is an SQL NULL. -/
structure ResultSet where
  fields : List Str
  rows : List (List (Option Str))
  deriving DecidableEq

namespace ResultSet

/-- `_GetIndex`: of two columns with one name the map keeps the first. -/
def getIndex (result : ResultSet) (key : Str) : Option Nat :=
  result.fields.findIdx? (· = key)

/-- `GetString` on the current row.  The map is searched by a `std::string`
made from the key, which for the key `0` is a null pointer. -/
def getString (result : ResultSet) (row : List (Option Str))
    (key : Option Str) : Except Exception (Option Str) := do
  let key ← stdString key
  match result.getIndex key with
  | none => return none
  | some index => return (row[index]?).join

end ResultSet

/-- `GetInt` on a column that holds a number: `atoi` on its text, through a C
`long`. -/
def getInt (column : Int) : Int :=
  Int.bmod (max (-2 ^ 63) (min column (2 ^ 63 - 1))) (2 ^ 32)

/-- A row of `users`. -/
structure User where
  username : Str
  email : Str
  passwordHash : Str
  salt : Str
  deriving DecidableEq

structure Database where
  tables : List Str
  users : List User
  deriving DecidableEq

/-- How the prepared insert ends: `Init` fails, `ExecuteUpdate` fails, or the
row is added. -/
inductive Insert where
  | prepareFailed
  | refused
  | inserted

/-- The MySQL server: `none` for a query that fails or has no result. -/
structure Server where
  query : Database → Str → Option ResultSet
  insertUser : Database → User → Insert

/-- `SHOW TABLES` answers with one column that holds the names of the
tables. -/
def Server.ShowsTables (server : Server) : Prop :=
  ∀ database, ∃ field, server.query database (ascii "SHOW TABLES") =
    some ⟨[field], database.tables.map fun table => [some table]⟩

end Mysql

end ChatRoom
