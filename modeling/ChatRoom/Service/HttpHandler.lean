import ChatRoom.Base.Bytes

/-!
# Protocol detection

`HttpHandler` looks at the first read of a connection to tell a WebSocket
upgrade from plain HTTP.  An out-of-range `substr` throws, which is `none`.
-/

namespace ChatRoom

namespace HttpHandler

inductive RequestType where
  | unknown
  | http
  | webSocket
  deriving DecidableEq

/-- The lines `std::getline` gives: a last line without a line feed counts if
it is not empty.  `line` is the line read so far. -/
def linesFrom (line : Str) : Str → List Str
  | [] => if line = [] then [] else [line]
  | byte :: rest =>
      if byte = Byte.lf then line :: linesFrom [] rest
      else linesFrom (line ++ [byte]) rest

/-- One header line behind its colon: the blank and the final carriage return
are cut off by `substr(colon + 2, size - colon - 3)`. -/
def headerValue : Str → Option Str
  | [] => none
  | _ :: value => some value.dropLast

/-- The loop of `parseHttpHeaders` over the lines.  A later field of the same
name replaces an earlier one. -/
def headersFrom (headers : List (Str × Str)) :
    List Str → Option (List (Str × Str))
  | [] => some headers
  | line :: lines =>
      if line = [Byte.cr] then some headers
      else
        match splitFirst [Byte.colon] line with
        | none => headersFrom headers lines
        | some (key, behind) =>
            match headerValue behind with
            | none => none
            | some value => headersFrom ((key, value) :: headers) lines

/-- `parseHttpHeaders`. -/
def parseHttpHeaders (request : Str) : Option (List (Str × Str)) :=
  headersFrom [] (linesFrom [] request)

/-- `isWebSocketRequest`. -/
def isWebSocketRequest (headers : List (Str × Str)) : Bool :=
  match headers.lookup (ascii "Upgrade"), headers.lookup (ascii "Connection") with
  | some upgrade, some connection =>
      upgrade.map toLower = ascii "websocket" ∧
        (splitFirst (ascii "upgrade") (connection.map toLower)).isSome
  | _, _ => false

/-- The type `OnRead` gives a connection by its first read. -/
def classify (request : Str) : Option RequestType :=
  (parseHttpHeaders request).map fun headers =>
    if isWebSocketRequest headers then .webSocket else .http

/-- Lines that end in a carriage return are split without throwing. -/
theorem headersFrom_isSome {lines : List Str}
    (ended : ∀ line ∈ lines, line.getLast? = some Byte.cr)
    (headers : List (Str × Str)) : (headersFrom headers lines).isSome := by
  induction lines generalizing headers with
  | nil => rfl
  | cons line lines induction =>
      have later : ∀ other ∈ lines, other.getLast? = some Byte.cr := by
        intro other member
        exact ended other (List.mem_cons_of_mem _ member)
      rw [headersFrom]
      split
      · rfl
      · split
        · exact induction later headers
        · rename_i key behind found
          cases behind with
          | nil =>
              have last := ended line (by simp)
              rw [splitFirst_eq found, List.append_nil,
                List.getLast?_append] at last
              cases last
          | cons blank value => exact induction later _

/-- A request whose lines all end in CRLF is classified. -/
theorem classify_of_crlf {request : Str}
    (ended : ∀ line ∈ linesFrom [] request, line.getLast? = some Byte.cr) :
    classify request = some .webSocket ∨ classify request = some .http := by
  obtain ⟨headers, parsed⟩ := Option.isSome_iff_exists.mp
    (headersFrom_isSome ended [])
  rw [classify, parseHttpHeaders, parsed, Option.map_some]
  split
  · exact .inl rfl
  · exact .inr rfl

end HttpHandler

end ChatRoom
