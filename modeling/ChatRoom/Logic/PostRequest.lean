import ChatRoom.Api.FormatString
import ChatRoom.Base.Search
import ChatRoom.Logic.Send
import ChatRoom.Service.Forwarding

/-!
# From `AsyncPost` to `parseHttpRequest`

`HttpClient::AsyncPost` writes a request, and the parser of Logic searches it
for two blanks and an empty line.  As long as host and path have no blank and
no line end, it finds the ones that were meant, whatever the body holds.
-/

namespace ChatRoom

namespace Logic

open Api (intText)
open Forwarding (HttpClient)
open Connection (untilCrlf)

/-- A text without a blank, a carriage return and a line feed. -/
def HeaderText : Type :=
  { text : Str //
    Byte.space ∉ text ∧ Byte.cr ∉ text ∧ Byte.lf ∉ text }

/-- The text that `AsyncPost` writes; the port is an `int`. -/
def asyncPostText (host : Str) (port : Int) (path jsonBody : Str) : Str :=
  ascii "POST " ++ path ++ ascii " HTTP/1.1\r\n" ++
    ascii "Host: " ++ host ++ ascii ":" ++ intText port ++ ascii "\r\n" ++
    ascii "Content-Type: application/json\r\n" ++
    ascii "Content-Length: " ++ decimal jsonBody.length ++ ascii "\r\n" ++
    ascii "Connection: close\r\n" ++ ascii "\r\n" ++ jsonBody

theorem asyncPostText_ofNat (host : Str) (port : Nat) (path jsonBody : Str) :
    asyncPostText host port path jsonBody =
      HttpClient.postRequest host port path jsonBody := by
  have portText : intText (port : Int) = decimal port := by
    rw [intText, if_neg (by omega), Int.natAbs_natCast]
  rw [asyncPostText, portText]
  rfl

/-- The number in the `Content-Length` line of the head of a request. -/
def contentLength (request : Str) : Option Nat := do
  let (head, _) ← splitFirst [Byte.cr, Byte.lf, Byte.cr, Byte.lf] request
  let (_, behind) ← splitFirst (ascii "\r\nContent-Length: ") head
  parseDecimal (untilCrlf behind)

/-! ## The head -/

section Head

variable (host path : HeaderText) (port : Int) (jsonBody : Str)

def requestLine : Str := ascii "POST " ++ path.1 ++ ascii " HTTP/1.1"

def hostLine : Str :=
  ascii "Host: " ++ host.1 ++ ascii ":" ++ intText port

def lengthLine : Str := ascii "Content-Length: " ++ decimal jsonBody.length

/-- The lines of the head in front of the last one. -/
def headLines : List Str :=
  [requestLine path, hostLine host port, ascii "Content-Type: application/json",
    lengthLine jsonBody]

/-- What stands behind the second blank. -/
def behindPath : Str :=
  ascii "HTTP/1.1" ++ Byte.cr :: Byte.lf ::
    (crlfLines (headLines host path port jsonBody).tail ++
      (ascii "Connection: close" ++
        ([Byte.cr, Byte.lf, Byte.cr, Byte.lf] ++ jsonBody)))

theorem asyncPostText_eq :
    asyncPostText host.1 port path.1 jsonBody =
      crlfLines (headLines host path port jsonBody) ++
        (ascii "Connection: close" ++
          ([Byte.cr, Byte.lf, Byte.cr, Byte.lf] ++ jsonBody)) := by
  have version : ascii " HTTP/1.1\r\n" =
      ascii " HTTP/1.1" ++ [Byte.cr, Byte.lf] := by rfl
  have type : ascii "Content-Type: application/json\r\n" =
      ascii "Content-Type: application/json" ++ [Byte.cr, Byte.lf] := by rfl
  have close : ascii "Connection: close\r\n" =
      ascii "Connection: close" ++ [Byte.cr, Byte.lf] := by rfl
  have crlf : ascii "\r\n" = [Byte.cr, Byte.lf] := by rfl
  rw [asyncPostText, version, type, close, crlf]
  simp only [crlfLines, headLines, requestLine, hostLine, lengthLine,
    List.flatMap_cons, List.flatMap_nil, List.append_assoc, List.append_nil,
    List.nil_append, List.cons_append]

theorem not_mem_intText {byte : UInt8} (notDigit : Byte.isDigit byte = false)
    (notDash : byte ≠ 45) (value : Int) : byte ∉ intText value := by
  have dash : ascii "-" = [45] := by rfl
  have noDigits := not_mem_decimal notDigit value.natAbs
  unfold intText
  split
  · rw [dash, List.mem_append, List.mem_singleton]
    exact not_or.mpr ⟨notDash, noDigits⟩
  · exact noDigits

/-- No line of the head is empty, and none has a carriage return. -/
theorem headLines_clean :
    ∀ line ∈ headLines host path port jsonBody,
      Byte.cr ∉ line ∧ line ≠ [] := by
  have noPort : Byte.cr ∉ intText port := not_mem_intText rfl (by decide) port
  have noLength : Byte.cr ∉ decimal jsonBody.length := not_mem_decimal rfl _
  intro line member
  simp only [headLines, List.mem_cons, List.not_mem_nil, or_false] at member
  rcases member with rfl | rfl | rfl | rfl
  · refine ⟨?_, List.cons_ne_nil _ _⟩
    simp only [requestLine, List.mem_append, not_or]
    exact ⟨⟨by decide, path.2.2.1⟩, by decide⟩
  · refine ⟨?_, List.cons_ne_nil _ _⟩
    simp only [hostLine, List.mem_append, not_or]
    exact ⟨⟨⟨by decide, host.2.2.1⟩, by decide⟩, noPort⟩
  · exact ⟨by decide, List.cons_ne_nil _ _⟩
  · refine ⟨?_, List.cons_ne_nil _ _⟩
    simp only [lengthLine, List.mem_append, not_or]
    exact ⟨by decide, noLength⟩

theorem splitFirst_asyncPostText :
    splitFirst [Byte.cr, Byte.lf, Byte.cr, Byte.lf]
      (asyncPostText host.1 port path.1 jsonBody) =
      some (crlfLines (headLines host path port jsonBody) ++
        ascii "Connection: close", jsonBody) := by
  rw [asyncPostText_eq]
  exact splitFirst_blankLine (headLines_clean host path port jsonBody)
    (by decide) (List.cons_ne_nil _ _) jsonBody

/-- The first two blanks stand around the path. -/
theorem parseHttpRequest_asyncPostText :
    parseHttpRequest (asyncPostText host.1 port path.1 jsonBody) =
      some (ascii "POST", path.1, jsonBody) := by
  have start : ascii "POST " = ascii "POST" ++ [Byte.space] := by rfl
  have version : ascii " HTTP/1.1" = Byte.space :: ascii "HTTP/1.1" := by rfl
  have text : asyncPostText host.1 port path.1 jsonBody =
      ascii "POST" ++ Byte.space :: (path.1 ++ Byte.space ::
        behindPath host path port jsonBody) := by
    rw [asyncPostText_eq, headLines, crlfLines, List.flatMap_cons, requestLine,
      start, version]
    simp only [behindPath, crlfLines, headLines, List.tail_cons,
      List.append_assoc, List.cons_append,
      List.nil_append]
  have method : splitFirst [Byte.space]
      (asyncPostText host.1 port path.1 jsonBody) =
      some (ascii "POST", path.1 ++ Byte.space ::
        behindPath host path port jsonBody) := by
    rw [text]
    exact splitFirst_byte (by decide) _
  have isPath := splitFirst_byte path.2.1 (behindPath host path port jsonBody)
  have body := splitFirst_asyncPostText host path port jsonBody
  simp only [parseHttpRequest, method, isPath, body, Option.bind_eq_bind,
    Option.bind_some]

/-- The head, with the line that gives the length taken apart. -/
theorem head_eq :
    crlfLines (headLines host path port jsonBody) ++ ascii "Connection: close" =
      requestLine path ++ Byte.cr :: Byte.lf :: (hostLine host port ++
        Byte.cr :: Byte.lf :: (ascii "Content-Type: application/json" ++
          Byte.cr :: Byte.lf :: (ascii "Content-Length: " ++
            (decimal jsonBody.length ++ ([Byte.cr, Byte.lf] ++
              ascii "Connection: close"))))) := by
  simp only [crlfLines, headLines, lengthLine, List.flatMap_cons,
    List.flatMap_nil, List.append_assoc, List.append_nil, List.nil_append,
    List.cons_append]

theorem contentLength_asyncPostText :
    contentLength (asyncPostText host.1 port path.1 jsonBody) =
      some jsonBody.length := by
  have pattern : ascii "\r\nContent-Length: " =
      Byte.cr :: Byte.lf :: ascii "Content-Length: " := by rfl
  have clean := headLines_clean host path port jsonBody
  have lineNoCr : Byte.cr ∉ requestLine path :=
    (clean _ List.mem_cons_self).1
  have hostNoCr : Byte.cr ∉ hostLine host port :=
    (clean _ (List.mem_cons_of_mem _ List.mem_cons_self)).1
  have notHost : ∀ rest, ¬ ascii "Content-Length: " <+:
      hostLine host port ++ rest := by
    intro rest
    rw [hostLine, List.append_assoc, List.append_assoc, List.append_assoc]
    exact not_prefix_append (by decide) (by decide) _
  have notType : ∀ rest, ¬ ascii "Content-Length: " <+:
      ascii "Content-Type: application/json" ++ rest := by
    intro rest
    exact not_prefix_append (by decide) (by decide) _
  have noLength : Byte.cr ∉ decimal jsonBody.length := not_mem_decimal rfl _
  have number : untilCrlf (decimal jsonBody.length ++ ([Byte.cr, Byte.lf] ++
      ascii "Connection: close")) = decimal jsonBody.length := by
    rw [untilCrlf, splitFirst_append_of_not_mem noLength,
      splitFirst_append_self (List.cons_ne_nil _ _)]
    simp
  simp only [contentLength, splitFirst_asyncPostText, head_eq, pattern,
    Option.bind_eq_bind, Option.bind_some,
    splitFirst_lineStart_skip lineNoCr (notHost _),
    splitFirst_lineStart_skip hostNoCr (notType _),
    splitFirst_lineStart (by decide : Byte.cr ∉
      ascii "Content-Type: application/json"), Option.map_some, number,
    parseDecimal_decimal]

end Head

/-- The parser reads back what `AsyncPost` is given, for every body. -/
theorem asyncPost_parsed (host path : HeaderText) (port : Int)
    (jsonBody : Str) :
    parseHttpRequest (asyncPostText host.1 port path.1 jsonBody) =
        some (ascii "POST", path.1, jsonBody) ∧
      contentLength (asyncPostText host.1 port path.1 jsonBody) =
        some jsonBody.length := by
  constructor
  · exact parseHttpRequest_asyncPostText host path port jsonBody
  · exact contentLength_asyncPostText host path port jsonBody

end Logic

end ChatRoom
