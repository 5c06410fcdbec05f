import ChatRoom.Base.Search
import ChatRoom.Service.WebSocketConn

/-!
# Lines the header splitter cannot cut

`parseHttpHeaders` takes two bytes behind the first colon of a line for
granted.  A length that wraps below zero is harmless, since `substr` stops at
the end of the line; a position behind the end of the line throws.
-/

namespace ChatRoom

namespace HttpHandler

/-- `std::string::substr`: a position behind the end throws, a count that is
too large stops at the end. -/
def substr (text : Str) (position count : Nat) : Option Str :=
  if text.length < position then none
  else some ((text.drop position).take count)

/-- A line that ends right behind its first colon. -/
def BareColon (line : Str) : Prop :=
  ∃ key, line = key ++ [Byte.colon] ∧ Byte.colon ∉ key

/-- The lines of a request in front of the blank one, or all of them. -/
def headLines (data : Str) : List Str :=
  (linesFrom [] data).takeWhile fun line => line ≠ [Byte.cr]

/-- No line of the head ends right behind its first colon. -/
def Splittable (data : Str) : Prop :=
  ∀ line ∈ headLines data, ¬ BareColon line

/-- The value of a line is what `substr(colon + 2, size - colon - 3)` cuts
out, where the count is a `size_t`. -/
theorem headerValue_eq_substr {line key behind : Str}
    (found : splitFirst [Byte.colon] line = some (key, behind))
    (addressable : line.length < 2 ^ 64) :
    headerValue behind =
      substr line (key.length + 2)
        ((line.length + 2 ^ 64 - key.length - 3) % 2 ^ 64) := by
  obtain ⟨rfl, -⟩ := splitFirst_byte_iff.mp found
  cases behind with
  | nil =>
      rw [headerValue, substr, if_pos (by simp)]
  | cons blank value =>
      have inside : ¬ (key ++ Byte.colon :: blank :: value).length <
          key.length + 2 := by
        simp only [List.length_append, List.length_cons]
        omega
      have behindBlank : (key ++ Byte.colon :: blank :: value).drop
          (key.length + 2) = value := by
        simp
      rw [headerValue, substr, if_neg inside, behindBlank, Option.some.injEq]
      simp only [List.length_append, List.length_cons] at addressable ⊢
      cases value with
      | nil => rw [List.dropLast_nil, List.take_nil]
      | cons first value =>
          have count : (key.length + ((first :: value).length + 1 + 1) +
              2 ^ 64 - key.length - 3) % 2 ^ 64 = value.length := by
            rw [List.length_cons] at addressable ⊢
            omega
          rw [count, List.dropLast_eq_take, List.length_cons,
            Nat.add_sub_cancel]

/-- A line throws exactly when nothing stands behind its first colon. -/
theorem headerValue_eq_none_iff {line key behind : Str}
    (found : splitFirst [Byte.colon] line = some (key, behind)) :
    headerValue behind = none ↔ BareColon line := by
  obtain ⟨rfl, absent⟩ := splitFirst_byte_iff.mp found
  cases behind with
  | nil => exact iff_of_true rfl ⟨key, rfl, absent⟩
  | cons blank value =>
      apply iff_of_false (Option.some_ne_none _)
      rintro ⟨other, isBare, otherAbsent⟩
      have same : splitFirst [Byte.colon] (other ++ [Byte.colon]) =
          some (other, []) := splitFirst_byte otherAbsent []
      rw [← isBare, found] at same
      cases same

/-- A line without a colon is passed over. -/
theorem not_bareColon_of_none {line : Str}
    (nothing : splitFirst [Byte.colon] line = none) : ¬ BareColon line := by
  rintro ⟨key, rfl, absent⟩
  rw [splitFirst_byte absent []] at nothing
  cases nothing

/-- The loop ends without throwing when no line in front of the blank one
throws. -/
theorem headersFrom_isSome_iff (headers : List (Str × Str))
    (lines : List Str) :
    (headersFrom headers lines).isSome ↔
      ∀ line ∈ lines.takeWhile fun line => line ≠ [Byte.cr],
        ¬ BareColon line := by
  induction lines generalizing headers with
  | nil => simp [headersFrom]
  | cons line lines induction =>
      rw [headersFrom]
      by_cases blank : line = [Byte.cr]
      · simp [blank]
      · have taken : (line :: lines).takeWhile (fun line => line ≠ [Byte.cr]) =
            line :: lines.takeWhile fun line => line ≠ [Byte.cr] :=
          List.takeWhile_cons_of_pos (decide_eq_true blank)
        rw [if_neg blank, taken, List.forall_mem_cons]
        cases found : splitFirst [Byte.colon] line with
        | none =>
            rw [induction headers]
            exact (and_iff_right (not_bareColon_of_none found)).symm
        | some parts =>
            obtain ⟨key, behind⟩ := parts
            rw [← headerValue_eq_none_iff found]
            cases isValue : headerValue behind with
            | none => simp [isValue]
            | some value =>
                simp only [isValue]
                rw [induction ((key, value) :: headers)]
                simp

theorem parseHttpHeaders_isSome_iff (data : Str) :
    (parseHttpHeaders data).isSome ↔ Splittable data :=
  headersFrom_isSome_iff [] (linesFrom [] data)

end HttpHandler

namespace Connection

/-- The headers of a first read are split, and the connection is told apart:
`onMessage` does not get the exception that makes it drop the bytes. -/
def FirstReadKept (lib : Libraries) (answers : Answers) (data : Str) : Prop :=
  (HttpHandler.parseHttpHeaders data).isSome ∧
    ∃ next actions, onMessage lib answers fresh data = some (next, actions) ∧
      next.requestType ≠ .unknown

/-- A handshake does not change the kind of a connection. -/
theorem handshake_requestType (lib : Libraries) (conn : Connection)
    (request : Str) :
    (handshake lib conn request).1.requestType = conn.requestType := by
  unfold handshake
  cases secWebSocketKey request with
  | none => rfl
  | some key =>
      dsimp only
      split
      · rfl
      · rfl

/-- The first read settles the kind of the connection when its headers can be
split. -/
theorem onMessage_fresh (lib : Libraries) (answers : Answers) {data : Str}
    {kind : HttpHandler.RequestType}
    (classified : HttpHandler.classify data = some kind)
    (known : kind ≠ .unknown) :
    ∃ next actions, onMessage lib answers fresh data = some (next, actions) ∧
      next.requestType = kind := by
  have first : onMessage lib answers fresh data =
      handlerOnRead lib answers fresh data := rfl
  have unknown : fresh.requestType = .unknown := rfl
  rw [first, handlerOnRead, unknown]
  simp only [classified]
  cases kind with
  | unknown => exact absurd rfl known
  | http => exact ⟨_, _, rfl, rfl⟩
  | webSocket =>
      refine ⟨_, _, rfl, ?_⟩
      exact handshake_requestType lib { fresh with requestType := .webSocket }
        data

/-- The first read of a request that TCP cuts behind a field name. -/
def cutBehindColon : Str := ascii "GET / HTTP/1.1\r\nHost:"

end Connection

end ChatRoom
