import ChatRoom.Service.HttpConn
import ChatRoom.Service.ParserReports

/-!
# Requests on a connection

`CHttpConn` over the parser as it is: a connection whose reads keep to its
requests handles exactly these.
-/

namespace ChatRoom

namespace HttpParser

open HttpConn (Callback HttpAnswers urlOf bodyOf)

/-- The callback of `CHttpParserWrapper` if `OnRead` depends on it. -/
def Call.callback : Call → Option Callback
  | .data .url text => some (.onUrl text)
  | .data .body text => some (.onBody text)
  | .messageComplete => some .onMessageComplete
  | _ => none

/-- The callbacks of `ParseHttpContent`: of one call of `http_parser_execute`
behind `http_parser_init`. -/
def callbacks (buf : Str) : List Callback :=
  match execute .init buf with
  | none => []
  | some result => result.calls.filterMap Call.callback

theorem callbacks_of {buf : Str} {result : Result}
    (called : execute .init buf = some result) :
    callbacks buf = result.calls.filterMap Call.callback := by
  rw [callbacks, called]

/-- A request as it is sent. -/
def Request.sent (request : Request) : HttpConn.Request where
  bytes := request.text
  url := request.target.text
  body := request.body
  started := by simp [text, head]
  hasUrl := nofun

theorem filterMap_lines (lines : List HeaderLine) :
    (lines.flatMap HeaderLine.calls).filterMap Call.callback = [] := by
  induction lines with
  | nil => rfl
  | cons line lines induction =>
      rw [List.flatMap_cons, List.filterMap_append, induction]
      rfl

theorem filterMap_calls (request : Request) :
    request.calls.filterMap Call.callback =
      .onUrl request.target.text ::
        (if request.body = [] then [.onMessageComplete]
          else [.onBody request.body, .onMessageComplete]) := by
  rw [Request.calls, List.cons_append]
  change .onUrl request.target.text ::
    List.filterMap Call.callback (_ ++ _) = _
  rw [List.filterMap_append, filterMap_lines, List.nil_append]
  split_ifs
  all_goals rfl

/-- Each request by itself gives its callbacks, and no part of one is taken for
a whole one. -/
theorem apart_sent (requests : List Request)
    (plain : ∀ request ∈ requests, request.Plain) :
    HttpConn.Apart callbacks (requests.map Request.sent) := by
  constructor
  · rfl
  · intro sent member
    obtain ⟨request, isRequest, rfl⟩ := List.mem_map.mp member
    obtain ⟨result, called, calls, -⟩ := requests_read [request] (by
      intro other isOther
      rw [List.mem_singleton.mp isOther]
      exact plain request isRequest)
    rw [List.flatMap_singleton] at called calls
    have reported : callbacks request.sent.bytes = _ := callbacks_of called
    rw [reported, calls, filterMap_calls]
    split_ifs with empty
    · exact ⟨by simp [urlOf, Request.sent], by simp [bodyOf, Request.sent, empty],
        by simp⟩
    · exact ⟨by simp [urlOf, Request.sent], by simp [bodyOf, Request.sent],
        by simp⟩
  · intro sent member part isPart strict complete
    obtain ⟨request, isRequest, rfl⟩ := List.mem_map.mp member
    obtain ⟨result, called, -⟩ := execute_rests init_rests part
    rw [callbacks_of called] at complete
    obtain ⟨call, made, isComplete⟩ := List.mem_filterMap.mp complete
    have whole : call = .messageComplete := by
      rcases call with ⟨field, text⟩ | - | -
      · cases field
        all_goals cases isComplete
      · cases isComplete
      · rfl
    exact part_incomplete (plain request isRequest) isPart strict called
      (whole ▸ made)

/-- **A connection handles exactly its requests**, in order, each with its own
URL and body, when its reads keep to them. -/
theorem requests_answered (requests : List Request)
    (plain : ∀ request ∈ requests, request.Plain)
    (reads : List (HttpAnswers × Str))
    (cut : (reads.map (·.2)).flatten = requests.flatMap Request.text)
    (meets : Lib.Meets (HttpConn.step callbacks)
      (HttpConn.guard (requests.map Request.sent)) .fresh reads) :
    HttpConn.Served callbacks (requests.map Request.sent) reads := by
  have wire : HttpConn.wire (requests.map Request.sent) =
      requests.flatMap Request.text := by
    rw [HttpConn.wire, List.map_map, List.flatMap]
    rfl
  obtain ⟨final, executed, finished⟩ := HttpConn.ready_of_meets_apart
    (apart_sent requests plain) (HttpConn.ready_fresh (cut.trans wire.symm)) meets
  exact ⟨final, executed, finished.finished, finished.answered⟩

/-- A request in two reads. -/
theorem requests_answered_of_root :
    HttpConn.Served callbacks ([getRoot].map Request.sent)
      [(HttpConn.noApi, getRoot.text.take 8),
        (HttpConn.noApi, getRoot.text.drop 8)] := by
  apply requests_answered [getRoot] (by
    intro request member
    rw [List.mem_singleton.mp member]
    exact getRoot_plain)
  · decide +kernel
  · intro next taken
    cases taken
    refine ⟨⟨fun _ => by decide +kernel, ?_⟩, ?_⟩
    · intro request found
      cases found
      exact ⟨List.take_prefix 8 _, fun whole => by
        revert whole
        decide +kernel⟩
    · intro final finished
      cases finished
      refine ⟨⟨fun unknown => by revert unknown; decide +kernel, ?_⟩, trivial⟩
      intro request found
      have first : ([getRoot].map Request.sent)[(HttpConn.HttpState.fresh.read
          callbacks HttpConn.noApi (getRoot.text.take 8)).handled.length]? =
            some getRoot.sent := by
        have none : (HttpConn.HttpState.fresh.read callbacks HttpConn.noApi
            (getRoot.text.take 8)).handled.length = 0 := by
          decide +kernel
        rw [none]
        rfl
      rw [first] at found
      cases found
      exact ⟨by decide +kernel, fun _ => by decide +kernel⟩

end HttpParser

end ChatRoom
