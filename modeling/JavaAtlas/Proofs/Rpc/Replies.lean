import Mathlib.Tactic.SplitIfs
import JavaAtlas.Rpc.Server

set_option autoImplicit false

/-! # The replies to single lines

What a line is answered depends on the line and on what the server works on, but not on the lines
before it (`serve_fst`). A request is answered under its own identifier, and at most once; whether
it is answered at all is up to its method and, for the methods of notifications, to the presence of
an identifier (`replied_once`). -/

namespace JavaAtlas

theorem Json.isNull_iff {json : Json} : json.isNull = true ↔ json = .null := by
  cases json <;> simp [isNull]

namespace Rpc

/-- Whether the method is one of those that announce something instead of asking for it. -/
def Request.Announces (request : Request) : Prop :=
  request.method = "initialized" ∨ "notifications/".toList <+: request.method.toList

instance (request : Request) : Decidable request.Announces :=
  inferInstanceAs (Decidable (_ ∨ _))

theorem Request.isNotification_iff {request : Request} :
    request.isNotification = true ↔
      request.id = .null ∧ "notifications/".toList <+: request.method.toList := by
  simp [isNotification, Json.isNull_iff]

namespace Server

variable {server : Server} {request : Request} {response : Response} {line : String}

/-! ## Responses -/

theorem id_of_callResponse (id : Json) (params : Option Json) :
    (server.callResponse id params).id = id := by
  unfold callResponse
  split
  · rfl
  · split <;> rfl

/-- A request is answered under its identifier. -/
theorem id_of_respond (h : server.respond request = some response) : response.id = request.id := by
  unfold respond at h
  split_ifs at h
  all_goals
    obtain rfl := Option.some.inj h
    first | rfl | exact id_of_callResponse _ _

/-- A request gets no response if and only if it announces something, and is not to be answered
under an identifier. -/
theorem respond_eq_none_iff :
    server.respond request = none ↔
      request.method = "initialized" ∨ request.isNotification = true := by
  have hinitialize : request.method = "initialize" → request.isNotification ≠ true := by
    intro hmethod hnotification
    have hprefix := (Request.isNotification_iff.1 hnotification).2
    rw [hmethod] at hprefix
    exact absurd hprefix (by decide +kernel)
  unfold respond
  split_ifs with hmethod hmethod hnotification
  · simp [hmethod, hinitialize hmethod]
  · simp [hmethod]
  · simp [hnotification]
  all_goals
    refine iff_of_false (by simp) ?_
    rintro (h | h)
    · exact hmethod h
    · exact hnotification h

/-! ## Lines -/

/-- The replies to a line, of which there is at most one. -/
def repliesTo (server : Server) (line : String) : List Reply :=
  (server.reply (readLine line)).toList

theorem handleLine_eq (server : Server) (line : String) :
    server.handleLine line = (server.reply (readLine line),
      { server with
        stats := countLine server.stats (readLine line) (server.reply (readLine line)) }) := rfl

theorem serve_cons (server : Server) (line : String) (lines : List String) :
    server.serve (line :: lines) =
      ((server.handleLine line).1.toList ++ ((server.handleLine line).2.serve lines).1,
        ((server.handleLine line).2.serve lines).2) := by
  rw [serve]

/-- The counts have no say in a reply. -/
theorem reply_withStats (server : Server) (stats : Stats) (line : Line) :
    ({ server with stats := stats } : Server).reply line = server.reply line := by
  cases line <;> rfl

theorem repliesTo_withStats (server : Server) (stats : Stats) :
    ({ server with stats := stats } : Server).repliesTo = server.repliesTo := by
  funext line
  unfold repliesTo
  rw [reply_withStats]

/-- The replies to an input are those to its lines, each on its own. -/
theorem serve_fst (server : Server) (lines : List String) :
    (server.serve lines).1 = lines.flatMap server.repliesTo := by
  induction lines generalizing server with
  | nil => rfl
  | cons line lines ih =>
    have hsame : (server.handleLine line).2.repliesTo = server.repliesTo := by
      rw [handleLine_eq]
      exact repliesTo_withStats server _
    rw [serve_cons, ih, hsame, List.flatMap_cons, repliesTo, handleLine_eq]

theorem serve_singleton_fst (server : Server) (line : String) :
    (server.serve [line]).1 = server.repliesTo line := by
  rw [serve_fst, List.flatMap_singleton]

/-- The session is closed when the input has ended. -/
theorem serve_snd_session (server : Server) (lines : List String) :
    (server.serve lines).2.session = server.session.close := by
  induction lines generalizing server with
  | nil => rfl
  | cons line lines ih =>
    rw [serve_cons, ih, handleLine_eq]

/-! ## Requests -/

theorem readLine_of_readText (h : Json.readText (Text.trim line) = .ok request) :
    readLine line =
      if request.method = callMethod then .call request.id request.params
      else .request request := by
  have hempty : (Text.trim line).isEmpty = false := by
    rw [Bool.eq_false_iff]
    intro hblank
    rw [String.isEmpty_iff.1 hblank] at h
    have hfails : (Json.readText "" : Except Json.ReadError Request).toBool = false := by
      decide +kernel
    rw [h] at hfails
    exact absurd hfails (by simp [Except.toBool])
  simp [readLine, hempty, h]

theorem respond_call (hmethod : request.method = callMethod) :
    server.respond request = some (server.callResponse request.id request.params) := by
  have hnotification : request.isNotification = false := by
    rw [Bool.eq_false_iff]
    intro hnotification
    have hprefix := (Request.isNotification_iff.1 hnotification).2
    rw [hmethod] at hprefix
    exact absurd hprefix (by decide +kernel)
  simp [respond, hmethod, hnotification, callMethod]

/-- What is sent for a request is its response, if it gets one. -/
theorem responses_of_readText (h : Json.readText (Text.trim line) = .ok request) :
    (server.repliesTo line).map (·.response) = (server.respond request).toList := by
  unfold repliesTo
  rw [readLine_of_readText h]
  by_cases hmethod : request.method = callMethod
  · rw [if_pos hmethod, respond_call hmethod]
    rfl
  · rw [if_neg hmethod]
    show (((server.respond request).map (Reply.mk · false)).toList).map Reply.response = _
    cases server.respond request <;> rfl

/-- **A request is answered at most once and under its own identifier.** Wherever a line stands in
the input that reads as a request, what is sent for it is what would be sent for it alone: if it has
an identifier, one response that carries the identifier; if it has none and its method announces
something, nothing; if it has none and its method asks for something, one response that carries
`null`. A request of the method `initialized` that has an identifier is left out. -/
theorem replied_once (h : Json.readText (Text.trim line) = .ok request)
    (before after : List String) :
    (server.serve (before ++ line :: after)).1 =
        (server.serve before).1 ++ (server.serve [line]).1 ++ (server.serve after).1 ∧
      (request.id ≠ .null → request.method ≠ "initialized" →
        (server.serve [line]).1.map (·.response.id) = [request.id]) ∧
      (request.id = .null → request.Announces → (server.serve [line]).1 = []) ∧
      (request.id = .null → ¬request.Announces →
        (server.serve [line]).1.map (·.response.id) = [.null]) := by
  have hresponses : (server.repliesTo line).map (·.response) = (server.respond request).toList :=
    responses_of_readText h
  have hanswered (hresponse : server.respond request ≠ none) :
      (server.serve [line]).1.map (·.response.id) = [request.id] := by
    obtain ⟨response, hresponse⟩ := Option.ne_none_iff_exists'.1 hresponse
    rw [hresponse, Option.toList_some] at hresponses
    rw [serve_singleton_fst, ← id_of_respond hresponse]
    simpa using congrArg (List.map Response.id) hresponses
  refine ⟨?_, fun hid hmethod => ?_, fun hid hannounces => ?_, fun hid hannounces => ?_⟩
  · simp [serve_fst]
  · refine hanswered fun hnone => ?_
    rcases respond_eq_none_iff.1 hnone with hinitialized | hnotification
    · exact hmethod hinitialized
    · exact hid (Request.isNotification_iff.1 hnotification).1
  · have hnone : server.respond request = none :=
      respond_eq_none_iff.2 (hannounces.imp_right fun h => Request.isNotification_iff.2 ⟨hid, h⟩)
    rw [hnone, Option.toList_none, List.map_eq_nil_iff] at hresponses
    rw [serve_singleton_fst, hresponses]
  · rw [← hid]
    refine hanswered fun hnone => hannounces ?_
    exact (respond_eq_none_iff.1 hnone).imp_right fun h => (Request.isNotification_iff.1 h).2

/-! ## A request without an identifier -/

/-- A server without operations whose session has not started. -/
def idleServer : Server where
  registry := .empty
  session := .new (.ofString "/p")
  files := default

/-- A request that asks for something under no identifier. -/
def pingLine : String := "\x7b\"jsonrpc\":\"2.0\",\"method\":\"ping\"\x7d"

theorem readText_pingLine : ∃ request : Request, Json.readText (Text.trim pingLine) = .ok request ∧
    request.id = .null ∧ ¬request.Announces := by
  have hread : (match (Json.readText (Text.trim pingLine) : Except Json.ReadError Request) with
    | .ok request => request.id.isNull && decide ¬request.Announces
    | .error _ => false) = true := by decide +kernel
  split at hread
  · next request hrequest =>
    obtain ⟨hnull, hannounces⟩ := Bool.and_eq_true_iff.1 hread
    exact ⟨request, hrequest, Json.isNull_iff.1 hnull, of_decide_eq_true hannounces⟩
  · exact absurd hread (by simp)

theorem replied_once_ping : ∃ request : Request,
    Json.readText (Text.trim pingLine) = .ok request ∧ request.id = .null ∧ ¬request.Announces ∧
      (idleServer.serve [pingLine]).1.map (·.response.id) = [.null] := by
  obtain ⟨request, hread, hid, hannounces⟩ := readText_pingLine
  exact ⟨request, hread, hid, hannounces,
    (replied_once hread [] []).2.2.2 hid hannounces⟩

/-- A request without an identifier may well be answered. -/
theorem ping_without_id_answered :
    ¬∀ (server : Server) (line : String) (request : Request),
      Json.readText (Text.trim line) = .ok request →
        (request.id ≠ .null → (server.serve [line]).1.map (·.response.id) = [request.id]) ∧
          (request.id = .null → (server.serve [line]).1 = []) := by
  intro hdiscipline
  obtain ⟨request, hread, hid, _⟩ := readText_pingLine
  have hsilent := (hdiscipline idleServer pingLine request hread).2 hid
  have hanswered : (idleServer.serve [pingLine]).1.length = 1 := by decide +kernel
  rw [hsilent] at hanswered
  exact absurd hanswered (by simp)

end Server

end Rpc

end JavaAtlas
