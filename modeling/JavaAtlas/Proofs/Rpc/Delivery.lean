import JavaAtlas.Proofs.Dispatch
import JavaAtlas.Proofs.Rpc.Exchange

set_option autoImplicit false

/-! # What is written

Whatever has not been written yet is on its way: sent to the writer, about to be sent by the reader
or by a call, or owed to a line that has not been read. Every step keeps these replies together, and
those that are no calls in order (`Step.serves`). So an exchange that has returned has written what
its lines are answered, each on its own (`written_exact`). -/

namespace JavaAtlas.Rpc

open Server (Reply)

/-! ## Replies in another order -/

/-- Whether the same replies are there, with those that are no calls in the same order. -/
structure Reorders (replies replies' : List Reply) : Prop where
  perm : replies.Perm replies'
  order : replies.filter (!·.isCall) = replies'.filter (!·.isCall)

namespace Reorders

variable {replies replies' replies'' calls : List Reply}

theorem refl (replies : List Reply) : Reorders replies replies := ⟨.refl _, rfl⟩

theorem of_eq (h : replies = replies') : Reorders replies replies' := h ▸ .refl replies

theorem trans (h : Reorders replies replies') (h' : Reorders replies' replies'') :
    Reorders replies replies'' :=
  ⟨h.perm.trans h'.perm, h.order.trans h'.order⟩

theorem append_left (first : List Reply) (h : Reorders replies replies') :
    Reorders (first ++ replies) (first ++ replies') := by
  refine ⟨h.perm.append_left first, ?_⟩
  rw [List.filter_append, List.filter_append, h.order]

theorem append_right (last : List Reply) (h : Reorders replies replies') :
    Reorders (replies ++ last) (replies' ++ last) := by
  refine ⟨h.perm.append_right last, ?_⟩
  rw [List.filter_append, List.filter_append, h.order]

theorem symm (h : Reorders replies replies') : Reorders replies' replies :=
  ⟨h.perm.symm, h.order.symm⟩

/-- Any replies may change places with those to calls. -/
theorem comm_of_calls (replies : List Reply) (hcalls : ∀ reply ∈ calls, reply.isCall = true) :
    Reorders (replies ++ calls) (calls ++ replies) := by
  refine ⟨List.perm_append_comm, ?_⟩
  have hnone : calls.filter (!·.isCall) = [] := by
    rw [List.filter_eq_nil_iff]
    intro reply hreply
    simp [hcalls reply hreply]
  rw [List.filter_append, List.filter_append, hnone, List.append_nil, List.nil_append]

end Reorders

namespace Exchange

variable {exchange exchange' : Exchange} {server : Server} {lines : List String}

/-! ## Replies on their way -/

/-- The reply that the reader is about to send. -/
def Reader.reply? : Reader → Option Reply
  | .replying reply => some reply
  | .reading | .joining | .closed | .returned => none

/-- The reply that a call comes to. -/
def Call.reply (server : Server) : Call → Reply
  | .counting id params | .asking id params => ⟨server.callResponse id params, true⟩
  | .recording response | .sending response => ⟨response, true⟩

/-- The replies of an exchange: those that have been written and those on their way. -/
def replies (server : Server) (exchange : Exchange) : List Reply :=
  exchange.written ++ exchange.channel ++ exchange.reader.reply?.toList ++
    exchange.calls.map (Call.reply server) ++ exchange.input.flatMap server.repliesTo

theorem isCall_reply {reply : Reply} {calls : List Call}
    (h : reply ∈ calls.map (Call.reply server)) : reply.isCall = true := by
  obtain ⟨call, _, rfl⟩ := List.mem_map.1 h
  cases call <;> rfl

theorem CallStep.reply_eq {call call' : Call} {stats : Stats} {server' : Server}
    (h : CallStep { server with stats := stats } call server' call') :
    call'.reply server = call.reply server := by
  cases h <;> rfl

/-- Taking up a line changes no reply. -/
theorem reorders_takeUp (exchange : Exchange) (hreader : exchange.reader = .reading)
    (hserver : exchange.server = { server with stats := exchange.server.stats })
    (line : Server.Line) :
    Reorders ((exchange.takeUp line).replies server)
      (exchange.written ++ exchange.channel ++ (exchange.calls.map (Call.reply server) ++
        ((server.reply line).toList ++ exchange.input.flatMap server.repliesTo))) := by
  have hreply : exchange.server.reply line = server.reply line := by
    rw [hserver, Server.reply_withStats]
  unfold takeUp
  split
  · exact .of_eq (by simp [replies, hreader, Reader.reply?, Server.reply])
  · exact .of_eq (by simp [replies, countRequest, hreader, Reader.reply?, Call.reply, Server.reply])
  · rw [hreply]
    split
    · next reply hsome =>
      -- the reply overtakes the calls in flight
      have hovertakes : Reorders ([reply] ++ exchange.calls.map (Call.reply server))
          (exchange.calls.map (Call.reply server) ++ [reply]) :=
        .comm_of_calls [reply] fun _ => isCall_reply
      have hwhole := (hovertakes.append_left (exchange.written ++ exchange.channel)).append_right
        (exchange.input.flatMap server.repliesTo)
      simpa [replies, countRequest, Reader.reply?, hsome] using hwhole
    · next hnone =>
      exact .of_eq (by simp [replies, countRequest, hreader, Reader.reply?, hnone])

/-! ## One step -/

/-- Whether the reader has closed the session. -/
def Reader.isOver : Reader → Bool
  | .closed | .returned => true
  | .reading | .replying _ | .joining => false

/-- Whether an exchange serves the lines as the server would serve each of them on its own. -/
structure Serves (server : Server) (lines : List String) (exchange : Exchange) : Prop where
  replies : Reorders (exchange.replies server) (lines.flatMap server.repliesTo)
  /-- Apart from its counts, the server is the one it was before it closed its session. -/
  server : exchange.server =
    { server with
      stats := exchange.server.stats
      session := if exchange.reader.isOver then server.session.close else server.session }
  ended : exchange.reader = .joining ∨ exchange.reader.isOver = true → exchange.input = []
  joined : exchange.reader.isOver = true → exchange.calls = []
  returned : exchange.reader = .returned → exchange.channel = []

namespace Serves

theorem new (server : Server) (lines : List String) : Serves server lines (new server lines) where
  replies := .refl _
  server := rfl
  ended := by simp [Exchange.new, Reader.isOver]
  joined := by simp [Exchange.new, Reader.isOver]
  returned := by simp [Exchange.new]

variable (h : Serves server lines exchange)
include h

theorem server_of_open (hopen : exchange.reader.isOver = false) :
    exchange.server = { server with stats := exchange.server.stats } := by
  have hserver := h.server
  rwa [hopen] at hserver

theorem open_of_call {before after : List Call} {call : Call}
    (hcalls : exchange.calls = before ++ call :: after) : exchange.reader.isOver = false := by
  rw [Bool.eq_false_iff]
  intro hover
  rw [h.joined hover] at hcalls
  exact absurd hcalls.symm (by simp)

end Serves

theorem server_takeUp (exchange : Exchange) (line : Server.Line) :
    (exchange.takeUp line).server =
      { exchange.server with stats := (exchange.takeUp line).server.stats } := by
  unfold takeUp
  split
  · rfl
  · rfl
  · split <;> rfl

theorem reader_takeUp (exchange : Exchange) (line : Server.Line) :
    (exchange.takeUp line).reader = exchange.reader ∨
      ∃ reply, (exchange.takeUp line).reader = .replying reply := by
  unfold takeUp
  split
  · exact .inl rfl
  · exact .inl rfl
  · split
    · exact .inr ⟨_, rfl⟩
    · exact .inl rfl

theorem CallStep.server_eq {call call' : Call} {server' : Server}
    (h : CallStep server call server' call') :
    server' = { server with stats := server'.stats } := by
  cases h <;> rfl

theorem Serves.read {line : String} {rest : List String} (h : Serves server lines exchange)
    (hreader : exchange.reader = .reading) (hinput : exchange.input = line :: rest) :
    Serves server lines
      (({ exchange with input := rest } : Exchange).takeUp (Server.readLine line)) := by
  have hserver := h.server_of_open (by rw [hreader, Reader.isOver])
  have hreplies := reorders_takeUp { exchange with input := rest } hreader hserver
    (Server.readLine line)
  generalize htaken : ({ exchange with input := rest } : Exchange).takeUp (Server.readLine line) =
    taken at hreplies ⊢
  have hopen : taken.reader = .reading ∨ ∃ reply, taken.reader = .replying reply := by
    rw [← htaken, ← hreader]
    exact reader_takeUp _ _
  have hover : taken.reader.isOver = false := by
    rcases hopen with hopen | ⟨reply, hopen⟩ <;> rw [hopen, Reader.isOver]
  refine ⟨hreplies.trans (.trans (.of_eq ?_) h.replies), ?_, ?_, ?_, ?_⟩
  · simp [Exchange.replies, hinput, hreader, Reader.reply?, Server.repliesTo]
  · have hsame := server_takeUp { exchange with input := rest } (Server.readLine line)
    rw [htaken, hserver] at hsame
    rw [hover]
    exact hsame
  · rw [hover]
    rcases hopen with hopen | ⟨reply, hopen⟩ <;> simp [hopen]
  · simp [hover]
  · rcases hopen with hopen | ⟨reply, hopen⟩ <;> simp [hopen]

/-- Every step serves on. -/
theorem Step.serves (h : Serves server lines exchange) (hstep : Step exchange exchange') :
    Serves server lines exchange' := by
  have hserver := h.server
  have hjoined := h.joined
  have hended := h.ended
  have hreturned := h.returned
  cases hstep with
  | read hreader hinput => exact h.read hreader hinput
  | @reply reply hreader =>
    refine ⟨.trans (.of_eq ?_) h.replies, ?_, by simp [Reader.isOver], by simp [Reader.isOver],
      by simp⟩
    · simp [replies, hreader, Reader.reply?]
    · rw [h.server_of_open (by rw [hreader, Reader.isOver])]
      rfl
  | endInput hreader hinput =>
    refine ⟨.trans (.of_eq ?_) h.replies, ?_, fun _ => hinput, by simp [Reader.isOver], by simp⟩
    · simp [replies, hreader, Reader.reply?]
    · exact h.server_of_open (by rw [hreader, Reader.isOver])
  | close hreader hcalls =>
    refine ⟨.trans (.of_eq ?_) h.replies, ?_, fun _ => h.ended (.inl hreader), fun _ => hcalls,
      by simp⟩
    · simp [replies, hreader, Reader.reply?]
    · rw [h.server_of_open (by rw [hreader, Reader.isOver])]
      rfl
  | finish hreader hchannel =>
    have hover : exchange.reader.isOver = true := by rw [hreader, Reader.isOver]
    refine ⟨.trans (.of_eq ?_) h.replies, ?_, fun _ => h.ended (.inr hover),
      fun _ => h.joined hover, fun _ => hchannel⟩
    · simp [replies, hreader, Reader.reply?]
    · rw [hover] at hserver
      exact hserver
  | @call before after call call' server' hcalls hstep =>
    have hopen := h.open_of_call hcalls
    have hsame := h.server_of_open hopen
    rw [hsame] at hstep
    refine ⟨.trans (.of_eq ?_) h.replies, ?_, hended, by simp [hopen], hreturned⟩
    · simp [replies, hcalls, hstep.reply_eq]
    · rw [hopen]
      exact hstep.server_eq
  | @send before after response hcalls =>
    have hopen := h.open_of_call hcalls
    refine ⟨.trans ?_ h.replies, hserver, hended, by simp [hopen], ?_⟩
    · -- the response overtakes the reply of the reader and the calls before it
      have hovertakes : Reorders
          ([⟨response, true⟩] ++ (exchange.reader.reply?.toList ++ before.map (Call.reply server)))
          (exchange.reader.reply?.toList ++ before.map (Call.reply server) ++ [⟨response, true⟩]) :=
        .symm (.comm_of_calls _ (by simp))
      have hwhole := (hovertakes.append_left (exchange.written ++ exchange.channel)).append_right
        (after.map (Call.reply server) ++ exchange.input.flatMap server.repliesTo)
      simpa [replies, hcalls, Call.reply] using hwhole
    · intro hover
      rw [hover] at hopen
      exact absurd hopen (by simp [Reader.isOver])
  | @write reply rest hchannel =>
    refine ⟨.trans (.of_eq ?_) h.replies, hserver, hended, hjoined, ?_⟩
    · simp [replies, hchannel]
    · intro hover
      have hempty := hreturned hover
      rw [hchannel] at hempty
      exact absurd hempty (by simp)

/-- Every run from the beginning serves its lines. -/
theorem Run.serves (h : Run (new server lines) exchange) : Serves server lines exchange := by
  induction h with
  | nil => exact .new server lines
  | snoc _ hstep ih => exact hstep.serves ih

end Exchange

/-! ## Failures -/

/-- Whether a response names a kind of failure. -/
def Response.NamesFailure (response : Response) (kind : FailureKind) : Prop :=
  ∃ error, response.error = some error ∧
    error.data = some (.object [("kind", .string kind.name)])

namespace Server

variable {server : Server}

/-- A call that is told of a failure of an operation has failed in that way. -/
theorem failsAs_of_namesFailure {id : Json} {params : Option Json} {kind : FailureKind}
    (h : (server.callResponse id params).NamesFailure kind) :
    ∃ name members, calledTool params = .ok (name, members) ∧
      FailsAs kind (server.callTool name members) := by
  obtain ⟨error, herror, hdata⟩ := h
  unfold callResponse at herror
  split at herror
  · obtain rfl := Option.some.inj herror
    cases hdata
  · next name members hcalled =>
    split at herror
    · cases herror
    · next failure hfailed =>
      obtain rfl := Option.some.inj herror
      refine ⟨name, members, hcalled, failure, hfailed, ?_⟩
      simp at hdata
      exact FailureKind.name_inj hdata

theorem state_of_namesFailure (hregistry : server.registry.IsWellTyped) {id : Json}
    {params : Option Json} (h : (server.callResponse id params).NamesFailure .contextClosed) :
    server.session.state = .closed := by
  obtain ⟨name, members, _, hfails⟩ := failsAs_of_namesFailure h
  unfold callTool at hfails
  cases hmembers : Arguments.members name (Assoc.find? "arguments" members) with
  | error failure =>
    rw [hmembers] at hfails
    unfold Arguments.members at hmembers
    split at hmembers
    · cases hmembers
    · cases hmembers
    · cases hmembers
    · obtain rfl := Except.error.inj hmembers
      cases failsAs_error_iff.1 hfails
  | ok raw =>
    rw [hmembers] at hfails
    exact Registry.state_of_failsAs_closed hregistry hfails

/-- No reply names a closed session while the session is another. -/
theorem state_of_reply (hregistry : server.registry.IsWellTyped) {line : Line} {reply : Reply}
    (hreply : server.reply line = some reply)
    (h : reply.response.NamesFailure .contextClosed) : server.session.state = .closed := by
  cases line with
  | blank => cases hreply
  | unreadable error =>
    obtain rfl := Option.some.inj hreply
    obtain ⟨_, herror, hdata⟩ := h
    obtain rfl := Option.some.inj herror
    cases hdata
  | call id params =>
    obtain rfl := Option.some.inj hreply
    exact state_of_namesFailure hregistry h
  | request request =>
    obtain ⟨response, hrespond, rfl⟩ := Option.map_eq_some_iff.1 hreply
    unfold respond at hrespond
    split_ifs at hrespond
    · obtain rfl := Option.some.inj hrespond
      obtain ⟨_, herror, _⟩ := h
      cases herror
    · obtain rfl := Option.some.inj hrespond
      obtain ⟨_, herror, _⟩ := h
      cases herror
    · obtain rfl := Option.some.inj hrespond
      exact state_of_namesFailure hregistry h
    · obtain rfl := Option.some.inj hrespond
      obtain ⟨_, herror, _⟩ := h
      cases herror
    · obtain rfl := Option.some.inj hrespond
      obtain ⟨_, herror, hdata⟩ := h
      obtain rfl := Option.some.inj herror
      cases hdata

end Server

/-! ## Every exchange -/

namespace Exchange

/-- **No reply is lost, duplicated or changed, and calls alone change their places.** Let a server
whose session is ready serve an input, and let the reader, the calls in flight and the writer take
their steps in any order. When it has returned, it has written exactly the replies that each line
gets on its own, those that are no calls in the order of their lines; no reply names a closed
session, although the session is closed by then. -/
theorem written_exact {server : Server} {lines : List String} {final : Exchange}
    (hready : server.session.state = .ready) (hrun : Run (new server lines) final)
    (hreturned : final.reader = .returned) :
    let alone := lines.filterMap fun line => server.reply (Server.readLine line)
    final.written.Perm alone ∧
      final.written.filter (!·.isCall) = alone.filter (!·.isCall) ∧
      (Catalogue.builtin = .ok server.registry →
        ∀ reply ∈ final.written, ¬reply.response.NamesFailure .contextClosed) ∧
      final.server.session.state = .closed := by
  intro alone
  have hserves := hrun.serves
  have hover : final.reader.isOver = true := by rw [hreturned, Reader.isOver]
  have hreplies : final.replies server = final.written := by
    simp [replies, hserves.returned hreturned, hserves.joined hover, hserves.ended (.inr hover),
      hreturned, Reader.reply?]
  have halone : lines.flatMap server.repliesTo = alone :=
    (List.filterMap_eq_flatMap_toList _ lines).symm
  have hwritten : Reorders final.written alone := halone ▸ hreplies ▸ hserves.replies
  refine ⟨hwritten.perm, hwritten.order, fun hbuiltin reply hreply hnames => ?_, ?_⟩
  · obtain ⟨line, _, hline⟩ := List.mem_filterMap.1 (hwritten.perm.subset hreply)
    have hclosed := Server.state_of_reply (Registry.isWellTyped_of_builtin hbuiltin) hline hnames
    rw [hready] at hclosed
    cases hclosed
  · have hserver := hserves.server
    rw [hover] at hserver
    rw [hserver]
    rfl

/-- A server of the built-in operations whose session is ready. -/
def readyServer (registry : Registry) : Server where
  registry := registry
  session := Registry.startedSession
  files := default

/-- A call and a request that may overtake it. -/
def callAndPing : List String :=
  ["\x7b\"jsonrpc\":\"2.0\",\"id\":1,\"method\":\"tools/call\",\"params\":\x7b\"name\":\"" ++
    "are_we_ready_tool\"\x7d\x7d", "\x7b\"jsonrpc\":\"2.0\",\"id\":2,\"method\":\"ping\"\x7d"]

theorem written_exact_callAndPing : ∃ registry final, Catalogue.builtin = .ok registry ∧
    (readyServer registry).session.state = .ready ∧
      Run (new (readyServer registry) callAndPing) final ∧ final.reader = .returned ∧
        final.written.Perm (callAndPing.filterMap fun line =>
          (readyServer registry).reply (Server.readLine line)) ∧
        (∀ reply ∈ final.written, ¬reply.response.NamesFailure .contextClosed) ∧
        final.server.session.state = .closed := by
  obtain ⟨registry, hregistry, _⟩ := Catalogue.exists_builtin
  obtain ⟨final, hrun, hreturned⟩ := exists_run_returned (new (readyServer registry) callAndPing)
  obtain ⟨hperm, _, hopen, hclosed⟩ := written_exact rfl hrun hreturned
  exact ⟨registry, final, hregistry, rfl, hrun, hreturned, hperm, hopen hregistry, hclosed⟩

end Exchange

end JavaAtlas.Rpc
