import JavaAtlas.Proofs.Rpc.Replies

set_option autoImplicit false

/-! # Exchanges

A server serves an input with several parties at work. One reads the lines, replies to most of them
and lets a call run on its own for each of the others; each call takes its steps by itself; one
writes what the others send, in the order in which it was sent. The steps of the parties follow one
another in any order. At the end of the input the reader waits for the calls in flight, closes the
session and waits for the writer.

Every exchange comes to an end (`exists_run_returned`), and if each line is finished before the next
one is read, then to the end that `Server.serve` says (`exists_run_serve`). -/

namespace JavaAtlas.Rpc

open Server (Reply)

namespace Exchange

/-- What the reader does next. -/
inductive Reader where
  | reading
  /-- Counts and sends the reply to the line that it has read. -/
  | replying (reply : Reply)
  /-- Waits for the calls in flight, after the end of the input. -/
  | joining
  /-- Waits for the writer, after the session has been closed. -/
  | closed
  | returned

/-- What a call in flight does next. -/
inductive Call where
  | counting (id : Json) (params : Option Json)
  /-- Asks the session and runs the operation. -/
  | asking (id : Json) (params : Option Json)
  | recording (response : Response)
  | sending (response : Response)

/-- The steps of a call on the server. -/
inductive CallStep (server : Server) : Call → Server → Call → Prop where
  | count (id : Json) (params : Option Json) :
    CallStep server (.counting id params)
      { server with stats := Server.countCall server.stats params } (.asking id params)
  | ask (id : Json) (params : Option Json) :
    CallStep server (.asking id params) server (.recording (server.callResponse id params))
  | record (response : Response) :
    CallStep server (.recording response)
      { server with stats := server.stats.countResponse response } (.sending response)

end Exchange

/-! ## The parties -/

/-- A server at work: the lines to come, the reader, the calls in flight, what has been sent to the
writer and what it has written. -/
structure Exchange where
  server : Server
  input : List String
  reader : Exchange.Reader := .reading
  calls : List Exchange.Call := []
  channel : List Reply := []
  written : List Reply := []

namespace Exchange

/-- The server about to serve an input. -/
def new (server : Server) (input : List String) : Exchange := { server := server, input := input }

/-- Counts a request. -/
def countRequest (exchange : Exchange) : Exchange :=
  { exchange with
    server := { exchange.server with stats := exchange.server.stats.countRequest } }

/-- Takes up a line that has been read: a call begins, or the reader turns to its reply if it gets
one. -/
def takeUp (exchange : Exchange) : Server.Line → Exchange
  | .blank => exchange
  | .call id params =>
    { exchange.countRequest with calls := exchange.calls ++ [.counting id params] }
  | line =>
    match exchange.server.reply line with
    | some reply => { exchange.countRequest with reader := .replying reply }
    | none => exchange.countRequest

/-- One step of one party. -/
inductive Step : Exchange → Exchange → Prop where
  | read {exchange : Exchange} {line : String} {rest : List String} :
    exchange.reader = .reading → exchange.input = line :: rest →
      Step exchange (({ exchange with input := rest } : Exchange).takeUp (Server.readLine line))
  | reply {exchange : Exchange} {reply : Reply} : exchange.reader = .replying reply →
    Step exchange
      { exchange with
        server := { exchange.server with
          stats := exchange.server.stats.countResponse reply.response }
        reader := .reading
        channel := exchange.channel ++ [reply] }
  | endInput {exchange : Exchange} : exchange.reader = .reading → exchange.input = [] →
    Step exchange { exchange with reader := .joining }
  | close {exchange : Exchange} : exchange.reader = .joining → exchange.calls = [] →
    Step exchange
      { exchange with
        server := { exchange.server with session := exchange.server.session.close }
        reader := .closed }
  | finish {exchange : Exchange} : exchange.reader = .closed → exchange.channel = [] →
    Step exchange { exchange with reader := .returned }
  | call {exchange : Exchange} {before after : List Call} {call call' : Call} {server' : Server} :
    exchange.calls = before ++ call :: after → CallStep exchange.server call server' call' →
      Step exchange { exchange with server := server', calls := before ++ call' :: after }
  | send {exchange : Exchange} {before after : List Call} {response : Response} :
    exchange.calls = before ++ .sending response :: after →
      Step exchange
        { exchange with
          calls := before ++ after
          channel := exchange.channel ++ [⟨response, true⟩] }
  | write {exchange : Exchange} {reply : Reply} {rest : List Reply} :
    exchange.channel = reply :: rest →
      Step exchange { exchange with channel := rest, written := exchange.written ++ [reply] }

/-- Any number of steps. -/
inductive Run (exchange : Exchange) : Exchange → Prop where
  | nil : Run exchange exchange
  | snoc {middle exchange' : Exchange} :
    Run exchange middle → Step middle exchange' → Run exchange exchange'

variable {exchange exchange' exchange'' : Exchange} {server : Server} {line : String}
  {lines : List String}

theorem Run.single (h : Step exchange exchange') : Run exchange exchange' :=
  .snoc .nil h

theorem Run.trans (h : Run exchange exchange') (h' : Run exchange' exchange'') :
    Run exchange exchange'' := by
  induction h' with
  | nil => exact h
  | snoc _ hstep ih => exact ih.snoc hstep

/-! ## The end -/

/-- The steps that a call has before it, with the one that writes its response. -/
def Call.work : Call → Nat
  | .counting _ _ => 5
  | .asking _ _ => 4
  | .recording _ => 3
  | .sending _ => 2

/-- The steps that the calls have before them. -/
def callsWork : List Call → Nat
  | [] => 0
  | call :: rest => call.work + callsWork rest

theorem callsWork_append (calls calls' : List Call) :
    callsWork (calls ++ calls') = callsWork calls + callsWork calls' := by
  induction calls with
  | nil => exact (Nat.zero_add _).symm
  | cons call rest ih => rw [List.cons_append, callsWork, callsWork, ih, Nat.add_assoc]

/-- The steps that the reader has before it, but for those of the lines to come. -/
def Reader.work : Reader → Nat
  | .reading => 3
  | .replying _ => 5
  | .joining => 2
  | .closed => 1
  | .returned => 0

/-- A bound for the steps that are left. -/
def work (exchange : Exchange) : Nat :=
  6 * exchange.input.length + exchange.reader.work + callsWork exchange.calls +
    exchange.channel.length

theorem CallStep.work_lt {call call' : Call} {server' : Server}
    (h : CallStep server call server' call') : call'.work < call.work := by
  cases h <;> simp [Call.work]

theorem work_takeUp_lt (exchange : Exchange) (hreader : exchange.reader = .reading)
    (line : Server.Line) :
    (exchange.takeUp line).work < exchange.work + 6 := by
  unfold takeUp
  split
  · omega
  · simp [work, countRequest, callsWork_append, callsWork, Call.work]
    omega
  · split
    · simp [work, countRequest, hreader, Reader.work]
      omega
    · simp [work, countRequest, hreader, Reader.work]

/-- An exchange cannot go on for ever. -/
theorem Step.work_lt (h : Step exchange exchange') : exchange'.work < exchange.work := by
  cases h with
  | @read line rest hreader hinput =>
    have hlt := work_takeUp_lt { exchange with input := rest } hreader (Server.readLine line)
    have hwork : exchange.work = ({ exchange with input := rest } : Exchange).work + 6 := by
      simp [work, hinput]
      omega
    omega
  | reply hreader =>
    simp [work, hreader, Reader.work]
    omega
  | endInput hreader => simp [work, hreader, Reader.work]
  | close hreader => simp [work, hreader, Reader.work]
  | finish hreader => simp [work, hreader, Reader.work]
  | call hcalls hstep =>
    have hlt := hstep.work_lt
    simp [work, hcalls, callsWork_append, callsWork]
    omega
  | send hcalls =>
    simp [work, hcalls, callsWork_append, callsWork, Call.work]
    omega
  | write hchannel => simp [work, hchannel]

theorem exists_callStep (exchange : Exchange) {call : Call} {rest : List Call}
    (h : exchange.calls = call :: rest) : ∃ exchange', Step exchange exchange' := by
  have hcalls : exchange.calls = [] ++ call :: rest := h
  cases call with
  | counting => exact ⟨_, .call hcalls (.count _ _)⟩
  | asking => exact ⟨_, .call hcalls (.ask _ _)⟩
  | recording => exact ⟨_, .call hcalls (.record _)⟩
  | sending => exact ⟨_, .send hcalls⟩

/-- An exchange that has not returned is not stuck. -/
theorem exists_step (exchange : Exchange) (h : exchange.reader ≠ .returned) :
    ∃ exchange', Step exchange exchange' := by
  cases hreader : exchange.reader with
  | reading =>
    cases hinput : exchange.input with
    | nil => exact ⟨_, .endInput hreader hinput⟩
    | cons line rest => exact ⟨_, .read hreader hinput⟩
  | replying reply => exact ⟨_, .reply hreader⟩
  | joining =>
    cases hcalls : exchange.calls with
    | nil => exact ⟨_, .close hreader hcalls⟩
    | cons call rest => exact exchange.exists_callStep hcalls
  | closed =>
    cases hchannel : exchange.channel with
    | nil => exact ⟨_, .finish hreader hchannel⟩
    | cons reply rest => exact ⟨_, .write hchannel⟩
  | returned => exact absurd hreader h

/-- However far it has come, an exchange can be brought to its end. -/
theorem exists_run_returned (exchange : Exchange) :
    ∃ final, Run exchange final ∧ final.reader = .returned := by
  induction hwork : exchange.work using Nat.strongRecOn generalizing exchange with
  | ind n ih =>
    by_cases hreturned : exchange.reader = .returned
    · exact ⟨exchange, .nil, hreturned⟩
    · obtain ⟨exchange', hstep⟩ := exchange.exists_step hreturned
      obtain ⟨final, hrun, hfinal⟩ := ih _ (hwork ▸ hstep.work_lt) exchange' rfl
      exact ⟨final, (Run.single hstep).trans hrun, hfinal⟩

/-! ## One line after the other -/

theorem takeUp_request_of_none (exchange : Exchange) {request : Request}
    (h : exchange.server.reply (.request request) = none) :
    exchange.takeUp (.request request) = exchange.countRequest := by
  simp [takeUp, h]

theorem takeUp_request_of_some (exchange : Exchange) {request : Request} {reply : Reply}
    (h : exchange.server.reply (.request request) = some reply) :
    exchange.takeUp (.request request) =
      { exchange.countRequest with reader := .replying reply } := by
  simp [takeUp, h]

/-- A line whose reply is written before the next line is read is handled as by
`Server.handleLine`. -/
theorem run_handleLine (server : Server) (line : String) (rest : List String)
    (written : List Reply) :
    Run ⟨server, line :: rest, .reading, [], [], written⟩
      ⟨(server.handleLine line).2, rest, .reading, [], [],
        written ++ (server.handleLine line).1.toList⟩ := by
  have hread : Step ⟨server, line :: rest, .reading, [], [], written⟩
      (takeUp ⟨server, rest, .reading, [], [], written⟩ (Server.readLine line)) := .read rfl rfl
  rw [Server.handleLine_eq]
  generalize Server.readLine line = line' at hread ⊢
  have hreply (server : Server) (reply : Reply) :
      Run ⟨server, rest, .replying reply, [], [], written⟩
        ⟨{ server with stats := server.stats.countResponse reply.response }, rest, .reading, [], [],
          written ++ [reply]⟩ :=
    (Run.single (.reply rfl)).snoc (.write rfl)
  cases line' with
  | blank =>
    show Run _ ⟨server, rest, .reading, [], [], written ++ []⟩
    rw [List.append_nil]
    exact .single hread
  | unreadable error => exact (Run.single hread).trans (hreply _ _)
  | call id params =>
    have hcount := (Run.single hread).snoc (@Step.call _ [] [] _ _ _ rfl (.count id params))
    have hask := hcount.snoc (@Step.call _ [] [] _ _ _ rfl (.ask id params))
    have hrecord := hask.snoc (@Step.call _ [] [] _ _ _ rfl (.record _))
    have hsend := hrecord.snoc (@Step.send _ [] [] _ rfl)
    exact hsend.snoc (.write rfl)
  | request request =>
    cases hline : server.reply (.request request) with
    | none =>
      rw [takeUp_request_of_none ⟨server, rest, .reading, [], [], written⟩ hline] at hread
      show Run _ ⟨_, rest, .reading, [], [], written ++ []⟩
      rw [List.append_nil]
      exact .single hread
    | some reply =>
      rw [takeUp_request_of_some ⟨server, rest, .reading, [], [], written⟩ hline] at hread
      exact (Run.single hread).trans (hreply _ _)

/-- The parties may finish each line before the next one is read, and then the server serves the
input as `Server.serve` says. -/
theorem exists_run_serve (server : Server) (lines : List String) :
    ∃ final, Run (new server lines) final ∧ final.reader = .returned ∧
      final.written = (server.serve lines).1 ∧ final.server = (server.serve lines).2 := by
  have hrun (written : List Reply) : Run ⟨server, lines, .reading, [], [], written⟩
      ⟨(server.serve lines).2, [], .returned, [], [], written ++ (server.serve lines).1⟩ := by
    induction lines generalizing server written with
    | nil =>
      show Run _ ⟨_, [], .returned, [], [], written ++ []⟩
      rw [List.append_nil]
      exact ((Run.single (.endInput rfl rfl)).snoc (.close rfl rfl)).snoc (.finish rfl rfl)
    | cons line rest ih =>
      have hrest := ih (server.handleLine line).2 (written ++ (server.handleLine line).1.toList)
      rw [List.append_assoc] at hrest
      rw [Server.serve_cons]
      exact (run_handleLine server line rest written).trans hrest
  exact ⟨_, hrun [], rfl, rfl, rfl⟩

end Exchange

end JavaAtlas.Rpc
