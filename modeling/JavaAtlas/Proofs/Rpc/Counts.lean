import Mathlib.Algebra.BigOperators.Group.List.Basic
import Mathlib.Algebra.Ring.Nat
import JavaAtlas.Proofs.Data.Dict
import JavaAtlas.Proofs.Data.Sorting
import JavaAtlas.Proofs.Rpc.Delivery

set_option autoImplicit false

/-! # The counts of a server

The reader counts a request when it has read its line, a call counts its tool when it begins to run,
and a response is counted by the party that is about to send it. Between these points a line has
been read that some count still lacks, so the invariant adds to each count what the parties have yet
to add to it (`Balances`). It does not look at the session, which may change at any time under the
hands of others; what the calls answer is counted as they answer it. When the server has returned,
nothing is left to be added (`stats_balance`). -/

namespace JavaAtlas

/-- One more under a key is one more in all. -/
theorem Assoc.sum_insert_succ {κ : Type} [DecidableEq κ] (key : κ) (entries : List (κ × Nat)) :
    ((insert key ((find? key entries).getD 0 + 1) entries).map Prod.snd).sum =
      (entries.map Prod.snd).sum + 1 := by
  induction entries with
  | nil => rfl
  | cons entry rest ih =>
    obtain ⟨k, n⟩ := entry
    rw [find?_cons, insert]
    by_cases hkey : k = key
    · rw [if_pos hkey, if_pos hkey]
      simp only [Option.getD_some, List.map_cons, List.sum_cons]
      omega
    · rw [if_neg hkey, if_neg hkey, List.map_cons, List.sum_cons, ih, List.map_cons, List.sum_cons]
      omega

namespace Rpc

/-! ## What lines ask for -/

/-- Whether a line is a request, well-formed or not. -/
def asks (line : String) : Bool := !(Text.trim line).isEmpty

/-- The name of the tool that the parameters of a call ask for: they are an object in which `name`
is a string. -/
def toolName? : Option Json → Option String
  | some (.object members) => (Assoc.find? "name" members).bind Json.asString?
  | _ => none

/-- The name of the tool that a line calls. -/
def calledTool? (line : String) : Option String :=
  match (Json.readText (Text.trim line) : Except Json.ReadError Request) with
  | .ok request => if request.method = "tools/call" then toolName? request.params else none
  | .error _ => none

theorem asks_iff {line : String} : asks line = true ↔ Server.readLine line ≠ .blank := by
  unfold asks Server.readLine
  simp only [Bool.not_eq_true', ne_eq]
  split
  · next hblank => simp [hblank]
  · next hblank =>
    refine iff_of_true (by simpa using hblank) ?_
    split
    · simp
    · split <;> simp

/-- A line calls a tool if it begins a call whose parameters ask for one. -/
theorem calledTool?_eq (line : String) :
    calledTool? line = match Server.readLine line with
      | .call _ params => toolName? params
      | _ => none := by
  unfold calledTool?
  cases hread : (Json.readText (Text.trim line) : Except Json.ReadError Request) with
  | ok request =>
    rw [Server.readLine_of_readText hread]
    by_cases hmethod : request.method = "tools/call"
    · simp [hmethod, Server.callMethod]
    · simp [hmethod, Server.callMethod]
  | error error =>
    by_cases hblank : (Text.trim line).isEmpty = true
    · simp only [Server.readLine, hread, if_pos hblank]
    · simp only [Server.readLine, hread, if_neg hblank]

theorem countCall_eq (stats : Stats) (params : Option Json) :
    Server.countCall stats params = match toolName? params with
      | some name => stats.countCall name
      | none => stats := by
  unfold Server.countCall
  rcases params with _ | json
  · rfl
  cases json with
  | object members =>
    simp only [Server.calledTool, toolName?]
    cases (Assoc.find? "name" members).bind Json.asString? <;> rfl
  | _ => rfl

/-! ## Counted calls -/

/-- Whether a server has counted calls of the tools of these names, in whatever order. -/
structure Stats.Tallies (stats : Stats) (names : List String) : Prop where
  calls : stats.toolCalls = names.length
  counts : ∀ name count, stats.toolCallCounts.get? name = some count ↔
    name ∈ names ∧ count = names.count name
  sum : stats.toolCallCounts.values.sum = stats.toolCalls

namespace Stats

variable {stats : Stats} {names names' : List String}

theorem tallies_fresh : Stats.Tallies {} [] where
  calls := rfl
  counts _ _ := by simp
  sum := rfl

theorem Tallies.perm (h : stats.Tallies names) (hperm : names.Perm names') :
    stats.Tallies names' where
  calls := h.calls.trans hperm.length_eq
  counts name count := by rw [h.counts, hperm.count_eq, hperm.mem_iff]
  sum := h.sum

theorem Tallies.getD_eq (h : stats.Tallies names) (name : String) :
    (stats.toolCallCounts.get? name).getD 0 = names.count name := by
  cases hget : stats.toolCallCounts.get? name with
  | some count => exact ((h.counts name count).1 hget).2
  | none =>
    have hfresh : name ∉ names := by
      intro hmem
      rw [(h.counts name _).2 ⟨hmem, rfl⟩] at hget
      cases hget
    exact (List.count_eq_zero_of_not_mem hfresh).symm

theorem Tallies.countCall (h : stats.Tallies names) (name : String) :
    (stats.countCall name).Tallies (name :: names) where
  calls := congrArg (· + 1) h.calls
  counts other count := by
    show (stats.toolCallCounts.insert name ((stats.toolCallCounts.get? name).getD 0 + 1)).get?
      other = some count ↔ _
    rw [Dict.get?_insert, h.getD_eq]
    by_cases hother : name = other
    · subst hother
      rw [if_pos rfl, List.count_cons_self]
      simp [eq_comm]
    · rw [if_neg hother, h.counts, List.count_cons_of_ne hother, List.mem_cons]
      simp [Ne.symm hother]
  sum := (Assoc.sum_insert_succ name stats.toolCallCounts.entries).trans (congrArg (· + 1) h.sum)

theorem Tallies.countResponse (h : stats.Tallies names) (response : Response) :
    (stats.countResponse response).Tallies names := by
  unfold Stats.countResponse
  split
  · exact ⟨h.calls, h.counts, h.sum⟩
  · exact h

theorem Tallies.countParams (h : stats.Tallies names) (params : Option Json) :
    ∃ names', (Server.countCall stats params).Tallies names' ∧
      names'.Perm (names ++ (toolName? params).toList) := by
  rw [countCall_eq]
  cases toolName? params with
  | none => exact ⟨names, h, by simp⟩
  | some name =>
    exact ⟨name :: names, h.countCall name, (List.perm_append_singleton name names).symm⟩

theorem totalRequests_countCall (stats : Stats) (params : Option Json) :
    (Server.countCall stats params).totalRequests = stats.totalRequests := by
  rw [countCall_eq]
  split <;> rfl

theorem errors_countCall (stats : Stats) (params : Option Json) :
    (Server.countCall stats params).errors = stats.errors := by
  rw [countCall_eq]
  split <;> rfl

theorem totalRequests_countResponse (stats : Stats) (response : Response) :
    (stats.countResponse response).totalRequests = stats.totalRequests := by
  unfold Stats.countResponse
  split <;> rfl

theorem errors_countResponse (stats : Stats) (response : Response) :
    (stats.countResponse response).errors = stats.errors + [response].countP Response.isError := by
  unfold Stats.countResponse
  rw [List.countP_singleton]
  split <;> rfl

/-- The counts of the tools as they are reported: one for each name, in the order of names. -/
theorem Tallies.exists_counts (h : stats.Tallies names) :
    ∃ counts : List (String × Nat), stats.toJson = .object [
        ("total_requests", .int stats.totalRequests),
        ("tool_calls", .int names.length),
        ("errors", .int stats.errors),
        ("tool_call_counts", .object (counts.map fun (name, count) => (name, .int count)))] ∧
      IncreasingBy Prod.fst counts ∧
      (∀ name count, (name, count) ∈ counts ↔ name ∈ names ∧ count = names.count name) ∧
      names.length = (counts.map Prod.snd).sum := by
  refine ⟨sortByText Prod.fst stats.toolCallCounts.entries, ?_,
    increasingBy_sortByText stats.toolCallCounts.nodup, ?_, ?_⟩
  · rw [← h.calls]
    rfl
  · intro name count
    rw [mem_sortByText, Dict.mem_entries_iff, h.counts]
  · have hperm : (sortByText Prod.fst stats.toolCallCounts.entries).Perm
        stats.toolCallCounts.entries := List.mergeSort_perm ..
    rw [(hperm.map Prod.snd).sum_eq, ← h.calls]
    exact h.sum.symm

end Stats

namespace Exchange

variable {exchange exchange' : Exchange} {lines : List String}

/-! ## Runs beside others -/

/-- Any number of steps, between which others may do with the session what they like: draw its
atlas, fail to, or close it. -/
inductive SharedRun (exchange : Exchange) : Exchange → Prop where
  | nil : SharedRun exchange exchange
  | snoc {middle exchange' : Exchange} :
    SharedRun exchange middle → Step middle exchange' → SharedRun exchange exchange'
  | change {middle : Exchange} (session : Session) : SharedRun exchange middle →
    SharedRun exchange { middle with server := { middle.server with session := session } }

/-- Others may leave the session alone. -/
theorem Run.shared (h : Run exchange exchange') : SharedRun exchange exchange' := by
  induction h with
  | nil => exact .nil
  | snoc _ hstep ih => exact ih.snoc hstep

/-! ## What has been counted -/

/-- The tools that a call in flight has yet to count, of which there is one at most. -/
def Call.uncounted : Call → List String
  | .counting _ params => (toolName? params).toList
  | .asking _ _ | .recording _ | .sending _ => []

/-- The responses that a call in flight has counted. -/
def Call.recorded : Call → List Response
  | .sending response => [response]
  | .counting _ _ | .asking _ _ | .recording _ => []

/-- The responses that have been counted. -/
def recorded (exchange : Exchange) : List Response :=
  (exchange.written ++ exchange.channel).map Server.Reply.response ++
    exchange.calls.flatMap Call.recorded

/-- Whether the counts of the server, with what is left to be added to them, are those of the whole
input. -/
structure Balances (lines : List String) (exchange : Exchange) : Prop where
  requests : exchange.server.stats.totalRequests + exchange.input.countP asks = lines.countP asks
  errors : exchange.server.stats.errors = exchange.recorded.countP Response.isError
  calls : ∃ names, exchange.server.stats.Tallies names ∧
    (names ++ exchange.calls.flatMap Call.uncounted ++
      exchange.input.filterMap calledTool?).Perm (lines.filterMap calledTool?)

theorem balances_new {server : Server} (hfresh : server.stats = {}) (lines : List String) :
    Balances lines (new server lines) where
  requests := by simp [new, hfresh]
  errors := by simp [new, hfresh, recorded]
  calls := ⟨[], by rw [new, hfresh]; exact Stats.tallies_fresh, .refl _⟩

/-- The call that a line begins. -/
def begun : Server.Line → List Call
  | .call id params => [.counting id params]
  | .blank | .unreadable _ | .request _ => []

/-- Taking up a line counts it, unless it is blank, and may begin a call. -/
theorem exists_takeUp_eq (exchange : Exchange) {line : Server.Line} (hblank : line ≠ .blank) :
    ∃ reader, exchange.takeUp line =
      { exchange.countRequest with reader := reader, calls := exchange.calls ++ begun line } := by
  unfold takeUp
  split
  · exact absurd rfl hblank
  · exact ⟨exchange.reader, rfl⟩
  · next hcall =>
    have hbegun : begun line = [] := by
      cases line with
      | call id params => exact absurd rfl (hcall id params)
      | blank | unreadable error | request request => rfl
    rw [hbegun, List.append_nil]
    split
    · exact ⟨_, rfl⟩
    · exact ⟨exchange.reader, rfl⟩

theorem uncounted_begun (line : String) :
    (begun (Server.readLine line)).flatMap Call.uncounted = (calledTool? line).toList := by
  rw [calledTool?_eq]
  cases Server.readLine line with
  | call id params => exact List.append_nil _
  | blank | unreadable error | request request => rfl

theorem recorded_begun (line : Server.Line) : (begun line).flatMap Call.recorded = [] := by
  cases line <;> rfl

theorem Balances.takeUp {line : String} {rest : List String} (h : Balances lines exchange)
    (hinput : exchange.input = line :: rest) :
    Balances lines
      (({ exchange with input := rest } : Exchange).takeUp (Server.readLine line)) := by
  obtain ⟨hrequests, herrors, names, htallies, hperm⟩ := h
  rw [hinput] at hrequests hperm
  by_cases hblank : Server.readLine line = .blank
  · have hask : ¬asks line = true := fun hask => asks_iff.1 hask hblank
    have hcalled : calledTool? line = none := by rw [calledTool?_eq, hblank]
    rw [hblank]
    rw [List.countP_cons_of_neg hask] at hrequests
    rw [List.filterMap_cons_none hcalled] at hperm
    exact ⟨hrequests, herrors, names, htallies, hperm⟩
  · rw [List.countP_cons_of_pos (asks_iff.2 hblank)] at hrequests
    obtain ⟨reader, htaken⟩ :=
      ({ exchange with input := rest } : Exchange).exists_takeUp_eq hblank
    rw [htaken]
    refine ⟨?_, herrors.trans ?_, names, ⟨htallies.calls, htallies.counts, htallies.sum⟩, ?_⟩
    · show exchange.server.stats.totalRequests + 1 + rest.countP asks = _
      omega
    · simp [recorded, recorded_begun, countRequest]
    · have hline : (line :: rest).filterMap calledTool? =
          (calledTool? line).toList ++ rest.filterMap calledTool? := by
        simp [List.filterMap_eq_flatMap_toList]
      rw [hline] at hperm
      simpa [uncounted_begun, countRequest] using hperm

theorem CallStep.balances {before after : List Call} {call call' : Call} {server' : Server}
    (h : Balances lines exchange) (hcalls : exchange.calls = before ++ call :: after)
    (hstep : CallStep exchange.server call server' call') :
    Balances lines { exchange with server := server', calls := before ++ call' :: after } := by
  obtain ⟨hrequests, herrors, names, htallies, hperm⟩ := h
  rw [hcalls] at hperm
  cases hstep with
  | count id params =>
    obtain ⟨names', htallies', hnames'⟩ := htallies.countParams params
    refine ⟨?_, ?_, names', htallies', .trans ?_ hperm⟩
    · exact (congrArg (· + _) (Stats.totalRequests_countCall _ _)).trans hrequests
    · refine (Stats.errors_countCall _ _).trans (herrors.trans ?_)
      simp [recorded, hcalls, Call.recorded]
    · -- the call was to count its tool later and has done so now
      have hmoved : (names' ++ before.flatMap Call.uncounted).Perm
          (names ++ (before.flatMap Call.uncounted ++ (toolName? params).toList)) := by
        refine (hnames'.append_right _).trans ?_
        rw [List.append_assoc]
        exact List.perm_append_comm.append_left names
      simpa [Call.uncounted] using hmoved.append_right
        (after.flatMap Call.uncounted ++ exchange.input.filterMap calledTool?)
  | ask id params =>
    refine ⟨hrequests, herrors.trans ?_, names, htallies, ?_⟩
    · simp [recorded, hcalls, Call.recorded]
    · simpa [Call.uncounted] using hperm
  | record response =>
    refine ⟨?_, ?_, names, htallies.countResponse response, ?_⟩
    · exact (congrArg (· + _) (Stats.totalRequests_countResponse _ _)).trans hrequests
    · show (exchange.server.stats.countResponse response).errors = _
      rw [Stats.errors_countResponse, herrors]
      simp [recorded, hcalls, Call.recorded, List.countP_cons]
      omega
    · simpa [Call.uncounted] using hperm

theorem Step.balances (h : Balances lines exchange) (hstep : Step exchange exchange') :
    Balances lines exchange' := by
  cases hstep with
  | read hreader hinput => exact h.takeUp hinput
  | @reply reply hreader =>
    obtain ⟨hrequests, herrors, names, htallies, hperm⟩ := h
    refine ⟨?_, ?_, names, htallies.countResponse reply.response, hperm⟩
    · exact (congrArg (· + _) (Stats.totalRequests_countResponse _ _)).trans hrequests
    · show (exchange.server.stats.countResponse reply.response).errors = _
      rw [Stats.errors_countResponse, herrors]
      simp [recorded, List.countP_cons]
      omega
  | endInput hreader hinput => exact ⟨h.requests, h.errors, h.calls⟩
  | close hreader hcalls => exact ⟨h.requests, h.errors, h.calls⟩
  | finish hreader hchannel => exact ⟨h.requests, h.errors, h.calls⟩
  | call hcalls hstep => exact CallStep.balances h hcalls hstep
  | @send before after response hcalls =>
    obtain ⟨hrequests, herrors, names, htallies, hperm⟩ := h
    rw [hcalls] at hperm
    refine ⟨hrequests, herrors.trans ?_, names, htallies, ?_⟩
    · simp [recorded, hcalls, Call.recorded, List.countP_cons]
      omega
    · simpa [Call.uncounted] using hperm
  | @write reply rest hchannel =>
    refine ⟨h.requests, h.errors.trans ?_, h.calls⟩
    simp [recorded, hchannel]

/-! ## The end -/

/-- Whether nothing is left of what the reader has waited for. -/
def Drained (exchange : Exchange) : Prop :=
  match exchange.reader with
  | .reading | .replying _ => True
  | .joining => exchange.input = []
  | .closed => exchange.input = [] ∧ exchange.calls = []
  | .returned => exchange.input = [] ∧ exchange.calls = [] ∧ exchange.channel = []

/-- As long as the reader waits, what has run out stays so. -/
theorem Drained.of_reader (h : exchange.Drained) (hreader : exchange'.reader = exchange.reader)
    (hinput : exchange.input = [] → exchange'.input = [])
    (hcalls : exchange.calls = [] → exchange'.calls = [])
    (hchannel : exchange.calls = [] → exchange.channel = [] → exchange'.channel = []) :
    exchange'.Drained := by
  unfold Drained at h ⊢
  rw [hreader]
  cases hwaits : exchange.reader with
  | reading | replying reply => trivial
  | joining =>
    rw [hwaits] at h
    exact hinput h
  | closed =>
    rw [hwaits] at h
    exact ⟨hinput h.1, hcalls h.2⟩
  | returned =>
    rw [hwaits] at h
    exact ⟨hinput h.1, hcalls h.2.1, hchannel h.2.1 h.2.2⟩

theorem Step.drained (h : exchange.Drained) (hstep : Step exchange exchange') :
    exchange'.Drained := by
  cases hstep with
  | @read line rest hreader hinput =>
    unfold Drained
    rcases reader_takeUp { exchange with input := rest } (Server.readLine line) with
      hopen | ⟨reply, hopen⟩
    · rw [hopen, hreader]
      trivial
    · rw [hopen]
      trivial
  | reply hreader => trivial
  | endInput hreader hinput => exact hinput
  | close hreader hcalls =>
    unfold Drained at h
    rw [hreader] at h
    exact ⟨h, hcalls⟩
  | finish hreader hchannel =>
    unfold Drained at h
    rw [hreader] at h
    exact ⟨h.1, h.2, hchannel⟩
  | call hcalls hstep => exact h.of_reader rfl id (by simp [hcalls]) fun _ => id
  | send hcalls => exact h.of_reader rfl id (by simp [hcalls]) (by simp [hcalls])
  | write hchannel => exact h.of_reader rfl id id (by simp [hchannel])

theorem SharedRun.balances {server : Server} (hfresh : server.stats = {})
    (h : SharedRun (new server lines) exchange) : Balances lines exchange := by
  induction h with
  | nil => exact balances_new hfresh lines
  | snoc _ hstep ih => exact hstep.balances ih
  | change session _ ih => exact ⟨ih.requests, ih.errors, ih.calls⟩

theorem SharedRun.drained {server : Server} (h : SharedRun (new server lines) exchange) :
    exchange.Drained := by
  induction h with
  | nil => trivial
  | snoc _ hstep ih => exact hstep.drained ih
  | change session _ ih => exact ih

/-- A call of a tool. -/
def callLine (params : String) : String :=
  "\x7b\"jsonrpc\":\"2.0\",\"id\":1,\"method\":\"tools/call\",\"params\":" ++ params ++ "\x7d"

/-- Three calls, of which one names no tool, among a blank line, a line that cannot be read and
another request. -/
def callsAmongNoise : List String :=
  [callLine "\x7b\"name\":\"survey\"\x7d", " \t", "\x7b", callLine "\x7b\"name\":7\x7d",
    callLine "\x7b\"name\":\"census\"\x7d", Server.pingLine]

end Exchange

end Rpc

end JavaAtlas
