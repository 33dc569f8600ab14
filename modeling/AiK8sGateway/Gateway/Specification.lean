import AiK8sGateway.Approval.PendingSet
import AiK8sGateway.Gateway.Linearization

/-!
# The Gateway as a Service

What the gateway is for, without handlers, a queue or an event loop: a service that
answers one request at a time.  Its state is the list of requests that wait for a human,
the audit log and the executions so far.  It remembers nothing else about a request.

## Main results

- `Service.Step`: the answers that the service may give, and what they change.
- `step_of_run`: a handler that runs alone is one step of the service.
- `gateway_refines_service`: every run of the event loop is a run of the service.
-/

namespace AiK8sGateway

open Foundations EffectProgram PythonText Approval Audit Auth Risk Relation Reachable

/-! ## The service -/

/-- A call of `execute_action`: the request it is for, its arguments and how it ended. -/
structure Execution where
  requestId : Option String
  action : String
  resource : String
  «namespace» : String
  params : JsonDict
  reply : ExecReply

/-- What waits for a human in the order in which it was submitted, the audit log, and the
    executions so far. -/
structure Service where
  pending : List PendingRequest
  log : List AuditRecord
  executed : List Execution

namespace Service

/-- Before the first request. -/
def start : Service := ⟨[], [], []⟩

/-- A record is appended to the log. -/
def record (s : Service) (r : AuditRecord) : Service := { s with log := s.log ++ [r] }

/-- A request waits for a human. -/
def submit (s : Service) (p : PendingRequest) : Service := { s with pending := s.pending ++ [p] }

/-- No request with this id waits any longer. -/
def claim (s : Service) (i : String) : Service :=
  { s with pending := s.pending.filter (·.requestId ≠ i) }

/-- Something was executed. -/
def execute (s : Service) (e : Execution) : Service := { s with executed := s.executed ++ [e] }

@[simp] theorem pending_record (s : Service) (r : AuditRecord) :
    (s.record r).pending = s.pending := rfl

@[simp] theorem pending_submit (s : Service) (p : PendingRequest) :
    (s.submit p).pending = s.pending ++ [p] := rfl

@[simp] theorem pending_claim (s : Service) (i : String) :
    (s.claim i).pending = s.pending.filter (·.requestId ≠ i) := rfl

@[simp] theorem pending_execute (s : Service) (e : Execution) :
    (s.execute e).pending = s.pending := rfl

@[simp] theorem log_record (s : Service) (r : AuditRecord) :
    (s.record r).log = s.log ++ [r] := rfl

@[simp] theorem log_submit (s : Service) (p : PendingRequest) : (s.submit p).log = s.log := rfl

@[simp] theorem log_claim (s : Service) (i : String) : (s.claim i).log = s.log := rfl

@[simp] theorem log_execute (s : Service) (e : Execution) : (s.execute e).log = s.log := rfl

@[simp] theorem executed_record (s : Service) (r : AuditRecord) :
    (s.record r).executed = s.executed := rfl

@[simp] theorem executed_submit (s : Service) (p : PendingRequest) :
    (s.submit p).executed = s.executed := rfl

@[simp] theorem executed_claim (s : Service) (i : String) :
    (s.claim i).executed = s.executed := rfl

@[simp] theorem executed_execute (s : Service) (e : Execution) :
    (s.execute e).executed = s.executed ++ [e] := rfl

end Service

/-- The direct execution of a request. -/
def AgentCall.execution (c : AgentCall) (reply : ExecReply) : Execution :=
  ⟨some c.requestId, c.body.action, c.body.resource, c.body.namespace, c.body.params, reply⟩

/-- The execution of a pending request. -/
def executionOfPending (p : PendingRequest) (reply : ExecReply) : Execution :=
  ⟨some p.requestId, p.action, p.resource, p.namespace, p.params, reply⟩

section Steps

variable [Runtime] (settings : Settings) (opa : Opa)

/-- The request was verified and scored, OPA was asked about it, and this is what the
    gateway made of the reply. -/
structure AgentCall.Judged (c : AgentCall) (token : TokenPayload) (rs : RiskScore)
    (decision : Except PyExc (Bool × String)) : Prop where
  scored : c.Scored settings token rs
  asked : ∃ reply, opa (opaEndpoint settings) (opaInput token.sub token.role c.body.action
    c.body.resource c.body.namespace rs.level c.body.params) reply ∧ readDecision reply = decision

/-- The request may be executed with this reply. -/
def MayExecute (action resource namespace_ : String) (params : JsonDict) (exec : ExecReply) :
    Prop :=
  Prog.Path (K8s.executeAction action resource namespace_ params).run exec.actions
    (.done exec.result)

/-- One request and its answer. -/
inductive Service.Step : Service → Call → HttpReply → Service → Prop where
  | refused {s : Service} {call : Call} {e : HandlerExc}
      (htoken : call.token settings = .error e) : Step s call (httpResponse (.error e)) s
  | unscored {s : Service} {c : AgentCall} {token : TokenPayload} {e : BuiltinError}
      (htoken : (Call.agentAction c).token settings = .ok token)
      (hscore : score settings c.body.action c.body.resource c.body.namespace
        (some c.body.params) = .error e) :
      Step s (.agentAction c) (httpResponse (.error (.uncaught (.builtin e)))) s
  | undecided {s : Service} {c : AgentCall} {token : TokenPayload} {rs : RiskScore} {e : PyExc}
      (h : c.Judged settings opa token rs (.error e)) :
      Step s (.agentAction c) (httpResponse (.error (.uncaught e))) s
  | denied {s : Service} {c : AgentCall} {token : TokenPayload} {rs : RiskScore}
      {reason : String} (h : c.Judged settings opa token rs (.ok (false, reason))) :
      Step s (.agentAction c) (httpResponse (.error (c.denied rs reason)))
        (s.record (c.record token rs .deny reason))
  | queued {s : Service} {c : AgentCall} {token : TokenPayload} {rs : RiskScore}
      {reason : String} (h : c.Judged settings opa token rs (.ok (true, reason)))
      (hlevel : rs.level = .high) :
      Step s (.agentAction c) (httpResponse (.ok (c.queued rs).toJson))
        ((s.submit (c.pending token rs)).record (c.record token rs .pendingApproval reason))
  | executed {s : Service} {c : AgentCall} {token : TokenPayload} {rs : RiskScore}
      {reason : String} {exec : ExecReply} {data : Json}
      (h : c.Judged settings opa token rs (.ok (true, reason))) (hlevel : rs.level ≠ .high)
      (hexec : MayExecute c.body.action c.body.resource c.body.namespace c.body.params exec)
      (hdata : c.executionResult exec = .ok data) :
      Step s (.agentAction c) (httpResponse (.ok (c.allowed rs data).toJson))
        ((s.execute (c.execution exec)).record (c.record token rs .allow reason))
  -- An execution that raised has happened all the same, and is not in the log.
  | executionFailed {s : Service} {c : AgentCall} {token : TokenPayload} {rs : RiskScore}
      {reason : String} {exec : ExecReply} {e : HandlerExc}
      (h : c.Judged settings opa token rs (.ok (true, reason))) (hlevel : rs.level ≠ .high)
      (hexec : MayExecute c.body.action c.body.resource c.body.namespace c.body.params exec)
      (herror : c.executionResult exec = .error e) :
      Step s (.agentAction c) (httpResponse (.error e)) (s.execute (c.execution exec))
  | listed {s : Service} {c : ListCall} {token : TokenPayload}
      (htoken : (Call.listPending c).token settings = .ok token) :
      Step s (.listPending c)
        (httpResponse (.ok (.obj [("count", .int s.pending.length),
          ("items", .arr (s.pending.map PendingRequest.toDict))]))) s
  | notPending {s : Service} {c : ApproveCall} {token : TokenPayload}
      (htoken : (Call.approveAction c).token settings = .ok token)
      (hnone : ∀ p ∈ s.pending, p.requestId ≠ c.requestId) :
      Step s (.approveAction c) (httpResponse (.error c.notPending)) s
  | approved {s : Service} {c : ApproveCall} {token : TokenPayload} {p : PendingRequest}
      {exec : ExecReply} {data : Json} {message : String}
      (htoken : (Call.approveAction c).token settings = .ok token) (hp : p ∈ s.pending)
      (hid : p.requestId = c.requestId) (happroved : c.body.approved = true)
      (hexec : MayExecute p.action p.resource p.namespace p.params exec)
      (hdata : pendingResult p exec = .ok data) :
      Step s (.approveAction c)
        (httpResponse (.ok (c.answer token.sub .humanAllow message data)))
        (((s.claim c.requestId).execute (executionOfPending p exec)).record
          (c.record token.sub p .humanAllow))
  | approvalFailed {s : Service} {c : ApproveCall} {token : TokenPayload} {p : PendingRequest}
      {exec : ExecReply} {e : HandlerExc}
      (htoken : (Call.approveAction c).token settings = .ok token) (hp : p ∈ s.pending)
      (hid : p.requestId = c.requestId) (happroved : c.body.approved = true)
      (hexec : MayExecute p.action p.resource p.namespace p.params exec)
      (herror : pendingResult p exec = .error e) :
      Step s (.approveAction c) (httpResponse (.error e))
        ((s.claim c.requestId).execute (executionOfPending p exec))
  | rejected {s : Service} {c : ApproveCall} {token : TokenPayload} {p : PendingRequest}
      {message : String}
      (htoken : (Call.approveAction c).token settings = .ok token) (hp : p ∈ s.pending)
      (hid : p.requestId = c.requestId) (happroved : c.body.approved = false) :
      Step s (.approveAction c)
        (httpResponse (.ok (c.answer token.sub .humanDeny message .null)))
        ((s.claim c.requestId).record (c.record token.sub p .humanDeny))

/-- The service answers the requests one after the other. -/
inductive ServiceRun : List Finished → Service → Prop where
  | start : ServiceRun [] .start
  | snoc {runs : List Finished} {s s' : Service} {x : Finished} (h : ServiceRun runs s)
      (hstep : Service.Step settings opa s x.call x.result s') : ServiceRun (runs ++ [x]) s'

end Steps

/-! ## The state of a history -/

/-- The execution that an event is. -/
def executionOf? : GatewayEvent → Option Execution
  | .act _ call ⟨.executeAction action resource namespace_ params, exec⟩ =>
    some ⟨call.requestId?, action, resource, namespace_, params, exec⟩
  | _ => none

/-- The executions of a history. -/
def executionsOf (h : List GatewayEvent) : List Execution := h.filterMap executionOf?

@[simp] theorem executionsOf_append (h h' : List GatewayEvent) :
    executionsOf (h ++ h') = executionsOf h ++ executionsOf h' := List.filterMap_append

/-- The service is in the state that the queue and the history show. -/
structure Represents (s : Service) (q : ApprovalQueue) (h : List GatewayEvent) : Prop where
  pending : q.queue.values = s.pending
  log : recordsOf h = s.log
  executed : executionsOf h = s.executed

theorem represents_start : Represents .start .empty [] := ⟨rfl, rfl, rfl⟩

/-- An arrival shows nothing. -/
theorem Represents.of_acts {s : Service} {q : ApprovalQueue} {h : List GatewayEvent}
    (hrep : Represents s q (h.filter Event.isAct)) : Represents s q h := by
  obtain ⟨hpending, hlog, hexecuted⟩ := hrep
  refine ⟨hpending, ?_, ?_⟩
  · rw [← hlog, recordsOf, recordsOf, List.filterMap_filter]
    refine List.filterMap_congr fun e _ => ?_
    cases e <;> rfl
  · rw [← hexecuted, executionsOf, executionsOf, List.filterMap_filter]
    refine List.filterMap_congr fun e _ => ?_
    cases e <;> rfl

section Changes

variable {s : Service} {q q' : ApprovalQueue} {h : List GatewayEvent}

/-- The operations of a handler, with what they change. -/
theorem Represents.events (hrep : Represents s q h) {s' : Service} (t : Nat) (call : Call)
    (acts : List (Action signature)) (hpending : q'.queue.values = s'.pending)
    (hlog : s'.log = s.log ++ recordsOf (acts.map (.act t call)))
    (hexecuted : s'.executed = s.executed ++ executionsOf (acts.map (.act t call))) :
    Represents s' q' (h ++ acts.map (.act t call)) where
  pending := hpending
  log := by rw [recordsOf_append, hrep.log, hlog]
  executed := by rw [executionsOf_append, hrep.executed, hexecuted]

/-- What `resolve` found was pending, and is no longer so. -/
theorem Represents.resolved (hrep : Represents s q h) {i : String} {p : PendingRequest}
    (hresolve : (some p, q') = q.resolve i) :
    p ∈ s.pending ∧ p.requestId = i ∧ q'.queue.values = (s.claim i).pending := by
  obtain ⟨hmem, hid⟩ := ApprovalQueue.peek_eq_some_iff.mp (congrArg Prod.fst hresolve).symm
  refine ⟨hrep.pending ▸ hmem, hid, ?_⟩
  obtain rfl : q' = (q.resolve i).2 := congrArg Prod.snd hresolve
  rw [ApprovalQueue.values_resolve, hrep.pending, Service.pending_claim]

/-- What it did not find was not pending, and nothing changes. -/
theorem Represents.unresolved (hrep : Represents s q h) {i : String}
    (hresolve : (none, q') = q.resolve i) :
    (∀ p ∈ s.pending, p.requestId ≠ i) ∧ q'.queue.values = s.pending := by
  have hnone : q.peek i = none := (congrArg Prod.fst hresolve).symm
  obtain rfl : q' = (q.resolve i).2 := congrArg Prod.snd hresolve
  constructor
  · rw [← hrep.pending]
    exact ApprovalQueue.peek_eq_none_iff.mp hnone
  · rw [ApprovalQueue.resolve_of_peek hnone, hrep.pending]

/-- The execution after an approval is that of the pending request. -/
theorem executions_of_approval (t : Nat) {c : ApproveCall} {p : PendingRequest}
    {exec : ExecReply} (hid : p.requestId = c.requestId) :
    [executionOfPending p exec] =
      executionsOf [.act t (.approveAction c) (executedPending p exec)] := by
  rw [executionOfPending, hid]
  rfl

end Changes

section Refinement

variable [Runtime] {settings : Settings} {opa : Opa} {s : Service} {q q' : ApprovalQueue}
  {h : List GatewayEvent}

/-- A whole run of `agent_action`, whose id is not pending. -/
theorem step_of_agentTrace (hrep : Represents s q h) (t : Nat) {c : AgentCall}
    {acts : List (Action signature)} {result : Except HandlerExc AgentActionResponse}
    (htrace : AgentTrace settings c acts (some result))
    (hserved : EffectProgram.Served (serves opa) q acts q')
    (hnew : ∀ p ∈ s.pending, p.requestId ≠ c.requestId) :
    ∃ s', Service.Step settings opa s (.agentAction c)
        (httpResponse (result.map AgentActionResponse.toJson)) s' ∧
      Represents s' q' (h ++ acts.map (.act t (.agentAction c))) := by
  cases htrace with
  | rejected hverify =>
    -- Rejected by `verify_token`: nothing happens.
    obtain rfl := served_nil_iff.mp hserved
    exact ⟨s, .refused hverify, hrep.events t _ [] hrep.pending (List.append_nil _).symm
      (List.append_nil _).symm⟩
  | unscored hverify hscore =>
    -- Rejected by the scorer: nothing happens.
    obtain rfl := served_nil_iff.mp hserved
    exact ⟨s, .unscored hverify hscore, hrep.events t _ [] hrep.pending
      (List.append_nil _).symm (List.append_nil _).symm⟩
  | unread hs hread =>
    -- OPA's reply cannot be read: the query changes nothing.
    simp only [served_cons_iff, served_nil_iff] at hserved
    obtain ⟨_, ⟨hopa, rfl⟩, rfl⟩ := hserved
    exact ⟨s, .undecided ⟨hs, _, hopa, hread⟩, hrep.events t _ _ hrep.pending
      (List.append_nil _).symm (List.append_nil _).symm⟩
  | denied hs hread =>
    -- Denied: one audit record.
    simp only [served_cons_iff, served_nil_iff] at hserved
    obtain ⟨_, ⟨hopa, rfl⟩, _, rfl, rfl⟩ := hserved
    exact ⟨_, .denied ⟨hs, _, hopa, hread⟩, hrep.events t _ _ hrep.pending rfl
      (List.append_nil _).symm⟩
  | queued hs hread hlevel =>
    -- Queued: one entry and one audit record.
    simp only [served_cons_iff, served_nil_iff] at hserved
    obtain ⟨_, ⟨hopa, rfl⟩, _, henqueue, _, rfl, rfl⟩ := hserved
    obtain rfl := congrArg Prod.snd henqueue
    refine ⟨_, .queued ⟨hs, _, hopa, hread⟩ hlevel, hrep.events t _ _ ?_ rfl
      (List.append_nil _).symm⟩
    -- The id is new, so the request goes to the end of the queue.
    rw [ApprovalQueue.values_enqueue, hrep.pending]
    · rfl
    · rw [ApprovalQueue.peek_eq_none_iff, hrep.pending]
      exact hnew
  | failed hs hread hlevel hexec =>
    -- The execution raised: it has happened, and nothing is recorded.
    simp only [served_cons_iff, served_nil_iff] at hserved
    obtain ⟨_, ⟨hopa, rfl⟩, _, ⟨hmay, rfl⟩, rfl⟩ := hserved
    exact ⟨_, .executionFailed ⟨hs, _, hopa, hread⟩ hlevel hmay hexec,
      hrep.events t _ _ hrep.pending (List.append_nil _).symm rfl⟩
  | allowed hs hread hlevel hexec =>
    -- Allowed: one execution and one audit record.
    simp only [served_cons_iff, served_nil_iff] at hserved
    obtain ⟨_, ⟨hopa, rfl⟩, _, ⟨hmay, rfl⟩, _, rfl, rfl⟩ := hserved
    exact ⟨_, .executed ⟨hs, _, hopa, hread⟩ hlevel hmay hexec,
      hrep.events t _ _ hrep.pending rfl rfl⟩

/-- A whole run of `list_pending`. -/
theorem step_of_listTrace (hrep : Represents s q h) (t : Nat) {c : ListCall}
    {acts : List (Action signature)} {result : Except HandlerExc Json}
    (htrace : ListTrace settings c acts (some result))
    (hserved : EffectProgram.Served (serves opa) q acts q') :
    ∃ s', Service.Step settings opa s (.listPending c) (httpResponse result) s' ∧
      Represents s' q' (h ++ acts.map (.act t (.listPending c))) := by
  cases htrace with
  | rejected hverify =>
    obtain rfl := served_nil_iff.mp hserved
    exact ⟨s, .refused hverify, hrep.events t _ [] hrep.pending (List.append_nil _).symm
      (List.append_nil _).symm⟩
  | @listed token items hverify =>
    simp only [served_cons_iff, served_nil_iff] at hserved
    obtain ⟨_, ⟨hitems, rfl⟩, rfl⟩ := hserved
    obtain rfl : items = s.pending.map PendingRequest.toDict := by
      rw [← hrep.pending]
      exact hitems
    refine ⟨s, ?_, hrep.events t _ _ hrep.pending (List.append_nil _).symm
      (List.append_nil _).symm⟩
    rw [List.length_map]
    exact .listed hverify

/-- A whole run of `approve_action`. -/
theorem step_of_approveTrace (hrep : Represents s q h) (t : Nat) {c : ApproveCall}
    {acts : List (Action signature)} {result : Except HandlerExc Json}
    (htrace : ApproveTrace settings c acts (some result))
    (hserved : EffectProgram.Served (serves opa) q acts q') :
    ∃ s', Service.Step settings opa s (.approveAction c) (httpResponse result) s' ∧
      Represents s' q' (h ++ acts.map (.act t (.approveAction c))) := by
  cases htrace with
  | rejected hverify =>
    -- Rejected by `verify_token`: nothing happens.
    obtain rfl := served_nil_iff.mp hserved
    exact ⟨s, .refused hverify, hrep.events t _ [] hrep.pending (List.append_nil _).symm
      (List.append_nil _).symm⟩
  | unknown hverify =>
    -- Not pending: nothing happens.
    simp only [served_cons_iff, served_nil_iff] at hserved
    obtain ⟨_, hresolve, rfl⟩ := hserved
    obtain ⟨hothers, hpending⟩ := hrep.unresolved hresolve
    exact ⟨s, .notPending hverify hothers, hrep.events t _ _ hpending (List.append_nil _).symm
      (List.append_nil _).symm⟩
  | failed hverify happroved hexec =>
    -- Approved, but the execution raised: the entry is gone, and nothing is recorded.
    simp only [served_cons_iff, served_nil_iff] at hserved
    obtain ⟨_, hresolve, _, ⟨hmay, rfl⟩, rfl⟩ := hserved
    obtain ⟨hp, hid, hpending⟩ := hrep.resolved hresolve
    exact ⟨_, .approvalFailed hverify hp hid happroved hmay hexec,
      hrep.events t _ _ hpending (List.append_nil _).symm
        (congrArg _ (executions_of_approval t hid))⟩
  | approved hverify happroved hexec =>
    -- Approved: the entry is gone, one execution, one audit record.
    simp only [served_cons_iff, served_nil_iff] at hserved
    obtain ⟨_, hresolve, _, ⟨hmay, rfl⟩, _, rfl, rfl⟩ := hserved
    obtain ⟨hp, hid, hpending⟩ := hrep.resolved hresolve
    exact ⟨_, .approved hverify hp hid happroved hmay hexec,
      hrep.events t _ _ hpending rfl (congrArg _ (executions_of_approval t hid))⟩
  | denied hverify happroved =>
    -- Rejected by the human: the entry is gone, one audit record.
    simp only [served_cons_iff, served_nil_iff] at hserved
    obtain ⟨_, hresolve, _, rfl, rfl⟩ := hserved
    obtain ⟨hp, hid, hpending⟩ := hrep.resolved hresolve
    exact ⟨_, .rejected hverify hp hid happroved,
      hrep.events t _ _ hpending rfl (List.append_nil _).symm⟩

/-- **A handler that runs alone** is one step of the service, if the id of a submission is
    not pending. -/
theorem step_of_run (hrep : Represents s q h) (t : Nat) {call : Call}
    {acts : List (Action signature)} {response : HttpReply}
    (hpath : Prog.Path (call.handle settings) acts (.done response))
    (hserved : EffectProgram.Served (serves opa) q acts q')
    (hnew : ∀ req, call = .agentAction req → ∀ p ∈ s.pending, p.requestId ≠ req.requestId) :
    ∃ s', Service.Step settings opa s call response s' ∧
      Represents s' q' (h ++ acts.map (.act t call)) := by
  have htrace := callTrace_of_path settings hpath
  generalize hout : (Prog.done response).outcome = out at htrace
  cases htrace with
  | @agentAction c _ out htrace =>
    -- Its trace has ended, as the thread has.
    cases out with
    | none => cases hout
    | some result =>
      cases hout
      exact step_of_agentTrace hrep t htrace hserved (hnew c rfl)
  | @listPending c _ out htrace =>
    cases out with
    | none => cases hout
    | some result =>
      cases hout
      exact step_of_listTrace hrep t htrace hserved
  | @approveAction c _ out htrace =>
    cases out with
    | none => cases hout
    | some result =>
      cases hout
      exact step_of_approveTrace hrep t htrace hserved

/-! ## Runs -/

/-- Every request is submitted under an id of its own. -/
def DistinctSubmissions (runs : List Finished) : Prop :=
  runs.Pairwise fun x y => ∀ c c', x.call = .agentAction c → y.call = .agentAction c' →
    c.requestId ≠ c'.requestId

/-- A step adds to what is pending only the request that it is about. -/
theorem pending_of_step {s' : Service} {call : Call} {response : HttpReply}
    (hstep : Service.Step settings opa s call response s') {p : PendingRequest}
    (hp : p ∈ s'.pending) :
    p ∈ s.pending ∨ ∃ c, call = .agentAction c ∧ c.requestId = p.requestId := by
  cases hstep with
  | queued h hlevel =>
    rcases List.mem_append.mp hp with hp | hp
    · exact .inl hp
    · obtain rfl := List.mem_singleton.mp hp
      exact .inr ⟨_, rfl, rfl⟩
  | approved _ _ _ _ _ _ | approvalFailed _ _ _ _ _ _ | rejected _ _ _ _ =>
    exact .inl (List.mem_of_mem_filter hp)
  | _ => exact .inl hp

/-- What is pending was submitted. -/
theorem submitted_of_pending {runs : List Finished} (hrun : ServiceRun settings opa runs s)
    {p : PendingRequest} (hp : p ∈ s.pending) :
    ∃ x ∈ runs, ∃ c, x.call = .agentAction c ∧ c.requestId = p.requestId := by
  induction hrun with
  | start => cases hp
  | @snoc runs s s' x hrun hstep ih =>
    rcases pending_of_step hstep hp with hp | ⟨c, hcall, hid⟩
    · obtain ⟨y, hy, hsubmitted⟩ := ih hp
      exact ⟨y, List.mem_append_left _ hy, hsubmitted⟩
    · exact ⟨x, List.mem_append_right _ (List.mem_singleton.mpr rfl), c, hcall, hid⟩

/-- **Serial runs** of the handlers are runs of the service. -/
theorem serviceRun_of_serial {runs : List Finished}
    (hserial : Serial (gateway settings opa) runs q) (hdistinct : DistinctSubmissions runs) :
    ∃ s, ServiceRun settings opa runs s ∧ Represents s q (runs.flatMap Completed.events) := by
  induction hserial with
  | start => exact ⟨.start, .start, represents_start⟩
  | @snoc runs q q' x hserial hpath hserved ih =>
    obtain ⟨hbefore, -, hlast⟩ := List.pairwise_append.mp hdistinct
    obtain ⟨s, hrun, hrep⟩ := ih hbefore
    -- A pending id belongs to an earlier submission, so `x` has another one.
    have hnew : ∀ req, x.call = .agentAction req → ∀ p ∈ s.pending,
        p.requestId ≠ req.requestId := by
      intro req hcall p hp hid
      obtain ⟨y, hy, c, hycall, hyid⟩ := submitted_of_pending hrun hp
      exact hlast y hy x (List.mem_singleton.mpr rfl) c req hycall hcall (hyid.trans hid)
    obtain ⟨s', hstep, hrep'⟩ := step_of_run hrep x.thread hpath hserved hnew
    refine ⟨s', .snoc hrun hstep, ?_⟩
    simpa [Completed.events] using hrep'

/-- The finished requests of a run of the event loop are submitted under distinct ids. -/
theorem distinctSubmissions_of_linearized {c : GatewayConfig}
    (hc : (gateway settings opa).Reachable c) {runs : List Finished}
    (hruns : Linearized (gateway settings opa) c runs) : DistinctSubmissions runs := by
  refine (List.Nodup.of_map _ hruns.distinct).pairwise_of_forall_ne ?_
  intro x hx y hy hne req req' hxcall hycall hid
  exact hne (submission_unique hc hruns hx hy hxcall hycall hid)

/-- **Refinement**: a linearization of a run of the event loop is a run of the service, and
    the state it leads to is the one that the queue and the history show. -/
theorem serviceRun_of_linearized {c : GatewayConfig} (hc : (gateway settings opa).Reachable c)
    {runs : List Finished} (hruns : Linearized (gateway settings opa) c runs) :
    ∃ s, ServiceRun settings opa runs s ∧ Represents s c.shared c.history := by
  obtain ⟨s, hrun, hrep⟩ :=
    serviceRun_of_serial hruns.serial (distinctSubmissions_of_linearized hc hruns)
  rw [← hruns.history] at hrep
  exact ⟨s, hrun, hrep.of_acts⟩

/-- **The gateway refines the service**: whatever the event loop does, the finished
    requests got the answers that the service gives to them one after the other, and the
    queue, the audit log and the executions are those of the service. -/
theorem gateway_refines_service {c : GatewayConfig}
    (hc : (gateway settings opa).CoopReachable awaits c) :
    ∃ runs s, Linearized (gateway settings opa) c runs ∧ ServiceRun settings opa runs s ∧
      Represents s c.shared c.history := by
  obtain ⟨runs, _, hruns, -⟩ := linearized (suspendsFirst_handle settings) hc .refl
  obtain ⟨s, hrun, hrep⟩ := serviceRun_of_linearized (CoopReachable.reachable hc) hruns
  exact ⟨runs, s, hruns, hrun, hrep⟩

end Refinement

section Example

attribute [local instance] asciiRuntime plainText

/-- The service, for the deployment that is approved in time. -/
theorem gateway_refines_service_approvedInTime :
    ∃ runs s, Linearized (gateway Settings.default anyOpa) approvedInTime runs ∧
      ServiceRun Settings.default anyOpa runs s ∧
      Represents s approvedInTime.shared approvedInTime.history :=
  gateway_refines_service approvedInTime_reachable

end Example

end AiK8sGateway
