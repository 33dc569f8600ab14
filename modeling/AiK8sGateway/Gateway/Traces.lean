import AiK8sGateway.Main
import AiK8sGateway.Risk.Inspection

/-!
# Traces of the Handlers

One specification for each handler: the operations that one run of it has performed
so far and, once it has ended, what it returned or raised.  Everything that is proved
about whole histories uses the handlers through these.

## Main results

- `agentTrace_of_path`, `approveTrace_of_path`, `listTrace_of_path`: every path of a
  handler is one of its traces.
- `path_of_agentTrace`: every trace of `agent_action` is one of its paths.
- `execution_of_trace`, `enqueue_of_trace`, `resolution_of_trace`: what a handler did
  before its last operation.
-/

namespace AiK8sGateway

open Foundations EffectProgram PythonText Approval Audit Auth Risk

/-! ## Running handler code -/

section Running

variable {α β γ : Type}

@[simp] theorem ofExcept_ok_bind (a : α) (f : α → Handler β) : ofExcept (.ok a) >>= f = f a := rfl

@[simp] theorem ofExcept_error_bind (e : HandlerExc) (f : α → Handler β) :
    ofExcept (.error e) >>= f = throw e := rfl

@[simp] theorem uncaught_ok (a : α) : uncaught (.ok a) = .ok a := rfl

@[simp] theorem uncaught_error (e : PyExc) :
    uncaught (.error e : Except PyExc α) = .error (.uncaught e) := rfl

@[simp] theorem perform_bind_bind (op : Op) (f : op.Reply → Handler α) (g : α → Handler β) :
    perform op >>= f >>= g = perform op >>= fun r => f r >>= g := rfl

@[simp] theorem run_perform_bind (op : Op) (f : op.Reply → Handler α) :
    (perform op >>= f).run = Prog.perform (S := signature) op fun r => (f r).run := rfl

@[simp] theorem run_throw (e : HandlerExc) : (throw e : Handler α).run = .done (.error e) := rfl

@[simp] theorem run_pure (a : α) : (pure a : Handler α).run = .done (.ok a) := rfl

end Running

variable [Runtime] (settings : Settings)

/-- The executions among the actions are runs of `execute_action`. -/
def Executes (acts : List (Action signature)) : Prop :=
  ∀ action resource namespace_ params exec,
    (⟨.executeAction action resource namespace_ params, exec⟩ : Action signature) ∈ acts →
      Prog.Path (K8s.executeAction action resource namespace_ params).run exec.actions
        (.done exec.result)

/-! ## `agent_action` -/

/-- Stages 1 and 2 succeed with this payload and this score. -/
structure AgentCall.Scored (c : AgentCall) (token : TokenPayload) (rs : RiskScore) : Prop where
  verified : verifyToken c.decode settings c.credentials = .ok token
  scored : score settings c.body.action c.body.resource c.body.namespace (some c.body.params)
    = .ok rs

/-- Stages 1 and 2 have one result. -/
theorem AgentCall.Scored.unique {settings : Settings} {c : AgentCall} {token token' : TokenPayload}
    {rs rs' : RiskScore} (h : c.Scored settings token rs) (h' : c.Scored settings token' rs') :
    token' = token ∧ rs' = rs :=
  ⟨Except.ok.inj (h'.verified.symm.trans h.verified),
    Except.ok.inj (h'.scored.symm.trans h.scored)⟩

/-- A score is a small number. -/
theorem natAbs_score_lt {settings : Settings} {c : AgentCall} {token : TokenPayload}
    {rs : RiskScore} (hs : c.Scored settings token rs) : rs.score.natAbs < 2 ^ 64 := by
  have hlow := score_nonneg hs.scored
  have hhigh := score_le hs.scored
  omega

/-- The answer to a queued request is plain. -/
theorem isPlain_queued {settings : Settings} {c : AgentCall} {token : TokenPayload}
    {rs : RiskScore} (hs : c.Scored settings token rs) :
    (c.queued rs).toJson.isPlain 8 = true := by
  have hscore := Json.isPlain_int 7 (natAbs_score_lt hs)
  simp [AgentActionResponse.toJson, AgentCall.queued, hscore]

/-- The policy query and its reply. -/
def AgentCall.asked (c : AgentCall) (token : TokenPayload) (rs : RiskScore) (reply : HttpReply) :
    Action signature :=
  ⟨.httpPost (opaEndpoint settings) (opaInput token.sub token.role c.body.action
    c.body.resource c.body.namespace rs.level c.body.params), reply⟩

/-- The direct execution and its reply. -/
def AgentCall.executed (c : AgentCall) (reply : ExecReply) : Action signature :=
  ⟨.executeAction c.body.action c.body.resource c.body.namespace c.body.params, reply⟩

/-- What `_execute_k8s` makes of an execution. -/
def AgentCall.executionResult (c : AgentCall) (reply : ExecReply) : Except HandlerExc Json :=
  mapExecution c.body.action c.body.resource c.body.namespace c.body.params reply.result

omit [Runtime] in
/-- Of the exceptions only that of a missing cluster leads to a result. -/
theorem mapExecution_unavailable {action resource namespace_ : String} {params : JsonDict}
    {e : K8s.ClientExc} {data : Json}
    (h : mapExecution action resource namespace_ params (.error e) = .ok data) :
    (∃ msg, e = .k8sUnavailableError msg) ∧
      data = simulated action resource namespace_ params := by
  cases e with
  | k8sUnavailableError msg => exact ⟨⟨msg, rfl⟩, (Except.ok.inj h).symm⟩
  | k8sActionError msg code => cases h
  | py e =>
    unfold mapExecution at h
    dsimp only at h
    split at h <;> cases h

/-- One audit record. -/
def logged (record : AuditRecord) : Action signature := ⟨.auditLog record, ()⟩

/-- One request put into the queue. -/
def enqueued (request : PendingRequest) (id : String) : Action signature :=
  ⟨.enqueue request, id⟩

/-- The traces of `agent_action`. -/
inductive AgentTrace (c : AgentCall) :
    List (Action signature) → Option (Except HandlerExc AgentActionResponse) → Prop where
  | rejected {e : HandlerExc} (hverify : verifyToken c.decode settings c.credentials = .error e) :
      AgentTrace c [] (some (.error e))
  | unscored {token : TokenPayload} {e : BuiltinError}
      (hverify : verifyToken c.decode settings c.credentials = .ok token)
      (hscore : score settings c.body.action c.body.resource c.body.namespace
        (some c.body.params) = .error e) :
      AgentTrace c [] (some (.error (.uncaught (.builtin e))))
  | asking {token : TokenPayload} {rs : RiskScore} (h : c.Scored settings token rs) :
      AgentTrace c [] none
  | unread {token : TokenPayload} {rs : RiskScore} {reply : HttpReply} {e : PyExc}
      (h : c.Scored settings token rs) (hread : readDecision reply = .error e) :
      AgentTrace c [c.asked settings token rs reply] (some (.error (.uncaught e)))
  | decided {token : TokenPayload} {rs : RiskScore} {reply : HttpReply} {d : Bool × String}
      (h : c.Scored settings token rs) (hread : readDecision reply = .ok d) :
      AgentTrace c [c.asked settings token rs reply] none
  | denied {token : TokenPayload} {rs : RiskScore} {reply : HttpReply} {reason : String}
      (h : c.Scored settings token rs) (hread : readDecision reply = .ok (false, reason)) :
      AgentTrace c [c.asked settings token rs reply, logged (c.record token rs .deny reason)]
        (some (.error (c.denied rs reason)))
  | queueing {token : TokenPayload} {rs : RiskScore} {reply : HttpReply} {reason id : String}
      (h : c.Scored settings token rs) (hread : readDecision reply = .ok (true, reason))
      (hlevel : rs.level = .high) :
      AgentTrace c [c.asked settings token rs reply, enqueued (c.pending token rs) id] none
  | queued {token : TokenPayload} {rs : RiskScore} {reply : HttpReply} {reason id : String}
      (h : c.Scored settings token rs) (hread : readDecision reply = .ok (true, reason))
      (hlevel : rs.level = .high) :
      AgentTrace c [c.asked settings token rs reply, enqueued (c.pending token rs) id,
        logged (c.record token rs .pendingApproval reason)] (some (.ok (c.queued rs)))
  | failed {token : TokenPayload} {rs : RiskScore} {reply : HttpReply} {reason : String}
      {exec : ExecReply} {e : HandlerExc}
      (h : c.Scored settings token rs) (hread : readDecision reply = .ok (true, reason))
      (hlevel : rs.level ≠ .high) (hexec : c.executionResult exec = .error e) :
      AgentTrace c [c.asked settings token rs reply, c.executed exec] (some (.error e))
  | executed {token : TokenPayload} {rs : RiskScore} {reply : HttpReply} {reason : String}
      {exec : ExecReply} {data : Json}
      (h : c.Scored settings token rs) (hread : readDecision reply = .ok (true, reason))
      (hlevel : rs.level ≠ .high) (hexec : c.executionResult exec = .ok data) :
      AgentTrace c [c.asked settings token rs reply, c.executed exec] none
  | allowed {token : TokenPayload} {rs : RiskScore} {reply : HttpReply} {reason : String}
      {exec : ExecReply} {data : Json}
      (h : c.Scored settings token rs) (hread : readDecision reply = .ok (true, reason))
      (hlevel : rs.level ≠ .high) (hexec : c.executionResult exec = .ok data) :
      AgentTrace c [c.asked settings token rs reply, c.executed exec,
        logged (c.record token rs .allow reason)] (some (.ok (c.allowed rs data)))

/-! ### The handler, stage by stage -/

/-- `agent_action` once OPA has replied: stages 4 and 5. -/
def AgentCall.afterReply (c : AgentCall) (token : TokenPayload) (rs : RiskScore)
    (reply : HttpReply) : Handler AgentActionResponse := do
  let (allowed, opaReason) ← ofExcept (uncaught (readDecision reply))
  if !allowed then
    let _ ← perform (.auditLog (c.record token rs .deny opaReason))
    throw (c.denied rs opaReason)
  else if rs.level = .high then
    let _ ← perform (.enqueue (c.pending token rs))
    let _ ← perform (.auditLog (c.record token rs .pendingApproval opaReason))
    return c.queued rs
  else
    let k8sResult ← executeK8s c.body.action c.body.resource c.body.namespace c.body.params
    let _ ← perform (.auditLog (c.record token rs .allow opaReason))
    return c.allowed rs k8sResult

section Stages

variable {settings} {c : AgentCall} {token : TokenPayload} {rs : RiskScore} {reply : HttpReply}

/-- Stage 1 ends the handler of a token that does not verify. -/
theorem agentAction_of_rejected {e : HandlerExc}
    (hverify : verifyToken c.decode settings c.credentials = .error e) :
    (agentAction settings c).run = .done (.error e) := by
  unfold agentAction
  rw [hverify]
  rfl

/-- Stage 2 ends the handler where the scorer raises. -/
theorem agentAction_of_unscored {e : BuiltinError}
    (hverify : verifyToken c.decode settings c.credentials = .ok token)
    (hscore : score settings c.body.action c.body.resource c.body.namespace
      (some c.body.params) = .error e) :
    (agentAction settings c).run = .done (.error (.uncaught (.builtin e))) := by
  unfold agentAction
  rw [hverify, hscore]
  rfl

/-- Stage 3 asks OPA. -/
theorem agentAction_of_scored (hs : c.Scored settings token rs) :
    (agentAction settings c).run = .perform (.httpPost (opaEndpoint settings)
      (opaInput token.sub token.role c.body.action c.body.resource c.body.namespace rs.level
        c.body.params)) fun reply => (c.afterReply token rs reply).run := by
  unfold agentAction
  rw [hs.verified, hs.scored]
  rfl

/-- A reply that cannot be read ends the handler. -/
theorem afterReply_of_unread {e : PyExc} (hread : readDecision reply = .error e) :
    (c.afterReply token rs reply).run = .done (.error (.uncaught e)) := by
  unfold AgentCall.afterReply
  rw [hread]
  rfl

/-- Stage 4a. -/
theorem afterReply_of_denied {reason : String} (hread : readDecision reply = .ok (false, reason)) :
    (c.afterReply token rs reply).run =
      .perform (.auditLog (c.record token rs .deny reason)) fun _ =>
        .done (.error (c.denied rs reason)) := by
  unfold AgentCall.afterReply
  rw [hread]
  rfl

/-- Stage 5a. -/
theorem afterReply_of_high {reason : String} (hread : readDecision reply = .ok (true, reason))
    (hlevel : rs.level = .high) :
    (c.afterReply token rs reply).run =
      .perform (.enqueue (c.pending token rs)) fun _ =>
        .perform (.auditLog (c.record token rs .pendingApproval reason)) fun _ =>
          .done (.ok (c.queued rs)) := by
  unfold AgentCall.afterReply
  rw [hread]
  exact congrArg ExceptT.run (if_pos hlevel)

/-- Stage 5b: what follows the execution depends on whether it raised. -/
theorem afterReply_of_low {reason : String} (hread : readDecision reply = .ok (true, reason))
    (hlevel : rs.level ≠ .high) :
    (c.afterReply token rs reply).run =
      .perform (.executeAction c.body.action c.body.resource c.body.namespace c.body.params)
        fun exec => match c.executionResult exec with
          | .error e => .done (.error e)
          | .ok data => .perform (.auditLog (c.record token rs .allow reason)) fun _ =>
            .done (.ok (c.allowed rs data)) := by
  have hfinish : ∀ x : Except HandlerExc Json,
      (ofExcept x >>= fun k8sResult => perform (.auditLog (c.record token rs .allow reason)) >>=
        fun _ => pure (c.allowed rs k8sResult)).run =
      match x with
        | .error e => .done (.error e)
        | .ok data => .perform (.auditLog (c.record token rs .allow reason)) fun _ =>
          .done (.ok (c.allowed rs data)) := by
    intro x
    cases x <;> rfl
  unfold AgentCall.afterReply
  rw [hread]
  refine (congrArg ExceptT.run (if_neg hlevel)).trans (congrArg (Prog.perform _) ?_)
  funext exec
  exact hfinish (c.executionResult exec)

end Stages

/-! ### Traces and paths -/

/-- The paths of the handler once OPA has replied. -/
theorem agentTrace_of_afterReply {c : AgentCall} {token : TokenPayload} {rs : RiskScore}
    {reply : HttpReply} {rest : List (Action signature)}
    {q : Prog signature (Except HandlerExc AgentActionResponse)}
    (hs : c.Scored settings token rs)
    (h : Prog.Path (c.afterReply token rs reply).run rest q) :
    AgentTrace settings c (c.asked settings token rs reply :: rest) q.outcome := by
  cases hread : readDecision reply with
  | error e =>
    -- The reply could not be read, and the handler raises.
    rw [afterReply_of_unread hread, Prog.path_done_iff] at h
    obtain ⟨rfl, rfl⟩ := h
    exact .unread hs hread
  | ok d =>
    obtain ⟨allowed, reason⟩ := d
    cases allowed with
    | false =>
      -- Stage 4a: the denial is logged and raised.
      rw [afterReply_of_denied hread, Prog.path_perform_iff] at h
      rcases h with ⟨rfl, rfl⟩ | ⟨_, _, rfl, h⟩
      · exact .decided hs hread
      · obtain ⟨rfl, rfl⟩ := Prog.path_done_iff.mp h
        exact .denied hs hread
    | true =>
      by_cases hlevel : rs.level = .high
      · -- Stage 5a: the request is queued, then logged.
        rw [afterReply_of_high hread hlevel, Prog.path_perform_iff] at h
        rcases h with ⟨rfl, rfl⟩ | ⟨id, _, rfl, h⟩
        · exact .decided hs hread
        · rw [Prog.path_perform_iff] at h
          rcases h with ⟨rfl, rfl⟩ | ⟨_, _, rfl, h⟩
          · exact .queueing hs hread hlevel
          · obtain ⟨rfl, rfl⟩ := Prog.path_done_iff.mp h
            exact .queued hs hread hlevel
      · -- Stage 5b: the request is executed, then logged.
        rw [afterReply_of_low hread hlevel, Prog.path_perform_iff] at h
        rcases h with ⟨rfl, rfl⟩ | ⟨exec, _, rfl, h⟩
        · exact .decided hs hread
        · -- An execution that raised leaves no step for the audit call.
          cases hexec : c.executionResult exec with
          | error e =>
            rw [hexec, Prog.path_done_iff] at h
            obtain ⟨rfl, rfl⟩ := h
            exact .failed hs hread hlevel hexec
          | ok data =>
            rw [hexec, Prog.path_perform_iff] at h
            rcases h with ⟨rfl, rfl⟩ | ⟨_, _, rfl, h⟩
            · exact .executed hs hread hlevel hexec
            · obtain ⟨rfl, rfl⟩ := Prog.path_done_iff.mp h
              exact .allowed hs hread hlevel hexec

/-- **Traces of `agent_action`**: every path of the handler is one of its traces. -/
theorem agentTrace_of_path {c : AgentCall} {acts : List (Action signature)}
    {q : Prog signature (Except HandlerExc AgentActionResponse)}
    (h : Prog.Path (agentAction settings c).run acts q) :
    AgentTrace settings c acts q.outcome := by
  cases hverify : verifyToken c.decode settings c.credentials with
  | error e =>
    -- Stage 1 raises.
    rw [agentAction_of_rejected hverify, Prog.path_done_iff] at h
    obtain ⟨rfl, rfl⟩ := h
    exact .rejected hverify
  | ok token =>
    cases hscore : score settings c.body.action c.body.resource c.body.namespace
        (some c.body.params) with
    | error e =>
      -- Stage 2 raises.
      rw [agentAction_of_unscored hverify hscore, Prog.path_done_iff] at h
      obtain ⟨rfl, rfl⟩ := h
      exact .unscored hverify hscore
    | ok rs =>
      -- Stage 3 asks OPA.
      have hs : c.Scored settings token rs := ⟨hverify, hscore⟩
      rw [agentAction_of_scored hs, Prog.path_perform_iff] at h
      rcases h with ⟨rfl, rfl⟩ | ⟨reply, rest, rfl, h⟩
      · exact .asking hs
      · exact agentTrace_of_afterReply settings hs h

/-- **Every ended trace of `agent_action` happens**: it is a path of the handler. -/
theorem path_of_agentTrace {c : AgentCall} {acts : List (Action signature)}
    {result : Except HandlerExc AgentActionResponse}
    (h : AgentTrace settings c acts (some result)) :
    Prog.Path (agentAction settings c).run acts (.done result) := by
  -- Each stage that the trace has passed is one rewriting of the handler.
  cases h with
  | rejected hverify =>
    rw [agentAction_of_rejected hverify]
    exact .nil
  | unscored hverify hscore =>
    rw [agentAction_of_unscored hverify hscore]
    exact .nil
  | unread hs hread =>
    rw [agentAction_of_scored hs]
    apply Prog.Path.cons
    rw [afterReply_of_unread hread]
    exact .nil
  | denied hs hread =>
    rw [agentAction_of_scored hs]
    apply Prog.Path.cons
    rw [afterReply_of_denied hread]
    exact .cons .nil
  | queued hs hread hlevel =>
    rw [agentAction_of_scored hs]
    apply Prog.Path.cons
    rw [afterReply_of_high hread hlevel]
    exact .cons (.cons .nil)
  | failed hs hread hlevel hexec =>
    rw [agentAction_of_scored hs]
    apply Prog.Path.cons
    rw [afterReply_of_low hread hlevel]
    apply Prog.Path.cons
    rw [hexec]
    exact .nil
  | allowed hs hread hlevel hexec =>
    rw [agentAction_of_scored hs]
    apply Prog.Path.cons
    rw [afterReply_of_low hread hlevel]
    apply Prog.Path.cons
    rw [hexec]
    exact .cons .nil

/-! ## `approve_action` -/

/-- The entry that a handler took out of the queue, if there was one. -/
def ApproveCall.resolved (c : ApproveCall) (pending : Option PendingRequest) :
    Action signature := ⟨.resolve c.requestId, pending⟩

/-- The execution of a pending request and its reply. -/
def executedPending (pending : PendingRequest) (reply : ExecReply) : Action signature :=
  ⟨.executeAction pending.action pending.resource pending.namespace pending.params, reply⟩

/-- What `_execute_k8s` makes of the execution of a pending request. -/
def pendingResult (pending : PendingRequest) (reply : ExecReply) : Except HandlerExc Json :=
  mapExecution pending.action pending.resource pending.namespace pending.params reply.result

/-- The traces of `approve_action`, up to the body of its answer. -/
inductive ApproveTrace (c : ApproveCall) :
    List (Action signature) → Option (Except HandlerExc Json) → Prop where
  | rejected {e : HandlerExc} (hverify : verifyToken c.decode settings c.credentials = .error e) :
      ApproveTrace c [] (some (.error e))
  | resolving {token : TokenPayload}
      (hverify : verifyToken c.decode settings c.credentials = .ok token) :
      ApproveTrace c [] none
  | unknown {token : TokenPayload}
      (hverify : verifyToken c.decode settings c.credentials = .ok token) :
      ApproveTrace c [c.resolved none] (some (.error c.notPending))
  | taken {token : TokenPayload} {pending : PendingRequest}
      (hverify : verifyToken c.decode settings c.credentials = .ok token) :
      ApproveTrace c [c.resolved (some pending)] none
  | failed {token : TokenPayload} {pending : PendingRequest} {exec : ExecReply} {e : HandlerExc}
      (hverify : verifyToken c.decode settings c.credentials = .ok token)
      (happroved : c.body.approved = true) (hexec : pendingResult pending exec = .error e) :
      ApproveTrace c [c.resolved (some pending), executedPending pending exec]
        (some (.error e))
  | executed {token : TokenPayload} {pending : PendingRequest} {exec : ExecReply} {data : Json}
      (hverify : verifyToken c.decode settings c.credentials = .ok token)
      (happroved : c.body.approved = true) (hexec : pendingResult pending exec = .ok data) :
      ApproveTrace c [c.resolved (some pending), executedPending pending exec] none
  | approved {token : TokenPayload} {pending : PendingRequest} {exec : ExecReply} {data : Json}
      {message : String}
      (hverify : verifyToken c.decode settings c.credentials = .ok token)
      (happroved : c.body.approved = true) (hexec : pendingResult pending exec = .ok data) :
      ApproveTrace c [c.resolved (some pending), executedPending pending exec,
        logged (c.record token.sub pending .humanAllow)]
        (some (.ok (c.answer token.sub .humanAllow message data)))
  | denied {token : TokenPayload} {pending : PendingRequest} {message : String}
      (hverify : verifyToken c.decode settings c.credentials = .ok token)
      (happroved : c.body.approved = false) :
      ApproveTrace c [c.resolved (some pending),
        logged (c.record token.sub pending .humanDeny)]
        (some (.ok (c.answer token.sub .humanDeny message .null)))

/-- **Traces of `approve_action`**: every path of the handler is one of its traces. -/
theorem approveTrace_of_path {c : ApproveCall} {acts : List (Action signature)}
    {q : Prog signature (Except HandlerExc Json)}
    (h : Prog.Path (approveAction settings c).run acts q) :
    ApproveTrace settings c acts q.outcome := by
  unfold approveAction at h
  cases hverify : verifyToken c.decode settings c.credentials with
  | error e =>
    -- The token did not verify.
    simp only [hverify, ofExcept_error_bind, run_throw, Prog.path_done_iff] at h
    obtain ⟨rfl, rfl⟩ := h
    exact .rejected hverify
  | ok token =>
    -- The queue is asked first; what follows depends on whether it had the entry.
    simp only [hverify, ofExcept_ok_bind, run_perform_bind, Prog.path_perform_iff] at h
    rcases h with ⟨rfl, rfl⟩ | ⟨pending, rest, rfl, h⟩
    · exact .resolving hverify
    · cases pending with
      | none =>
        -- There is no such entry.
        simp only [run_throw, Prog.path_done_iff] at h
        obtain ⟨rfl, rfl⟩ := h
        exact .unknown hverify
      | some pending =>
        cases happroved : c.body.approved with
        | false =>
          -- The human denies.
          simp only [happroved, Bool.false_eq_true, if_false, run_perform_bind, run_pure,
            Prog.path_perform_iff, Prog.path_done_iff] at h
          rcases h with ⟨rfl, rfl⟩ | ⟨_, _, rfl, rfl, rfl⟩
          · exact .taken hverify
          · exact .denied hverify happroved
        | true =>
          -- The human approves.
          simp only [happroved, if_true, executeK8s, perform_bind_bind, run_perform_bind,
            Prog.path_perform_iff] at h
          rcases h with ⟨rfl, rfl⟩ | ⟨exec, rest, rfl, h⟩
          · exact .taken hverify
          · cases hexec : pendingResult pending exec with
            | error e =>
              unfold pendingResult at hexec
              simp only [hexec, ofExcept_error_bind, run_throw, Prog.path_done_iff] at h
              obtain ⟨rfl, rfl⟩ := h
              exact .failed hverify happroved hexec
            | ok data =>
              unfold pendingResult at hexec
              simp only [hexec, ofExcept_ok_bind, run_perform_bind, run_pure,
                Prog.path_perform_iff, Prog.path_done_iff] at h
              rcases h with ⟨rfl, rfl⟩ | ⟨_, _, rfl, rfl, rfl⟩
              · exact .executed hverify happroved hexec
              · exact .approved hverify happroved hexec

/-! ## `list_pending` -/

/-- The queue as a handler saw it. -/
def listed (items : List Json) : Action signature := ⟨.listPending, items⟩

/-- The traces of `list_pending`. -/
inductive ListTrace (c : ListCall) :
    List (Action signature) → Option (Except HandlerExc Json) → Prop where
  | rejected {e : HandlerExc} (hverify : verifyToken c.decode settings c.credentials = .error e) :
      ListTrace c [] (some (.error e))
  | asking {token : TokenPayload}
      (hverify : verifyToken c.decode settings c.credentials = .ok token) : ListTrace c [] none
  | listed {token : TokenPayload} {items : List Json}
      (hverify : verifyToken c.decode settings c.credentials = .ok token) :
      ListTrace c [AiK8sGateway.listed items]
        (some (.ok (.obj [("count", .int items.length), ("items", .arr items)])))

omit [Runtime] in
/-- Every path of `list_pending` is one of its traces. -/
theorem listTrace_of_path {c : ListCall} {acts : List (Action signature)}
    {q : Prog signature (Except HandlerExc Json)}
    (h : Prog.Path (listPending settings c).run acts q) : ListTrace settings c acts q.outcome := by
  unfold listPending at h
  cases hverify : verifyToken c.decode settings c.credentials with
  | error e =>
    simp only [hverify, ofExcept_error_bind, run_throw, Prog.path_done_iff] at h
    obtain ⟨rfl, rfl⟩ := h
    exact .rejected hverify
  | ok token =>
    simp only [hverify, ofExcept_ok_bind, run_perform_bind, run_pure, Prog.path_perform_iff,
      Prog.path_done_iff] at h
    rcases h with ⟨rfl, rfl⟩ | ⟨items, _, rfl, rfl, rfl⟩
    · exact .asking hverify
    · exact .listed hverify

/-! ## Any request -/

/-- The traces of the handler of a request, with the response once there is one. -/
inductive CallTrace : Call → List (Action signature) → Option HttpReply → Prop where
  | agentAction {c : AgentCall} {acts : List (Action signature)}
      {out : Option (Except HandlerExc AgentActionResponse)} (h : AgentTrace settings c acts out) :
      CallTrace (.agentAction c) acts
        (out.map fun r => httpResponse (r.map AgentActionResponse.toJson))
  | listPending {c : ListCall} {acts : List (Action signature)}
      {out : Option (Except HandlerExc Json)} (h : ListTrace settings c acts out) :
      CallTrace (.listPending c) acts (out.map httpResponse)
  | approveAction {c : ApproveCall} {acts : List (Action signature)}
      {out : Option (Except HandlerExc Json)} (h : ApproveTrace settings c acts out) :
      CallTrace (.approveAction c) acts (out.map httpResponse)

/-- **Traces of a request**: every path of a handler is one of its traces. -/
theorem callTrace_of_path {call : Call} {acts : List (Action signature)}
    {q : Prog signature HttpReply} (h : Prog.Path (call.handle settings) acts q) :
    CallTrace settings call acts q.outcome := by
  cases call with
  | agentAction c =>
    obtain ⟨q', hpath, rfl⟩ := Prog.path_map_iff.mp h
    rw [Prog.outcome_map]
    exact .agentAction (agentTrace_of_path settings hpath)
  | listPending c =>
    obtain ⟨q', hpath, rfl⟩ := Prog.path_map_iff.mp h
    rw [Prog.outcome_map]
    exact .listPending (listTrace_of_path settings hpath)
  | approveAction c =>
    obtain ⟨q', hpath, rfl⟩ := Prog.path_map_iff.mp h
    rw [Prog.outcome_map]
    exact .approveAction (approveTrace_of_path settings hpath)

/-! ### Exceptions -/

/-- What `agent_action` raises is answered with a status of its own. -/
theorem raisedWith_of_agentTrace {c : AgentCall} {acts : List (Action signature)} {e : HandlerExc}
    (h : AgentTrace settings c acts (some (.error e))) : ∃ status, RaisedWith e status := by
  cases h with
  | rejected hverify =>
    obtain ⟨status, -, hraised⟩ := raisedWith_of_verifyToken hverify
    exact ⟨status, hraised⟩
  | unscored _ _ | unread _ _ => exact ⟨_, .internal _⟩
  | denied _ _ => exact ⟨_, .forbidden _ _ _⟩
  | failed _ _ _ hexec =>
    obtain ⟨status, -, hraised⟩ := raisedWith_of_mapExecution hexec
    exact ⟨status, hraised⟩

/-- The two other handlers raise nothing else. -/
theorem raisedWith_of_listTrace {c : ListCall} {acts : List (Action signature)} {e : HandlerExc}
    (h : ListTrace settings c acts (some (.error e))) : ∃ status, RaisedWith e status := by
  cases h with
  | rejected hverify =>
    obtain ⟨status, -, hraised⟩ := raisedWith_of_verifyToken hverify
    exact ⟨status, hraised⟩

theorem raisedWith_of_approveTrace {c : ApproveCall} {acts : List (Action signature)}
    {e : HandlerExc} (h : ApproveTrace settings c acts (some (.error e))) :
    ∃ status, RaisedWith e status := by
  cases h with
  | rejected hverify =>
    obtain ⟨status, -, hraised⟩ := raisedWith_of_verifyToken hverify
    exact ⟨status, hraised⟩
  | unknown _ => exact ⟨_, .notFound c⟩
  | failed _ _ hexec =>
    obtain ⟨status, -, hraised⟩ := raisedWith_of_mapExecution hexec
    exact ⟨status, hraised⟩

/-! ## Which handler performs what, and after what -/

/-- A run of `agent_action` whose query was read as a denial ends with one audit record
    and the 403. -/
theorem denied_of_trace {c : AgentCall} {token : TokenPayload} {rs : RiskScore}
    {reply : HttpReply} {reason : String} {acts : List (Action signature)}
    {result : Except HandlerExc AgentActionResponse} (hs : c.Scored settings token rs)
    (hread : readDecision reply = .ok (false, reason))
    (h : AgentTrace settings c acts (some result))
    (hhead : acts.head? = some (c.asked settings token rs reply)) :
    acts.tail = [logged (c.record token rs .deny reason)] ∧
      result = .error (c.denied rs reason) := by
  cases h with
  -- The trace has the same token, score and reply, and so the same decision.
  | rejected _ => cases hhead
  | unscored _ _ => cases hhead
  | denied hs' hread' =>
    obtain ⟨rfl, rfl⟩ := hs.unique hs'
    cases hhead
    obtain ⟨-, rfl⟩ := Prod.mk.inj (Except.ok.inj (hread'.symm.trans hread))
    exact ⟨rfl, rfl⟩
  | unread hs' hread' =>
    -- The reply was read.
    obtain ⟨rfl, rfl⟩ := hs.unique hs'
    cases hhead
    cases hread'.symm.trans hread
  | queued hs' hread' _ | failed hs' hread' _ _ | allowed hs' hread' _ _ =>
    -- The reply was an allow.
    obtain ⟨rfl, rfl⟩ := hs.unique hs'
    cases hhead
    cases hread'.symm.trans hread

/-- An execution is a direct one after an allowed query that was not high-risk, or one
    of a pending request just taken out of the queue by an approval. -/
theorem execution_of_trace {call : Call} {acts : List (Action signature)}
    {out : Option HttpReply} {action resource namespace_ : String} {params : JsonDict}
    {exec : ExecReply} (h : CallTrace settings call acts out)
    (hlast : acts.getLast? = some ⟨.executeAction action resource namespace_ params, exec⟩) :
    (∃ c token rs reply reason, call = .agentAction c ∧ c.Scored settings token rs ∧
        readDecision reply = .ok (true, reason) ∧ rs.level ≠ .high ∧
        acts = [c.asked settings token rs reply, c.executed exec] ∧
        action = c.body.action ∧ resource = c.body.resource ∧
        namespace_ = c.body.namespace ∧ params = c.body.params) ∨
      ∃ c token pending, call = .approveAction c ∧
        verifyToken c.decode settings c.credentials = .ok token ∧ c.body.approved = true ∧
        acts = [c.resolved (some pending), executedPending pending exec] ∧
        action = pending.action ∧ resource = pending.resource ∧
        namespace_ = pending.namespace ∧ params = pending.params := by
  cases h with
  | agentAction h =>
    -- Directly, right behind the query.
    cases h with
    | failed hs hread hlevel hexec | executed hs hread hlevel hexec =>
      cases hlast
      exact .inl ⟨_, _, _, _, _, rfl, hs, hread, hlevel, rfl, rfl, rfl, rfl, rfl⟩
    | _ => cases hlast
  | listPending h =>
    cases h <;> cases hlast
  | approveAction h =>
    -- After an approval, right behind the resolution.
    cases h with
    | failed hv happroved hexec | executed hv happroved hexec =>
      cases hlast
      exact .inr ⟨_, _, _, rfl, hv, happroved, rfl, rfl, rfl, rfl, rfl⟩
    | _ => cases hlast

/-- A query of `agent_action` is about its own request. -/
theorem query_of_trace {c : AgentCall} {acts : List (Action signature)} {out : Option HttpReply}
    {url : String} {document : Json} {reply : HttpReply}
    (h : CallTrace settings (.agentAction c) acts out)
    (hlast : acts.getLast? = some ⟨.httpPost url document, reply⟩) :
    ∃ (token : TokenPayload) (rs : RiskScore),
      document = opaInput token.sub token.role c.body.action c.body.resource
        c.body.namespace rs.level c.body.params := by
  cases h with
  | agentAction h =>
    cases h with
    | unread hs hread | decided hs hread =>
      cases hlast
      exact ⟨_, _, rfl⟩
    | _ => cases hlast

/-- The policy query comes before everything else that a handler does. -/
theorem query_is_first {call : Call} {acts : List (Action signature)} {out : Option HttpReply}
    {url : String} {document : Json} {reply : HttpReply} (h : CallTrace settings call acts out)
    (hlast : acts.getLast? = some ⟨.httpPost url document, reply⟩) :
    acts = [⟨.httpPost url document, reply⟩] := by
  cases h with
  | agentAction h =>
    cases h with
    | unread _ _ | decided _ _ =>
      cases hlast
      rfl
    | _ => cases hlast
  | listPending h =>
    cases h <;> cases hlast
  | approveAction h =>
    cases h <;> cases hlast

/-- A handler that is about to ask OPA has not done anything yet. -/
theorem idle_before_query {call : Call} {acts : List (Action signature)} {url : String}
    {document : Json} {next : HttpReply → Prog signature HttpReply}
    (h : Prog.Path (call.handle settings) acts (.perform (.httpPost url document) next)) :
    acts = [] := by
  have htrace := callTrace_of_path settings (h.snoc (HttpReply.raised (.other "")))
  have hfirst := query_is_first settings htrace (List.getLast?_concat ..)
  rcases List.append_eq_singleton_iff.mp hfirst with ⟨hnil, -⟩ | ⟨-, hnil⟩
  · exact hnil
  · cases hnil

/-- `agent_action` asks OPA first of all. -/
theorem query_of_agentTrace {c : AgentCall} {a : Action signature}
    {acts : List (Action signature)} {out : Option (Except HandlerExc AgentActionResponse)}
    (h : AgentTrace settings c (a :: acts) out) :
    ∃ url document reply, a = ⟨.httpPost url document, reply⟩ := by
  cases h <;> exact ⟨_, _, _, rfl⟩

/-- Only `agent_action` puts a request into the queue: its own, and after an allowed
    query about a high-risk request. -/
theorem enqueue_of_trace {call : Call} {acts : List (Action signature)}
    {out : Option HttpReply} {pending : PendingRequest} {id : String}
    (h : CallTrace settings call acts out)
    (hlast : acts.getLast? = some (enqueued pending id)) :
    ∃ c token rs reply reason, call = .agentAction c ∧ c.Scored settings token rs ∧
      readDecision reply = .ok (true, reason) ∧ rs.level = .high ∧
      acts = [c.asked settings token rs reply, enqueued pending id] ∧
      pending = c.pending token rs := by
  cases h with
  | agentAction h =>
    cases h with
    | queueing hs hread hlevel =>
      cases hlast
      exact ⟨_, _, _, _, _, rfl, hs, hread, hlevel, rfl, rfl⟩
    | _ => cases hlast
  | listPending h =>
    cases h <;> cases hlast
  | approveAction h =>
    cases h <;> cases hlast

/-- `agent_action` never takes anything out of the queue. -/
theorem resolve_not_mem_of_agentTrace {c : AgentCall} {acts : List (Action signature)}
    {out : Option (Except HandlerExc AgentActionResponse)} (h : AgentTrace settings c acts out)
    (i : String) (pending : Option PendingRequest) :
    (⟨.resolve i, pending⟩ : Action signature) ∉ acts := by
  intro hmem
  cases h with
  | rejected _ | unscored _ _ | asking _ => cases hmem
  | unread _ _ | decided _ _ => cases List.mem_singleton.mp hmem
  | denied _ _ | queueing _ _ _ | failed _ _ _ _ | executed _ _ _ _ =>
    rcases List.mem_cons.mp hmem with hhead | htail
    · cases hhead
    · cases List.mem_singleton.mp htail
  | queued _ _ _ | allowed _ _ _ _ =>
    rcases List.mem_cons.mp hmem with hhead | htail
    · cases hhead
    · rcases List.mem_cons.mp htail with hhead | htail
      · cases hhead
      · cases List.mem_singleton.mp htail

/-- A handler that took a request out of the queue and has ended was an
    `approve_action`, and it raised in its execution or recorded the human decision. -/
theorem resolution_of_trace {call : Call} {acts : List (Action signature)}
    {response : HttpReply} {i : String} {pending : PendingRequest}
    (h : CallTrace settings call acts (some response))
    (hmem : (⟨.resolve i, some pending⟩ : Action signature) ∈ acts) :
    ∃ c, call = .approveAction c ∧ c.requestId = i ∧
      ((∃ exec e, executedPending pending exec ∈ acts ∧ pendingResult pending exec = .error e) ∨
        ∃ record, logged record ∈ acts ∧ record.requestId = i ∧
          (record.decision = .humanAllow ∨ record.decision = .humanDeny)) := by
  generalize hout : some response = out at h
  -- No `agent_action` resolves anything.
  cases h with
  | agentAction h => exact absurd hmem (resolve_not_mem_of_agentTrace settings h i _)
  | listPending h =>
    cases h with
    | listed _ => cases List.mem_singleton.mp hmem
    | _ => cases hmem
  | @approveAction c _ _ h =>
    cases h with
    | rejected _ | resolving _ => cases hmem
    | unknown _ => cases List.mem_singleton.mp hmem
    | taken _ => cases hout
    | executed _ _ _ => cases hout
    | failed _ happroved hexec =>
      -- The execution raised, and no record follows.
      rcases List.mem_cons.mp hmem with hhead | htail
      · cases hhead
        exact ⟨c, rfl, rfl, .inl ⟨_, _, .tail _ (.head _), hexec⟩⟩
      · cases List.mem_singleton.mp htail
    | approved _ happroved hexec =>
      -- Executed and recorded.
      rcases List.mem_cons.mp hmem with hhead | htail
      · cases hhead
        exact ⟨c, rfl, rfl, .inr ⟨_, .tail _ (.tail _ (.head _)), rfl, .inl rfl⟩⟩
      · rcases List.mem_cons.mp htail with hhead | htail
        · cases hhead
        · cases List.mem_singleton.mp htail
    | denied _ happroved =>
      -- Denied by the human and recorded.
      rcases List.mem_cons.mp hmem with hhead | htail
      · cases hhead
        exact ⟨c, rfl, rfl, .inr ⟨_, .tail _ (.head _), rfl, .inr rfl⟩⟩
      · cases List.mem_singleton.mp htail

end AiK8sGateway
