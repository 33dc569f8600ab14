import AiK8sGateway.Gateway.Mediation
import AiK8sGateway.Gateway.Outcomes
import AiK8sGateway.Gateway.ShippedPolicy

/-!
# Human Approval

What becomes of the requests in the approval queue: whether each of them ends with a
recorded human decision, and who may make that decision.

## Main results

- `queue_conserved`: between handler runs every enqueued request is still pending or
  has a human audit record, as long as no execution after an approval raised.
- `high_risk_execution_approved`: a high-risk request is executed by an approval of it
  with a verified token only, whoever that token belongs to.
-/

namespace AiK8sGateway

open Foundations EffectProgram PythonText Approval Audit Auth Risk Reachable

/-! ## Conservation -/

/-- The audit records of a history. -/
def recordsOf (h : List GatewayEvent) : List AuditRecord :=
  h.filterMap fun
    | .act _ _ ⟨.auditLog record, _⟩ => some record
    | _ => none

@[simp] theorem recordsOf_append (h h' : List GatewayEvent) :
    recordsOf (h ++ h') = recordsOf h ++ recordsOf h' :=
  List.filterMap_append

/-- The decision is one of the two that a human makes. -/
def isHuman (decision : Decision) : Bool :=
  decision = .humanAllow || decision = .humanDeny

/-- Every request that was enqueued is in the queue as it was enqueued, or a human
    decision about it is in the audit log. -/
def Conserved (h : List GatewayEvent) (q : ApprovalQueue) : Prop :=
  ∀ t call pending id, .act t call (enqueued pending id) ∈ h →
    q.peek pending.requestId = some pending ∨
      ∃ record ∈ recordsOf h, record.requestId = pending.requestId ∧
        isHuman record.decision = true

/-- Between handler runs: every handler has ended, waits for OPA, or has not begun. -/
def BetweenRuns (c : GatewayConfig) : Prop :=
  ∀ t call p, c.threads[t]? = some (call, p) →
    (∃ response, p = .done response) ∨
      (∃ url document next, p = .perform (.httpPost url document) next) ∨
      localActions t c.history = []

/-- The event is no execution after an approval, or one that returned or found no
    cluster. -/
def approvalReturns : GatewayEvent → Bool
  | .act _ (.approveAction _) ⟨.executeAction _ _ _ _, exec⟩ => absorbed exec.result
  | _ => true

section Conservation

variable [Runtime] {settings : Settings} {opa : Opa} {c : GatewayConfig}

/-- Between handler runs a request that was taken out of the queue has a human record,
    unless the execution after its approval raised. -/
theorem record_of_taken (h : (gateway settings opa).Reachable c) (hruns : BetweenRuns c)
    (hreturns : ∀ e ∈ c.history, approvalReturns e = true) {t : Nat} {call : Call} {i : String}
    {pending : PendingRequest} (htaken : .act t call ⟨.resolve i, some pending⟩ ∈ c.history) :
    ∃ record ∈ recordsOf c.history, record.requestId = i ∧ isHuman record.decision = true := by
  obtain ⟨p, hthread, hpath, hmem⟩ := thread_of_act h htaken
  have htrace := callTrace_of_path settings hpath
  rcases hruns t call p hthread with ⟨response, rfl⟩ | ⟨url, document, next, rfl⟩ | hnil
  · -- The handler has ended, and so it has logged its decision.
    have harrive := arrived h htaken
    have hevent : ∀ a ∈ localActions t c.history, .act t call a ∈ c.history := fun a ha =>
      (mem_localActions_iff h harrive).mp ha
    obtain ⟨ac, rfl, -, ⟨exec, e, hexec, herror⟩ | ⟨record, hrecord, hid, hhuman⟩⟩ :=
      resolution_of_trace settings htrace hmem
    · -- The execution after the approval raised, against the assumption.
      have habsorbed := hreturns _ (hevent _ hexec)
      obtain ⟨data, hdata⟩ := mapExecution_ok_iff.mpr habsorbed
      cases hdata.symm.trans herror
    · refine ⟨record, ?_, hid, by simpa [isHuman] using hhuman⟩
      exact List.mem_filterMap.mpr ⟨_, hevent _ hrecord, rfl⟩
  · -- A handler that waits for OPA has not touched the queue yet.
    rw [idle_before_query settings hpath] at hmem
    cases hmem
  · -- A handler that has not begun has done nothing.
    rw [hnil] at hmem
    cases hmem

/-- **Conservation**: between handler runs every enqueued request is still in the queue
    as it was enqueued, or has a human audit record, as long as every execution after an
    approval returned or found no cluster. -/
theorem queue_conserved (h : (gateway settings opa).Reachable c) (hruns : BetweenRuns c)
    (hreturns : ∀ e ∈ c.history, approvalReturns e = true) : Conserved c.history c.shared := by
  intro t call pending id hmem
  have hkind : kindOf (.act t call (enqueued pending id)) =
      some (.enqueued, pending.requestId) := rfl
  have htally : tally .enqueued pending.requestId c.history ≤ 1 := by
    have hle := enqueued_add_denied_le_one h pending.requestId
    omega
  have hpos := stored_add_taken_pos h (one_le_tally hmem hkind)
  cases hpeek : c.shared.peek pending.requestId with
  | some pending' =>
    -- What is stored was enqueued under the same id, so by the same event.
    left
    obtain ⟨t', call', id', hmem'⟩ := enqueue_of_peek h hpeek
    have hid := ApprovalQueue.requestId_of_peek hpeek
    have heq := eq_of_tally_le_one htally hmem hmem' hkind (by rw [kindOf_enqueued, hid])
    cases heq
    rfl
  | none =>
    -- What is not stored was taken out, and a record says so.
    right
    simp only [stored, hpeek, Option.isSome_none, Bool.toNat_false, Nat.zero_add] at hpos
    obtain ⟨t', call', pending', htaken⟩ := exists_resolved hpos
    exact record_of_taken h hruns hreturns htaken

end Conservation

/-! ## Who approves -/

section Approver

variable [Runtime] (settings : Settings)

/-- The event is a call of `execute_action` for what the scorer finds to be high-risk. -/
def highRiskExecution : GatewayEvent → Bool
  | .act _ _ ⟨.executeAction action resource namespace_ params, _⟩ =>
    match score settings action resource namespace_ (some params) with
    | .ok rs => rs.level = .high
    | .error _ => false
  | _ => false

/-- What `verify_token` makes of the token that a request presents. -/
def Call.token : Call → Except HandlerExc TokenPayload
  | .agentAction c => verifyToken c.decode settings c.credentials
  | .listPending c => verifyToken c.decode settings c.credentials
  | .approveAction c => verifyToken c.decode settings c.credentials

/-- All tokens that were presented verify to one subject. -/
def SameSubject (h : List GatewayEvent) : Prop :=
  ∃ sub, ∀ t call, .arrive t call ∈ h → ∃ token, call.token settings = .ok token ∧ token.sub = sub

/-- The request was submitted under one verified token, scored as high-risk and allowed by
    OPA, and `e` executes it as it was submitted: an approval with another verified token, or
    the same one, which so far has done nothing but take this request out of the queue. -/
structure ApprovedBy (h : List GatewayEvent) (e : GatewayEvent) (req : AgentCall)
    (submitter approver : TokenPayload) (rs : RiskScore) : Prop where
  submitted : ∃ t, .arrive t (.agentAction req) ∈ h
  submitterToken : (Call.agentAction req).token settings = .ok submitter
  scored : score settings req.body.action req.body.resource req.body.namespace
    (some req.body.params) = .ok rs
  high : rs.level = .high
  allowed : ∃ t reply, answersAllow reply = true ∧
    .act t (.agentAction req) (req.asked settings submitter rs reply) ∈ h
  executed : ∃ t ac exec,
    e = .act t (.approveAction ac) ⟨.executeAction req.body.action req.body.resource
      req.body.namespace req.body.params, exec⟩ ∧
    (Call.approveAction ac).token settings = .ok approver ∧ ac.requestId = req.requestId ∧
    ac.body.approved = true ∧
    .act t (.approveAction ac) (ac.resolved (some (req.pending submitter rs))) ∈ h ∧
    localActions t h = [ac.resolved (some (req.pending submitter rs))]

variable {settings} {opa : Opa} {c : GatewayConfig}

/-- Before its execution an approval has taken one request out of the queue, and has done
    nothing else. -/
theorem localActions_of_approval (h : (gateway settings opa).Reachable c)
    {pre post : List GatewayEvent} {t : Nat} {ac : ApproveCall}
    {action resource namespace_ : String} {params : JsonDict} {exec : ExecReply}
    (hs : c.history = pre ++ .act t (.approveAction ac)
      ⟨.executeAction action resource namespace_ params, exec⟩ :: post)
    {pending : PendingRequest}
    (hresolved : .act t (.approveAction ac) (ac.resolved (some pending)) ∈ pre) :
    localActions t pre = [ac.resolved (some pending)] := by
  obtain ⟨c₁, q, _, hc₁, hpre, harrive, hpath, -⟩ := act_of_split h hs
  have htrace : CallTrace settings (.approveAction ac) (localActions t pre ++ [_]) q.outcome :=
    callTrace_of_path settings hpath
  have hlocal : ac.resolved (some pending) ∈ localActions t pre := by
    subst hpre
    exact (mem_localActions_iff hc₁ harrive).mpr hresolved
  rcases execution_of_trace settings htrace (List.getLast?_concat ..) with
    ⟨_, _, _, _, _, hcall, -⟩ | ⟨ac', _, pending', hcall, -, -, hacts, -⟩
  · -- A direct execution belongs to `agent_action`.
    cases hcall
  · -- An approval executes right behind the resolution of its own entry.
    cases hcall
    have hsplit : localActions t pre ++ [_] =
      [ac.resolved (some pending')] ++ [executedPending pending' exec] := hacts
    have hone : localActions t pre = [ac.resolved (some pending')] :=
      List.append_inj_left' hsplit rfl
    rw [hone] at hlocal ⊢
    rw [List.mem_singleton.mp hlocal]

/-- **Approval of high-risk requests**: whatever OPA answers, a high-risk execution is
    that of a submitted and allowed request, by an approval that took it out of the queue.
    Both tokens were verified; nothing compares their subjects. -/
theorem high_risk_execution_approved (h : (gateway settings opa).Reachable c)
    {pre post : List GatewayEvent} {e : GatewayEvent} (hs : c.history = pre ++ e :: post)
    (he : highRiskExecution settings e = true) :
    ∃ req submitter approver rs, ApprovedBy settings pre e req submitter approver rs := by
  cases e with
  | arrive t call => cases he
  | act t call a =>
    obtain ⟨op, exec⟩ := a
    cases op with
    | executeAction action resource namespace_ params =>
      obtain ⟨_, _, c₁, _, _, _, _, hc₁, hpre, _⟩ := trace_of_split h hs
      obtain ⟨req, token, rs, ⟨hscored, t', reply, reason, hread, hasked⟩, hcleared, rfl, rfl,
        rfl, rfl⟩ := execution_origin h hs
      -- The scorer sees the same strings and params at the submission and here.
      have hlevel : rs.level = .high := by
        simpa only [highRiskExecution, hscored.scored, decide_eq_true_eq] using he
      rcases hcleared with ⟨hlow, -⟩ | ⟨-, ac, approver, rfl, hid, happroved, hverify, hresolved⟩
      · -- A direct execution is none of a high-risk request.
        exact absurd hlevel hlow
      · have hjust := localActions_of_approval h hs hresolved
        subst hpre
        refine ⟨req, token, approver, rs, ⟨t', arrived hc₁ hasked⟩, hscored.verified,
          hscored.scored, hlevel, ⟨t', reply, ?_, hasked⟩, ?_⟩
        · exact readDecision_allow_iff.mp ⟨reason, hread⟩
        · exact ⟨t, ac, exec, rfl, hverify, hid, happroved, hresolved, hjust⟩
    | _ => cases he

end Approver

section Examples

attribute [local instance] asciiRuntime plainText

/-- One subject submits the deployment and then approves it itself. -/
def selfApproved : List Call :=
  [.agentAction (.ofSubject "r-1" "agent-deploy" "deployer" hostPathDeployment),
    .approveAction (.ofSubject "r-1" "agent-deploy" "deployer" { approved := true })]

theorem betweenRuns_sequential (env : Environment) (calls : List Call) :
    BetweenRuns (sequential Settings.default env calls) := by
  intro t call p hget
  exact .inl (done_of_sequential (List.mem_of_getElem? hget))

/-- All of it is done by one subject. -/
theorem sameSubject_selfApproved (env : Environment) :
    SameSubject Settings.default (sequential Settings.default env selfApproved).history := by
  refine ⟨.str "agent-deploy", fun t call harrive => ?_⟩
  have hcall := call_mem_of_arrive harrive
  simp only [selfApproved, List.mem_cons, List.not_mem_nil, or_false] at hcall
  rcases hcall with rfl | rfl <;> exact ⟨_, rfl, rfl⟩

/-- Submission and approval, on a cluster that gives the reply. -/
def selfApprovedWith (k8sReply : (op : K8s.Op) → op.Reply) : GatewayConfig :=
  sequential Settings.default (allowedWith k8sReply) selfApproved

theorem selfApprovedWith_reachable (k8sReply : (op : K8s.Op) → op.Reply) :
    (gateway Settings.default anyOpa).Reachable (selfApprovedWith k8sReply) :=
  sequential_reachable (fun _ _ => trivial) _ (by decide)

/-- With a working cluster the approval is recorded. -/
theorem queue_conserved_workingCluster :
    Conserved (selfApprovedWith workingCluster).history
      (selfApprovedWith workingCluster).shared := by
  refine queue_conserved (selfApprovedWith_reachable _) (betweenRuns_sequential _ _) ?_
  have hall : (selfApprovedWith workingCluster).history.all approvalReturns = true := by decide
  exact List.all_eq_true.mp hall

/-- When the API server fails, the approved request is neither in the queue nor recorded. -/
theorem not_queue_conserved_failingCluster :
    ¬ ∀ c : GatewayConfig, (gateway Settings.default anyOpa).Reachable c → BetweenRuns c →
      Conserved c.history c.shared := by
  intro h
  have hconserved := h _ (selfApprovedWith_reachable failingCluster) (betweenRuns_sequential _ _)
  have htally : 0 < tally .enqueued "r-1" (selfApprovedWith failingCluster).history := by decide
  obtain ⟨t, call, pending, id, hid, hmem⟩ := exists_enqueued htally
  rcases hconserved t call pending id hmem with hpeek | ⟨record, hrecord, -, hhuman⟩
  · have hnone : (selfApprovedWith failingCluster).shared.peek "r-1" = none := by decide
    rw [hid, hnone] at hpeek
    cases hpeek
  · have hall : (recordsOf (selfApprovedWith failingCluster).history).all
        (fun record => !isHuman record.decision) = true := by decide
    simpa [hhuman] using List.all_eq_true.mp hall record hrecord

/-- OPA with the shipped policy, which allows the deployment, and a working cluster. -/
def selfApprovedShipped : GatewayConfig := sequential Settings.default shipped selfApproved

theorem selfApprovedShipped_reachable :
    (gateway Settings.default shippedOpa).Reachable selfApprovedShipped :=
  sequential_reachable shippedOpa_shippedReply _ (by decide)

theorem exists_highRiskExecution :
    ∃ e ∈ selfApprovedShipped.history, highRiskExecution Settings.default e = true := by
  have hany : selfApprovedShipped.history.any (highRiskExecution Settings.default) = true := by
    decide
  exact List.any_eq_true.mp hany

/-- Under the shipped policy one subject brings its own high-risk request to execution. -/
theorem not_separated_selfApproved :
    ¬ ∀ c : GatewayConfig, (gateway Settings.default shippedOpa).Reachable c →
      SameSubject Settings.default c.history →
        ∀ e ∈ c.history, highRiskExecution Settings.default e = false := by
  intro h
  obtain ⟨e, he, hhigh⟩ := exists_highRiskExecution
  have hlow := h _ selfApprovedShipped_reachable (sameSubject_selfApproved shipped) e he
  cases hhigh.symm.trans hlow

/-- That execution was approved, by the subject that submitted it. -/
theorem high_risk_execution_approved_selfApproved :
    ∃ pre e post req submitter approver rs, selfApprovedShipped.history = pre ++ e :: post ∧
      ApprovedBy Settings.default pre e req submitter approver rs := by
  obtain ⟨e, he, hhigh⟩ := exists_highRiskExecution
  obtain ⟨pre, post, hs⟩ := List.append_of_mem he
  obtain ⟨req, submitter, approver, rs, happroved⟩ :=
    high_risk_execution_approved selfApprovedShipped_reachable hs hhigh
  exact ⟨pre, e, post, req, submitter, approver, rs, hs, happroved⟩

end Examples

end AiK8sGateway
