import AiK8sGateway.Approval.PendingSet
import AiK8sGateway.Gateway.Mediation
import AiK8sGateway.Risk.Explanation

/-!
# What Is in the Queue

The handlers' calls of the queue are read off a history.  They enqueue distinct ids, so
the queue of a reachable state is the pending set of its history, and whatever is in it
was put there by `agent_action` with the score that the scorer gave it.

## Main results

- `shared_eq_after`: the queue of a reachable state is the one after the calls of its
  history, and every handler got the reply of that queue.
- `distinctIds_of_reachable`: no id is enqueued twice.
- `queue_is_pending_set`: the queue is a correct pending set of high-risk requests.
-/

namespace AiK8sGateway

open Foundations EffectProgram PythonText Approval Audit Auth Risk Reachable

/-! ## The calls of a history -/

/-- A call of the queue with its reply. -/
abbrev QueueCall := (op : QueueOp) × op.Reply

/-- The call of the queue that an event makes. -/
def queueCall? : GatewayEvent → Option QueueCall
  | .act _ _ ⟨.enqueue request, id⟩ => some ⟨.enqueue request, id⟩
  | .act _ _ ⟨.resolve requestId, pending⟩ => some ⟨.resolve requestId, pending⟩
  | .act _ _ ⟨.listPending, items⟩ => some ⟨.listPending, items⟩
  | _ => none

/-- The calls of the queue in a history. -/
def queueOps (h : List GatewayEvent) : List QueueOp := (h.filterMap queueCall?).map Sigma.fst

theorem queueOps_snoc_of_call {h : List GatewayEvent} {e : GatewayEvent} {call : QueueCall}
    (hcall : queueCall? e = some call) : queueOps (h ++ [e]) = queueOps h ++ [call.1] := by
  simp [queueOps, hcall]

theorem queueOps_snoc_of_none {h : List GatewayEvent} {e : GatewayEvent}
    (hcall : queueCall? e = none) : queueOps (h ++ [e]) = queueOps h := by
  simp [queueOps, hcall]

section Contents

variable [Runtime] {settings : Settings} {opa : Opa} {c : GatewayConfig}

/-- What serves a call of the queue is the method. -/
theorem serves_queueCall {q q' : ApprovalQueue} (t : Nat) (call : Call) {a : Action signature}
    (hserve : serves opa q a.1 a.2 q') :
    (∀ qc, queueCall? (.act t call a) = some qc → (qc.2, q') = q.call qc.1) ∧
      (queueCall? (.act t call a) = none → q' = q) := by
  obtain ⟨op, r⟩ := a
  cases op with
  | enqueue request | resolve requestId =>
    refine ⟨fun qc hqc => ?_, nofun⟩
    cases hqc
    exact hserve
  | listPending =>
    refine ⟨fun qc hqc => ?_, nofun⟩
    cases hqc
    exact Prod.ext hserve.1 hserve.2
  | httpPost _ _ | executeAction _ _ _ _ => exact ⟨nofun, fun _ => hserve.2⟩
  | auditLog _ => exact ⟨nofun, fun _ => hserve⟩

/-- **The queue of a state** is the one after the calls of the history. -/
theorem shared_eq_after (h : (gateway settings opa).Reachable c) :
    c.shared = after (queueOps c.history) := by
  refine history_induction (P := fun h q => q = after (queueOps h)) rfl ?_ ?_ h
  · intro h q t call ih _
    rw [queueOps_snoc_of_none rfl, ih]
  · intro h q t call a q' ih hserve
    obtain ⟨hcall, hother⟩ := serves_queueCall t call hserve
    cases hqc : queueCall? (.act t call a) with
    | none => rw [queueOps_snoc_of_none hqc, hother hqc, ih]
    | some qc =>
      rw [queueOps_snoc_of_call hqc, after_snoc, ← ih, ← hcall qc hqc]

/-- Every call got the reply of the queue after the calls before it. -/
theorem reply_of_split (h : (gateway settings opa).Reachable c) {pre post : List GatewayEvent}
    {e : GatewayEvent} (hs : c.history = pre ++ e :: post) {qc : QueueCall}
    (hqc : queueCall? e = some qc) : qc.2 = ((after (queueOps pre)).call qc.1).1 := by
  cases e with
  | arrive t call => cases hqc
  | act t call a =>
    obtain ⟨_, _, c₁, q', -, -, -, hc₁, rfl, hserve⟩ := trace_of_split h hs
    rw [shared_eq_after hc₁] at hserve
    exact congrArg Prod.fst ((serves_queueCall t call hserve).1 qc hqc)

/-! ## Distinct ids -/

/-- The ids that the calls of a history enqueue. -/
def enqueuedIds (h : List GatewayEvent) : List String :=
  ((queueOps h).filterMap QueueOp.enqueued?).map PendingRequest.requestId

omit [Runtime] in
theorem enqueuedIds_snoc_of_kindOf {h : List GatewayEvent} {e : GatewayEvent}
    (hkind : ∀ i, kindOf e ≠ some (.enqueued, i)) : enqueuedIds (h ++ [e]) = enqueuedIds h := by
  cases hqc : queueCall? e with
  | none => rw [enqueuedIds, queueOps_snoc_of_none hqc, enqueuedIds]
  | some qc =>
    have hadds : qc.1.enqueued? = none := by
      cases e with
      | arrive t call => cases hqc
      | act t call a =>
        obtain ⟨op, r⟩ := a
        cases op with
        | enqueue request => exact absurd rfl (hkind request.requestId)
        | resolve _ | listPending =>
          cases hqc
          rfl
        | httpPost _ _ | executeAction _ _ _ _ | auditLog _ => cases hqc
    simp [enqueuedIds, queueOps_snoc_of_call hqc, hadds]

omit [Runtime] in
/-- An id is enqueued as often as the history counts. -/
theorem count_enqueuedIds (i : String) (h : List GatewayEvent) :
    (enqueuedIds h).count i = tally .enqueued i h := by
  induction h using List.reverseRecOn with
  | nil => rfl
  | append_singleton h e ih =>
    rw [tally_snoc, ← ih]
    by_cases hkind : ∃ j, kindOf e = some (.enqueued, j)
    · obtain ⟨j, hj⟩ := hkind
      cases hasKind_of_kindOf hj with
      | enqueued t call request id =>
        have hids : enqueuedIds (h ++ [.act t call (enqueued request id)]) =
            enqueuedIds h ++ [request.requestId] := by
          simp [enqueuedIds, queueOps_snoc_of_call (e := .act t call (enqueued request id)) rfl,
            QueueOp.enqueued?]
        rw [hids, List.count_append, List.count_singleton, hit, kindOf_enqueued]
        by_cases hi : request.requestId = i <;> simp [hi]
    · have hnone : ∀ j, kindOf e ≠ some (.enqueued, j) := fun j hj => hkind ⟨j, hj⟩
      rw [enqueuedIds_snoc_of_kindOf hnone, hit_eq_zero (hnone i), Nat.add_zero]

/-- No id is enqueued twice. -/
theorem distinctIds_of_reachable (h : (gateway settings opa).Reachable c) :
    DistinctIds (queueOps c.history) := by
  show (enqueuedIds c.history).Nodup
  rw [List.nodup_iff_count_le_one]
  intro i
  have hle := enqueued_add_denied_le_one h i
  rw [count_enqueuedIds]
  omega

/-! ## Entries -/

/-- The request is high-risk, with the score and the reasons that the scorer gives its own
    strings and params. -/
structure HighRiskEntry (settings : Settings) (request : PendingRequest) : Prop where
  level : request.riskLevel = .high
  scored : score settings request.action request.resource request.namespace
    (some request.params) = .ok ⟨request.riskLevel, request.riskScore, request.riskReasons⟩
  least : 4 ≤ request.riskScore

/-- What `agent_action` enqueues is such an entry. -/
theorem highRiskEntry_pending {req : AgentCall} {token : TokenPayload} {rs : RiskScore}
    (hscored : req.Scored settings token rs) (hlevel : rs.level = .high) :
    HighRiskEntry settings (req.pending token rs) := by
  obtain ⟨_, -, -, -, hband⟩ := score_findings hscored.scored
  refine ⟨hlevel, hscored.scored, ?_⟩
  show 4 ≤ rs.score
  rw [← (classify_iff rs.score).2.2, ← hband, hlevel]

/-- Whatever is in the queue of a reachable state was scored as high-risk. -/
theorem highRiskEntry_of_mem (h : (gateway settings opa).Reachable c)
    {e : String × PendingRequest} (he : e ∈ c.shared.queue.entries) :
    HighRiskEntry settings e.2 := by
  have hpeek : c.shared.peek e.1 = some e.2 := OrderedDict.get?_eq_some_iff.mpr he
  obtain ⟨t, call, id, hmem⟩ := enqueue_of_peek h hpeek
  obtain ⟨pre, post, hs⟩ := List.append_of_mem hmem
  obtain ⟨req, token, rs, -, hauth, hlevel, hpending⟩ := enqueue_origin h hs
  rw [hpending]
  exact highRiskEntry_pending hauth.scored hlevel

/-! ## The pending set of a state -/

/-- The queue of a state is what the calls of its history make pending, and every entry
    is under its own id and was scored as high-risk. -/
structure QueueOfHistory (settings : Settings) (c : GatewayConfig) : Prop where
  distinct : DistinctIds (queueOps c.history)
  shared : c.shared = after (queueOps c.history)
  replies : ∀ pre e post qc, c.history = pre ++ e :: post → queueCall? e = some qc →
    qc.2 = ((after (queueOps pre)).call qc.1).1
  entries : ∀ e ∈ c.shared.queue.entries, e.2.requestId = e.1 ∧ HighRiskEntry settings e.2

/-- **The approval queue** is a correct pending set after every sequence of calls under
    distinct ids, and every reachable gateway has made such a sequence of calls, with an
    entry for high-risk requests only, as they were scored. -/
theorem queue_is_pending_set {ops : List QueueOp} (hids : DistinctIds ops)
    (h : (gateway settings opa).Reachable c) :
    CorrectPendingSet ops ∧ QueueOfHistory settings c :=
  ⟨correctPendingSet hids, distinctIds_of_reachable h, shared_eq_after h,
    fun _ _ _ _ hs hqc => reply_of_split h hs hqc,
    fun e he => ⟨c.shared.keyed e he, highRiskEntry_of_mem h he⟩⟩

end Contents

section Example

attribute [local instance] asciiRuntime

/-- Two deployments are submitted, and the first one is approved twice. -/
def approvedTwice : GatewayConfig :=
  sequential Settings.default trusting
    [.agentAction (.ofSubject "r-1" "agent-deploy" "deployer" hostPathDeployment),
      .agentAction (.ofSubject "r-2" "agent-deploy" "deployer" hostPathDeployment),
      .approveAction (.ofSubject "r-1" "operator" "deployer" { approved := true }),
      .approveAction (.ofSubject "r-1" "operator" "deployer" { approved := true })]

/-- The calls of that run are a pending set, and the second deployment is left in it. -/
theorem queue_is_pending_set_approvedTwice :
    CorrectPendingSet (queueOps approvedTwice.history) ∧
      QueueOfHistory Settings.default approvedTwice ∧
      (queueOps approvedTwice.history).length = 4 ∧
      approvedTwice.shared.queue.entries.map Prod.fst = ["r-2"] := by
  have hreachable : (gateway Settings.default anyOpa).Reachable approvedTwice :=
    sequential_reachable (fun _ _ => trivial) _ (by decide)
  obtain ⟨hcorrect, hqueue⟩ :=
    queue_is_pending_set (distinctIds_of_reachable hreachable) hreachable
  exact ⟨hcorrect, hqueue, by decide, by decide⟩

end Example

end AiK8sGateway
