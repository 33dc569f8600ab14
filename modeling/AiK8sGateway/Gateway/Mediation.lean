import AiK8sGateway.Gateway.PolicyReply
import AiK8sGateway.Gateway.Sequential

/-!
# Complete Mediation and At-Most-Once Execution

The events that matter are counted for a request id.  Every handler on its own keeps
executions, denials and rejections below what it was given: its own submission, or
the entry it took out of the queue.  Summed over a history, and with the law of the
queue, that leaves one execution for each id at most.

That OPA allowed a request means what the gateway takes it to mean, a truthy
`result.allow`; where OPA answers with booleans only, it means the answer `true`.

## Main results

- `hasKind_of_kindOf`: what an event of a kind is.
- `decisions_le`: the inequality every handler satisfies along its traces.
- `stored_add_taken_le`: nothing is taken out of the queue that was not put in.
- `executed_add_refused_le_one`: for an id, executions, denials and rejections are
  one at most, together.
- `complete_mediation`: every reachable state is mediated.
- `Mediated.executed_answersTrue`, `Mediated.denied_of_boolean`: the same under boolean
  answers, in plain words.
-/

namespace AiK8sGateway

open Foundations EffectProgram PythonText Approval Audit Auth Risk Reachable

/-! ## Kinds of events -/

/-- What an event means for the request it is about. -/
inductive Kind where
  /-- An `agent_action` request arrives. -/
  | submitted
  /-- OPA answers the query with something that is not taken for an allow. -/
  | denied
  /-- The request is put into the queue. -/
  | enqueued
  /-- It is taken out of the queue by an `approved=true`. -/
  | released
  /-- It is taken out of the queue by an `approved=false`. -/
  | rejected
  /-- `execute_action` is called for it. -/
  | executed
  deriving DecidableEq

/-- The request approves what it takes out of the queue. -/
def Call.approves : Call → Bool
  | .approveAction c => c.body.approved
  | _ => false

/-- The kind of an event, and the request id it is about. -/
def kindOf : GatewayEvent → Option (Kind × String)
  | .arrive _ (.agentAction c) => some (.submitted, c.requestId)
  | .act _ call ⟨.httpPost _ _, reply⟩ =>
    if answersAllow reply then none else call.requestId?.map (Kind.denied, ·)
  | .act _ _ ⟨.enqueue request, _⟩ => some (.enqueued, request.requestId)
  | .act _ call ⟨.resolve i, some _⟩ => some (if call.approves then .released else .rejected, i)
  | .act _ call ⟨.executeAction _ _ _ _, _⟩ => call.requestId?.map (Kind.executed, ·)
  | _ => none

section KindOf

variable (t : Nat) (call : Call)

@[simp] theorem kindOf_arrive_agentAction (c : AgentCall) :
    kindOf (.arrive t (.agentAction c)) = some (.submitted, c.requestId) := rfl

@[simp] theorem kindOf_arrive_listPending (c : ListCall) :
    kindOf (.arrive t (.listPending c)) = none := rfl

@[simp] theorem kindOf_arrive_approveAction (c : ApproveCall) :
    kindOf (.arrive t (.approveAction c)) = none := rfl

@[simp] theorem kindOf_asked [Runtime] {settings : Settings} (c : AgentCall)
    (token : TokenPayload) (rs : RiskScore) (reply : HttpReply) :
    kindOf (.act t (.agentAction c) (c.asked settings token rs reply)) =
      if answersAllow reply then none else some (.denied, c.requestId) := rfl

@[simp] theorem kindOf_enqueued (request : PendingRequest) (id : String) :
    kindOf (.act t call (enqueued request id)) = some (.enqueued, request.requestId) := rfl

@[simp] theorem kindOf_listed (items : List Json) :
    kindOf (.act t call (listed items)) = none := rfl

@[simp] theorem kindOf_resolved_none (c : ApproveCall) :
    kindOf (.act t call (c.resolved none)) = none := rfl

@[simp] theorem kindOf_resolved_some (c : ApproveCall) (pending : PendingRequest) :
    kindOf (.act t (.approveAction c) (c.resolved (some pending))) =
      some (if c.body.approved then .released else .rejected, c.requestId) := rfl

@[simp] theorem kindOf_executed (c : AgentCall) (exec : ExecReply) :
    kindOf (.act t (.agentAction c) (c.executed exec)) = some (.executed, c.requestId) := rfl

@[simp] theorem kindOf_executedPending (c : ApproveCall) (pending : PendingRequest)
    (exec : ExecReply) :
    kindOf (.act t (.approveAction c) (executedPending pending exec)) =
      some (.executed, c.requestId) := rfl

@[simp] theorem kindOf_logged (record : AuditRecord) :
    kindOf (.act t call (logged record)) = none := rfl

end KindOf

/-- The events of each kind, and the id they are about. -/
inductive HasKind : GatewayEvent → Kind → String → Prop where
  | submitted (t : Nat) (c : AgentCall) :
      HasKind (.arrive t (.agentAction c)) .submitted c.requestId
  | denied {t : Nat} {call : Call} {url : String} {document : Json} {reply : HttpReply}
      {i : String} (hid : call.requestId? = some i) (hreply : answersAllow reply = false) :
      HasKind (.act t call ⟨.httpPost url document, reply⟩) .denied i
  | enqueued (t : Nat) (call : Call) (request : PendingRequest) (id : String) :
      HasKind (.act t call (enqueued request id)) .enqueued request.requestId
  | released {t : Nat} {call : Call} (i : String) (pending : PendingRequest)
      (happroves : call.approves = true) :
      HasKind (.act t call ⟨.resolve i, some pending⟩) .released i
  | rejected {t : Nat} {call : Call} (i : String) (pending : PendingRequest)
      (happroves : call.approves = false) :
      HasKind (.act t call ⟨.resolve i, some pending⟩) .rejected i
  | executed {t : Nat} {call : Call} {action resource namespace_ : String} {params : JsonDict}
      {exec : ExecReply} {i : String} (hid : call.requestId? = some i) :
      HasKind (.act t call ⟨.executeAction action resource namespace_ params, exec⟩) .executed i

/-- **Inversion of kinds**: an event of a kind is one of the events of that kind. -/
theorem hasKind_of_kindOf {e : GatewayEvent} {k : Kind} {i : String}
    (h : kindOf e = some (k, i)) : HasKind e k i := by
  cases e with
  | arrive t call =>
    cases call with
    -- An arrival submits, if it is one of `agent_action`.
    | agentAction c =>
      cases h
      exact .submitted t c
    | listPending _ => cases h
    | approveAction _ => cases h
  | act t call a =>
    obtain ⟨op, r⟩ := a
    cases op with
    -- A query that is not answered with an allow.
    | httpPost url document =>
      cases hreply : answersAllow r with
      | true => simp [kindOf, hreply] at h
      | false =>
        simp only [kindOf, hreply, Bool.false_eq_true, if_false] at h
        obtain ⟨j, hj, heq⟩ := Option.map_eq_some_iff.mp h
        cases heq
        exact .denied hj hreply
    | enqueue request =>
      cases h
      exact .enqueued t call request r
    -- A resolution, by what the handler decides.
    | resolve j =>
      cases r with
      | none => cases h
      | some pending =>
        cases happroves : call.approves with
        -- `approved=true`.
        | true =>
          simp only [kindOf, happroves, if_true] at h
          cases h
          exact .released _ pending happroves
        | false =>
          -- `approved=false`.
          simp only [kindOf, happroves, Bool.false_eq_true, if_false] at h
          cases h
          exact .rejected _ pending happroves
    | listPending => cases h
    | executeAction action resource namespace_ params =>
      obtain ⟨j, hj, heq⟩ := Option.map_eq_some_iff.mp h
      cases heq
      exact .executed hj
    | auditLog record => cases h

/-- Only an arrival submits. -/
theorem kindOf_act_ne_submitted (t : Nat) (call : Call) (a : Action signature) (i : String) :
    kindOf (.act t call a) ≠ some (.submitted, i) := by
  intro h
  cases hasKind_of_kindOf h

/-- What arrives and is submitted is an `agent_action` request. -/
theorem kindOf_arrive_eq_some {t : Nat} {call : Call} {k : Kind} {i : String}
    (h : kindOf (.arrive t call) = some (k, i)) :
    ∃ c, call = .agentAction c ∧ c.requestId = i ∧ k = .submitted := by
  cases hasKind_of_kindOf h with
  | submitted t c => exact ⟨c, rfl, rfl, rfl⟩

/-- One for an event of kind `k` about `i`, zero for any other. -/
def hit (k : Kind) (i : String) (e : GatewayEvent) : Nat :=
  (decide (kindOf e = some (k, i))).toNat

/-- The number of events of kind `k` about `i`. -/
def tally (k : Kind) (i : String) (h : List GatewayEvent) : Nat := weight (hit k i) h

@[simp] theorem tally_nil (k : Kind) (i : String) : tally k i [] = 0 := rfl

@[simp] theorem tally_snoc (k : Kind) (i : String) (h : List GatewayEvent) (e : GatewayEvent) :
    tally k i (h ++ [e]) = tally k i h + hit k i e := by
  simp [tally]

theorem hit_eq_one {k : Kind} {i : String} {e : GatewayEvent} (h : kindOf e = some (k, i)) :
    hit k i e = 1 := by
  simp [hit, h]

theorem hit_eq_zero {k : Kind} {i : String} {e : GatewayEvent} (h : kindOf e ≠ some (k, i)) :
    hit k i e = 0 := by
  simp [hit, h]

/-- An arrival only submits. -/
theorem hit_arrive_eq_zero {k : Kind} (hk : k ≠ .submitted) {i : String} {t : Nat} {call : Call} :
    hit k i (.arrive t call) = 0 :=
  hit_eq_zero fun h => by
    obtain ⟨_, _, _, rfl⟩ := kindOf_arrive_eq_some h
    exact hk rfl

/-- An event in a history is counted. -/
theorem one_le_tally {k : Kind} {i : String} {e : GatewayEvent} {h : List GatewayEvent}
    (he : e ∈ h) (hk : kindOf e = some (k, i)) : 1 ≤ tally k i h := by
  have hle := le_weight_of_mem (hit k i) he
  rwa [hit_eq_one hk] at hle

/-- What is counted is in the history. -/
theorem exists_of_tally_pos {k : Kind} {i : String} {h : List GatewayEvent}
    (hpos : 0 < tally k i h) : ∃ e ∈ h, kindOf e = some (k, i) := by
  by_contra hnone
  push Not at hnone
  have hzero : tally k i h = 0 := weight_eq_zero fun e he => hit_eq_zero (hnone e he)
  omega

/-- What is counted once at most is one event. -/
theorem eq_of_tally_le_one {k : Kind} {i : String} {h : List GatewayEvent}
    (hle : tally k i h ≤ 1) {e e' : GatewayEvent} (he : e ∈ h) (he' : e' ∈ h)
    (hk : kindOf e = some (k, i)) (hk' : kindOf e' = some (k, i)) : e = e' := by
  obtain ⟨pre, post, rfl⟩ := List.append_of_mem he
  by_contra hne
  have hother : e' ∈ pre ++ post := by
    rcases List.mem_append.mp he' with hpre | hpost
    · exact List.mem_append_left _ hpre
    · rcases List.mem_cons.mp hpost with heq | hpost
      · exact absurd heq.symm hne
      · exact List.mem_append_right _ hpost
  have hone := one_le_tally hother hk'
  simp only [tally, weight_append, weight_cons, hit_eq_one hk] at hle hone
  omega

/-- An event counted as an execution is a call of `execute_action`. -/
theorem exists_execution {i : String} {h : List GatewayEvent}
    (hpos : 0 < tally .executed i h) :
    ∃ t call action resource namespace_ params exec, call.requestId? = some i ∧
      .act t call ⟨.executeAction action resource namespace_ params, exec⟩ ∈ h := by
  obtain ⟨e, he, hk⟩ := exists_of_tally_pos hpos
  cases hasKind_of_kindOf hk with
  | executed hid => exact ⟨_, _, _, _, _, _, _, hid, he⟩

/-- An event counted as put into the queue is the enqueuing of a request with that id. -/
theorem exists_enqueued {i : String} {h : List GatewayEvent} (hpos : 0 < tally .enqueued i h) :
    ∃ t call pending id, pending.requestId = i ∧ .act t call (enqueued pending id) ∈ h := by
  obtain ⟨e, he, hk⟩ := exists_of_tally_pos hpos
  cases hasKind_of_kindOf hk with
  | enqueued t call pending id => exact ⟨t, call, pending, id, rfl, he⟩

/-- An event counted as taken out of the queue is a resolution of that id. -/
theorem exists_resolved {i : String} {h : List GatewayEvent}
    (hpos : 0 < tally .released i h + tally .rejected i h) :
    ∃ t call pending, .act t call ⟨.resolve i, some pending⟩ ∈ h := by
  by_cases hreleased : 0 < tally .released i h
  · obtain ⟨e, he, hk⟩ := exists_of_tally_pos hreleased
    cases hasKind_of_kindOf hk with
    | released _ pending _ => exact ⟨_, _, pending, he⟩
  · have hrejected : 0 < tally .rejected i h := by omega
    obtain ⟨e, he, hk⟩ := exists_of_tally_pos hrejected
    cases hasKind_of_kindOf hk with
    | rejected _ pending _ => exact ⟨_, _, pending, he⟩

/-! ## What every handler keeps to -/

section Local

variable [Runtime] (settings : Settings) (i : String)

/-- Executions and refusals of a handler, against what it was given. -/
theorem decisions_le (t : Nat) {call : Call} {acts : List (Action signature)}
    {out : Option HttpReply} (h : CallTrace settings call acts out) :
    weight (fun e => hit .executed i e + hit .enqueued i e + hit .denied i e + hit .rejected i e)
        (.arrive t call :: acts.map (.act t call)) ≤
      weight (fun e => hit .submitted i e + hit .released i e + hit .rejected i e)
        (.arrive t call :: acts.map (.act t call)) := by
  cases h with
  | @agentAction c _ _ h =>
    cases h with
    | queueing _ hread _ | queued _ hread _ | failed _ hread _ _ | executed _ hread _ _
    | allowed _ hread _ _ =>
      -- Past the query the answer was an allow, so nothing was denied.
      have hallow := readDecision_allow_iff.mp ⟨_, hread⟩
      simp [hit, hallow, AgentCall.pending]
    | @unread _ _ reply _ _ hread | @decided _ _ reply _ _ hread | @denied _ _ reply _ _ hread =>
      cases hallow : answersAllow reply <;> simp [hit, hallow]
    | _ => simp [hit]
  | listPending h =>
    -- A listing decides nothing.
    cases h <;> simp [hit]
  | @approveAction c _ _ h =>
    cases h with
    -- The entry was just taken out, for one of the two decisions.
    | taken _ => cases happroved : c.body.approved <;> simp [hit, happroved]
    | failed _ happroved _ | executed _ happroved _ | approved _ happroved _
    | denied _ happroved => simp [hit, happroved]
    | _ => simp [hit]

/-- A handler queues or is denied at most the request it was given. -/
theorem enqueued_add_denied_le (t : Nat) {call : Call} {acts : List (Action signature)}
    {out : Option HttpReply} (h : CallTrace settings call acts out) :
    weight (fun e => hit .enqueued i e + hit .denied i e)
        (.arrive t call :: acts.map (.act t call)) ≤
      weight (hit .submitted i) (.arrive t call :: acts.map (.act t call)) := by
  cases h with
  | @agentAction c _ _ h =>
    cases h with
    | queueing _ hread _ | queued _ hread _ | failed _ hread _ _ | executed _ hread _ _
    | allowed _ hread _ _ =>
      have hallow := readDecision_allow_iff.mp ⟨_, hread⟩
      simp [hit, hallow, AgentCall.pending]
    | @unread _ _ reply _ _ hread | @decided _ _ reply _ _ hread | @denied _ _ reply _ _ hread =>
      cases hallow : answersAllow reply <;> simp [hit, hallow]
    | _ => simp [hit]
  | listPending h =>
    cases h <;> simp [hit]
  | @approveAction c _ _ h =>
    cases happroved : c.body.approved <;> cases h <;> simp_all [hit]

end Local

/-! ## The law of the queue -/

/-- One while a request with id `i` is in the queue. -/
def stored (i : String) (q : ApprovalQueue) : Nat := (q.peek i).isSome.toNat

/-- What an event does to the entry under an id: it goes in, or it comes out, or
    nothing happens to it. -/
theorem serves_balance [Runtime] {opa : Opa} {q q' : ApprovalQueue} {a : Action signature}
    (hserve : serves opa q a.1 a.2 q') (t : Nat) (call : Call) (i : String) :
    stored i q' + hit .released i (.act t call a) + hit .rejected i (.act t call a) =
      max (stored i q) (hit .enqueued i (.act t call a)) := by
  -- Only the two operations on entries change what is stored under an id.
  obtain ⟨op, r⟩ := a
  cases op with
  | enqueue request =>
    -- The entry goes in under its id.
    obtain rfl : q' = (q.enqueue request).2 := congrArg Prod.snd hserve
    simp only [stored, hit, kindOf, ApprovalQueue.peek_enqueue]
    by_cases hid : i = request.requestId
    · simp [hid, Bool.toNat_le]
    · simp [hid, Ne.symm hid]
  | resolve j =>
    -- The entry comes out.
    obtain ⟨rfl, rfl⟩ : r = q.peek j ∧ q' = (q.resolve j).2 := Prod.mk.inj hserve
    simp only [stored, ApprovalQueue.peek_resolve]
    by_cases hid : i = j
    · subst hid
      cases hpeek : q.peek i with
      | none => simp [hit, kindOf]
      | some pending => cases happroves : call.approves <;> simp [hit, kindOf, happroves]
    · cases q.peek j with
      | none => simp [hit, kindOf, hid]
      | some pending => simp [hit, kindOf, hid, Ne.symm hid]
  | httpPost url document =>
    -- The rest leaves the queue alone.
    obtain ⟨-, rfl⟩ := hserve
    simp only [hit, kindOf]
    split <;> simp
  | listPending | executeAction _ _ _ _ =>
    obtain ⟨-, rfl⟩ := hserve
    simp [hit, kindOf]
  | auditLog _ =>
    obtain rfl := hserve
    simp [hit, kindOf]

/-! ## Histories -/

section Histories

variable [Runtime] {settings : Settings} {opa : Opa} {c : GatewayConfig}

/-- A request id is submitted once at most. -/
theorem submitted_le_one (h : (gateway settings opa).Reachable c) (i : String) :
    tally .submitted i c.history ≤ 1 := by
  refine history_induction (P := fun h _ => tally .submitted i h ≤ 1) ?_ ?_ ?_ h
  · simp
  · intro h q t call ih hfresh
    rw [tally_snoc]
    by_cases hnew : kindOf (.arrive t call) = some (.submitted, i)
    · -- The id is fresh, so no earlier event submits it.
      suffices hzero : tally .submitted i h = 0 by
        rw [hzero, hit_eq_one hnew]
      refine weight_eq_zero fun e he => ?_
      refine hit_eq_zero fun hold => ?_
      obtain ⟨req, rfl, hid, -⟩ := kindOf_arrive_eq_some hnew
      cases e with
      | arrive t' call' =>
        obtain ⟨req', rfl, hid', -⟩ := kindOf_arrive_eq_some hold
        exact hfresh t' req' he (hid'.trans hid.symm)
      | act t' call' a => exact kindOf_act_ne_submitted t' call' a i hold
    · simpa [hit_eq_zero hnew] using ih
  · -- An operation is no submission.
    intro h q t call a q' ih _
    rw [tally_snoc]
    simpa [hit_eq_zero (kindOf_act_ne_submitted t call a i)] using ih

/-- Nothing is taken out of the queue that was not put in, and what is in it is still
    to be taken out. -/
theorem stored_add_taken_le (h : (gateway settings opa).Reachable c) (i : String) :
    stored i c.shared + tally .released i c.history + tally .rejected i c.history ≤
      tally .enqueued i c.history := by
  refine history_induction (P := fun h q => stored i q + tally .released i h +
    tally .rejected i h ≤ tally .enqueued i h) ?_ ?_ ?_ h
  · simp [gateway, stored]
  · intro h q t call ih _
    simp only [tally_snoc, hit_arrive_eq_zero (by decide : Kind.released ≠ .submitted),
      hit_arrive_eq_zero (by decide : Kind.rejected ≠ .submitted)]
    omega
  · intro h q t call a q' ih hserve
    have hbalance := serves_balance hserve t call i
    simp only [tally_snoc]
    omega

/-- What was put into the queue is in it or was taken out. -/
theorem stored_add_taken_pos (h : (gateway settings opa).Reachable c) {i : String}
    (hpos : 0 < tally .enqueued i c.history) :
    0 < stored i c.shared + tally .released i c.history + tally .rejected i c.history := by
  refine history_induction (P := fun h q => 0 < tally .enqueued i h →
    0 < stored i q + tally .released i h + tally .rejected i h) ?_ ?_ ?_ h hpos
  · simp
  · intro h q t call ih _ hpos
    simp only [tally_snoc, hit_arrive_eq_zero (by decide : Kind.enqueued ≠ .submitted)] at hpos ⊢
    have hold := ih hpos
    omega
  · intro h q t call a q' ih hserve hpos
    have hbalance := serves_balance hserve t call i
    simp only [tally_snoc] at hpos ⊢
    by_cases hold : 0 < tally .enqueued i h
    · have hpos' := ih hold
      omega
    · omega

/-! ## Counting over a history -/

theorem decisions_le_of_reachable (h : (gateway settings opa).Reachable c) (i : String) :
    tally .executed i c.history + tally .enqueued i c.history + tally .denied i c.history +
        tally .rejected i c.history ≤
      tally .submitted i c.history + tally .released i c.history +
        tally .rejected i c.history := by
  have hle := weight_le h _ _ fun t call acts p hpath =>
    decisions_le settings i t (callTrace_of_path settings hpath)
  simpa only [weight_add, tally] using hle

/-- **At most once**: for an id, executions, denials and rejections are one at most,
    together. -/
theorem executed_add_refused_le_one (h : (gateway settings opa).Reachable c) (i : String) :
    tally .executed i c.history + tally .denied i c.history + tally .rejected i c.history ≤ 1 := by
  -- Decisions are bounded by submissions and releases, releases by what was enqueued, and
  -- enqueuing is itself one of the decisions.
  have hdecisions := decisions_le_of_reachable h i
  have htaken := stored_add_taken_le h i
  have hsubmitted := submitted_le_one h i
  omega

/-- A denied request is never put into the queue. -/
theorem enqueued_add_denied_le_one (h : (gateway settings opa).Reachable c) (i : String) :
    tally .enqueued i c.history + tally .denied i c.history ≤ 1 := by
  have hle := weight_le h _ _ fun t call acts p hpath =>
    enqueued_add_denied_le settings i t (callTrace_of_path settings hpath)
  rw [weight_add] at hle
  exact le_trans hle (submitted_le_one h i)

/-! ## Complete mediation -/

/-- What makes a call of `execute_action` at the end of a history legitimate. -/
structure Legitimate (settings : Settings) (h : List GatewayEvent) (call : Call)
    (action resource namespace_ : String) (params : JsonDict) (req : AgentCall) : Prop where
  /-- It belongs to a submitted request and carries exactly what was submitted. -/
  submitted : ∃ t, .arrive t (.agentAction req) ∈ h
  requestId : call.requestId? = some req.requestId
  arguments : action = req.body.action ∧ resource = req.body.resource ∧
    namespace_ = req.body.namespace ∧ params = req.body.params
  /-- OPA answered that request with what is taken for an allow, a truthy value. -/
  allowed : ∃ t url document reply, answersAllow reply = true ∧
    .act t (.agentAction req) ⟨.httpPost url document, reply⟩ ∈ h
  /-- A high-risk request was taken out of the queue by an approval. -/
  approved : ∀ rs, score settings action resource namespace_ (some params) = .ok rs →
    rs.level = .high → ∃ t ac pending, ac.requestId = req.requestId ∧
      ac.body.approved = true ∧ .act t (.approveAction ac) (ac.resolved (some pending)) ∈ h

/-- Complete mediation of a state: its history and its queue. -/
structure Mediated (settings : Settings) (h : List GatewayEvent) (q : ApprovalQueue) : Prop where
  legitimate : ∀ pre post t call action resource namespace_ params exec,
    h = pre ++ .act t call ⟨.executeAction action resource namespace_ params, exec⟩ :: post →
      ∃ req, Legitimate settings pre call action resource namespace_ params req
  /-- At most one execution for each request id. -/
  atMostOnce : ∀ i, tally .executed i h ≤ 1
  /-- A denied request is never executed and never in the queue. -/
  denied : ∀ t req url document reply, answersAllow reply = false →
    .act t (.agentAction req) ⟨.httpPost url document, reply⟩ ∈ h →
      tally .executed req.requestId h = 0 ∧ tally .enqueued req.requestId h = 0 ∧
        q.peek req.requestId = none
  /-- A rejected request is never executed. -/
  rejected : ∀ t ac pending, ac.body.approved = false →
    .act t (.approveAction ac) (ac.resolved (some pending)) ∈ h →
      tally .executed ac.requestId h = 0

/-- Every answer of OPA in the history has a boolean for its `allow`, or none. -/
def BooleanAnswers (h : List GatewayEvent) : Prop :=
  ∀ t call url document reply, .act t call ⟨.httpPost url document, reply⟩ ∈ h →
    allowIsBoolean reply = true

/-- An OPA that answers with booleans leaves such a history. -/
theorem booleanAnswers_of_opa
    (hopa : ∀ url document reply, opa url document reply → allowIsBoolean reply = true)
    (h : (gateway settings opa).Reachable c) : BooleanAnswers c.history :=
  fun _ _ _ _ _ hmem => hopa _ _ _ (opa_of_mem h hmem)

/-- Under boolean answers, what is executed was answered `true`. -/
theorem Mediated.executed_answersTrue {h : List GatewayEvent} {q : ApprovalQueue}
    (hm : Mediated settings h q) (hboolean : BooleanAnswers h) {pre post : List GatewayEvent}
    {t : Nat} {call : Call} {action resource namespace_ : String} {params : JsonDict}
    {exec : ExecReply}
    (hs : h = pre ++ .act t call ⟨.executeAction action resource namespace_ params, exec⟩ :: post) :
    ∃ req t' url document reply, call.requestId? = some req.requestId ∧
      answersTrue reply = true ∧
      .act t' (.agentAction req) ⟨.httpPost url document, reply⟩ ∈ pre := by
  obtain ⟨req, hlegitimate⟩ := hm.legitimate _ _ _ _ _ _ _ _ _ hs
  obtain ⟨t', url, document, reply, hallow, hasked⟩ := hlegitimate.allowed
  have hmem : .act t' (.agentAction req) ⟨.httpPost url document, reply⟩ ∈ h := by
    rw [hs]
    exact List.mem_append_left _ hasked
  rw [answersAllow_eq_answersTrue (hboolean _ _ _ _ _ hmem)] at hallow
  exact ⟨req, t', url, document, reply, hlegitimate.requestId, hallow, hasked⟩

/-- Under boolean answers, what was answered anything but `true` is never executed and
    never in the queue. -/
theorem Mediated.denied_of_boolean {h : List GatewayEvent} {q : ApprovalQueue}
    (hm : Mediated settings h q) (hboolean : BooleanAnswers h) {t : Nat} {req : AgentCall}
    {url : String} {document : Json} {reply : HttpReply} (hreply : answersTrue reply = false)
    (hasked : .act t (.agentAction req) ⟨.httpPost url document, reply⟩ ∈ h) :
    tally .executed req.requestId h = 0 ∧ tally .enqueued req.requestId h = 0 ∧
      q.peek req.requestId = none := by
  rw [← answersAllow_eq_answersTrue (hboolean _ _ _ _ _ hasked)] at hreply
  exact hm.denied t req url document reply hreply hasked

/-- **Complete mediation**: every reachable state of the gateway is mediated, whatever
    OPA answers. -/
theorem complete_mediation (h : (gateway settings anyOpa).Reachable c) :
    Mediated settings c.history c.shared := by
  refine ⟨?_, ?_, ?_, ?_⟩
  · -- Legitimate: what is executed goes back to a submission and its allow.
    intro pre post t call action resource namespace_ params exec hs
    obtain ⟨_, _, c₁, _, _, _, _, hc₁, hpre, _⟩ := trace_of_split h hs
    obtain ⟨req, token, rs, ⟨hscored, t', reply, reason, hread, hasked⟩, hcleared, rfl, rfl,
      rfl, rfl⟩ := execution_origin h hs
    refine ⟨req, ⟨t', ?_⟩, ?_, ⟨rfl, rfl, rfl, rfl⟩,
      ⟨t', _, _, reply, readDecision_allow_iff.mp ⟨reason, hread⟩, hasked⟩, ?_⟩
    · subst hpre
      exact arrived hc₁ hasked
    · rcases hcleared with ⟨-, rfl⟩ | ⟨-, ac, approver, rfl, hid, -⟩
      · rfl
      · exact congrArg some hid
    · intro rs' hscore hlevel
      obtain rfl : rs = rs' := Except.ok.inj (hscored.scored.symm.trans hscore)
      rcases hcleared with ⟨hlow, -⟩ | ⟨-, ac, approver, rfl, hid, happroved, -, hresolved⟩
      · exact absurd hlevel hlow
      · exact ⟨t, ac, _, hid, happroved, hresolved⟩
  · -- At most once: by the count of decisions.
    intro i
    have hle := executed_add_refused_le_one h i
    omega
  · -- Denied: the denial itself is the one decision for the id.
    intro t req url document reply hreply hmem
    have hkind : kindOf (.act t (.agentAction req) ⟨.httpPost url document, reply⟩) =
        some (.denied, req.requestId) := by
      simp [kindOf, hreply, Call.requestId?]
    have hone := one_le_tally hmem hkind
    have hexecuted := executed_add_refused_le_one h req.requestId
    have henqueued := enqueued_add_denied_le_one h req.requestId
    have hstored := stored_add_taken_le h req.requestId
    refine ⟨by omega, by omega, ?_⟩
    -- What is in the queue would still have to be counted as enqueued.
    have hzero : stored req.requestId c.shared = 0 := by omega
    cases hpeek : c.shared.peek req.requestId with
    | none => rfl
    | some pending => simp [stored, hpeek] at hzero
  · -- Rejected: so is the rejection.
    intro t ac pending hrejected hmem
    have hkind : kindOf (.act t (.approveAction ac) (ac.resolved (some pending))) =
        some (.rejected, ac.requestId) := by
      simp [hrejected]
    have hone := one_le_tally hmem hkind
    have hexecuted := executed_add_refused_le_one h ac.requestId
    omega

end Histories

section Example

attribute [local instance] asciiRuntime

/-- An OPA that allows everything, and a working cluster. -/
def trusting : Environment where
  opaReply _ := .response 200 (.ok (.obj [("result", .obj [("allow", .bool true)])]))
  k8sReply := workingCluster

/-- A deployment with a host path, which is high-risk. -/
def hostPathDeployment : AgentActionRequest where
  action := "create"
  resource := "deployments"
  params := ⟨[("hostPath", .bool true), ("image", .null)], by simp⟩

/-- It is submitted, and then approved by someone else. -/
def approvedDeployment : GatewayConfig :=
  sequential Settings.default trusting
    [.agentAction (.ofSubject "r-1" "agent-deploy" "deployer" hostPathDeployment),
    .approveAction (.ofSubject "r-1" "operator" "deployer" { approved := true })]

/-- Complete mediation of a run with an approval, in which one execution happens. -/
theorem complete_mediation_approvedDeployment :
    Mediated Settings.default approvedDeployment.history approvedDeployment.shared ∧
      tally .executed "r-1" approvedDeployment.history = 1 :=
  ⟨complete_mediation (sequential_reachable (fun _ _ => trivial) _ (by decide)), by decide⟩

end Example

end AiK8sGateway
