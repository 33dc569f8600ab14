import AiK8sGateway.Foundations.Fleet
import AiK8sGateway.Gateway.AuditTrail

/-!
# Replicas and Restarts

The gateway as it is deployed: several replicas behind one address, each with an
approval queue in its own memory, that come and go.  A call reaches one replica, any
replica may be the one, and a replica may die between any two operations.

## Main results

- `fleet_mediated`: mediation and at-most-once execution hold across all replicas, and an
  approval at a replica that did not take the submission finds nothing.
- `crash_strands`: a request in the queue of a dead replica is never decided.
- `fleet_conserved`: every queued request is in one queue or was taken out of it.
-/

namespace AiK8sGateway

open Foundations EffectProgram PythonText Approval Audit Auth Risk Relation Reachable

/-- A replica of the gateway. -/
abbrev Replica := Process signature Call HttpReply ApprovalQueue

/-- The replicas of the gateway, dead ones included. -/
abbrev GatewayFleet := List Replica

section Fleet

variable [Runtime] {settings : Settings} {opa : Opa} {c : GatewayConfig} {f f' : GatewayFleet}

/-- An id that is fresh in the whole fleet is fresh in every replica. -/
theorem freshId_antitone (settings : Settings) (opa : Opa) :
    (gateway settings opa).AdmitsAntitone := by
  intro h h' call hsub hfresh
  cases call with
  | agentAction c => exact fun t c' hmem => hfresh t c' (hsub _ hmem)
  | listPending _ => trivial
  | approveAction _ => trivial

/-! ## One replica -/

/-- What is queued or denied was submitted. -/
theorem enqueued_add_denied_le_submitted (h : (gateway settings opa).Reachable c) (i : String) :
    tally .enqueued i c.history + tally .denied i c.history ≤ tally .submitted i c.history := by
  have hle := weight_le h _ _ fun t call acts p hpath =>
    enqueued_add_denied_le settings i t (callTrace_of_path settings hpath)
  rwa [weight_add] at hle

/-- Nothing happens to an id that was not submitted. -/
theorem untouched_of_not_submitted (h : (gateway settings opa).Reachable c) {i : String}
    (hnone : tally .submitted i c.history = 0) :
    tally .executed i c.history = 0 ∧ tally .released i c.history = 0 ∧
      tally .rejected i c.history = 0 ∧ c.shared.peek i = none := by
  have hdecisions := decisions_le_of_reachable h i
  have henqueued := enqueued_add_denied_le_submitted h i
  have htaken := stored_add_taken_le h i
  refine ⟨by omega, by omega, by omega, ?_⟩
  have hzero : stored i c.shared = 0 := by omega
  cases hpeek : c.shared.peek i with
  | none => rfl
  | some pending => simp [stored, hpeek] at hzero

/-- The entry of an id that is queued has not been taken out, and nothing was executed. -/
theorem untaken_of_stored (h : (gateway settings opa).Reachable c) {i : String}
    {pending : PendingRequest} (hpeek : c.shared.peek i = some pending) :
    tally .submitted i c.history = 1 ∧ tally .executed i c.history = 0 ∧
      tally .released i c.history = 0 ∧ tally .rejected i c.history = 0 := by
  have hdecisions := decisions_le_of_reachable h i
  have henqueued := enqueued_add_denied_le_submitted h i
  have htaken := stored_add_taken_le h i
  have hsubmitted := submitted_le_one h i
  have hstored : stored i c.shared = 1 := by simp [stored, hpeek]
  omega

omit [Runtime] in
/-- An approval counts as a release or as a rejection of its id. -/
theorem taken_of_resolved {h : List GatewayEvent} {t : Nat} {ac : ApproveCall}
    {pending : PendingRequest}
    (hmem : .act t (.approveAction ac) (ac.resolved (some pending)) ∈ h) :
    0 < tally .released ac.requestId h + tally .rejected ac.requestId h := by
  have hkind := kindOf_resolved_some t ac pending
  cases happroved : ac.body.approved with
  | true =>
    have hone := one_le_tally hmem (hkind.trans (by rw [happroved, if_pos rfl]))
    omega
  | false =>
    have hone := one_le_tally hmem (hkind.trans (by rw [happroved, if_neg Bool.false_ne_true]))
    omega

/-- An approval with a verified token of an id that was never taken out is the 404. -/
theorem notPending_of_untaken (h : (gateway settings opa).Reachable c) {t : Nat}
    {ac : ApproveCall} {response : HttpReply} {token : TokenPayload}
    (hget : c.threads[t]? = some (.approveAction ac, .done response))
    (htoken : verifyToken ac.decode settings ac.credentials = .ok token)
    (hreleased : tally .released ac.requestId c.history = 0)
    (hrejected : tally .rejected ac.requestId c.history = 0) :
    response = .response 404 (.ok (.obj [("detail", ac.notPendingDetail)])) := by
  have hpath : Prog.Path ((Call.approveAction ac).handle settings) (localActions t c.history)
      (.done response) := path h hget
  have htrace := callTrace_of_path settings hpath
  -- What the handler took out would be counted.
  have huntaken : ∀ pending, ac.resolved (some pending) ∉ localActions t c.history := by
    intro pending hmem
    have htaken := taken_of_resolved ((mem_localActions_iff h (arrive_mem h hget)).mp hmem)
    omega
  generalize localActions t c.history = acts at htrace huntaken
  generalize hout : (Prog.done response).outcome = out at htrace
  cases htrace with
  | @approveAction _ _ out htrace =>
    cases htrace with
    -- The token was verified.
    | rejected hverify => cases hverify.symm.trans htoken
    | unknown _ =>
      -- The 404.
      cases hout
      exact httpResponse_notPending ac
    | failed _ _ _ | approved _ _ _ | denied _ _ =>
      -- It would have taken the entry out.
      exact absurd (List.mem_cons_self ..) (huntaken _)
    | resolving _ | taken _ | executed _ _ _ => cases hout

/-- A handler records a human decision after it took the entry out of the queue. -/
theorem humanRecord_of_trace {call : Call} {acts : List (Action signature)}
    {out : Option HttpReply} {record : AuditRecord} (h : CallTrace settings call acts out)
    (hlast : acts.getLast? = some (logged record)) (hhuman : isHuman record.decision = true) :
    ∃ ac pending, call = .approveAction ac ∧ ac.requestId = record.requestId ∧
      ac.resolved (some pending) ∈ acts := by
  cases h with
  | agentAction h =>
    cases h with
    | denied _ _ | queued _ _ _ | allowed _ _ _ _ =>
      cases hlast
      cases hhuman
    | _ => cases hlast
  | listPending h => cases h <;> cases hlast
  | approveAction h =>
    cases h with
    | approved _ _ _ | denied _ _ =>
      cases hlast
      exact ⟨_, _, rfl, rfl, List.mem_cons_self ..⟩
    | _ => cases hlast

/-- A human record is written after the entry was taken out. -/
theorem taken_of_humanRecord (h : (gateway settings opa).Reachable c) {record : AuditRecord}
    (hmem : record ∈ recordsOf c.history) (hhuman : isHuman record.decision = true) :
    0 < tally .released record.requestId c.history + tally .rejected record.requestId c.history := by
  obtain ⟨e, he, hrecord⟩ := List.mem_filterMap.mp hmem
  cases e with
  | arrive t call => cases hrecord
  | act t call a =>
    obtain ⟨op, r⟩ := a
    cases op with
    | auditLog record' =>
      cases hrecord
      -- The handler that wrote it took the entry out before.
      obtain ⟨pre, post, hs⟩ := List.append_of_mem he
      obtain ⟨acts, out, _, _, htrace, hbefore, -⟩ := trace_of_split h hs
      obtain ⟨ac, pending, rfl, hid, hresolved⟩ :=
        humanRecord_of_trace htrace (List.getLast?_concat ..) hhuman
      rw [← hid]
      refine @taken_of_resolved _ t _ pending ?_
      rcases List.mem_append.mp hresolved with hresolved | hresolved
      · rw [hs]
        exact List.mem_append_left _ (hbefore _ hresolved)
      · cases List.mem_singleton.mp hresolved
    | _ => cases hrecord

/-! ## All replicas -/

omit [Runtime] in
/-- A fresh id has not been submitted. -/
theorem tally_submitted_of_fresh {h : List GatewayEvent} {req : AgentCall}
    (hfresh : freshId h (.agentAction req)) : tally .submitted req.requestId h = 0 := by
  refine weight_eq_zero fun e he => hit_eq_zero fun hkind => ?_
  cases e with
  | arrive t call =>
    obtain ⟨req', rfl, hid, -⟩ := kindOf_arrive_eq_some hkind
    exact hfresh t req' he hid
  | act t call a => exact kindOf_act_ne_submitted t call a _ hkind

/-- A request id is submitted once at most, to one replica. -/
theorem fleet_submitted_le_one (h : (gateway settings opa).FleetReachable f) (i : String) :
    tally .submitted i (fleetEvents f) ≤ 1 := by
  induction h with
  | refl => exact Nat.zero_le _
  | @tail g f' _ hstep ih =>
    rcases FleetReachable.weight_of_step (hit .submitted i) hstep with hsame | ⟨e, hadd, hadmits⟩
    · exact hsame.trans_le ih
    · -- A submission that arrives has an id that is fresh in all replicas.
      by_cases hkind : kindOf e = some (.submitted, i)
      · suffices hzero : tally .submitted i (fleetEvents g) = 0 by
          have hone := hit_eq_one hkind
          unfold tally at hzero ⊢
          omega
        cases e with
        | arrive t call =>
          obtain ⟨req, rfl, rfl, -⟩ := kindOf_arrive_eq_some hkind
          exact tally_submitted_of_fresh (hadmits t _ rfl)
        | act t call a => exact absurd hkind (kindOf_act_ne_submitted t call a i)
      · have hzero := hit_eq_zero hkind
        unfold tally at ih ⊢
        omega

/-- **At most once**, across all replicas. -/
theorem fleet_decided_le_one (h : (gateway settings opa).FleetReachable f) (i : String) :
    tally .executed i (fleetEvents f) + tally .denied i (fleetEvents f) +
      tally .rejected i (fleetEvents f) ≤ 1 := by
  have hmono := freshId_antitone settings opa
  -- The bounds of one replica, summed over the fleet.
  have hdecisions := FleetReachable.weight_le hmono h
    (fun e => hit .executed i e + hit .enqueued i e + hit .denied i e + hit .rejected i e)
    (fun e => hit .submitted i e + hit .released i e + hit .rejected i e) fun c hc => by
      simpa only [weight_add, tally] using decisions_le_of_reachable hc i
  have htaken := FleetReachable.weight_le hmono h
    (fun e => hit .released i e + hit .rejected i e) (hit .enqueued i) fun c hc => by
      have hle := stored_add_taken_le hc i
      simp only [weight_add, tally] at hle ⊢
      omega
  have hsubmitted := fleet_submitted_le_one h i
  simp only [weight_add] at hdecisions htaken
  unfold tally at hsubmitted ⊢
  omega

/-- A request that was submitted to one replica was not submitted to another one. -/
theorem not_submitted_elsewhere (h : (gateway settings opa).FleetReachable f) {k j : Nat}
    {p q : Replica} (hne : k ≠ j) (hk : f[k]? = some p)
    (hj : f[j]? = some q) {i : String} (hsubmitted : 0 < tally .submitted i p.config.history) :
    tally .submitted i q.config.history = 0 := by
  have hboth := add_weight_le (hit .submitted i) hne hk hj
  have hone := fleet_submitted_le_one h i
  unfold tally at hsubmitted hone ⊢
  omega

/-- What a finished approval with a verified token of this id was answered, in a replica. -/
def AnsweredNotPending (settings : Settings) (c : GatewayConfig) (i : String) : Prop :=
  ∀ (t : Nat) (ac : ApproveCall) (token : TokenPayload) (response : HttpReply),
    c.threads[t]? = some (Call.approveAction ac, Prog.done response) → ac.requestId = i →
      verifyToken ac.decode settings ac.credentials = .ok token →
        response = .response 404 (.ok (.obj [("detail", ac.notPendingDetail)]))

/-- Mediation across replicas. -/
structure FleetMediated (settings : Settings) (f : GatewayFleet) : Prop where
  /-- Executions, denials and rejections of an id are one at most, in the whole fleet. -/
  atMostOnce : ∀ i, tally .executed i (fleetEvents f) + tally .denied i (fleetEvents f) +
    tally .rejected i (fleetEvents f) ≤ 1
  /-- What a replica executes was verified, scored and allowed in that replica, and a
      high-risk request was taken out of its queue by an approval that came there. -/
  local_ : ∀ (k : Nat) (p : Replica), f[k]? = some p → ∀ pre post t call action resource namespace_ params exec,
    p.config.history =
        pre ++ .act t call ⟨.executeAction action resource namespace_ params, exec⟩ :: post →
      ∃ req token rs, Authorised settings pre req token rs ∧
        Cleared settings pre t call req token rs ∧ action = req.body.action ∧
        resource = req.body.resource ∧ namespace_ = req.body.namespace ∧ params = req.body.params
  /-- In any other replica the id is not pending, is never executed, and its approvals are
      told that there is no such request. -/
  foreign : ∀ (k j : Nat) (p q : Replica) t req, k ≠ j → f[k]? = some p → f[j]? = some q →
    .arrive t (.agentAction req) ∈ p.config.history →
      q.config.shared.peek req.requestId = none ∧
        tally .executed req.requestId q.config.history = 0 ∧
        AnsweredNotPending settings q.config req.requestId

/-- **Mediation across replicas**, whatever OPA answers and whichever replicas die. -/
theorem fleet_mediated (h : (gateway settings opa).FleetReachable f) :
    FleetMediated settings f := by
  have hmono := freshId_antitone settings opa
  refine ⟨fleet_decided_le_one h, ?_, ?_⟩
  · intro k p hk pre post t call action resource namespace_ params exec hs
    exact execution_origin (FleetReachable.process hmono h hk) hs
  · intro k j p q t req hne hk hj harrive
    have hq := FleetReachable.process hmono h hj
    have hone := one_le_tally harrive (kindOf_arrive_agentAction t req)
    obtain ⟨hexecuted, hreleased, hrejected, hpeek⟩ :=
      untouched_of_not_submitted hq (not_submitted_elsewhere h hne hk hj hone)
    refine ⟨hpeek, hexecuted, fun t' ac token response hget hid htoken => ?_⟩
    rw [← hid] at hreleased hrejected
    exact notPending_of_untaken hq hget htoken hreleased hrejected

/-! ## Replicas that die -/

/-- The request is never decided: not executed, without a human record, in no queue of a
    living replica, and all its approvals are told that there is no such request. -/
structure Stranded (settings : Settings) (f : GatewayFleet) (i : String) : Prop where
  executed : tally .executed i (fleetEvents f) = 0
  undecided : ∀ record ∈ recordsOf (fleetEvents f), record.requestId = i →
    isHuman record.decision = false
  hidden : ∀ p ∈ f, p.alive = true → p.config.shared.peek i = none
  refused : ∀ p ∈ f, AnsweredNotPending settings p.config i

/-- **A crash strands the queue**: what was in the queue of a replica when it died is never
    decided, in any continuation of the run. -/
theorem crash_strands (h : (gateway settings opa).FleetReachable f) {k : Nat}
    {p : Replica} (hk : f[k]? = some p)
    (hdead : p.alive = false) {i : String} {pending : PendingRequest}
    (hpeek : p.config.shared.peek i = some pending)
    (hlater : ReflTransGen (gateway settings opa).FleetStep f f') : Stranded settings f' i := by
  have hmono := freshId_antitone settings opa
  have h' : (gateway settings opa).FleetReachable f' := h.trans hlater
  -- The dead replica is as it was, and nothing happens to the id in any replica.
  obtain ⟨p', hk', -, hsame⟩ := FleetReachable.continues hmono hlater hk
  obtain rfl := hsame hdead
  have huntouched : ∀ q ∈ f', (gateway settings opa).Reachable q.config ∧
      tally .executed i q.config.history = 0 ∧ tally .released i q.config.history = 0 ∧
      tally .rejected i q.config.history = 0 ∧
      (q.alive = true → q.config.shared.peek i = none) := by
    intro q hq
    obtain ⟨j, hj⟩ := List.getElem?_of_mem hq
    have hrun := FleetReachable.process hmono h' hj
    obtain ⟨hsubmitted, hrest⟩ :=
      untaken_of_stored (FleetReachable.process hmono h' hk') hpeek
    by_cases hjk : k = j
    · -- The dead replica itself: it is as it was when it had the entry.
      rw [← hjk] at hj
      cases hk'.symm.trans hj
      exact ⟨hrun, hrest.1, hrest.2.1, hrest.2.2, fun halive => by cases hdead.symm.trans halive⟩
    · -- Any other replica never had the request.
      obtain ⟨hexecuted, hreleased, hrejected, hnone⟩ := untouched_of_not_submitted hrun
        (not_submitted_elsewhere h' hjk hk' hj (hsubmitted ▸ Nat.one_pos))
      exact ⟨hrun, hexecuted, hreleased, hrejected, fun _ => hnone⟩
  refine ⟨?_, ?_, fun q hq => (huntouched q hq).2.2.2.2, ?_⟩
  · -- No execution.
    rw [tally, weight_fleetEvents]
    refine List.sum_eq_zero fun n hn => ?_
    obtain ⟨q, hq, rfl⟩ := List.mem_map.mp hn
    exact (huntouched q hq).2.1
  · rintro record hrecord rfl
    -- No human record.
    obtain ⟨e, he, hlogged⟩ := List.mem_filterMap.mp hrecord
    obtain ⟨q, hq, he⟩ := List.mem_flatMap.mp he
    obtain ⟨hrun, -, hreleased, hrejected, -⟩ := huntouched q hq
    by_contra hhuman
    have htaken := taken_of_humanRecord hrun (List.mem_filterMap.mpr ⟨e, he, hlogged⟩)
      (Bool.not_eq_false _ ▸ hhuman)
    omega
  · intro q hq t ac token response hget hid htoken
    -- Only the 404.
    obtain ⟨hrun, -, hreleased, hrejected, -⟩ := huntouched q hq
    subst hid
    exact notPending_of_untaken hrun hget htoken hreleased hrejected

/-! ## Conservation -/

/-- The replicas in whose queue the id is, among the living or among the dead. -/
def storedIn (alive : Bool) (i : String) (f : GatewayFleet) : Nat :=
  (f.map fun p => if p.alive = alive then stored i p.config.shared else 0).sum

/-- In one replica a queued request is in the queue or was taken out, and only once. -/
theorem stored_add_taken_eq (h : (gateway settings opa).Reachable c) (i : String) :
    stored i c.shared + tally .released i c.history + tally .rejected i c.history =
      tally .enqueued i c.history := by
  have hle := stored_add_taken_le h i
  have hone := enqueued_add_denied_le_one h i
  by_cases hpos : 0 < tally .enqueued i c.history
  · have hpos' := stored_add_taken_pos h hpos
    omega
  · omega

/-- **Conservation across replicas**: a request that was queued is in the queue of a living
    replica, or in that of a dead one, or was taken out by an approval or a rejection, and
    only one of these. -/
theorem fleet_conserved (h : (gateway settings opa).FleetReachable f) (i : String) :
    storedIn true i f + storedIn false i f + tally .released i (fleetEvents f) +
        tally .rejected i (fleetEvents f) = tally .enqueued i (fleetEvents f) ∧
      tally .enqueued i (fleetEvents f) ≤ 1 := by
  have hmono := freshId_antitone settings opa
  constructor
  · -- Replica by replica, and then the sum over all of them.
    have hreplica : ∀ p ∈ f, stored i p.config.shared + tally .released i p.config.history +
        tally .rejected i p.config.history = tally .enqueued i p.config.history := by
      intro p hp
      obtain ⟨k, hk⟩ := List.getElem?_of_mem hp
      exact stored_add_taken_eq (FleetReachable.process hmono h hk) i
    clear h
    unfold storedIn tally at *
    simp only [weight_fleetEvents]
    induction f with
    | nil => rfl
    | cons p f ih =>
      have hrest := ih fun q hq => hreplica q (List.mem_cons_of_mem _ hq)
      have hp := hreplica p (List.mem_cons_self ..)
      simp only [List.map_cons, List.sum_cons]
      cases halive : p.alive <;> simp only [if_true, if_false, reduceCtorEq] <;> omega
  · -- Queued once at most, as it is submitted once at most.
    have hle := FleetReachable.weight_le hmono h (hit .enqueued i) (hit .submitted i)
      fun c hc => by
        have hone := enqueued_add_denied_le_submitted hc i
        unfold tally at hone
        omega
    exact le_trans hle (fleet_submitted_le_one h i)

end Fleet

section Example

attribute [local instance] asciiRuntime plainText

/-- A replica that has served these requests. -/
def replica (calls : List Call) (alive : Bool) : Replica :=
  ⟨calls.foldl (runNext Settings.default trusting) (gateway Settings.default anyOpa).start, alive⟩

/-- The deployment is submitted to one replica, and its approval reaches the other one. -/
def splitFleet : GatewayFleet := [replica [submittedDeployment] true, replica [operatorApproval] true]

theorem splitFleet_reachable : (gateway Settings.default anyOpa).FleetReachable splitFleet := by
  have hserve : ∀ q op, serves anyOpa q op (trusting.answer q op).1 (trusting.answer q op).2 :=
    serves_answer fun _ _ => trivial
  have hboot : (gateway Settings.default anyOpa).FleetReachable
      [replica [] true, replica [] true] := .tail (.tail .refl .boot) .boot
  have hsubmit : (gateway Settings.default anyOpa).FleetReachable
      [replica [submittedDeployment] true, replica [] true] :=
    FleetReachable.runCall (k := 0) hserve hboot rfl
      (fun _ _ hmem => absurd hmem List.not_mem_nil)
  exact FleetReachable.runCall (k := 1) hserve hsubmit rfl trivial

/-- The approval is told that there is no such request, which waits in the other queue. -/
theorem fleet_mediated_splitFleet :
    FleetMediated Settings.default splitFleet ∧ storedIn true "r-1" splitFleet = 1 :=
  ⟨fleet_mediated splitFleet_reachable, by decide⟩

/-- The first replica dies. -/
def crashedFleet : GatewayFleet :=
  [replica [submittedDeployment] false, replica [operatorApproval] true]

theorem crash_splitFleet :
    ReflTransGen (gateway Settings.default anyOpa).FleetStep splitFleet crashedFleet :=
  .single (.crash 0 rfl)

/-- The deployment is never decided. -/
theorem crash_strands_splitFleet : Stranded Settings.default crashedFleet "r-1" := by
  have hsome : ((replica [submittedDeployment] false).config.shared.peek "r-1").isSome = true := by
    decide
  obtain ⟨pending, hpeek⟩ := Option.isSome_iff_exists.mp hsome
  exact crash_strands (splitFleet_reachable.trans crash_splitFleet) (k := 0) rfl rfl hpeek .refl

/-- It is in the queue of the dead replica. -/
theorem fleet_conserved_crashedFleet :
    storedIn true "r-1" crashedFleet + storedIn false "r-1" crashedFleet +
          tally .released "r-1" (fleetEvents crashedFleet) +
          tally .rejected "r-1" (fleetEvents crashedFleet) =
        tally .enqueued "r-1" (fleetEvents crashedFleet) ∧
      storedIn false "r-1" crashedFleet = 1 :=
  ⟨(fleet_conserved (splitFleet_reachable.trans crash_splitFleet) "r-1").1, by decide⟩

end Example

end AiK8sGateway
