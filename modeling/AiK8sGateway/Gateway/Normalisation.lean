import AiK8sGateway.Gateway.Mediation
import AiK8sGateway.Gateway.ShippedPolicy

/-!
# Three Normalisations of One Request

The policy query lower-cases the three strings of a request, the scorer lower-cases and
strips them, and the client strips them, lower-cases two of them and puts a default in
place of an empty namespace.  The triples agree exactly on the canonical requests.

## Main results

- `sameTriple_iff_canonical`: what was authorised and classified is what is dispatched
  exactly for the canonical requests.
-/

namespace AiK8sGateway

open Foundations EffectProgram PythonText Approval Audit Auth Risk Reachable

/-! ## The triples -/

section Triples

variable [Runtime]

/-- The triple that a policy rule sees. -/
def policyTarget (action resource namespace_ : String) : Target :=
  ⟨lower action, lower resource, lower namespace_⟩

/-- The triple in a posted document. -/
def documentTarget (document : Json) : Option Target := do
  let input ← document.field? "input"
  match input.field? "action", input.field? "resource", input.field? "namespace" with
  | some (.str action), some (.str resource), some (.str namespace_) =>
    some ⟨action, resource, namespace_⟩
  | _, _, _ => none

@[simp] theorem documentTarget_opaInput (identity role : Json)
    (action resource namespace_ : String) (riskLevel : RiskLevel) (params : JsonDict) :
    documentTarget (opaInput identity role action resource namespace_ riskLevel params) =
      some (policyTarget action resource namespace_) := rfl

/-- No string has whitespace around it, and the namespace is lower case and not empty. -/
structure Canonical (action resource namespace_ : String) : Prop where
  action : strip action = action
  resource : strip resource = resource
  «namespace» : strip namespace_ = namespace_
  nonempty : namespace_ ≠ ""
  lowercase : lower namespace_ = namespace_

/-- The triples of the policy and of the scorer agree with the client's exactly for
    canonical strings. -/
theorem targets_agree_iff_canonical (action resource namespace_ : String) :
    (policyTarget action resource namespace_ = K8s.normalise action resource namespace_ ∧
        Risk.normalise action resource namespace_ =
          K8s.normalise action resource namespace_) ↔
      Canonical action resource namespace_ := by
  simp only [policyTarget, Risk.normalise, K8s.normalise, Target.mk.injEq]
  constructor
  · rintro ⟨⟨haction, hresource, hns⟩, -, -, hscorer⟩
    -- The scorer strips what the policy does not, so there was nothing to strip.
    have hstrip : strip namespace_ = namespace_ := by
      apply (strip_lower_eq_lower_iff namespace_).mp
      rw [hscorer, hns]
    have hnonempty : namespace_ ≠ "" := by
      intro hempty
      have hlower : lower "" = "" := rfl
      rw [hstrip, hempty, hlower] at hns
      exact absurd hns (by decide)
    refine ⟨?_, ?_, hstrip, hnonempty, ?_⟩
    · exact (strip_lower_eq_lower_iff action).mp haction.symm
    · exact (strip_lower_eq_lower_iff resource).mp hresource.symm
    · rw [hns, hstrip, K8s.strOr, if_neg hnonempty]
  · -- On canonical strings all three normalisations only lower-case.
    intro h
    have haction := (strip_lower_eq_lower_iff action).mpr h.action
    have hresource := (strip_lower_eq_lower_iff resource).mpr h.resource
    have hns : K8s.strOr (strip namespace_) "default" = namespace_ := by
      rw [h.namespace, K8s.strOr, if_neg h.nonempty]
    refine ⟨⟨haction.symm, hresource.symm, ?_⟩, trivial, trivial, ?_⟩
    · rw [hns, h.lowercase]
    · rw [hns, h.lowercase, h.namespace]

end Triples

/-! ## Executions -/

section Executions

variable [Runtime] {settings : Settings} {opa : Opa} {c : GatewayConfig}

/-- A request id belongs to one request. -/
theorem agentCall_unique (h : (gateway settings opa).Reachable c) {t t' : Nat}
    {req req' : AgentCall} (harrive : .arrive t (.agentAction req) ∈ c.history)
    (harrive' : .arrive t' (.agentAction req') ∈ c.history)
    (hid : req.requestId = req'.requestId) : req = req' := by
  refine history_induction (P := fun h _ => ∀ t t' req req',
    .arrive t (.agentAction req) ∈ h → .arrive t' (.agentAction req') ∈ h →
    req.requestId = req'.requestId → req = req') ?_ ?_ ?_ h t t' req req' harrive harrive' hid
  · intro t t' req req' hmem
    simp at hmem
  · -- An arrival: its id is not one of an earlier submission.
    intro h q t₀ call ih hfresh t t' req req' hmem hmem' hid
    simp only [List.mem_append, List.mem_singleton, Event.arrive.injEq] at hmem hmem'
    rcases hmem with hold | ⟨-, hnew⟩
    · -- The first of the two is an earlier one.
      rcases hmem' with hold' | ⟨-, hnew'⟩
      · exact ih t t' req req' hold hold' hid
      · subst hnew'
        exact absurd hid (hfresh t req hold)
    · -- The first of the two is the new one.
      rcases hmem' with hold' | ⟨-, hnew'⟩
      · subst hnew
        exact absurd hid.symm (hfresh t' req' hold')
      · exact Call.agentAction.inj (hnew.trans hnew'.symm)
  · -- An operation is no submission.
    intro h q t₀ call a q' ih _ t t' req req' hmem hmem' hid
    have hmem : .arrive t (.agentAction req) ∈ h := by simpa using hmem
    have hmem' : .arrive t' (.agentAction req') ∈ h := by simpa using hmem'
    exact ih t t' req req' hmem hmem' hid

/-- What the client dispatches for a request is what OPA was asked about and what the
    scorer classified. -/
structure SameTriple (h : List GatewayEvent) (req : AgentCall)
    (action resource namespace_ : String) : Prop where
  authorised : ∀ t url document reply,
    .act t (.agentAction req) ⟨.httpPost url document, reply⟩ ∈ h →
      documentTarget document = some (K8s.normalise action resource namespace_)
  classified : Risk.normalise req.body.action req.body.resource req.body.namespace =
    K8s.normalise action resource namespace_

/-- **Authorised as executed**: when a request comes to its execution, directly or by an
    approval, it is dispatched as it was authorised and classified exactly if its
    strings are canonical. -/
theorem sameTriple_iff_canonical (h : (gateway settings opa).Reachable c) {t t' : Nat}
    {call : Call} {action resource namespace_ : String} {params : JsonDict} {exec : ExecReply}
    {req : AgentCall}
    (hexec : .act t call ⟨.executeAction action resource namespace_ params, exec⟩ ∈ c.history)
    (hid : call.requestId? = some req.requestId)
    (harrive : .arrive t' (.agentAction req) ∈ c.history) :
    SameTriple c.history req action resource namespace_ ↔
      Canonical req.body.action req.body.resource req.body.namespace := by
  obtain ⟨req₀, token, rs, ⟨-, t₀, reply, reason, -, hasked⟩, hcleared, rfl, rfl, rfl, rfl⟩ :=
    execution_origin_of_mem h hexec
  have hid₀ : call.requestId? = some req₀.requestId := by
    rcases hcleared with ⟨-, rfl⟩ | ⟨-, ac, approver, rfl, hid', -⟩
    · rfl
    · exact congrArg some hid'
  -- The request that the execution goes back to is the one with its id.
  obtain rfl : req₀ = req := by
    apply agentCall_unique h (arrived h hasked) harrive
    exact Option.some.inj (hid₀.symm.trans hid)
  rw [← targets_agree_iff_canonical]
  constructor
  · -- The triple in the posted document, and the one that was classified.
    intro hsame
    have hdocument := hsame.authorised _ _ _ _ hasked
    exact ⟨Option.some.inj hdocument, hsame.classified⟩
  · rintro ⟨hpolicy, hscorer⟩
    refine ⟨?_, hscorer⟩
    intro t₁ url document reply₁ hmem
    -- A handler asks once, about its own request.
    obtain ⟨pre, post, hs⟩ := List.append_of_mem hmem
    obtain ⟨acts, out, _, _, htrace, -⟩ := trace_of_split h hs
    obtain ⟨token₁, rs₁, hdocument⟩ :=
      query_of_trace settings htrace (List.getLast?_concat ..)
    rw [hdocument, documentTarget_opaInput, hpolicy]

end Executions

section Examples

attribute [local instance] asciiRuntime plainText

/-- The only request of a run of one request. -/
theorem eq_of_arrive_deployerRun {body : AgentActionRequest} {t : Nat} {req : AgentCall}
    (harrive : .arrive t (.agentAction req) ∈ (deployerRun body).history) :
    req = .ofSubject "r-1" "agent-deploy" "deployer" body := by
  simpa using call_mem_of_arrive harrive

/-- A canonical request is dispatched as it was authorised. -/
theorem sameTriple_plainRequest :
    ∃ t call action resource namespace_ params exec req,
      .act t call ⟨.executeAction action resource namespace_ params, exec⟩ ∈
          (deployerRun plainRequest).history ∧
        SameTriple (deployerRun plainRequest).history req action resource namespace_ := by
  have hreach := deployerRun_reachable plainRequest
  obtain ⟨t, call, action, resource, namespace_, params, exec, hid, hexec⟩ :=
    exists_execution (i := "r-1") (h := (deployerRun plainRequest).history) (by decide)
  obtain ⟨pre, post, hs⟩ := List.append_of_mem hexec
  obtain ⟨_, _, _, _, _, _, hcall, _, _, _⟩ := trace_of_split hreach hs
  have harrive : .arrive t call ∈ (deployerRun plainRequest).history :=
    arrived hreach hexec
  have hmem := call_mem_of_arrive harrive
  rw [List.mem_singleton] at hmem
  subst hmem
  exact ⟨t, _, action, resource, namespace_, params, exec, _, hexec,
    (sameTriple_iff_canonical hreach hexec rfl harrive).mpr
      ⟨by decide, by decide, by decide, by decide, by decide⟩⟩

/-- A padded namespace is authorised as it stands and dispatched without the padding. -/
theorem not_sameTriple_paddedRequest :
    ¬ ∀ (opa : Opa) (c : GatewayConfig), (gateway Settings.default opa).Reachable c →
      ∀ t t' call action resource namespace_ params exec req,
        .act t call ⟨.executeAction action resource namespace_ params, exec⟩ ∈ c.history →
        call.requestId? = some req.requestId → .arrive t' (.agentAction req) ∈ c.history →
          SameTriple c.history req action resource namespace_ := by
  intro h
  have hreach := deployerRun_reachable paddedRequest
  obtain ⟨t, call, action, resource, namespace_, params, exec, hid, hexec⟩ :=
    exists_execution (i := "r-1") (h := (deployerRun paddedRequest).history) (by decide)
  obtain ⟨req, token, rs, ⟨-, t₀, reply, reason, -, hasked⟩, -, rfl, rfl, rfl, rfl⟩ :=
    execution_origin_of_mem hreach hexec
  have harrive := arrived hreach hasked
  have hreq := eq_of_arrive_deployerRun harrive
  subst hreq
  have hsame := h _ _ hreach t _ call _ _ _ _ exec _ hexec hid harrive
  have hdocument := hsame.authorised _ _ _ _ hasked
  exact absurd (Option.some.inj hdocument) (by decide)

end Examples

end AiK8sGateway
