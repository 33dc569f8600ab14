import AiK8sGateway.Gateway.Mediation
import AiK8sGateway.K8s.Rbac
import AiK8sGateway.Policies.AgentActions

/-!
# The Gateway Under the Shipped Policy

OPA answers every query with the shipped policy's decision on the posted document, or
fails.  Whatever reaches the cluster then comes from a request that the policy allows,
and the two normalisations of its strings decide what that says about the SDK call.

## Main results

- `issued_origin`: every SDK call is one of the dispatch table for a request the
  shipped policy allows.
- `issued_covered`: every SDK call is covered by the ClusterRole, none deletes, and
  deployments are written for `deployer` requests only.
- `control_plane_untouched`: no control-plane namespace is mutated, as long as no
  request names one with whitespace around it.
-/

namespace AiK8sGateway

open Foundations EffectProgram PythonText Approval Audit Auth Risk Rego

/-! ## The policy engine -/

section Policy

variable [SprintfFormat]

/-- OPA with the shipped policy: it may fail, and what it answers is the policy's
    decision.  A document with a number that has no JSON text never gets there. -/
def shippedOpa : Opa := fun _ document reply =>
  (∃ e, reply = .raised e) ∨
    (∃ status body, reply = .response status body ∧ isSuccess status = false) ∨
    (document.isFinite = true ∧ ∃ input, document.field? "input" = some input ∧
      reply = .response 200 (.ok (Policies.AgentActions.response input)))

/-- An allow of the shipped policy. -/
theorem allow_of_shippedOpa {url : String} {input : Json} {reply : HttpReply}
    (hreply : shippedOpa url (.obj [("input", input)]) reply)
    (hallow : answersAllow reply = true) :
    Policies.AgentActions.allow input = true := by
  rcases hreply with ⟨e, rfl⟩ | ⟨status, body, rfl, hstatus⟩ | ⟨-, input', hinput, rfl⟩
  · cases hallow
  · cases body <;> simp [answersAllow, hstatus] at hallow
  · cases hinput
    simpa [answersAllow, isSuccess, resultAllow, Policies.AgentActions.response, Json.field?,
      OrderedDict.lookup_cons, Json.truthy] using hallow

/-- The shipped policy answers with a boolean. -/
theorem allowIsBoolean_of_shippedOpa {url : String} {document : Json} {reply : HttpReply}
    (hreply : shippedOpa url document reply) : allowIsBoolean reply = true := by
  rcases hreply with ⟨e, rfl⟩ | ⟨status, body, rfl, hstatus⟩ | ⟨-, input, -, rfl⟩
  · rfl
  · cases body <;> simp [allowIsBoolean, hstatus]
  · rfl

/-- The reply of an OPA that does not fail. -/
def shippedReply (document : Json) : HttpReply :=
  match document.isFinite, document.field? "input" with
  | true, some input => .response 200 (.ok (Policies.AgentActions.response input))
  | _, _ => .response 400 (.error "Bad Request")

theorem shippedOpa_shippedReply (url : String) (document : Json) :
    shippedOpa url document (shippedReply document) := by
  unfold shippedReply
  split
  · rename_i input hfinite hinput
    exact .inr (.inr ⟨hfinite, input, hinput, rfl⟩)
  · exact .inr (.inl ⟨400, _, rfl, rfl⟩)

end Policy

/-! ## SDK calls in a history -/

/-- A handler about request id `i` made this SDK call. -/
def Issues (h : List GatewayEvent) (i : String) (sdkCall : K8s.SdkCall) : Prop :=
  ∃ t call action resource namespace_ params exec result, call.requestId? = some i ∧
    .act t call ⟨.executeAction action resource namespace_ params, exec⟩ ∈ h ∧
    (⟨.sdk sdkCall, result⟩ : Action K8s.signature) ∈ exec.actions

/-- The SDK call of an action of the Kubernetes client. -/
def sdkCall? : Action K8s.signature → Option K8s.SdkCall
  | ⟨.sdk sdkCall, _⟩ => some sdkCall
  | _ => none

/-- The SDK calls of an event, with the request id they are made for. -/
def sdkCallsOf : GatewayEvent → List (String × K8s.SdkCall)
  | .act _ call ⟨.executeAction _ _ _ _, exec⟩ =>
    match call.requestId? with
    | some i => (exec.actions.filterMap sdkCall?).map (i, ·)
    | none => []
  | _ => []

/-- What the list of an event's SDK calls shows, its history issues. -/
theorem issues_of_mem_sdkCallsOf {h : List GatewayEvent} {e : GatewayEvent} {i : String}
    {sdkCall : K8s.SdkCall} (he : e ∈ h) (hmem : (i, sdkCall) ∈ sdkCallsOf e) :
    Issues h i sdkCall := by
  unfold sdkCallsOf at hmem
  split at hmem
  · rename_i t call action resource namespace_ params exec
    split at hmem
    · rename_i j hid
      obtain ⟨sdkCall', hcall, heq⟩ := List.mem_map.mp hmem
      obtain ⟨⟨op, result⟩, haction, hsdk⟩ := List.mem_filterMap.mp hcall
      cases heq
      cases op with
      | sdk sdkCall =>
        cases hsdk
        exact ⟨t, call, action, resource, namespace_, params, exec, result, hid, he, haction⟩
      | loadInclusterConfig => cases hsdk
      | loadKubeConfig => cases hsdk
    · cases hmem
  · cases hmem

/-- A history in which some SDK call satisfies `p` can be found out by computing. -/
theorem exists_issues {h : List GatewayEvent} {p : String × K8s.SdkCall → Bool}
    (hany : (h.flatMap sdkCallsOf).any p = true) :
    ∃ i sdkCall, Issues h i sdkCall ∧ p (i, sdkCall) = true := by
  obtain ⟨⟨i, sdkCall⟩, hmem, hp⟩ := List.any_eq_true.mp hany
  obtain ⟨e, he, hcall⟩ := List.mem_flatMap.mp hmem
  exact ⟨i, sdkCall, issues_of_mem_sdkCallsOf he hcall, hp⟩

/-- The policy's input for a request. -/
def AgentCall.policyInput [Runtime] (req : AgentCall) (token : TokenPayload)
    (rs : RiskScore) : Json :=
  AiK8sGateway.policyInput token.sub token.role req.body.action req.body.resource
    req.body.namespace rs.level req.body.params

/-- The triple that the client dispatches on. -/
def AgentCall.dispatched [Runtime] (req : AgentCall) : Target :=
  K8s.normalise req.body.action req.body.resource req.body.namespace

/-! ## What an allowed request looks like -/

section Allowed

open Policies.AgentActions (readOnlyActions writeActions privilegedNamespaces payloadViolations)

variable [Runtime] [SprintfFormat]

/-- A write request that the shipped policy allows (its Rule C). -/
structure WriteAllowed (req : AgentCall) (token : TokenPayload) (rs : RiskScore) : Prop where
  role : token.role = .str "deployer"
  action : lower req.body.action ∈ writeActions
  «namespace» : lower req.body.namespace ∉ privilegedNamespaces
  resource : lower req.body.resource ∉ Policies.AgentActions.sensitiveResources
  payload : payloadViolations (req.policyInput token rs) = []

/-- An allowed request reads, or is an allowed write request. -/
theorem readOnly_or_writeAllowed {req : AgentCall} {token : TokenPayload} {rs : RiskScore}
    (h : Policies.AgentActions.allow (req.policyInput token rs) = true) :
    lower req.body.action ∈ readOnlyActions ∨ WriteAllowed req token rs := by
  have haction : (req.policyInput token rs).field? "action" =
      some (.str (lower req.body.action)) := rfl
  rcases (Policies.AgentActions.allow_iff _).mp h with ⟨-, hread⟩ | hwrite
  · rw [haction, inStrings_some_str] at hread
    exact .inl (List.contains_iff_mem.mp hread)
  · have hrole : (req.policyInput token rs).field? "role" = some token.role := rfl
    have hns : (req.policyInput token rs).field? "namespace" =
        some (.str (lower req.body.namespace)) := rfl
    have hresource : (req.policyInput token rs).field? "resource" =
        some (.str (lower req.body.resource)) := rfl
    simp only [Policies.AgentActions.allowC, haction, hrole, hns, hresource,
      inStrings_some_str, Bool.and_eq_true, Bool.not_eq_true', List.contains_eq_mem,
      decide_eq_true_eq, decide_eq_false_iff_not, beq_iff_eq, List.length_eq_zero_iff] at hwrite
    obtain ⟨⟨⟨⟨hdeployer, hact⟩, hnamespace⟩, hres⟩, hpayload⟩ := hwrite
    obtain ⟨s, hs, hjson⟩ := inStrings_iff.mp hdeployer
    rw [List.mem_singleton] at hs
    subst hs
    exact .inr ⟨Option.some.inj hjson, hact, hnamespace, hres, hpayload⟩

omit [Runtime] [SprintfFormat] in
/-- No verb of the policy has whitespace around it. -/
theorem strip_verb {verb : String} (h : verb ∈ readOnlyActions ∨ verb ∈ writeActions) :
    strip verb = verb := by
  -- A finite check over the verbs of the policy.
  have hstrip : ∀ s ∈ readOnlyActions ++ writeActions, strip s = s := by decide
  exact hstrip _ (List.mem_append.mpr h)

omit [SprintfFormat] in
/-- An allowed verb is dispatched as the policy read it. -/
theorem dispatched_action {req : AgentCall}
    (h : lower req.body.action ∈ readOnlyActions ∨ lower req.body.action ∈ writeActions) :
    req.dispatched.action = lower req.body.action := strip_verb h

omit [Runtime] [SprintfFormat] in
/-- The verbs that write a deployment are no reading ones. -/
theorem notMem_readOnlyActions {verb : String} (h : verb ∈ ["create", "update", "patch"]) :
    verb ∉ readOnlyActions := by
  have hdisjoint : ∀ verb ∈ ["create", "update", "patch"], verb ∉ readOnlyActions := by decide
  exact hdisjoint _ h

end Allowed

section Shipped

open Policies.AgentActions (readOnlyActions writeActions privilegedNamespaces)

variable [Runtime] [SprintfFormat] {settings : Settings} {c : GatewayConfig}

/-- Under the shipped policy an allow is the answer `true`, in every run. -/
theorem booleanAnswers_of_shippedOpa (h : (gateway settings shippedOpa).Reachable c) :
    BooleanAnswers c.history :=
  booleanAnswers_of_opa (fun _ _ _ => allowIsBoolean_of_shippedOpa) h

/-- **Origin of SDK calls**: an SDK call is one of the dispatch table for a submitted
    and verified request that the shipped policy allows. -/
theorem issued_origin (h : (gateway settings shippedOpa).Reachable c) {i : String}
    {sdkCall : K8s.SdkCall} (hissues : Issues c.history i sdkCall) :
    ∃ t req token rs, .arrive t (.agentAction req) ∈ c.history ∧ req.requestId = i ∧
      req.Scored settings token rs ∧
      K8s.DispatchCall req.dispatched req.body.params sdkCall ∧
      Policies.AgentActions.allow (req.policyInput token rs) = true := by
  obtain ⟨t, call, action, resource, namespace_, params, exec, result, hid, hmem, hcall⟩ := hissues
  -- The call is in the dispatch table, and the execution goes back to an allowed request.
  have hdispatch := K8s.executeAction_sdk_call
    ((path_of_execution h hmem).mayPerform hcall)
  obtain ⟨req, token, rs, ⟨hscored, t', reply, reason, hread, hasked⟩, hcleared, rfl, rfl, rfl,
    rfl⟩ := execution_origin_of_mem h hmem
  refine ⟨t', req, token, rs, Reachable.arrived h hasked, ?_, hscored, hdispatch, ?_⟩
  · rcases hcleared with ⟨-, rfl⟩ | ⟨-, ac, approver, rfl, hid', -⟩
    · exact Option.some.inj hid
    · exact hid'.symm.trans (Option.some.inj hid)
  · exact allow_of_shippedOpa (opa_of_mem h hasked) (readDecision_allow_iff.mp ⟨reason, hread⟩)

/-- A dispatched verb outside the reading ones makes the request an allowed write
    request, and the verb is one of its verbs. -/
theorem writeAllowed_of_dispatched {req : AgentCall} {token : TokenPayload} {rs : RiskScore}
    (hallow : Policies.AgentActions.allow (req.policyInput token rs) = true)
    (haction : req.dispatched.action ∉ readOnlyActions) :
    WriteAllowed req token rs ∧ req.dispatched.action ∈ writeActions := by
  rcases readOnly_or_writeAllowed hallow with hread | hwrite
  · rw [dispatched_action (.inl hread)] at haction
    exact absurd hread haction
  · refine ⟨hwrite, ?_⟩
    rw [dispatched_action (.inr hwrite.action)]
    exact hwrite.action

/-- A submitted request with id `i` whose token verifies with the role `deployer`. -/
def SubmittedByDeployer (settings : Settings) (h : List GatewayEvent) (i : String) : Prop :=
  ∃ t req token, .arrive t (.agentAction req) ∈ h ∧ req.requestId = i ∧
    verifyToken req.decode settings req.credentials = .ok token ∧ token.role = .str "deployer"

/-- **Least privilege**: under the shipped policy every SDK call is covered by the
    ClusterRole, none of them deletes, and a deployment is only ever written for a
    request that was submitted with the role `deployer`. -/
theorem issued_covered (h : (gateway settings shippedOpa).Reachable c) (i : String)
    (sdkCall : K8s.SdkCall) (hissues : Issues c.history i sdkCall) :
    K8s.covers K8s.clusterRole sdkCall = true ∧ sdkCall.isDelete = false ∧
      (sdkCall.deployment?.isSome = true → SubmittedByDeployer settings c.history i) := by
  obtain ⟨t, req, token, rs, harrive, hid, hscored, hdispatch, hallow⟩ := issued_origin h hissues
  have hkeep : sdkCall.isDelete = false := by
    by_contra hdelete
    have haction := hdispatch.action_of_isDelete (by simpa using hdelete)
    -- Neither set of verbs that the policy allows contains the verb that deletes.
    have hwrite := (writeAllowed_of_dispatched hallow (by rw [haction]; decide)).2
    rw [haction] at hwrite
    exact absurd hwrite (by decide)
  refine ⟨(K8s.covers_clusterRole_iff sdkCall).mpr hkeep, hkeep, ?_⟩
  intro hdeployment
  obtain ⟨body, hbody⟩ := Option.isSome_iff_exists.mp hdeployment
  have haction := (hdispatch.of_deployment hbody).1
  have hwrite := (writeAllowed_of_dispatched hallow (notMem_readOnlyActions haction)).1
  exact ⟨t, req, token, harrive, hid, hscored.verified, hwrite.role⟩

/-! ## Control-plane namespaces -/

/-- No SDK call mutates a control-plane namespace. -/
def ControlPlaneUntouched (h : List GatewayEvent) : Prop :=
  ∀ i sdkCall namespace_, Issues h i sdkCall → sdkCall.mutatedNamespace? = some namespace_ →
    namespace_ ∉ privilegedNamespaces

/-- A deployment write that the policy allows although it names a control-plane namespace,
    with whitespace around it.  The policy does not strip the namespace; the client does. -/
def PaddedControlPlaneWrite (settings : Settings) (req : AgentCall) : Prop :=
  (∃ token rs, req.Scored settings token rs ∧ WriteAllowed req token rs) ∧
    lower req.body.action ∈ ["create", "update", "patch"] ∧
    strip (lower req.body.resource) ∈ ["deployments", "deployment"] ∧
    strip req.body.namespace ∈ privilegedNamespaces ∧
    strip req.body.namespace ≠ req.body.namespace

omit [SprintfFormat] in
/-- The control-plane namespaces are lower case. -/
theorem lower_of_mem_privilegedNamespaces {s : String} (hs : s ∈ privilegedNamespaces) :
    lower s = s := by
  have hascii : ∀ s ∈ privilegedNamespaces, s.toList.all isAscii = true ∧
      String.ofList (s.toList.map Char.toLower) = s := by decide
  rw [lower_of_ascii s (hascii s hs).1]
  exact (hascii s hs).2

/-- **Control plane**: under the shipped policy no control-plane namespace is mutated in
    a run without padded control-plane writes. -/
theorem control_plane_untouched (h : (gateway settings shippedOpa).Reachable c)
    (hpadded : ∀ t req, .arrive t (.agentAction req) ∈ c.history →
      ¬ PaddedControlPlaneWrite settings req) : ControlPlaneUntouched c.history := by
  intro i sdkCall namespace_ hissues hmutated hprivileged
  obtain ⟨t, req, token, rs, harrive, -, hscored, hdispatch, hallow⟩ := issued_origin h hissues
  obtain ⟨hns, haction⟩ := hdispatch.of_mutated hmutated
  -- Only deployments are mutated, as the policy allows no `delete`.
  have hverb : req.dispatched.action ∈ ["create", "update", "patch"] ∧
      req.dispatched.resource ∈ ["deployments", "deployment"] := by
    rcases haction with hdelete | hwrite
    · have hmem := (writeAllowed_of_dispatched hallow (by rw [hdelete]; decide)).2
      rw [hdelete] at hmem
      exact absurd hmem (by decide)
    · exact hwrite
  obtain ⟨hwrite, -⟩ := writeAllowed_of_dispatched hallow (notMem_readOnlyActions hverb.1)
  -- The namespace of the SDK call is the stripped one of the request.
  have hstripped : strip req.body.namespace = namespace_ := by
    unfold AgentCall.dispatched K8s.normalise K8s.strOr at hns
    dsimp only at hns
    split at hns
    · -- The default namespace is not a control-plane one.
      rw [← hns] at hprivileged
      exact absurd hprivileged (by decide)
    · exact hns
  by_cases hpad : strip req.body.namespace = req.body.namespace
  · -- Without padding the policy saw the same namespace, and refused it.
    apply hwrite.namespace
    rw [← hpad, hstripped, lower_of_mem_privilegedNamespaces hprivileged]
    exact hprivileged
  · -- With padding the request is one of those that are excluded.
    apply hpadded t req harrive
    refine ⟨⟨token, rs, hscored, hwrite⟩, ?_, hverb.2, ?_, hpad⟩
    · rw [← dispatched_action (.inr hwrite.action)]
      exact hverb.1
    · rw [hstripped]
      exact hprivileged

end Shipped

section Examples

attribute [local instance] asciiRuntime

/-- A printer for the messages of the policy. -/
local instance plainText : SprintfFormat where
  v
    | .str s => s
    | _ => ""

/-- OPA with the shipped policy, and a working cluster. -/
def shipped : Environment := ⟨shippedReply, workingCluster⟩

/-- One request of a `deployer`, served alone. -/
def deployerRun (body : AgentActionRequest) : GatewayConfig :=
  sequential Settings.default shipped
    [.agentAction (.ofSubject "r-1" "agent-deploy" "deployer" body)]

theorem deployerRun_reachable (body : AgentActionRequest) :
    (gateway Settings.default shippedOpa).Reachable (deployerRun body) :=
  sequential_reachable shippedOpa_shippedReply _ (by simp [submittedIds])

/-- A deployment for a control-plane namespace with a blank before its name. -/
def paddedRequest : AgentActionRequest where
  action := "create"
  resource := "deployments"
  «namespace» := " kube-system"

/-- The padded deployment is created in the control-plane namespace. -/
theorem not_control_plane_untouched :
    ¬ ∀ c : GatewayConfig, (gateway Settings.default shippedOpa).Reachable c →
      ControlPlaneUntouched c.history := by
  intro h
  have hany : ((deployerRun paddedRequest).history.flatMap sdkCallsOf).any
      (fun x => x.2.mutatedNamespace? = some "kube-system") = true := by decide
  obtain ⟨i, sdkCall, hissues, hmutated⟩ := exists_issues hany
  exact h _ (deployerRun_reachable paddedRequest) i sdkCall "kube-system" hissues
    (of_decide_eq_true hmutated) (by decide)

/-- A deployment in the default namespace. -/
def plainRequest : AgentActionRequest where
  action := "create"
  resource := "deployments"

/-- A deployment with a name, an image, replicas, a port and limits of the caller's own. -/
def webRequest : AgentActionRequest where
  action := "create"
  resource := "deployments"
  «namespace» := "staging"
  params := .ofEntries [("name", .str "web"), ("image", .str "python:3.12"), ("replicas", .int 3),
    ("container_port", .int 8080), ("cpu_limit", .str "500m"), ("memory_limit", .str "256Mi")]

/-- A deployment in the default namespace is created, for a `deployer`. -/
theorem issued_covered_plainRequest :
    ∃ i sdkCall, Issues (deployerRun plainRequest).history i sdkCall ∧
      sdkCall.deployment?.isSome = true ∧ K8s.covers K8s.clusterRole sdkCall = true ∧
      SubmittedByDeployer Settings.default (deployerRun plainRequest).history i := by
  have hany : ((deployerRun plainRequest).history.flatMap sdkCallsOf).any
      (fun x => x.2.deployment?.isSome) = true := by decide
  obtain ⟨i, sdkCall, hissues, hdeployment⟩ := exists_issues hany
  obtain ⟨hcovers, -, hdeployer⟩ :=
    issued_covered (deployerRun_reachable plainRequest) i sdkCall hissues
  exact ⟨i, sdkCall, hissues, hdeployment, hcovers, hdeployer hdeployment⟩

/-- It leaves the control-plane namespaces alone. -/
theorem control_plane_untouched_plainRequest :
    ControlPlaneUntouched (deployerRun plainRequest).history := by
  refine control_plane_untouched (deployerRun_reachable plainRequest) ?_
  intro t req harrive hpadded
  have hreq : req = .ofSubject "r-1" "agent-deploy" "deployer" plainRequest := by
    simpa using call_mem_of_arrive harrive
  subst hreq
  exact hpadded.2.2.2.2 (by decide)

end Examples

end AiK8sGateway
