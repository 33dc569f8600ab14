import AiK8sGateway.Gateway.Outcomes
import AiK8sGateway.Gateway.PolicyDecision
import AiK8sGateway.Gateway.ShippedPolicy
import AiK8sGateway.K8s.Failures

/-!
# Errors of an Execution

`_execute_k8s` answers with a dict or a 502, whatever goes wrong with a request that the
shipped policy allows.  That holds up to the integers of the builder: the policy lets a
null through, and `int` refuses it with a class that nothing catches.  The scorer reads
the same field and catches that class.

## Main results

- `mapped_iff`: an execution is mapped unless it ended with an uncaught exception.
- `unconvertiblePayload_iff`: the payloads of allowed write requests that the builder
  cannot convert.
- `executeK8s_mapped_iff`: when every failure of an allowed request is mapped.
-/

namespace AiK8sGateway

open Foundations EffectProgram PythonText Approval Audit Auth Rego
open Policies.AgentActions (allow writeActions readOnlyActions payloadViolations)

/-! ## Mapped executions -/

/-- A dict is returned, or an `HTTPException` with status 502 is raised. -/
def Mapped (outcome : Except HandlerExc Json) : Prop :=
  (∃ fields, outcome = .ok (.obj fields)) ∨
    ∃ detail, outcome = .error (.httpException 502 detail [])

section Execution

variable [Runtime] {env : Environment}

/-- One run of `_execute_k8s` in an environment. -/
def Environment.executeK8s (env : Environment) (q : ApprovalQueue)
    (action resource namespace_ : String) (params : JsonDict) : Except HandlerExc Json :=
  (Prog.run (S := signature) env.answer
    (AiK8sGateway.executeK8s action resource namespace_ params).run q).1

/-- The Kubernetes libraries of the environment. -/
def Environment.libraries (env : Environment) : K8s.Libraries := env.k8sReply

/-- What the libraries make of an execution. -/
theorem execute_result (action resource namespace_ : String) (params : JsonDict) :
    (env.execute action resource namespace_ params).result =
      Prog.result env.libraries (K8s.executeAction action resource namespace_ params) :=
  @Prog.run_eq_eval K8s.signature _ _ env.libraries env.k8sAnswer (fun _ _ => rfl) _ ()

/-- An execution that returns, returns a dict. -/
theorem executeAction_returnsObj (action resource namespace_ : String) (params : JsonDict) :
    Prog.ReturnsOk (fun v => ∃ fields, v = .obj fields)
      (K8s.executeAction action resource namespace_ params) := by
  unfold K8s.executeAction
  apply Prog.returnsOk_seq
  intro _
  apply Prog.returnsOk_seq
  intro v
  exact Prog.returnsOk_pure ⟨_, rfl⟩

/-- **Mapped executions** are those that end with no uncaught exception. -/
theorem mapped_iff (q : ApprovalQueue) (action resource namespace_ : String)
    (params : JsonDict) :
    Mapped (env.executeK8s q action resource namespace_ params) ↔
      ¬ Raises K8s.ClientExc.Uncaught
        (Prog.result env.libraries (K8s.executeAction action resource namespace_ params)) := by
  have hmap : env.executeK8s q action resource namespace_ params =
      mapExecution action resource namespace_ params
        (env.execute action resource namespace_ params).result := rfl
  have hobj : ∀ v, (env.execute action resource namespace_ params).result = .ok v →
      ∃ fields, v = .obj fields :=
    (executeAction_returnsObj action resource namespace_ params).of_path
      (env.execute_path action resource namespace_ params)
  rw [hmap, ← execute_result]
  -- One case for each clause of the `try` statement.
  cases hresult : (env.execute action resource namespace_ params).result with
  -- The `try` block returned.
  | ok v =>
    obtain ⟨fields, rfl⟩ := hobj v hresult
    simp [Mapped, mapExecution]
  | error e =>
    rw [raises_error_iff]
    cases e with
    -- `except K8sUnavailableError`: the simulated answer.
    | k8sUnavailableError msg =>
      simp [Mapped, mapExecution, simulated, K8s.ClientExc.Uncaught]
    -- `except K8sActionError`: a 502.
    | k8sActionError msg status => simp [Mapped, mapExecution, K8s.ClientExc.Uncaught]
    -- `except ValueError` catches some of the others.
    | py e =>
      cases hvalue : e.isValueError <;>
        simp [Mapped, mapExecution, K8s.ClientExc.Uncaught, hvalue]

end Execution

/-! ## What the policy lets through -/

section Policy

variable [Runtime] [SprintfFormat]

/-- OPA with the shipped policy allows the request: the document can be sent, and the
    policy's decision on it is an allow. -/
structure AllowedByPolicy (identity role : Json) (action resource namespace_ : String)
    (riskLevel : Risk.RiskLevel) (params : JsonDict) : Prop where
  sent : (opaInput identity role action resource namespace_ riskLevel params).isFinite = true
  allowed : allow (policyInput identity role action resource namespace_ riskLevel params) = true

variable {identity role : Json} {action resource namespace_ : String}
  {riskLevel : Risk.RiskLevel} {params : JsonDict}

omit [Runtime] [SprintfFormat] in
/-- The fields of a finite object are finite. -/
theorem isFinite_of_mem {fields : List (String × Json)} (h : (Json.obj fields).isFinite = true)
    {k : String} {v : Json} (hmem : (k, v) ∈ fields) : v.isFinite = true := by
  induction fields with
  | nil => cases hmem
  | cons field fields ih =>
    obtain ⟨k', v'⟩ := field
    rw [Json.isFinite_obj_cons, Bool.and_eq_true] at h
    rcases List.mem_cons.mp hmem with heq | hmem
    · cases heq
      exact h.1
    · exact ih h.2 hmem

/-- No value of a payload that OPA got is an infinity. -/
theorem AllowedByPolicy.finite
    (h : AllowedByPolicy identity role action resource namespace_ riskLevel params) {key : String}
    {v : Json} (hget : params.get? key = some v) : v.isFinite = true := by
  have hinput := isFinite_of_mem h.sent (List.mem_singleton.mpr rfl)
  have hparams : params.toJson.isFinite = true := by
    refine isFinite_of_mem hinput (k := "params") ?_
    simp
  exact isFinite_of_mem hparams (OrderedDict.mem_of_get? hget)

/-- What the client dispatches as a write of a deployment has a clean payload. -/
theorem AllowedByPolicy.clean
    (h : AllowedByPolicy identity role action resource namespace_ riskLevel params)
    (haction : (K8s.normalise action resource namespace_).action ∈ ["create", "update", "patch"]) :
    ∀ v, params.get? "replicas" = some v → exceeds v 10 = false := by
  have hfields := inputFields_policyInput identity role action resource namespace_ riskLevel params
  rcases (allow_eq_true_iff hfields).mp h.allowed with ⟨-, hread⟩ | ⟨-, hwrite, -, -, hclean⟩
  · -- A verb that the policy knows is dispatched as the policy read it.
    have hsame : (K8s.normalise action resource namespace_).action = lower action :=
      strip_verb (.inl hread)
    rw [hsame] at haction
    exact absurd hread (notMem_readOnlyActions haction)
  · have hverb : inStrings ((policyInput identity role action resource namespace_ riskLevel
        params).field? "action") writeActions = true := inStrings_iff.mpr ⟨_, hwrite, rfl⟩
    obtain ⟨-, -, hreplicas⟩ :=
      (Policies.AgentActions.payloadViolations_eq_nil_iff hverb).mp hclean
    exact fun v hget => hreplicas v hget

/-- An integer of the payload that the builder cannot convert: a null replica count, or a
    port that is a null or a container. -/
def UnconvertedInteger (params : JsonDict) : Prop :=
  params.get? "replicas" = some .null ∨ params.get? "container_port" = some .null ∨
    (∃ items, params.get? "container_port" = some (.arr items)) ∨
    ∃ fields, params.get? "container_port" = some (.obj fields)

omit [SprintfFormat] in
/-- A replica count that the policy does not find too large converts unless it is null. -/
theorem unconvertible_replicas_iff {v : Json} (hfinite : v.isFinite = true)
    (hexceeds : exceeds v 10 = false) :
    (K8s.Unconvertible v ↔ v = .null) ∧ (v ≠ .null → ∃ n, pyInt v = .ok n) := by
  rw [K8s.unconvertible_iff]
  cases v with
  | null => simp
  | bool b | int n => simp [pyInt]
  | float x =>
    cases x with
    | inf neg | nan => cases hfinite
    | finite q | negZero => simp [pyInt]
  -- Strings and containers come after every number in Rego's order.
  | str s | arr items | obj fields => simp [exceeds, number?, typeRank] at hexceeds

omit [SprintfFormat] in
theorem unconvertible_port_iff
    (hfinite : ∀ v, params.get? "container_port" = some v → v.isFinite = true) :
    K8s.Unconvertible (K8s.portValue params) ↔ params.get? "container_port" = some .null ∨
      (∃ items, params.get? "container_port" = some (.arr items)) ∨
      ∃ fields, params.get? "container_port" = some (.obj fields) := by
  rw [K8s.unconvertible_iff, K8s.portValue]
  cases hget : params.get? "container_port" with
  | none => simp
  | some v =>
    have hinf : ∀ neg, v ≠ .float (.inf neg) := by
      intro neg heq
      have hfinite := hfinite v hget
      rw [heq] at hfinite
      cases hfinite
    simp [hinf]

/-- **Unconvertible payloads** of allowed write requests: the null that the policy lets
    through, and the ports that it does not look at. -/
theorem unconvertiblePayload_iff
    (h : AllowedByPolicy identity role action resource namespace_ riskLevel params)
    (haction : (K8s.normalise action resource namespace_).action ∈ ["create", "update", "patch"]) :
    K8s.UnconvertiblePayload params ↔ UnconvertedInteger params := by
  have hport := unconvertible_port_iff fun _ hget => h.finite hget
  have hreplicas : (K8s.Unconvertible (K8s.replicasValue params) ↔
        params.get? "replicas" = some .null) ∧
      (params.get? "replicas" ≠ some .null →
        ∃ n, pyInt (K8s.replicasValue params) = .ok n) := by
    unfold K8s.replicasValue
    cases hget : params.get? "replicas" with
    | none => simp [K8s.unconvertible_iff, pyInt]
    | some v =>
      have hv := unconvertible_replicas_iff (h.finite hget) (h.clean haction v hget)
      simpa using hv
  unfold K8s.UnconvertiblePayload UnconvertedInteger
  rw [hreplicas.1, hport]
  constructor
  · -- From the payload to the two integers.
    intro hbad
    exact hbad.imp_right And.right
  · -- And back, by which of the two it is.
    intro hbad
    by_cases hnull : params.get? "replicas" = some .null
    · exact .inl hnull
    · exact .inr ⟨hreplicas.2 hnull, hbad.resolve_left hnull⟩

end Policy

/-! ## When every failure is mapped -/

section MappedFailures

variable [Runtime]

/-- The dispatched target is a deployment, and either the builder is to convert such an
    integer, or the API server returns a deployment without containers. -/
inductive ReachesDefect (libs : K8s.Libraries) (t : Target) (params : JsonDict) : Prop where
  | integer (hresource : t.resource ∈ ["deployments", "deployment"])
      (haction : t.action = "create" ∨
        (t.action = "update" ∨ t.action = "patch") ∧ (K8s.nameValue params).truthy = true)
      (hinteger : UnconvertedInteger params)
  | emptyDeployment (hresource : t.resource ∈ ["deployments", "deployment"])
      (haction : t.action = "get") (hname : (K8s.nameValue params).truthy = true)
      {d : K8s.DeploymentObject}
      (hread : libs.sdk (.readNamespacedDeployment (K8s.nameValue params).toStr t.namespace) =
        .ok d)
      (hempty : d.images = [])

theorem breaks_iff [SprintfFormat] {libs : K8s.Libraries} {identity role : Json}
    {action resource namespace_ : String} {riskLevel : Risk.RiskLevel} {params : JsonDict}
    (h : AllowedByPolicy identity role action resource namespace_ riskLevel params) :
    K8s.Breaks libs (K8s.normalise action resource namespace_) params ↔
      ReachesDefect libs (K8s.normalise action resource namespace_) params := by
  have hpatch : (K8s.normalise action resource namespace_).action = "update" ∨
      (K8s.normalise action resource namespace_).action = "patch" →
      (K8s.normalise action resource namespace_).action ∈ ["create", "update", "patch"] := by
    intro haction
    rcases haction with haction | haction <;> simp [haction]
  constructor
  · -- What breaks the dispatch is a defect.
    intro hbreaks
    cases hbreaks with
    | create hresource haction hpayload =>
      have hinteger := (unconvertiblePayload_iff h (by simp [haction])).mp hpayload
      exact .integer hresource (.inl haction) hinteger
    | patch hresource haction hname hpayload =>
      have hinteger := (unconvertiblePayload_iff h (hpatch haction)).mp hpayload
      exact .integer hresource (.inr ⟨haction, hname⟩) hinteger
    | emptyDeployment hresource haction hname hread hempty =>
      exact .emptyDeployment hresource haction hname hread hempty
  · -- A defect breaks the dispatch.
    intro hdefect
    cases hdefect with
    | integer hresource haction hinteger =>
      rcases haction with haction | ⟨haction, hname⟩
      · exact .create hresource haction
          ((unconvertiblePayload_iff h (by simp [haction])).mpr hinteger)
      · exact .patch hresource haction hname
          ((unconvertiblePayload_iff h (hpatch haction)).mpr hinteger)
    | emptyDeployment hresource haction hname hread hempty =>
      exact .emptyDeployment hresource haction hname hread hempty

/-- **Mapped failures**: for a request that the shipped policy allows, and libraries that
    raise what they document, `_execute_k8s` returns a dict or raises a 502, unless a
    configuration is found and the request reaches the defect. -/
theorem executeK8s_mapped_iff [SprintfFormat] {env : Environment} {identity role : Json}
    {action resource namespace_ : String} {riskLevel : Risk.RiskLevel} {params : JsonDict}
    (hallowed : AllowedByPolicy identity role action resource namespace_ riskLevel params)
    (hlibs : K8s.RaisesDocumented env.libraries) (q : ApprovalQueue) :
    Mapped (env.executeK8s q action resource namespace_ params) ↔
      ¬ (K8s.Configured env.libraries ∧
        ReachesDefect env.libraries (K8s.normalise action resource namespace_) params) := by
  rw [mapped_iff, K8s.executeAction_uncaught_iff hlibs, breaks_iff hallowed]

end MappedFailures

section Examples

attribute [local instance] asciiRuntime plainText

/-- A cluster that accepts every call raises nothing. -/
theorem workingCluster_raisesDocumented :
    K8s.RaisesDocumented (allowedWith workingCluster).libraries where
  incluster e h := by
    have hok : (allowedWith workingCluster).libraries.incluster = .ok () := rfl
    rw [hok] at h
    cases h
  kubeConfig e h := by
    have hok : (allowedWith workingCluster).libraries.kubeConfig = .ok () := rfl
    rw [hok] at h
    cases h
  sdk call e h := by
    have hok : (allowedWith workingCluster).libraries.sdk call = .ok call.found := rfl
    rw [hok] at h
    cases h

/-- An API server that answers everything with an error raises what is documented. -/
theorem failingCluster_raisesDocumented :
    K8s.RaisesDocumented (allowedWith failingCluster).libraries where
  incluster e h := by
    have hok : (allowedWith failingCluster).libraries.incluster = .ok () := rfl
    rw [hok] at h
    cases h
  kubeConfig e h := by
    have hok : (allowedWith failingCluster).libraries.kubeConfig = .ok () := rfl
    rw [hok] at h
    cases h
  sdk call e h := by
    have herror : (allowedWith failingCluster).libraries.sdk call =
        .error (.apiException (some 500) (some "Internal Server Error") "") := rfl
    rw [herror] at h
    cases h
    exact ⟨_, _, _, rfl⟩

/-- The deployment is built and refused by the API server, which is a 502. -/
theorem executeK8s_mapped_failingCluster :
    Mapped ((allowedWith failingCluster).executeK8s .empty webRequest.action webRequest.resource
        webRequest.namespace webRequest.params) ∧
      ∀ v, (allowedWith failingCluster).executeK8s .empty webRequest.action webRequest.resource
        webRequest.namespace webRequest.params ≠ .ok v := by
  have hallowed : AllowedByPolicy (.str "agent-deploy") (.str "deployer") webRequest.action
      webRequest.resource webRequest.namespace .low webRequest.params := ⟨by decide, by decide⟩
  refine ⟨(executeK8s_mapped_iff hallowed failingCluster_raisesDocumented .empty).mpr ?_, ?_⟩
  · intro h
    cases h.2 with
    | integer _ _ hinteger =>
      rcases hinteger with hnull | hnull | ⟨items, harr⟩ | ⟨fields, hobj⟩
      · cases hnull
      · cases hnull
      · cases harr
      · cases hobj
    | emptyDeployment _ haction => exact absurd haction (by decide)
  · intro v hv
    cases hv

/-- The payload `{"replicas": null}`. -/
def nullReplicas : JsonDict := .ofEntries [("replicas", .null)]

/-- A null replica count is allowed, and the `TypeError` of `int` is not caught. -/
theorem not_mapped_nullReplicas :
    ¬ ∀ (env : Environment) (identity role : Json) (action resource namespace_ : String)
      (riskLevel : Risk.RiskLevel) (params : JsonDict) (q : ApprovalQueue),
      AllowedByPolicy identity role action resource namespace_ riskLevel params →
        K8s.RaisesDocumented env.libraries →
        Mapped (env.executeK8s q action resource namespace_ params) := by
  intro h
  have hallowed : AllowedByPolicy (.str "agent-deploy") (.str "deployer") "create" "deployments"
      "default" .low nullReplicas := ⟨by decide, by decide⟩
  have hmapped := h _ _ _ _ _ _ _ _ .empty hallowed workingCluster_raisesDocumented
  have houtcome : (allowedWith workingCluster).executeK8s .empty "create" "deployments" "default"
      nullReplicas = .error (.uncaught (.builtin (.typeError
        ("int() argument must be a string, a bytes-like object or a real number, not 'NoneType'"))))
      := rfl
  rw [houtcome] at hmapped
  simp [Mapped] at hmapped

end Examples

end AiK8sGateway
