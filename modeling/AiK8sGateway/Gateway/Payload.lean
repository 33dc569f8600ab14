import AiK8sGateway.Gateway.ShippedPolicy
import AiK8sGateway.K8s.Manifest

/-!
# Payload Safety

The policy reads the raw JSON of `params` with Rego's order across types, the builder
reads the same object with Python's defaults and coercions.  Whatever the policy lets
through, the builder turns into a deployment within the policy's limits.

## Main results

- `pyInt_le_of_not_exceeds`: a value that does not exceed a limit for Rego converts to
  an integer within it.
- `payloadSafe_of_clean`: a deployment built of a payload without violations is safe.
- `issued_deployment_safe`: so is every deployment that is ever written.
-/

namespace AiK8sGateway

open Foundations EffectProgram PythonText Approval Audit Auth Rego
open Policies.AgentActions (writeActions payloadViolations ImageAccepted)

/-! ## Numbers -/

/-- Truncation keeps an integer bound. -/
theorem tdiv_le_of_le {q : ℚ} {n : ℤ} (h : q ≤ n) : q.num.tdiv q.den ≤ n := by
  have hden : (0 : ℤ) < q.den := by exact_mod_cast q.den_pos
  have hmul : q.num ≤ n * q.den := by
    have hnum := (Rat.le_iff _ _).mp h
    simpa using hnum
  calc q.num.tdiv q.den ≤ (n * q.den).tdiv q.den := Int.tdiv_le_tdiv hden hmul
    _ = n := Int.mul_tdiv_cancel n hden.ne'

section Builder

variable [Runtime]

/-- A value that does not exceed a positive limit for Rego converts to an integer
    within the limit, if it converts at all. -/
theorem pyInt_le_of_not_exceeds {v : Json} {limit n : ℤ} (hlimit : 1 ≤ limit)
    (hexceeds : exceeds v limit = false) (hint : pyInt v = .ok n) : n ≤ limit := by
  cases v with
  | null => cases hint
  | bool b =>
    -- Rego puts booleans before the numbers; `int` makes them 0 and 1.
    have hn : n = if b then 1 else 0 := (Except.ok.inj hint).symm
    split at hn <;> omega
  -- Both compare the same integer.
  | int m =>
    have hle : ¬ (limit : ℚ) < m := by simpa [exceeds, number?] using hexceeds
    have hn : n = m := (Except.ok.inj hint).symm
    rw [hn]
    exact_mod_cast not_lt.mp hle
  | float x =>
    cases x with
    -- `int` truncates towards zero.
    | finite q =>
      have hle : ¬ (limit : ℚ) < q := by simpa [exceeds, number?] using hexceeds
      have hn : n = q.num.tdiv q.den := (Except.ok.inj hint).symm
      rw [hn]
      exact tdiv_le_of_le (not_lt.mp hle)
    | negZero =>
      have hn : n = 0 := (Except.ok.inj hint).symm
      omega
    | inf neg => cases hint
    | nan => cases hint
  -- Strings and containers come after every number in Rego's order.
  | str s => simp [exceeds, number?, typeRank] at hexceeds
  | arr items => simp [exceeds, number?, typeRank] at hexceeds
  | obj fields => simp [exceeds, number?, typeRank] at hexceeds

/-! ## What the builder makes of a payload -/

/-- A deployment that asks for nothing the gateway does not grant. -/
structure PayloadSafe (params : JsonDict) (body : K8s.V1Deployment) : Prop where
  replicas : body.spec.replicas ≤ 10
  /-- One container: its image is trusted, or the empty one or the null that the caller
      supplied, and it is not privileged. -/
  container : ∃ container, body.spec.template.spec.containers = [container] ∧
    ((∃ image, container.image = .str image ∧
        ∃ pre ∈ Policies.AgentActions.trustedImagePrefixes, startsWith image pre = true) ∨
      (container.image = .str "" ∧ params.get? "image" = some (.str "")) ∨
      (container.image = .null ∧ params.get? "image" = some .null)) ∧
    container.securityContext.privileged = some false ∧
    container.securityContext.allowPrivilegeEscalation = some false
  runAsNonRoot : body.spec.template.spec.securityContext.runAsNonRoot = some true
  host : body.spec.template.spec.hostNetwork = none ∧ body.spec.template.spec.hostPid = none ∧
    body.spec.template.spec.hostIpc = none ∧ body.spec.template.spec.volumes = none

/-- A deployment built of a payload without violations is safe. -/
theorem payloadSafe_of_clean [SprintfFormat] {params : JsonDict} {body : K8s.V1Deployment}
    {input : Json} (hwrite : inStrings (input.field? "action") writeActions = true)
    (hparams : ∀ key, ref₂ input "params" key = params.get? key)
    (hclean : payloadViolations input = []) (hbuild : K8s.buildDeployment params = .ok body) :
    PayloadSafe params body := by
  obtain ⟨-, himage, hexceeds⟩ :=
    (Policies.AgentActions.payloadViolations_eq_nil_iff hwrite).mp hclean
  rw [hparams] at himage
  obtain ⟨hreplicas, port, -, -, hspec⟩ := K8s.buildDeployment_ok hbuild
  have hcontainerImage : (K8s.containerOf params port).image =
      (params.get? "image").getD (.str "nginx:alpine") := rfl
  -- The replicas and the image depend on the payload; the rest is fixed.
  refine ⟨?_, ⟨K8s.containerOf params port, by rw [hspec], ?_, rfl, rfl⟩, by rw [hspec],
    by simp [hspec]⟩
  · -- The replicas.
    cases hget : params.get? "replicas" with
    | none =>
      have hone : (1 : ℤ) = body.spec.replicas := by simpa [hget, pyInt] using hreplicas
      omega
    | some v =>
      apply pyInt_le_of_not_exceeds (by decide) (hexceeds v (by rw [hparams, hget]))
      simpa [hget] using hreplicas
  · rcases himage with himage | himage | himage | ⟨image, himage, htrusted⟩
    · -- Without an image the builder takes one of its own, which is trusted.
      refine .inl ⟨"nginx:alpine", by simp [hcontainerImage, himage], "nginx:", ?_⟩
      decide
    · -- A null image.
      exact .inr (.inr ⟨by simp [hcontainerImage, himage], himage⟩)
    · -- An empty image.
      exact .inr (.inl ⟨by simp [hcontainerImage, himage], himage⟩)
    · -- A trusted image.
      exact .inl ⟨image, by simp [hcontainerImage, himage],
        (Policies.AgentActions.isTrustedImage_str_iff image).mp htrusted⟩

end Builder

/-! ## Every deployment that is written -/

section Written

variable [Runtime] [SprintfFormat] {settings : Settings} {c : GatewayConfig}

/-- **Payload safety**: under the shipped policy every deployment that is created or
    patched, directly or after an approval, is safe for the params that were submitted
    under its request id. -/
theorem issued_deployment_safe (h : (gateway settings shippedOpa).Reachable c) (i : String)
    (sdkCall : K8s.SdkCall) (body : K8s.V1Deployment) (hissues : Issues c.history i sdkCall)
    (hbody : sdkCall.deployment? = some body) :
    ∃ t req, .arrive t (.agentAction req) ∈ c.history ∧ req.requestId = i ∧
      PayloadSafe req.body.params body := by
  obtain ⟨t, req, token, rs, harrive, hid, -, hdispatch, hallow⟩ := issued_origin h hissues
  obtain ⟨haction, hbuild⟩ := hdispatch.of_deployment hbody
  obtain ⟨hwrite, -⟩ := writeAllowed_of_dispatched hallow (notMem_readOnlyActions haction)
  refine ⟨t, req, harrive, hid, ?_⟩
  apply payloadSafe_of_clean _ (fun key => rfl) hwrite.payload hbuild
  exact inStrings_iff.mpr ⟨_, hwrite.action, rfl⟩

end Written

section Example

attribute [local instance] asciiRuntime plainText

/-- A deployment of three replicas with an image and limits of its own is safe. -/
theorem issued_deployment_safe_webRequest :
    ∃ i sdkCall body, Issues (deployerRun webRequest).history i sdkCall ∧
      sdkCall.deployment? = some body ∧ body.spec.replicas = 3 ∧
      ∃ t req, .arrive t (.agentAction req) ∈ (deployerRun webRequest).history ∧
        req.requestId = i ∧ PayloadSafe req.body.params body := by
  have hany : ((deployerRun webRequest).history.flatMap sdkCallsOf).any
      (fun x => x.2.deployment?.map (·.spec.replicas) = some 3) = true := by decide
  obtain ⟨i, sdkCall, hissues, hdeployment⟩ := exists_issues hany
  obtain ⟨body, hbody, hreplicas⟩ := Option.map_eq_some_iff.mp (of_decide_eq_true hdeployment)
  exact ⟨i, sdkCall, body, hissues, hbody, hreplicas,
    issued_deployment_safe (deployerRun_reachable webRequest) i sdkCall body hissues hbody⟩

end Example

end AiK8sGateway
