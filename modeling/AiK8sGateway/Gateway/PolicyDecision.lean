import AiK8sGateway.Main
import AiK8sGateway.Policies.AgentActions

/-!
# Coherence of the Policy's Decision

The shipped policy decides twice: `allow` by three rules, `deny_reasons` by six families
of rules.  On the documents that the gateway posts the two fit together, and `reason`
always has exactly one value.

## Main results

- `denyReasons_eq_nil_iff`, `allow_eq_true_iff`: the two decisions in terms of the role,
  the class of the verb, the namespace, the resource and the payload.
- `decision_coherent`: they never contradict each other, and a request that is neither
  allowed nor given a reason is a deployer's with a verb outside all classes.
-/

namespace AiK8sGateway

open Foundations PythonText Rego Policies.AgentActions

/-! ## The two decisions of the policy -/

section Decisions

variable [SprintfFormat]

/-- The fields of an input document that the rules on the target read. -/
structure InputFields (input role : Json) (action resource namespace_ : String) : Prop where
  role : input.field? "role" = some role
  action : input.field? "action" = some (.str action)
  resource : input.field? "resource" = some (.str resource)
  «namespace» : input.field? "namespace" = some (.str namespace_)

/-- Only a write request has payload violations. -/
theorem payloadViolations_eq_nil_of_not_write {input : Json}
    (h : inStrings (input.field? "action") writeActions = false) :
    payloadViolations input = [] := by
  have hfield : ∀ rule : String × String, fieldViolation input rule.1 rule.2 = [] := by
    intro rule
    simp [fieldViolation, h]
  have himage : imageViolation input = [] := by
    unfold imageViolation
    split <;> simp [h]
  have hreplicas : replicasViolation input = [] := by
    unfold replicasViolation
    split <;> simp [h]
  simp [payloadViolations, hfield, himage, hreplicas]

variable {input role : Json} {action resource namespace_ : String}

omit [SprintfFormat] in
/-- The role is the string. -/
theorem eqString_role_iff (s : String) : eqString (some role) s = true ↔ role = .str s := by
  cases role <;> simp [eqString]

omit [SprintfFormat] in
/-- The role is one of the strings. -/
theorem inStrings_role_iff (set : List String) :
    inStrings (some role) set = true ↔ ∃ s ∈ set, role = .str s := by
  rw [inStrings_iff]
  simp

/-- No deny rule fires exactly if none of their conditions holds. -/
theorem denyReasons_eq_nil_iff (h : InputFields input role action resource namespace_) :
    denyReasons input = [] ↔
      action ∉ deleteActions ∧
      ¬ (namespace_ ∈ privilegedNamespaces ∧ action ∈ writeActions) ∧
      ¬ (role = .str "readonly" ∧ action ∉ readOnlyActions) ∧
      ¬ (role = .str "deployer" ∧ action ∈ writeActions ∧ resource ∈ sensitiveResources) ∧
      (role = .str "readonly" ∨ role = .str "deployer") ∧
      payloadViolations input = [] := by
  have hroles : inStrings (some role) ["readonly", "deployer"] = true ↔
      role = .str "readonly" ∨ role = .str "deployer" := by
    rw [inStrings_role_iff]
    simp
  -- Every message has a value to print, so a rule fires exactly if its conditions hold.
  simp only [denyReasons, List.append_eq_nil_iff, h.role, h.action, h.resource, h.namespace,
    sprintf₁, ite_eq_right_iff, List.cons_ne_nil, imp_false, Bool.and_eq_true,
    Bool.not_eq_true', inStrings_some_str, List.contains_eq_mem, decide_eq_true_eq,
    decide_eq_false_iff_not, eqString_role_iff, and_assoc, ← hroles, Bool.not_eq_false]

/-- A request is allowed exactly if one of the three allow rules holds. -/
theorem allow_eq_true_iff (h : InputFields input role action resource namespace_) :
    allow input = true ↔
      ((role = .str "readonly" ∨ role = .str "deployer") ∧ action ∈ readOnlyActions) ∨
      (role = .str "deployer" ∧ action ∈ writeActions ∧ namespace_ ∉ privilegedNamespaces ∧
        resource ∉ sensitiveResources ∧ payloadViolations input = []) := by
  have hroles : inStrings (some role) ["readonly", "deployer"] = true ↔
      role = .str "readonly" ∨ role = .str "deployer" := by
    rw [inStrings_role_iff]
    simp
  have hdeployer : inStrings (some role) ["deployer"] = true ↔ role = .str "deployer" := by
    rw [inStrings_role_iff]
    simp
  rw [allow_iff]
  simp only [allowC, h.role, h.action, h.resource, h.namespace, hroles, hdeployer,
    Bool.and_eq_true, Bool.not_eq_true', inStrings_some_str, List.contains_eq_mem,
    decide_eq_true_eq, decide_eq_false_iff_not, beq_iff_eq, List.length_eq_zero_iff, and_assoc]

omit [SprintfFormat] in
/-- A role is not both. -/
theorem not_readonly_of_deployer (h : role = .str "deployer") : role ≠ .str "readonly" := by
  rw [h]
  simp

omit [SprintfFormat] in
/-- The three classes of verbs have no verb in common. -/
theorem verb_classes_disjoint (verb : String) :
    (verb ∈ readOnlyActions → verb ∉ writeActions) ∧
      (verb ∈ readOnlyActions → verb ∉ deleteActions) ∧
      (verb ∈ writeActions → verb ∉ deleteActions) := by
  have hread : ∀ v ∈ readOnlyActions, v ∉ writeActions ∧ v ∉ deleteActions := by decide
  have hwrite : ∀ v ∈ writeActions, v ∉ deleteActions := by decide
  exact ⟨fun h => (hread verb h).1, fun h => (hread verb h).2, hwrite verb⟩

end Decisions

/-! ## Coherence -/

section Coherence

variable [SprintfFormat]

/-- The decision on an input with this role and verb is coherent and explained. -/
structure CoherentDecision (input role : Json) (action : String) : Prop where
  /-- Exactly one of the rules for `reason` applies. -/
  explained : ∃ reason, reasonValues input = [reason]
  /-- An allowed request has no deny reason. -/
  allowed : allow input = true →
    denyReasons input = [] ∧ reasonValues input = ["Allowed by policy."]
  /-- The default-deny text is for deployers with an unknown verb. -/
  defaultDeny : (allow input = false ∧ denyReasons input = []) ↔
    role = .str "deployer" ∧ action ∉ readOnlyActions ∧ action ∉ writeActions ∧
      action ∉ deleteActions

/-- The rules for `reason` exclude each other, and one of them always applies. -/
theorem exists_reasonValues_eq (input : Json) : ∃ reason, reasonValues input = [reason] := by
  cases hallow : allow input with
  | true => exact ⟨"Allowed by policy.", by simp [reasonValues, hallow]⟩
  | false =>
    cases hdeny : denyReasons input with
    | nil =>
      exact ⟨"Denied: default deny — no allow rule matched.", by simp [reasonValues, hallow, hdeny]⟩
    | cons msg rest =>
      exact ⟨concatSet "; " (msg :: rest), by simp [reasonValues, hallow, hdeny]⟩

variable {input role : Json} {action resource namespace_ : String}

/-- **No contradiction**: what is allowed has no deny reason. -/
theorem denyReasons_eq_nil_of_allow (h : InputFields input role action resource namespace_)
    (hallow : allow input = true) : denyReasons input = [] := by
  obtain ⟨hreadWrite, hreadDelete, hwriteDelete⟩ := verb_classes_disjoint action
  rw [denyReasons_eq_nil_iff h]
  rcases (allow_eq_true_iff h).mp hallow with
    ⟨hrole, hread⟩ | ⟨hrole, hwrite, hns, hresource, hpayload⟩
  · -- A read verb is in no class that a deny rule is about.
    refine ⟨hreadDelete hread, fun hdeny => hreadWrite hread hdeny.2, fun hdeny => hdeny.2 hread,
      fun hdeny => hreadWrite hread hdeny.2.1, hrole, ?_⟩
    apply payloadViolations_eq_nil_of_not_write
    rw [h.action, inStrings_some_str]
    simpa using hreadWrite hread
  · refine ⟨hwriteDelete hwrite, fun hdeny => hns hdeny.1, ?_,
      fun hdeny => hresource hdeny.2.2, .inr hrole, hpayload⟩
    exact fun hdeny => not_readonly_of_deployer hrole hdeny.1

/-- What is neither allowed nor given a deny reason. -/
theorem default_deny_iff (h : InputFields input role action resource namespace_) :
    (allow input = false ∧ denyReasons input = []) ↔
      role = .str "deployer" ∧ action ∉ readOnlyActions ∧ action ∉ writeActions ∧
        action ∉ deleteActions := by
  rw [denyReasons_eq_nil_iff h, Bool.eq_false_iff, Ne, allow_eq_true_iff h]
  constructor
  · rintro ⟨hdenied, hdelete, hns, hreadonly, hresource, hrole, hpayload⟩
    -- An unallowed read verb would belong to a role that is unrecognised.
    have hread : action ∉ readOnlyActions := fun hread => hdenied (.inl ⟨hrole, hread⟩)
    have hdeployer : role = .str "deployer" := by
      rcases hrole with hrole | hrole
      · exact absurd ⟨hrole, hread⟩ hreadonly
      · exact hrole
    refine ⟨hdeployer, hread, fun hwrite => ?_, hdelete⟩
    -- A write verb that no reason denies satisfies Rule C.
    apply hdenied
    refine .inr ⟨hdeployer, hwrite, fun hmem => hns ⟨hmem, hwrite⟩,
      fun hmem => hresource ⟨hdeployer, hwrite, hmem⟩, hpayload⟩
  · -- A deployer's verb that is in none of the three lists.
    rintro ⟨hdeployer, hread, hwrite, hdelete⟩
    refine ⟨?_, hdelete, fun hdeny => hwrite hdeny.2, ?_, fun hdeny => hwrite hdeny.2.1,
      .inr hdeployer, ?_⟩
    · rintro (⟨-, hallowed⟩ | ⟨-, hallowed, -⟩)
      · exact hread hallowed
      · exact hwrite hallowed
    · exact fun hdeny => not_readonly_of_deployer hdeployer hdeny.1
    · apply payloadViolations_eq_nil_of_not_write
      rw [h.action, inStrings_some_str]
      simpa using hwrite

end Coherence

section Documents

variable [CharTables] [SprintfFormat]

omit [SprintfFormat] in
/-- What the rules read of a document of the gateway. -/
theorem inputFields_policyInput (identity role : Json) (action resource namespace_ : String)
    (riskLevel : Risk.RiskLevel) (params : JsonDict) :
    InputFields (policyInput identity role action resource namespace_ riskLevel params) role
      (lower action) (lower resource) (lower namespace_) :=
  ⟨rfl, rfl, rfl, rfl⟩

/-- **Coherence**: on every document that the gateway posts, the policy's decision is
    coherent and explained. -/
theorem decision_coherent (identity role : Json) (action resource namespace_ : String)
    (riskLevel : Risk.RiskLevel) (params : JsonDict) :
    CoherentDecision (policyInput identity role action resource namespace_ riskLevel params)
      role (lower action) := by
  have hfields := inputFields_policyInput identity role action resource namespace_ riskLevel params
  refine ⟨exists_reasonValues_eq _, fun hallow => ?_, default_deny_iff hfields⟩
  refine ⟨denyReasons_eq_nil_of_allow hfields hallow, ?_⟩
  simp [reasonValues, hallow]

end Documents

end AiK8sGateway
