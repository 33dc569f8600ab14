import AiK8sGateway.Config

/-!
# Risk Scorer

`app/risk/scorer.py`: four additive dimensions (verb, namespace, resource and
payload), each of which adds its points and a line of explanation.

## Main results

- `score_ok`, `score_nonneg`: what a score is made of, and that none is negative.
- `le_scoreParams`: inspecting the payload only adds points.
-/

namespace AiK8sGateway.Risk

open Foundations PythonText

/-! ## Scoring tables -/

/-- `ACTION_WEIGHTS`. -/
def actionWeights : List (String × Int) :=
  [("get", 0), ("list", 0), ("watch", 0), ("create", 1), ("update", 1), ("patch", 1),
    ("apply", 1), ("delete", 2), ("replace", 2), ("exec", 2)]

/-- `HIGH_RISK_NAMESPACES`. -/
def highRiskNamespaces : List String := ["kube-system", "kube-public", "kube-node-lease"]

/-- `SENSITIVE_RESOURCES`. -/
def sensitiveResources : List String :=
  ["secret", "secrets", "role", "roles", "rolebinding", "rolebindings", "clusterrole",
    "clusterroles", "clusterrolebinding", "clusterrolebindings", "serviceaccount",
    "serviceaccounts"]

/-- `PRIVILEGED_FIELDS`. -/
def privilegedFields : List (String × Int) :=
  [("privileged", 3), ("hostNetwork", 2), ("hostPID", 2), ("hostIPC", 2), ("hostPath", 2)]

/-- `WRITE_VERBS`. -/
def writeVerbs : List String := ["create", "update", "patch", "apply", "replace"]

/-! ## Results -/

/-- `RiskLevel`. -/
inductive RiskLevel where
  | low
  | medium
  | high
  deriving DecidableEq

/-- The string constant of a level. -/
def RiskLevel.value : RiskLevel → String
  | low => "low"
  | medium => "medium"
  | high => "high"

/-- `RiskScore`. -/
structure RiskScore where
  level : RiskLevel
  score : Int
  reasons : List String
  deriving DecidableEq

/-! ## Payload inspection -/

section Payload

variable [CharTables] (settings : Settings)

/-- `_is_trusted_image`. -/
def isTrustedImage (image : String) : Bool :=
  settings.trustedImagePrefixes.any (fun pre => startsWith image pre)

/-- One round of the loop over `PRIVILEGED_FIELDS`: reasons and bucket so far. -/
def inspectField (params : JsonDict) (acc : List String × Int) (field : String × Int) :
    List String × Int :=
  match params.get? field.1 with
  | some (.bool true) =>
    (acc.1 ++ ["params." ++ field.1 ++ "=true grants host-level access -> +" ++ toString field.2],
      acc.2 + field.2)
  | _ => acc

/-- The image trust check. -/
def inspectImage (params : JsonDict) (acc : List String × Int) : List String × Int :=
  -- A null image is the text `None` here, and not a missing one.
  let image := strip ((params.get? "image").getD (.str "")).toStr
  if image ≠ "" ∧ isTrustedImage settings image = false then
    (acc.1 ++ ["image '" ++ image ++ "' is not from a trusted registry (trusted prefixes: "
        ++ reprStrings settings.trustedImagePrefixes ++ ") -> +1"],
      acc.2 + 1)
  else acc

/-- `int(params.get("replicas", 1))` under `except (ValueError, TypeError): 1`. -/
def replicasOf (params : JsonDict) : Except BuiltinError Int :=
  match pyInt ((params.get? "replicas").getD (.int 1)) with
  | .ok n => .ok n
  | .error (.valueError _) => .ok 1
  | .error (.typeError _) => .ok 1
  | .error e => .error e

/-- `_score_params`: the reasons with those of the payload, and the bucket. -/
def scoreParams (params : JsonDict) (reasons : List String) (bucket : Int) :
    Except BuiltinError (List String × Int) := do
  let acc := privilegedFields.foldl (inspectField params) (reasons, bucket)
  let acc := inspectImage settings params acc
  let replicas ← replicasOf params
  if replicas > settings.maxReplicasThreshold then
    return (acc.1 ++ ["replicas=" ++ toString replicas ++ " exceeds gateway threshold of "
        ++ toString settings.maxReplicasThreshold ++ " -> +1"],
      acc.2 + 1)
  else
    return acc

/-! ## `score` -/

/-- The three strings as the scorer looks them up: lower-cased and stripped. -/
def normalise (action resource namespace_ : String) : Target where
  action := strip (lower action)
  resource := strip (lower resource)
  «namespace» := strip (lower namespace_)

/-- The band of a total. -/
def classify (total : Int) : RiskLevel :=
  if total ≤ 1 then .low else if total ≤ 3 then .medium else .high

/-- Verb, namespace and resource: the reasons and the points. -/
def scoreTarget (t : Target) : List String × Int :=
  -- A verb that is not in the table weighs one point.
  let actionPts := (actionWeights.lookup t.action).getD 1
  let acc : List String × Int :=
    (["action '" ++ t.action ++ "' -> +" ++ toString actionPts], actionPts)
  let acc :=
    if t.namespace ∈ highRiskNamespaces then
      (acc.1 ++ ["namespace '" ++ t.namespace ++ "' is a privileged system namespace -> +2"],
        acc.2 + 2)
    else acc
  if t.resource ∈ sensitiveResources then
    (acc.1 ++ ["resource '" ++ t.resource ++ "' stores credentials or RBAC grants -> +1"],
      acc.2 + 1)
  else acc

/-- `score`.  An empty or absent payload is not inspected, and neither is one of a
    verb that takes no payload. -/
def score (action resource namespace_ : String) (params : Option JsonDict) :
    Except BuiltinError RiskScore := do
  let t := normalise action resource namespace_
  let (reasons, total) := scoreTarget t
  let (reasons, bucket) ← match params with
    | some p =>
      if p.entries ≠ [] ∧ t.action ∈ writeVerbs then scoreParams settings p reasons 0
      else pure (reasons, 0)
    | none => pure (reasons, 0)
  -- The band is that of the whole sum.
  return ⟨classify (total + bucket), total + bucket, reasons⟩

/-! ## Points are never taken away -/

omit [CharTables] in
/-- Verb, namespace and resource give no negative points. -/
theorem scoreTarget_nonneg (t : Target) : 0 ≤ (scoreTarget t).2 := by
  -- Every weight of the table is at least zero, and so is the default.
  have hverb : 0 ≤ (actionWeights.lookup t.action).getD 1 := by
    cases hlookup : actionWeights.lookup t.action with
    | none => decide
    | some pts =>
      obtain ⟨pre, post, hsplit, -⟩ := List.lookup_eq_some_iff.mp hlookup
      have hall : ∀ e ∈ actionWeights, 0 ≤ e.2 := by decide
      apply hall (t.action, pts)
      rw [hsplit]
      exact List.mem_append_right _ (List.mem_cons_self ..)
  unfold scoreTarget
  dsimp only
  split_ifs <;> dsimp only <;> omega

omit [CharTables] in
/-- Verb, namespace and resource give five points at most. -/
theorem scoreTarget_le (t : Target) : (scoreTarget t).2 ≤ 5 := by
  have hverb : (actionWeights.lookup t.action).getD 1 ≤ 2 := by
    cases hlookup : actionWeights.lookup t.action with
    | none => decide
    | some pts =>
      obtain ⟨pre, post, hsplit, -⟩ := List.lookup_eq_some_iff.mp hlookup
      have hall : ∀ e ∈ actionWeights, e.2 ≤ 2 := by decide
      apply hall (t.action, pts)
      rw [hsplit]
      exact List.mem_append_right _ (List.mem_cons_self ..)
  unfold scoreTarget
  dsimp only
  split_ifs <;> dsimp only <;> omega

omit [CharTables] in
/-- A round of the loop over the privileged fields adds what the table says, or nothing. -/
theorem le_inspectField (params : JsonDict) (acc : List String × Int) {field : String × Int}
    (hfield : 0 ≤ field.2) : acc.2 ≤ (inspectField params acc field).2 := by
  unfold inspectField
  split
  · dsimp only
    omega
  · exact le_refl _

omit [CharTables] in
/-- The whole loop takes nothing away. -/
theorem le_foldl_inspectField (params : JsonDict) {fields : List (String × Int)}
    (hfields : ∀ field ∈ fields, 0 ≤ field.2) (acc : List String × Int) :
    acc.2 ≤ (fields.foldl (inspectField params) acc).2 := by
  induction fields generalizing acc with
  | nil => exact le_refl _
  | cons field fields ih =>
    have hfirst := le_inspectField params acc (hfields field (List.mem_cons_self ..))
    have hrest := ih (fun f hf => hfields f (List.mem_cons_of_mem _ hf))
      (inspectField params acc field)
    exact le_trans hfirst hrest

theorem le_inspectImage (params : JsonDict) (acc : List String × Int) :
    acc.2 ≤ (inspectImage settings params acc).2 := by
  unfold inspectImage
  dsimp only
  split_ifs
  · dsimp only
    omega
  · exact le_refl _

/-- Payload inspection takes nothing away from the bucket. -/
theorem le_scoreParams {settings : Settings} {params : JsonDict} {reasons : List String}
    {bucket : Int} {acc : List String × Int}
    (h : scoreParams settings params reasons bucket = .ok acc) : bucket ≤ acc.2 := by
  unfold scoreParams at h
  have hfields : ∀ field ∈ privilegedFields, 0 ≤ field.2 := by decide
  have hloop := le_foldl_inspectField params hfields (reasons, bucket)
  have himage := le_inspectImage settings params
    (privilegedFields.foldl (inspectField params) (reasons, bucket))
  dsimp only at h
  generalize inspectImage settings params _ = inspected at h himage
  cases hreplicas : replicasOf params with
  | error e =>
    rw [hreplicas] at h
    cases h
  | ok replicas =>
    rw [hreplicas] at h
    -- The replica check adds a point or leaves what the image check left.
    have hacc : acc.2 = inspected.2 + 1 ∨ acc = inspected := by
      by_cases hmany : replicas > settings.maxReplicasThreshold
      · left
        have heq := Except.ok.inj ((if_pos hmany).symm.trans h)
        rw [← heq]
      · right
        exact (Except.ok.inj ((if_neg hmany).symm.trans h)).symm
    rcases hacc with hacc | rfl <;> dsimp only at hloop <;> omega

/-- **Parts of a score**: the points of the target and those of the payload, where it is
    inspected. -/
theorem score_ok {settings : Settings} {action resource namespace_ : String}
    {params : Option JsonDict} {rs : RiskScore}
    (h : score settings action resource namespace_ params = .ok rs) :
    ∃ acc, (acc = ((scoreTarget (normalise action resource namespace_)).1, 0) ∨
        ∃ p, params = some p ∧
          scoreParams settings p (scoreTarget (normalise action resource namespace_)).1 0 =
            .ok acc) ∧
      rs = ⟨classify ((scoreTarget (normalise action resource namespace_)).2 + acc.2),
        (scoreTarget (normalise action resource namespace_)).2 + acc.2, acc.1⟩ := by
  unfold score at h
  dsimp only at h
  generalize scoreTarget (normalise action resource namespace_) = target at h ⊢
  obtain ⟨reasons, total⟩ := target
  cases params with
  | none => exact ⟨(reasons, 0), .inl rfl, (Except.ok.inj h).symm⟩
  | some p =>
    dsimp only at h
    -- The payload is inspected.
    split_ifs at h with hinspect
    · cases hparams : scoreParams settings p reasons 0 with
      | error e =>
        rw [hparams] at h
        cases h
      | ok acc =>
        rw [hparams] at h
        exact ⟨acc, .inr ⟨p, rfl, hparams⟩, (Except.ok.inj h).symm⟩
    · -- It is not.
      exact ⟨(reasons, 0), .inl rfl, (Except.ok.inj h).symm⟩

/-- **No negative score**: a score is at least zero. -/
theorem score_nonneg {settings : Settings} {action resource namespace_ : String}
    {params : Option JsonDict} {rs : RiskScore}
    (h : score settings action resource namespace_ params = .ok rs) : 0 ≤ rs.score := by
  have htarget := scoreTarget_nonneg (normalise action resource namespace_)
  obtain ⟨acc, hacc, rfl⟩ := score_ok h
  have hbucket : 0 ≤ acc.2 := by
    rcases hacc with rfl | ⟨p, -, hparams⟩
    · exact le_refl _
    · exact le_scoreParams hparams
  exact add_nonneg htarget hbucket

end Payload

end AiK8sGateway.Risk
