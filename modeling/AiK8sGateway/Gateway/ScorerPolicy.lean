import AiK8sGateway.Foundations.PythonRepr
import AiK8sGateway.Gateway.Payload
import AiK8sGateway.Risk.Inspection

/-!
# The Two Payload Checks

The scorer and the policy check the same five things of a payload, each in the terms of
its own language.  What they object to is put side by side here: what both of them see,
what only the scorer sees, and what only the policy sees.

## Main results

- `findings_ne_nil_iff`, `payloadViolations_ne_nil_iff`: what each side objects to.
- `checks_agree_iff`: when the two sides agree on a payload.
-/

namespace AiK8sGateway

open Foundations PythonText Rego Risk
open Policies.AgentActions (writeActions fieldRules trustedImagePrefixes payloadViolations)

/-! ## Objections -/

/-- The text begins with one of the prefixes that both sides list. -/
def HasTrustedPrefix (image : String) : Prop :=
  ∃ pre ∈ trustedImagePrefixes, startsWith image pre = true

/-- An image that both sides object to. -/
def SharedImage : Option Json → Prop
  | none | some .null => False
  | some (.str image) => strip image ≠ "" ∧ ¬ HasTrustedPrefix (strip image)
  | some _ => True

/-- An image whose whitespace makes the difference. -/
def PaddedImage : Option Json → Prop
  | some (.str image) =>
    image ≠ "" ∧ ¬ HasTrustedPrefix image ∧ (strip image = "" ∨ HasTrustedPrefix (strip image))
  | _ => False

section Checks

variable [CharTables]

/-- A replica count that both sides object to. -/
def SharedReplicas (replicas : Option Json) : Prop :=
  ∃ v n, replicas = some v ∧ pyInt v = .ok n ∧ 10 < n

/-- A replica count that is only too large in Rego's order: a fraction, a text that is no
    large number, or a container. -/
def UncountedReplicas : Option Json → Prop
  | some (.float (.finite q)) => 10 < q ∧ q < 11
  | some (.str s) => ∀ n, intOfStr s = .ok n → n ≤ 10
  | some (.arr _) | some (.obj _) => True
  | _ => False

/-- Something in the payload that both sides object to. -/
def BothObject (params : JsonDict) : Prop :=
  (∃ rule ∈ fieldRules, params.get? rule.1 = some (.bool true)) ∨
    SharedImage (params.get? "image") ∨ SharedReplicas (params.get? "replicas")

/-- Something that only the scorer objects to: it has a field more, and a null image is
    the text `None` for it. -/
def OnlyScorerObjects (params : JsonDict) : Prop :=
  params.get? "hostPath" = some (.bool true) ∨ params.get? "image" = some .null

/-- Something that only the policy objects to. -/
def OnlyPolicyObjects (params : JsonDict) : Prop :=
  PaddedImage (params.get? "image") ∨ UncountedReplicas (params.get? "replicas")

/-! ## The scorer's side -/

omit [CharTables] in
theorem isTrustedImage_default_iff (image : String) :
    isTrustedImage .default image = true ↔ HasTrustedPrefix image := by
  simp only [isTrustedImage, List.any_eq_true]
  rfl

omit [CharTables] in
/-- No text that begins like a value that is no string begins like a trusted image. -/
theorem not_hasTrustedPrefix_of_begins {image : String}
    (h : BeginsWith isValueStart image.toList) : ¬ HasTrustedPrefix image := by
  rintro ⟨pre, hpre, hstarts⟩
  obtain ⟨c, rest, htext, hstart⟩ := h
  obtain ⟨rest', htext'⟩ := startsWith_iff.mp hstarts
  have hheads : ∀ pre ∈ trustedImagePrefixes,
      pre.toList.head?.any (fun d => !isValueStart d) = true := by decide
  -- The image begins with one character of both kinds.
  have hhead := hheads pre hpre
  cases hchars : pre.toList with
  | nil =>
    rw [hchars] at hhead
    exact absurd hhead (by decide)
  | cons d ds =>
    rw [hchars] at hhead
    rw [htext, hchars] at htext'
    injection htext' with hcd
    simp [← hcd, hstart] at hhead

/-- A value that is no string is the text of an untrusted image. -/
theorem strip_toStr_untrusted {v : Json} (hstr : ∀ s, v ≠ .str s) :
    strip v.toStr ≠ "" ∧ ¬ HasTrustedPrefix (strip v.toStr) := by
  -- The text of NaN begins with an `n`, as `nginx` does, and is looked at as a whole.
  by_cases hnan : v = .float .nan
  · have htext : v.toStr = "nan" := by
      rw [hnan]
      rfl
    rw [htext]
    refine ⟨by decide, ?_⟩
    rw [← isTrustedImage_default_iff]
    decide
  · have hbegins := strip_toStr_begins hstr hnan
    refine ⟨?_, not_hasTrustedPrefix_of_begins hbegins⟩
    intro hblank
    obtain ⟨c, rest, htext, -⟩ := hbegins
    rw [hblank] at htext
    cases htext

theorem imageFinding_ne_nil_iff (params : JsonDict) :
    imageFinding .default params ≠ [] ↔
      SharedImage (params.get? "image") ∨ params.get? "image" = some .null := by
  have hfires : imageFinding .default params ≠ [] ↔
      imageText params ≠ "" ∧ ¬ HasTrustedPrefix (imageText params) := by
    rw [← isTrustedImage_default_iff, Bool.not_eq_true]
    unfold imageFinding
    split <;> simp_all
  rw [hfires]
  unfold imageText
  cases params.get? "image" with
  | none =>
    have hempty : strip "" = "" := by decide
    simp [SharedImage, Json.toStr, hempty]
  | some v =>
    by_cases hstr : ∃ s, v = .str s
    · obtain ⟨s, rfl⟩ := hstr
      simp [SharedImage, Json.toStr]
    · -- Any other value has a text that is no trusted image, a null included.
      have huntrusted := strip_toStr_untrusted fun s hs => hstr ⟨s, hs⟩
      cases v with
      | str s => exact absurd ⟨s, rfl⟩ hstr
      | _ => simpa [SharedImage] using huntrusted

theorem replicaFinding_ne_nil_iff {params : JsonDict} {replicas : Int}
    (hreplicas : replicasOf params = .ok replicas) :
    replicaFinding .default replicas ≠ [] ↔ SharedReplicas (params.get? "replicas") := by
  have hfires : replicaFinding .default replicas ≠ [] ↔ 10 < replicas := by
    unfold replicaFinding
    split <;> simp_all [Settings.default]
  rw [hfires]
  unfold replicasOf at hreplicas
  unfold SharedReplicas
  cases hget : params.get? "replicas" with
  | none =>
    -- Without the key the count is one.
    rw [hget] at hreplicas
    cases hreplicas
    simp
  | some v =>
    rw [hget] at hreplicas
    cases hint : pyInt v with
    | ok n =>
      -- The value is converted.
      simp only [Option.getD_some, hint, Except.ok.injEq] at hreplicas
      simp [hint, hreplicas]
    | error e =>
      -- What is not converted counts as one.
      have hone : replicas = 1 := by
        rw [Option.getD_some, hint] at hreplicas
        cases e <;> cases hreplicas <;> rfl
      simp [hint, hone]

omit [CharTables] in
/-- The scorer looks at the policy's fields and at one more. -/
theorem fieldFindings_ne_nil_iff (params : JsonDict) :
    privilegedFields.flatMap (fieldFinding params) ≠ [] ↔
      (∃ rule ∈ fieldRules, params.get? rule.1 = some (.bool true)) ∨
        params.get? "hostPath" = some (.bool true) := by
  have hfield : ∀ field, fieldFinding params field ≠ [] ↔
      params.get? field.1 = some (.bool true) := by
    intro field
    unfold fieldFinding
    split <;> simp_all
  have hrule : ∀ field ∈ privilegedFields,
      (∃ rule ∈ fieldRules, rule.1 = field.1) ∨ field.1 = "hostPath" := by decide
  have hlisted : ∀ rule ∈ fieldRules, ∃ field ∈ privilegedFields, field.1 = rule.1 := by decide
  rw [Ne, List.flatMap_eq_nil_iff, not_forall₂]
  simp only [hfield]
  constructor
  · -- The scorer's field is one of the policy's, or the host path.
    rintro ⟨field, hmem, htrue⟩
    rcases hrule field hmem with ⟨rule, hin, hname⟩ | hname
    · exact .inl ⟨rule, hin, by rw [hname, htrue]⟩
    · exact .inr (by rw [← hname, htrue])
  · -- And the other way round.
    rintro (⟨rule, hin, htrue⟩ | htrue)
    · obtain ⟨field, hmem, hname⟩ := hlisted rule hin
      exact ⟨field, hmem, by rw [hname, htrue]⟩
    · exact ⟨("hostPath", 2), by decide, htrue⟩

/-- **The scorer's objections**. -/
theorem findings_ne_nil_iff {params : JsonDict} {replicas : Int}
    (hreplicas : replicasOf params = .ok replicas) :
    findings .default params replicas ≠ [] ↔ BothObject params ∨ OnlyScorerObjects params := by
  have hsplit : findings .default params replicas ≠ [] ↔
      privilegedFields.flatMap (fieldFinding params) ≠ [] ∨ imageFinding .default params ≠ [] ∨
        replicaFinding .default replicas ≠ [] := by
    simp only [findings, ne_eq, List.append_eq_nil_iff, not_and_or, or_assoc]
  rw [hsplit, fieldFindings_ne_nil_iff, imageFinding_ne_nil_iff, replicaFinding_ne_nil_iff hreplicas]
  -- The two checks with a case of the scorer's own are the fields and the image.
  exact (or_congr_right or_right_comm).trans or_or_or_comm

/-- Points are added exactly for the scorer's objections. -/
theorem lt_points_iff {params : JsonDict} {reasons : List String} {bucket : Int}
    {acc : List String × Int} (hacc : scoreParams .default params reasons bucket = .ok acc) :
    bucket < acc.2 ↔ BothObject params ∨ OnlyScorerObjects params := by
  have hfinite := (scoreParams_ok_iff params reasons bucket).mp ⟨acc, hacc⟩
  obtain ⟨replicas, hreplicas⟩ := (replicasOf_ok_iff params).mpr hfinite
  rw [← findings_ne_nil_iff hreplicas, ← scoreParams_fires_iff .default hreplicas reasons bucket]
  simp [hacc]

/-! ## The policy's side -/

omit [CharTables] in
theorem isTrustedImage_rego_iff (image : String) :
    Policies.AgentActions.isTrustedImage (.str image) = true ↔ HasTrustedPrefix image :=
  Policies.AgentActions.isTrustedImage_str_iff image

omit [CharTables] in
/-- Whitespace around an image takes its trust away, and never gives any. -/
theorem hasTrustedPrefix_strip {image : String} (h : HasTrustedPrefix image) :
    HasTrustedPrefix (strip image) := by
  obtain ⟨pre, hpre, hstarts⟩ := h
  have htrimmed : ∀ pre ∈ trustedImagePrefixes, strip pre = pre ∧ pre.toList ≠ [] := by decide
  obtain ⟨hstrip, hne⟩ := htrimmed pre hpre
  exact ⟨pre, hpre, startsWith_strip ((strip_eq_self_iff pre).mp hstrip) hne hstarts⟩

omit [CharTables] in
theorem not_imageAccepted_iff (image : Option Json) :
    ¬ Policies.AgentActions.ImageAccepted image ↔ SharedImage image ∨ PaddedImage image := by
  unfold Policies.AgentActions.ImageAccepted
  cases image with
  | none => simp [SharedImage, PaddedImage]
  | some v =>
    cases v with
    | str s =>
      simp only [SharedImage, PaddedImage, reduceCtorEq, Option.some.injEq, Json.str.injEq,
        isTrustedImage_rego_iff, exists_eq_left', false_or]
      by_cases hs : s = ""
      · have hblank : strip "" = "" := by decide
        simp [hs, hblank]
      -- A trusted text stays trusted when stripped; an untrusted one may become so.
      by_cases htrusted : HasTrustedPrefix s
      · simp [hs, htrusted, hasTrustedPrefix_strip htrusted]
      · by_cases hstrip : HasTrustedPrefix (strip s) <;> simp [hs, htrusted, hstrip, em']
    | _ => simp [SharedImage, PaddedImage]

omit [CharTables] in
/-- Truncation is above a limit exactly from the next integer on. -/
theorem lt_tdiv_iff {q : ℚ} {n : ℤ} (hn : 0 ≤ n) : n < q.num.tdiv q.den ↔ (n : ℚ) + 1 ≤ q := by
  rcases le_total 0 q.num with hpos | hneg
  · have hfloor : q.num.tdiv q.den = ⌊q⌋ := by
      rw [Int.tdiv_eq_ediv_of_nonneg hpos, Rat.floor_def']
    rw [hfloor, ← Int.add_one_le_iff, Int.le_floor]
    push_cast
    rfl
  · have hq : q ≤ 0 := Rat.num_nonpos.mp hneg
    have hzero : q.num.tdiv q.den ≤ 0 := tdiv_le_of_le (by exact_mod_cast hq)
    constructor
    · intro hlt
      omega
    · intro hle
      have hn' : (0 : ℚ) ≤ n := by exact_mod_cast hn
      linarith

theorem sharedReplicas_some_iff (v : Json) :
    SharedReplicas (some v) ↔ ∃ n, pyInt v = .ok n ∧ 10 < n := by
  constructor
  · rintro ⟨_, n, ⟨⟩, hint, hlt⟩
    exact ⟨n, hint, hlt⟩
  · rintro ⟨n, hint, hlt⟩
    exact ⟨v, n, rfl, hint, hlt⟩

/-- What is too large in Rego's order is too large as an integer, or no large integer. -/
theorem exceeds_iff (v : Json) :
    exceeds v 10 = true ↔ SharedReplicas (some v) ∨ UncountedReplicas (some v) := by
  rw [sharedReplicas_some_iff]
  cases v with
  -- Rego puts nulls and booleans before the numbers, and `int` makes no large number of them.
  | null => simp [exceeds, number?, typeRank, UncountedReplicas, pyInt]
  | bool b => cases b <;> simp [exceeds, number?, typeRank, UncountedReplicas, pyInt]
  | int n =>
    -- An integer is the same number for both.
    have hcast : (10 : ℚ) < n ↔ 10 < n := by exact_mod_cast Iff.rfl
    simp [exceeds, number?, UncountedReplicas, pyInt, hcast]
  | str s =>
    -- Every text is above every number.
    have habove : exceeds (.str s) 10 = true := by simp [exceeds, number?, typeRank]
    have hint : pyInt (.str s) = intOfStr s := rfl
    rw [habove, hint]
    refine iff_of_true rfl ?_
    by_cases hshared : ∃ n, intOfStr s = .ok n ∧ 10 < n
    · exact .inl hshared
    · right
      intro n hn
      by_contra hlt
      exact hshared ⟨n, hn, not_le.mp hlt⟩
  | float x =>
    cases x with
    | finite q =>
      -- `int` truncates, so between the limit and the next integer only Rego objects.
      have hcast : (10 : ℤ) < q.num.tdiv q.den ↔ (11 : ℚ) ≤ q := by
        rw [lt_tdiv_iff (by decide)]
        norm_num
      have hshared : (∃ n, pyInt (.float (.finite q)) = .ok n ∧ 10 < n) ↔ (11 : ℚ) ≤ q := by
        simp [pyInt, hcast]
      rw [hshared]
      simp only [exceeds, number?, UncountedReplicas, decide_eq_true_eq]
      constructor
      · intro hlt
        exact (le_or_gt 11 q).imp_right fun hlt' => ⟨hlt, hlt'⟩
      · rintro (hle | ⟨hlt, -⟩)
        · exact lt_of_lt_of_le (by norm_num) hle
        · exact hlt
    -- Zero, infinities and NaN make no large integer.
    | negZero => simp [exceeds, number?, UncountedReplicas, pyInt]
    | inf neg => simp [exceeds, number?, typeRank, UncountedReplicas, pyInt]
    | nan => simp [exceeds, number?, typeRank, UncountedReplicas, pyInt]
  -- Containers are above every number, and no integers.
  | arr items => simp [exceeds, number?, typeRank, UncountedReplicas]
  | obj fields => simp [exceeds, number?, typeRank, UncountedReplicas]

variable [SprintfFormat]

/-- **The policy's objections**. -/
theorem payloadViolations_ne_nil_iff {input : Json} {params : JsonDict}
    (hwrite : inStrings (input.field? "action") writeActions = true)
    (hparams : ∀ key, ref₂ input "params" key = params.get? key) :
    payloadViolations input ≠ [] ↔ BothObject params ∨ OnlyPolicyObjects params := by
  have hreplicas : (¬ ∀ x, params.get? "replicas" = some x →
      exceeds x Policies.AgentActions.maxReplicas = false) ↔
      SharedReplicas (params.get? "replicas") ∨ UncountedReplicas (params.get? "replicas") := by
    cases params.get? "replicas" with
    | none => simp [SharedReplicas, UncountedReplicas]
    | some v =>
      rw [← exceeds_iff]
      simp [Policies.AgentActions.maxReplicas]
  rw [Ne, Policies.AgentActions.payloadViolations_eq_nil_iff hwrite]
  simp only [hparams, not_and_or, not_imageAccepted_iff, hreplicas, BothObject, OnlyPolicyObjects,
    not_forall, not_not, exists_prop]
  exact (or_congr_right or_or_or_comm).trans or_assoc.symm

/-! ## Agreement -/

/-- The inspection returns, and adds points exactly if the policy finds violations. -/
def ChecksAgree (params : JsonDict) (input : Json) (reasons : List String) (bucket : Int) : Prop :=
  ∃ acc, scoreParams .default params reasons bucket = .ok acc ∧
    (bucket < acc.2 ↔ payloadViolations input ≠ [])

/-- **Agreement of the checks**: on a write request the scorer and the policy agree, unless
    the inspection fails or something is seen by one side only. -/
theorem checks_agree_iff {action : String} (hwrite : lower action ∈ writeActions)
    (identity role : Json) (resource namespace_ : String) (riskLevel : RiskLevel)
    (params : JsonDict) (reasons : List String) (bucket : Int) :
    ChecksAgree params (policyInput identity role action resource namespace_ riskLevel params)
        reasons bucket ↔
      ¬ InfiniteReplicas params ∧
        (BothObject params ∨ (OnlyScorerObjects params ↔ OnlyPolicyObjects params)) := by
  have hverb : inStrings ((policyInput identity role action resource namespace_ riskLevel
      params).field? "action") writeActions = true := inStrings_iff.mpr ⟨_, hwrite, rfl⟩
  have hpolicy : payloadViolations (policyInput identity role action resource namespace_ riskLevel
      params) ≠ [] ↔ BothObject params ∨ OnlyPolicyObjects params :=
    payloadViolations_ne_nil_iff hverb fun key => rfl
  constructor
  · -- From the agreement to what both of them see.
    rintro ⟨acc, hacc, hagree⟩
    have hfinite := (scoreParams_ok_iff params reasons bucket).mp ⟨acc, hacc⟩
    refine ⟨hfinite, ?_⟩
    rw [lt_points_iff hacc, hpolicy] at hagree
    by_cases hboth : BothObject params
    · exact .inl hboth
    · simpa [hboth] using hagree
  · -- And back, by whether both of them object.
    rintro ⟨hfinite, hsame⟩
    obtain ⟨acc, hacc⟩ : ∃ acc, scoreParams .default params reasons bucket = .ok acc :=
      (scoreParams_ok_iff params reasons bucket).mpr hfinite
    refine ⟨acc, hacc, ?_⟩
    rw [lt_points_iff hacc, hpolicy]
    rcases hsame with hboth | hsame
    · simp [hboth]
    · rw [hsame]

end Checks

section Example

attribute [local instance] asciiTables plainText

/-- The payload `{"image": " nginx:alpine"}`. -/
def paddedImageParams : JsonDict := .ofEntries [("image", .str " nginx:alpine")]

/-- The two sides do not agree on every payload of a write request. -/
theorem checks_disagree_paddedImageParams :
    ¬ ∀ action identity role resource namespace_ riskLevel params reasons bucket,
      lower action ∈ writeActions →
        ChecksAgree params (policyInput identity role action resource namespace_ riskLevel params)
          reasons bucket := by
  intro h
  obtain ⟨acc, hacc, hagree⟩ := h "create" (.str "agent") (.str "deployer") "deployments" "default"
    .low paddedImageParams [] 0 (by decide)
  -- The scorer adds nothing, and the policy has a violation.
  have hnothing : scoreParams .default paddedImageParams [] 0 = .ok ([], 0) := by decide
  rw [hnothing] at hacc
  obtain rfl := Except.ok.inj hacc
  exact absurd (hagree.mpr (by decide)) (by decide)

/-- The payload `{"privileged": true}`. -/
def privilegedParams : JsonDict := .ofEntries [("privileged", .bool true)]

/-- The two sides agree on a privileged container. -/
theorem checks_agree_privilegedParams :
    ChecksAgree privilegedParams
      (policyInput (.str "agent") (.str "deployer") "create" "deployments" "default" .high
        privilegedParams) [] 0 := by
  apply (checks_agree_iff (by decide) ..).mpr
  refine ⟨?_, .inl (.inl ⟨_, List.mem_cons_self .., rfl⟩)⟩
  rintro ⟨neg, hneg⟩
  cases hneg

end Example

end AiK8sGateway
