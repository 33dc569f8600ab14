import AiK8sGateway.Risk.Explanation
import Mathlib.Data.List.Flatten

/-!
# Padded Payloads

Further keys in a payload never take a finding away: a check whose key was there finds
what it found, and a check whose key was absent had found nothing.  The default count of
one replica is the exception, and only below a threshold of one.

## Main results

- `findings_sublist`: the findings of a payload are among those of a longer one.
- `score_mono`: further keys lower neither the score nor the level, and the order of the
  keys changes neither.
-/

namespace AiK8sGateway.Risk

open Foundations PythonText

/-! ## Fewer findings, fewer points -/

/-- Findings that are left out take their points with them. -/
theorem pointsOf_le_of_sublist {f g : List Finding} (h : f.Sublist g)
    (hpos : ∀ finding ∈ g, 0 < finding.2) : pointsOf f ≤ pointsOf g := by
  induction h with
  | slnil => exact le_refl _
  | cons finding _ ih =>
    have hrest := ih fun other hother => hpos other (List.mem_cons_of_mem _ hother)
    have hfirst := hpos finding (List.mem_cons_self ..)
    show _ ≤ finding.2 + pointsOf _
    omega
  | cons_cons finding _ ih =>
    have hrest := ih fun other hother => hpos other (List.mem_cons_of_mem _ hother)
    show finding.2 + pointsOf _ ≤ finding.2 + pointsOf _
    omega

/-- The bands in their order. -/
def RiskLevel.rank : RiskLevel → Nat
  | low => 0
  | medium => 1
  | high => 2

/-- A higher total is in no lower band. -/
theorem rank_classify_mono {m n : Int} (h : m ≤ n) :
    (classify m).rank ≤ (classify n).rank := by
  unfold classify
  split_ifs <;> first | omega | simp [RiskLevel.rank]

/-! ## Further keys -/

section Payload

variable [CharTables] {settings : Settings} {p q : JsonDict}

omit [CharTables] in
/-- A privileged field is found in the longer payload as well. -/
theorem fieldFinding_sublist (h : p.Extends q) (field : String × Int) :
    (fieldFinding p field).Sublist (fieldFinding q field) := by
  unfold fieldFinding
  cases hget : p.get? field.1 with
  | none => exact List.nil_sublist _
  | some v =>
    rw [h field.1 v hget]

/-- An absent image is no finding. -/
theorem imageFinding_of_absent (hget : p.get? "image" = none) : imageFinding settings p = [] := by
  have htext : imageText p = "" := by
    unfold imageText
    rw [hget]
    rfl
  rw [imageFinding, htext, if_neg fun h => h.1 rfl]

/-- An image is judged the same in the longer payload. -/
theorem imageFinding_sublist (h : p.Extends q) :
    (imageFinding settings p).Sublist (imageFinding settings q) := by
  cases hget : p.get? "image" with
  | none =>
    rw [imageFinding_of_absent hget]
    exact List.nil_sublist _
  | some v =>
    have htext : imageText p = imageText q := by
      unfold imageText
      rw [hget, h "image" v hget]
    rw [imageFinding, imageFinding, htext]

/-- The default count is no finding, unless the threshold is below it. -/
theorem replicaFinding_sublist (hthreshold : 1 ≤ settings.maxReplicasThreshold)
    (h : p.Extends q) {m n : Int} (hm : replicasOf p = .ok m) (hn : replicasOf q = .ok n) :
    (replicaFinding settings m).Sublist (replicaFinding settings n) := by
  cases hget : p.get? "replicas" with
  | none =>
    have hone : m = 1 := by
      unfold replicasOf at hm
      rw [hget] at hm
      exact (Except.ok.inj hm).symm
    rw [replicaFinding, if_neg (by omega)]
    exact List.nil_sublist _
  | some v =>
    have hsame : m = n := by
      unfold replicasOf at hm hn
      rw [hget] at hm
      rw [h "replicas" v hget, hm] at hn
      exact Except.ok.inj hn
    rw [hsame]

/-- **Findings under further keys**: none is lost. -/
theorem findings_sublist (hthreshold : 1 ≤ settings.maxReplicasThreshold) (h : p.Extends q)
    {m n : Int} (hm : replicasOf p = .ok m) (hn : replicasOf q = .ok n) :
    (findings settings p m).Sublist (findings settings q n) := by
  unfold findings
  apply List.Sublist.append
  · apply List.Sublist.append
    · exact List.Sublist.flatMap_right _ fun field _ => fieldFinding_sublist h field
    · exact imageFinding_sublist h
  · exact replicaFinding_sublist hthreshold h hm hn

/-- A payload that is inspected is still inspected when it grows. -/
theorem payloadFindings_sublist (hthreshold : 1 ≤ settings.maxReplicasThreshold)
    (h : p.Extends q) {action : String} {f g : List Finding}
    (hp : PayloadFindings settings action p f) (hq : PayloadFindings settings action q g) :
    f.Sublist g := by
  cases hp with
  | skipped _ => exact List.nil_sublist _
  | inspected hinspects hm =>
    cases hq with
    | skipped hskip => exact absurd ⟨h.entries_ne_nil hinspects.1, hinspects.2⟩ hskip
    | inspected _ hn => exact findings_sublist hthreshold h hm hn

/-! ## The order of the keys -/

/-- The order of the keys does not matter to an inspection. -/
theorem scoreParams_of_perm (h : p.entries.Perm q.entries) (reasons : List String)
    (bucket : Int) :
    scoreParams settings p reasons bucket = scoreParams settings q reasons bucket := by
  have hget : p.get? = q.get? := funext (OrderedDict.get?_of_perm h)
  have hreplicas : replicasOf p = replicasOf q := by
    unfold replicasOf
    rw [hget]
  have hfindings : ∀ replicas, findings settings p replicas = findings settings q replicas := by
    intro replicas
    unfold findings imageFinding imageText fieldFinding
    rw [hget]
  rw [scoreParams_eq, scoreParams_eq, hreplicas]
  simp only [hfindings]

/-- An absent payload is scored like an empty one. -/
theorem score_getD (action resource namespace_ : String) (params : Option JsonDict) :
    score settings action resource namespace_ params =
      score settings action resource namespace_ (some (params.getD .empty)) := by
  cases params with
  | some p => rfl
  | none => exact (score_of_skipped fun h => h.1 rfl).symm

/-- The order of the keys does not matter to a score. -/
theorem score_of_perm (h : p.entries.Perm q.entries) (action resource namespace_ : String) :
    score settings action resource namespace_ (some p) =
      score settings action resource namespace_ (some q) := by
  have hempty : p.entries = [] ↔ q.entries = [] := by
    rw [← List.length_eq_zero_iff, ← List.length_eq_zero_iff, h.length_eq]
  by_cases hinspects : Inspects (normalise action resource namespace_).action p
  · have hentries : q.entries ≠ [] := fun hq => hinspects.1 (hempty.mpr hq)
    rw [score_of_write hinspects.2 hinspects.1, score_of_write hinspects.2 hentries,
      scoreParams_of_perm h]
  · have hskip : ¬ Inspects (normalise action resource namespace_).action q :=
      fun hq => hinspects ⟨fun hp => hq.1 (hempty.mp hp), hq.2⟩
    rw [score_of_skipped hinspects, score_of_skipped hskip]

end Payload

/-! ## Padding -/

/-- **Padded payloads**: under a replica threshold of at least one, further keys lower
    neither the score nor the level and take nothing out of the high band; under any
    threshold, the order of the keys changes nothing at all. -/
theorem score_mono [CharTables] (settings : Settings) (action resource namespace_ : String)
    (p q : Option JsonDict) :
    (1 ≤ settings.maxReplicasThreshold → (p.getD .empty).Extends (q.getD .empty) →
      ∀ rsp rsq,
        score settings action resource namespace_ p = .ok rsp →
        score settings action resource namespace_ q = .ok rsq →
        rsp.score ≤ rsq.score ∧ rsp.level.rank ≤ rsq.level.rank ∧
          (rsp.level = .high → rsq.level = .high)) ∧
      ((p.getD .empty).entries.Perm (q.getD .empty).entries →
        score settings action resource namespace_ p =
          score settings action resource namespace_ q) := by
  constructor
  · -- Further keys: the findings of `p` are among those of `q`.
    intro hthreshold hextends rsp rsq hp hq
    obtain ⟨f, hf, -, hscorep, hlevelp⟩ := score_findings hp
    obtain ⟨g, hg, -, hscoreq, hlevelq⟩ := score_findings hq
    have hpayload : pointsOf f ≤ pointsOf g :=
      pointsOf_le_of_sublist (payloadFindings_sublist hthreshold hextends hf hg)
        (hg.forall_mem (findings_pos settings _))
    rw [pointsOf_append] at hscorep hscoreq
    have hle : rsp.score ≤ rsq.score := by omega
    refine ⟨hle, ?_, ?_⟩
    · rw [hlevelp, hlevelq]
      exact rank_classify_mono hle
    · rw [hlevelp, hlevelq, (classify_iff _).2.2, (classify_iff _).2.2]
      intro hhigh
      omega
  · -- The order of the keys: whatever the threshold is.
    intro hperm
    rw [score_getD action resource namespace_ p, score_getD action resource namespace_ q]
    exact score_of_perm hperm action resource namespace_

section Example

attribute [local instance] asciiTables

/-- The payload `{"name": "web"}`. -/
def shortParams : JsonDict := .ofEntries [("name", .str "web")]

/-- The payload `{"name": "web", "replicas": 0}`. -/
def paddedParams : JsonDict := .ofEntries [("name", .str "web"), ("replicas", .int 0)]

theorem shortParams_extends : shortParams.Extends paddedParams := by
  intro k v h
  have hmem := OrderedDict.mem_of_get? h
  obtain ⟨rfl, rfl⟩ : k = "name" ∧ v = .str "web" := by
    simpa [shortParams, OrderedDict.ofEntries, OrderedDict.set, OrderedDict.setEntries,
      OrderedDict.empty] using hmem
  rfl

/-- Under the default settings the longer payload scores no less. -/
theorem score_mono_paddedParams :
    1 ≤ Settings.default.maxReplicasThreshold ∧ shortParams.Extends paddedParams ∧
      ∃ rsp rsq, score .default "create" "deployments" "default" (some shortParams) = .ok rsp ∧
        score .default "create" "deployments" "default" (some paddedParams) = .ok rsq ∧
        rsp.score ≤ rsq.score := by
  obtain ⟨rsp, hrsp⟩ : ∃ rs, score .default "create" "deployments" "default"
      (some shortParams) = .ok rs := ⟨_, rfl⟩
  obtain ⟨rsq, hrsq⟩ : ∃ rs, score .default "create" "deployments" "default"
      (some paddedParams) = .ok rs := ⟨_, rfl⟩
  have hthreshold : 1 ≤ Settings.default.maxReplicasThreshold := by decide
  have hmono := score_mono .default "create" "deployments" "default" (some shortParams)
    (some paddedParams)
  exact ⟨hthreshold, shortParams_extends, rsp, rsq, hrsp, hrsq,
    (hmono.1 hthreshold shortParams_extends rsp rsq hrsp hrsq).1⟩

/-- Settings under which the default count of one replica is one too many. -/
def noReplicas : Settings := { Settings.default with maxReplicasThreshold := 0 }

/-- Under a threshold of zero, asking for no replicas lowers the score. -/
theorem score_lowered_by_padding :
    ¬ ∀ (settings : Settings) (action resource namespace_ : String) (p q : Option JsonDict),
      (p.getD .empty).Extends (q.getD .empty) → ∀ rsp rsq,
        score settings action resource namespace_ p = .ok rsp →
        score settings action resource namespace_ q = .ok rsq → rsp.score ≤ rsq.score := by
  intro h
  obtain ⟨rsp, hrsp, htwo⟩ : ∃ rs, score noReplicas "create" "deployments" "default"
      (some shortParams) = .ok rs ∧ rs.score = 2 := ⟨_, rfl, rfl⟩
  obtain ⟨rsq, hrsq, hone⟩ : ∃ rs, score noReplicas "create" "deployments" "default"
      (some paddedParams) = .ok rs ∧ rs.score = 1 := ⟨_, rfl, rfl⟩
  have hle := h noReplicas "create" "deployments" "default" (some shortParams)
    (some paddedParams) shortParams_extends rsp rsq hrsp hrsq
  omega

end Example

end AiK8sGateway.Risk
