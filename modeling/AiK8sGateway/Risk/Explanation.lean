import AiK8sGateway.Risk.Inspection

/-!
# Explained Scores

The score and its lines of explanation are accumulated side by side.  Here both are
computed from one list of findings, and each finding is shown to name its own points at
the end of its line, whatever text of the caller stands before them.

## Main results

- `score_findings`: a score is the sum of its findings, and its reasons are their lines.
- `pointsIn_line`: the points are read after the last `+`, whatever stands before it.
- `score_explained`: the points in the reasons sum to the score, and the level is the
  band of the sum.
-/

namespace AiK8sGateway.Risk

open Foundations PythonText

/-! ## The findings of a score -/

/-- The findings about verb, namespace and resource. -/
def targetFindings (t : Target) : List Finding :=
  let actionPts := (actionWeights.lookup t.action).getD 1
  [("action '" ++ t.action ++ "' -> +" ++ toString actionPts, actionPts)] ++
    (if t.namespace ∈ highRiskNamespaces then
      [("namespace '" ++ t.namespace ++ "' is a privileged system namespace -> +2", 2)]
    else []) ++
    (if t.resource ∈ sensitiveResources then
      [("resource '" ++ t.resource ++ "' stores credentials or RBAC grants -> +1", 1)]
    else [])

theorem scoreTarget_eq (t : Target) :
    scoreTarget t = (reasonsOf (targetFindings t), pointsOf (targetFindings t)) := by
  unfold scoreTarget targetFindings
  dsimp only
  split_ifs <;> simp [add_assoc]

section Findings

variable [CharTables] {settings : Settings} {action resource namespace_ : String}
  {params : Option JsonDict} {rs : RiskScore}

/-- The payload is inspected: it is not empty, and the verb takes one. -/
def Inspects (action : String) (params : JsonDict) : Prop :=
  params.entries ≠ [] ∧ action ∈ writeVerbs

/-- The findings about a payload, for a score that returned. -/
inductive PayloadFindings (settings : Settings) (action : String) (params : JsonDict) :
    List Finding → Prop where
  | skipped (h : ¬ Inspects action params) : PayloadFindings settings action params []
  | inspected (h : Inspects action params) {replicas : Int}
      (hreplicas : replicasOf params = .ok replicas) :
      PayloadFindings settings action params (findings settings params replicas)

/-- What holds of all that an inspection can find holds of the findings of a payload. -/
theorem PayloadFindings.forall_mem {P : Finding → Prop} {payload : JsonDict}
    {fs : List Finding} (h : PayloadFindings settings action payload fs)
    (hall : ∀ replicas, ∀ f ∈ findings settings payload replicas, P f) : ∀ f ∈ fs, P f := by
  cases h with
  | skipped _ =>
    intro f hf
    cases hf
  | inspected _ _ => exact hall _

/-- A payload that is not inspected is scored like none. -/
theorem score_of_skipped {p : JsonDict}
    (hskip : ¬ Inspects (normalise action resource namespace_).action p) :
    score settings action resource namespace_ (some p) =
      score settings action resource namespace_ none := by
  unfold Inspects at hskip
  unfold score
  dsimp only
  rw [if_neg hskip]

/-- Without a payload only the target is scored. -/
theorem score_none :
    score settings action resource namespace_ none =
      .ok ⟨classify (scoreTarget (normalise action resource namespace_)).2,
        (scoreTarget (normalise action resource namespace_)).2,
        (scoreTarget (normalise action resource namespace_)).1⟩ := by
  unfold score
  dsimp only
  generalize scoreTarget (normalise action resource namespace_) = target
  rw [pure_bind, add_zero]
  rfl

/-- **Findings of a score**: the points are those of the target and the payload, and so
    are the reasons.  An absent payload counts as an empty one. -/
theorem score_findings (h : score settings action resource namespace_ params = .ok rs) :
    ∃ payload, PayloadFindings settings (normalise action resource namespace_).action
        (params.getD .empty) payload ∧
      rs.reasons =
        reasonsOf (targetFindings (normalise action resource namespace_) ++ payload) ∧
      rs.score = pointsOf (targetFindings (normalise action resource namespace_) ++ payload) ∧
      rs.level = classify rs.score := by
  have htarget := scoreTarget_eq (normalise action resource namespace_)
  by_cases hinspects : Inspects (normalise action resource namespace_).action (params.getD .empty)
  · -- The payload is inspected.
    obtain ⟨hentries, hwrite⟩ := hinspects
    cases params with
    | none => exact absurd rfl hentries
    | some p =>
      rw [Option.getD_some] at hentries ⊢
      rw [score_of_write hwrite hentries, scoreParams_eq, htarget] at h
      cases hreplicas : replicasOf p with
      | error e =>
        rw [hreplicas] at h
        cases h
      | ok replicas =>
        simp only [hreplicas, Except.map, Except.ok.injEq] at h
        subst h
        refine ⟨_, .inspected ⟨hentries, hwrite⟩ hreplicas, ?_, ?_, ?_⟩
        · simp
        · simp
        · dsimp only
  · -- The payload is skipped, as if there were none.
    have hscore : score settings action resource namespace_ none = .ok rs := by
      cases params with
      | none => exact h
      | some p =>
        rw [Option.getD_some] at hinspects
        rwa [score_of_skipped hinspects] at h
    simp only [score_none, htarget, Except.ok.injEq] at hscore
    subst hscore
    refine ⟨[], .skipped hinspects, ?_, ?_, ?_⟩
    · simp
    · simp
    · dsimp only

end Findings

/-! ## Points in a line -/

section Lines

variable [CharTables]

/-- The integer after the last `+` of a line. -/
def pointsIn (line : String) : Except BuiltinError Int :=
  intOfStr (String.ofList (line.toList.rtakeWhile (· ≠ '+')))

omit [CharTables] in
/-- What stands before a `+` does not matter. -/
theorem rtakeWhile_append_cons {cs ds : List Char} (hds : '+' ∉ ds) :
    (cs ++ '+' :: ds).rtakeWhile (· ≠ '+') = ds := by
  have hall : ∀ c ∈ ds.reverse, decide (c ≠ '+') = true := by
    intro c hc
    have hmem : c ∈ ds := List.mem_reverse.mp hc
    simpa using fun heq : c = '+' => hds (heq ▸ hmem)
  rw [List.rtakeWhile, List.reverse_append, List.reverse_cons, List.append_assoc,
    List.takeWhile_append_of_pos hall]
  simp

/-- One digit is read as its value. -/
theorem intOfStr_digit {c : Char} (hc : c ∈ ['0', '1', '2', '3']) :
    intOfStr (String.ofList [c]) = .ok ((c.toNat - '0'.toNat : Nat) : Int) := by
  have hdecimal : CharTables.toDecimal c = some (c.toNat - '0'.toNat) := by
    have hascii : ['0', '1', '2', '3'].all isAscii = true := by decide
    have hdigit : ['0', '1', '2', '3'].all Char.isDigit = true := by decide
    rw [CharTables.toDecimal_ascii c (List.all_eq_true.mp hascii c hc),
      if_pos (List.all_eq_true.mp hdigit c hc)]
  have hspace : isIntSpace c = false := by
    have hnone : ['0', '1', '2', '3'].all (fun c => !isIntSpace c) = true := by decide
    simpa using List.all_eq_true.mp hnone c hc
  have hbody : ([c].dropWhile isIntSpace).rdropWhile isIntSpace = [c] := by
    simp [List.rdropWhile_singleton, hspace]
  unfold intOfStr
  rw [String.toList_ofList, hbody]
  simp only [List.mem_cons, List.not_mem_nil, or_false] at hc
  rcases hc with rfl | rfl | rfl | rfl <;> simp [digitsValue?, hdecimal, maxStrDigits]

/-- The line of a finding ends with a `+` and its points, one digit. -/
def Explains (f : Finding) : Prop :=
  f.2 ∈ ([0, 1, 2, 3] : List Int) ∧ '+' :: (toString f.2).toList <:+ f.1.toList

instance (f : Finding) : Decidable (Explains f) := inferInstanceAs (Decidable (_ ∧ _))

omit [CharTables] in
/-- Text of the caller only ever stands before the end of a line. -/
theorem explains_append {line tail : String} {points : Int} (h : Explains (tail, points)) :
    Explains (line ++ tail, points) := by
  obtain ⟨hpoints, hends⟩ := h
  refine ⟨hpoints, ?_⟩
  rw [String.toList_append]
  exact hends.trans (List.suffix_append _ _)

omit [CharTables] in
/-- Points that are printed after a `+` end the line. -/
theorem explains_toString {tail : String} {points : Int}
    (hpoints : points ∈ ([0, 1, 2, 3] : List Int)) (hplus : ['+'] <:+ tail.toList) :
    Explains (tail ++ toString points, points) := by
  obtain ⟨pre, hpre⟩ := hplus
  refine ⟨hpoints, pre, ?_⟩
  rw [String.toList_append, ← hpre]
  simp

/-- **Points in a line** are read after the last `+`, whatever stands before it. -/
theorem pointsIn_line {f : Finding} (h : Explains f) : pointsIn f.1 = .ok f.2 := by
  obtain ⟨line, points⟩ := f
  obtain ⟨hpoints, pre, hends⟩ := h
  dsimp only at hpoints hends ⊢
  obtain ⟨c, hc, hplus, htext, hvalue⟩ : ∃ c ∈ ['0', '1', '2', '3'], '+' ≠ c ∧
      (toString points).toList = [c] ∧ ((c.toNat - '0'.toNat : Nat) : Int) = points := by
    simp only [List.mem_cons, List.not_mem_nil, or_false] at hpoints
    rcases hpoints with rfl | rfl | rfl | rfl
    · exact ⟨'0', by simp, by decide, by decide, by decide⟩
    · exact ⟨'1', by simp, by decide, by decide, by decide⟩
    · exact ⟨'2', by simp, by decide, by decide, by decide⟩
    · exact ⟨'3', by simp, by decide, by decide, by decide⟩
  have hlast : '+' ∉ [c] := fun hmem => hplus (List.mem_singleton.mp hmem)
  rw [pointsIn, ← hends, htext, rtakeWhile_append_cons hlast, intOfStr_digit hc, hvalue]

omit [CharTables] in
/-- The weight of a verb is one digit, the default's included. -/
theorem actionPts_mem (action : String) :
    (actionWeights.lookup action).getD 1 ∈ ([0, 1, 2, 3] : List Int) := by
  have hweights : ∀ e ∈ actionWeights, e.2 ∈ ([0, 1, 2, 3] : List Int) := by decide
  cases hlookup : actionWeights.lookup action with
  | none => decide
  | some pts =>
    obtain ⟨pre, post, hsplit, -⟩ := List.lookup_eq_some_iff.mp hlookup
    apply hweights (action, pts)
    rw [hsplit]
    exact List.mem_append_right _ (List.mem_cons_self ..)

omit [CharTables] in
theorem targetFindings_explain (t : Target) : ∀ f ∈ targetFindings t, Explains f := by
  intro f hf
  simp only [targetFindings, List.mem_append, List.mem_ite_nil_right, List.mem_singleton] at hf
  rcases hf with (rfl | ⟨-, rfl⟩) | ⟨-, rfl⟩
  · exact explains_toString (actionPts_mem t.action)
      ⟨("action '" ++ t.action ++ "' -> ").toList, by simp⟩
  · exact explains_append (by decide)
  · exact explains_append (by decide)

theorem findings_explain (settings : Settings) (params : JsonDict) (replicas : Int) :
    ∀ f ∈ findings settings params replicas, Explains f := by
  intro f hf
  simp only [findings, imageFinding, replicaFinding, List.mem_append, List.mem_flatMap,
    List.mem_ite_nil_right, List.mem_singleton] at hf
  rcases hf with (⟨field, hfield, hf⟩ | ⟨-, rfl⟩) | ⟨-, rfl⟩
  · unfold fieldFinding at hf
    split at hf
    · rw [List.mem_singleton.mp hf]
      have hweights : ∀ field ∈ privilegedFields, field.2 ∈ ([0, 1, 2, 3] : List Int) := by decide
      exact explains_toString (hweights field hfield)
        ⟨("params." ++ field.1 ++ "=true grants host-level access -> ").toList, by simp⟩
    · cases hf
  · exact explains_append (by decide)
  · exact explains_append (by decide)

/-- The points are read back from the lines one by one. -/
theorem mapM_pointsIn {findings : List Finding} (h : ∀ f ∈ findings, Explains f) :
    (reasonsOf findings).mapM pointsIn = .ok (findings.map Prod.snd) := by
  induction findings with
  | nil => rfl
  | cons f rest ih =>
    have hfirst := pointsIn_line (h f (List.mem_cons_self ..))
    have hrest := ih fun g hg => h g (List.mem_cons_of_mem _ hg)
    unfold reasonsOf at hrest ⊢
    rw [List.map_cons, List.mapM_cons, hfirst, hrest]
    rfl

end Lines

/-! ## The score and its reasons -/

/-- The band of a total, level by level. -/
theorem classify_iff (total : Int) :
    (classify total = .low ↔ total ≤ 1) ∧
      (classify total = .medium ↔ total = 2 ∨ total = 3) ∧
      (classify total = .high ↔ 4 ≤ total) := by
  unfold classify
  split_ifs <;> simp <;> omega

/-- **Explained scores**: the points that the reasons name sum to the score, whatever is
    interpolated into the reasons, and the level is the band of the sum. -/
theorem score_explained [CharTables] {settings : Settings} {action resource namespace_ : String}
    {params : Option JsonDict} {rs : RiskScore}
    (h : score settings action resource namespace_ params = .ok rs) :
    (rs.reasons.mapM pointsIn).map List.sum = .ok rs.score ∧
      (rs.level = .low ↔ rs.score ≤ 1) ∧ (rs.level = .medium ↔ rs.score = 2 ∨ rs.score = 3) ∧
      (rs.level = .high ↔ 4 ≤ rs.score) := by
  obtain ⟨payload, hpayload, hreasons, hscore, hlevel⟩ := score_findings h
  have hexplain : ∀ f ∈ targetFindings (normalise action resource namespace_) ++ payload,
      Explains f := by
    intro f hf
    rcases List.mem_append.mp hf with hf | hf
    · exact targetFindings_explain _ f hf
    · exact hpayload.forall_mem (findings_explain settings _) f hf
  rw [hlevel]
  refine ⟨?_, classify_iff rs.score⟩
  rw [hreasons, mapM_pointsIn hexplain, hscore]
  rfl

section Example

attribute [local instance] asciiTables

/-- The payload `{"image": "evil' -> +9"}`. -/
def boastingParams : JsonDict := .ofEntries [("image", .str "evil' -> +9")]

/-- An image that names points of its own does not change the sum. -/
theorem score_explained_boastingParams :
    ∃ rs, score .default "create" "deployments" "default" (some boastingParams) = .ok rs ∧
      (rs.reasons.mapM pointsIn).map List.sum = .ok rs.score := by
  obtain ⟨rs, hrs⟩ : ∃ rs, score .default "create" "deployments" "default"
      (some boastingParams) = .ok rs := ⟨_, rfl⟩
  exact ⟨rs, hrs, (score_explained hrs).1⟩

end Example

end AiK8sGateway.Risk
