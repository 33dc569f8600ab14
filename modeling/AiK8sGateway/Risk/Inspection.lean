import AiK8sGateway.Risk.Scorer

/-!
# Payload Inspection

`_score_params` as the list of its findings, each a line of explanation with its points,
and what the inspection makes of values that are not what a field should hold.

## Main results

- `scoreParams_eq`: the reasons and the points of an inspection are those of its findings.
- `score_le`: the range of the score.
- `scoreParams_fires_iff`: points are added exactly if something was found.
- `scoresAnyway_iff`: scoring survives every payload but an infinite replica count that is
  inspected.
-/

namespace AiK8sGateway.Risk

open Foundations PythonText

/-! ## Findings -/

/-- A line of explanation with its points. -/
abbrev Finding := String × Int

/-- The lines of a list of findings. -/
def reasonsOf (findings : List Finding) : List String := findings.map Prod.fst

/-- The points of a list of findings. -/
def pointsOf (findings : List Finding) : Int := (findings.map Prod.snd).sum

@[simp] theorem reasonsOf_append (f g : List Finding) :
    reasonsOf (f ++ g) = reasonsOf f ++ reasonsOf g := List.map_append

@[simp] theorem pointsOf_append (f g : List Finding) :
    pointsOf (f ++ g) = pointsOf f + pointsOf g := by
  simp [pointsOf]

@[simp] theorem reasonsOf_nil : reasonsOf [] = [] := rfl

@[simp] theorem pointsOf_nil : pointsOf [] = 0 := rfl

@[simp] theorem reasonsOf_cons (reason : String) (points : Int) (f : List Finding) :
    reasonsOf ((reason, points) :: f) = reason :: reasonsOf f := rfl

@[simp] theorem pointsOf_cons (reason : String) (points : Int) (f : List Finding) :
    pointsOf ((reason, points) :: f) = points + pointsOf f := rfl

/-- Findings that each add something add something together, if there are any. -/
theorem pointsOf_pos_iff {findings : List Finding} (h : ∀ f ∈ findings, 0 < f.2) :
    0 < pointsOf findings ↔ findings ≠ [] := by
  induction findings with
  | nil => simp
  | cons f rest ih =>
    have hfirst := h f (List.mem_cons_self ..)
    have hrest : 0 ≤ pointsOf rest := by
      by_cases hnil : rest = []
      · rw [hnil, pointsOf_nil]
      · exact le_of_lt ((ih fun g hg => h g (List.mem_cons_of_mem _ hg)).mpr hnil)
    rw [pointsOf_cons f.1 f.2 rest]
    simp only [ne_eq, reduceCtorEq, not_false_eq_true, iff_true]
    omega

section Payload

variable [CharTables] (settings : Settings)

/-- The finding of a field of `PRIVILEGED_FIELDS`. -/
def fieldFinding (params : JsonDict) (field : String × Int) : List Finding :=
  match params.get? field.1 with
  | some (.bool true) =>
    [("params." ++ field.1 ++ "=true grants host-level access -> +" ++ toString field.2, field.2)]
  | _ => []

/-- The text that the image check looks at. -/
def imageText (params : JsonDict) : String := strip ((params.get? "image").getD (.str "")).toStr

/-- The finding of the image trust check. -/
def imageFinding (params : JsonDict) : List Finding :=
  if imageText params ≠ "" ∧ isTrustedImage settings (imageText params) = false then
    [("image '" ++ imageText params ++ "' is not from a trusted registry (trusted prefixes: "
      ++ reprStrings settings.trustedImagePrefixes ++ ") -> +1", 1)]
  else []

/-- The finding of the replica check, for the count that is read. -/
def replicaFinding (replicas : Int) : List Finding :=
  if replicas > settings.maxReplicasThreshold then
    [("replicas=" ++ toString replicas ++ " exceeds gateway threshold of "
      ++ toString settings.maxReplicasThreshold ++ " -> +1", 1)]
  else []

/-- All findings, in the order of the checks. -/
def findings (params : JsonDict) (replicas : Int) : List Finding :=
  privilegedFields.flatMap (fieldFinding params) ++ imageFinding settings params ++
    replicaFinding settings replicas

/-! ## An inspection is its findings -/

omit [CharTables] in
theorem inspectField_eq (params : JsonDict) (acc : List String × Int) (field : String × Int) :
    inspectField params acc field =
      (acc.1 ++ reasonsOf (fieldFinding params field),
        acc.2 + pointsOf (fieldFinding params field)) := by
  unfold inspectField fieldFinding
  cases params.get? field.1 with
  | none => simp
  | some v =>
    cases v with
    | bool b => cases b <;> simp
    | _ => simp

omit [CharTables] in
/-- The loop over the privileged fields. -/
theorem foldl_inspectField_eq (params : JsonDict) (fields : List (String × Int))
    (acc : List String × Int) :
    fields.foldl (inspectField params) acc =
      (acc.1 ++ reasonsOf (fields.flatMap (fieldFinding params)),
        acc.2 + pointsOf (fields.flatMap (fieldFinding params))) := by
  induction fields generalizing acc with
  | nil => simp
  | cons field fields ih =>
    rw [List.foldl_cons, ih, inspectField_eq, List.flatMap_cons, reasonsOf_append,
      pointsOf_append, List.append_assoc, add_assoc]

theorem inspectImage_eq (params : JsonDict) (acc : List String × Int) :
    inspectImage settings params acc =
      (acc.1 ++ reasonsOf (imageFinding settings params),
        acc.2 + pointsOf (imageFinding settings params)) := by
  unfold inspectImage imageFinding imageText
  dsimp only
  split <;> simp

/-- **Findings**: an inspection that reads the replica count adds the reasons and the
    points of its findings. -/
theorem scoreParams_eq (params : JsonDict) (reasons : List String) (bucket : Int) :
    scoreParams settings params reasons bucket =
      (replicasOf params).map fun replicas =>
        (reasons ++ reasonsOf (findings settings params replicas),
          bucket + pointsOf (findings settings params replicas)) := by
  unfold scoreParams
  dsimp only
  rw [foldl_inspectField_eq, inspectImage_eq]
  cases replicasOf params with
  | error e => rfl
  | ok replicas =>
    simp only [bind, Except.bind, pure, Except.pure, Except.map, findings, replicaFinding,
      reasonsOf_append, pointsOf_append]
    split <;> simp [List.append_assoc, add_assoc]

omit [CharTables] in
theorem pointsOf_fieldFinding_le (params : JsonDict) {field : String × Int} (h : 0 ≤ field.2) :
    pointsOf (fieldFinding params field) ≤ field.2 := by
  unfold fieldFinding
  split
  · simp
  · exact h

/-- All that an inspection can find adds thirteen points at most. -/
theorem pointsOf_findings_le (params : JsonDict) (replicas : Int) :
    pointsOf (findings settings params replicas) ≤ 13 := by
  -- Each field adds its own points at most.
  have hfields : ∀ fields : List (String × Int), (∀ field ∈ fields, 0 ≤ field.2) →
      pointsOf (fields.flatMap (fieldFinding params)) ≤ (fields.map Prod.snd).sum := by
    intro fields hfields
    induction fields with
    | nil => simp
    | cons field fields ih =>
      have hfirst := pointsOf_fieldFinding_le params (hfields field (List.mem_cons_self ..))
      have hrest := ih fun f hf => hfields f (List.mem_cons_of_mem _ hf)
      rw [List.flatMap_cons, pointsOf_append, List.map_cons, List.sum_cons]
      omega
  have hprivileged := hfields privilegedFields (by decide)
  have hsum : (privilegedFields.map Prod.snd).sum = 11 := by decide
  have himage : pointsOf (imageFinding settings params) ≤ 1 := by
    unfold imageFinding
    split <;> simp
  have hreplicas : pointsOf (replicaFinding settings replicas) ≤ 1 := by
    unfold replicaFinding
    split <;> simp
  rw [findings, pointsOf_append, pointsOf_append]
  omega

/-- Every finding adds points. -/
theorem findings_pos (params : JsonDict) (replicas : Int) :
    ∀ f ∈ findings settings params replicas, 0 < f.2 := by
  have hweights : ∀ field ∈ privilegedFields, 0 < field.2 := by decide
  intro f hf
  simp only [findings, imageFinding, replicaFinding, List.mem_append, List.mem_flatMap,
    List.mem_ite_nil_right, List.mem_singleton] at hf
  rcases hf with (⟨field, hfield, hf⟩ | ⟨-, rfl⟩) | ⟨-, rfl⟩
  · unfold fieldFinding at hf
    split at hf
    · rw [List.mem_singleton.mp hf]
      exact hweights field hfield
    · cases hf
  · exact Int.one_pos
  · exact Int.one_pos

/-- **Points and findings**: an inspection adds points exactly if it found something. -/
theorem scoreParams_fires_iff {params : JsonDict} {replicas : Int}
    (hreplicas : replicasOf params = .ok replicas) (reasons : List String) (bucket : Int) :
    (∃ acc, scoreParams settings params reasons bucket = .ok acc ∧ bucket < acc.2) ↔
      findings settings params replicas ≠ [] := by
  rw [scoreParams_eq, hreplicas, ← pointsOf_pos_iff (findings_pos settings params replicas)]
  constructor
  · rintro ⟨acc, hacc, hlt⟩
    rw [← Except.ok.inj hacc] at hlt
    dsimp only at hlt
    omega
  · intro hpos
    exact ⟨_, rfl, Int.lt_add_of_pos_right _ hpos⟩

variable {settings} in
/-- **Range**: no score is above eighteen. -/
theorem score_le {action resource namespace_ : String} {params : Option JsonDict} {rs : RiskScore}
    (h : score settings action resource namespace_ params = .ok rs) : rs.score ≤ 18 := by
  have htarget := scoreTarget_le (normalise action resource namespace_)
  obtain ⟨acc, hacc, rfl⟩ := score_ok h
  have hbucket : acc.2 ≤ 13 := by
    generalize (scoreTarget (normalise action resource namespace_)).1 = reasons at hacc
    rcases hacc with rfl | ⟨p, -, hparams⟩
    · simp
    · rw [scoreParams_eq] at hparams
      cases hreplicas : replicasOf p with
      | error e =>
        rw [hreplicas] at hparams
        cases hparams
      | ok replicas =>
        rw [hreplicas, Except.map, Except.ok.injEq] at hparams
        have hle := pointsOf_findings_le settings p replicas
        rw [← hparams]
        dsimp only
        omega
  dsimp only
  omega

end Payload

/-! ## Malformed payloads -/

section Malformed

variable [CharTables] {settings : Settings}

/-- The replica count in the payload, one by default. -/
def replicasValue (params : JsonDict) : Json := (params.get? "replicas").getD (.int 1)

/-- The replica count is an infinity. -/
def InfiniteReplicas (params : JsonDict) : Prop :=
  ∃ neg, params.get? "replicas" = some (.float (.inf neg))

omit [CharTables] in
theorem infiniteReplicas_iff (params : JsonDict) :
    InfiniteReplicas params ↔ ∃ neg, replicasValue params = .float (.inf neg) := by
  unfold InfiniteReplicas replicasValue
  cases params.get? "replicas" <;> simp

/-- What is no integer counts as one, except for an infinity. -/
theorem replicasOf_of_error {params : JsonDict} {e : BuiltinError}
    (he : pyInt (replicasValue params) = .error e) (hfinite : ¬ InfiniteReplicas params) :
    replicasOf params = .ok 1 := by
  unfold replicasOf
  rw [show pyInt ((params.get? "replicas").getD (.int 1)) = .error e from he]
  -- The handler of the conversion catches the first two classes only.
  rcases pyInt_error he with ⟨msg, rfl⟩ | ⟨msg, rfl⟩ | ⟨hinf, -⟩
  · rfl
  · rfl
  · exact absurd ((infiniteReplicas_iff params).mpr hinf) hfinite

/-- The replica count is read unless it is an infinity. -/
theorem replicasOf_ok_iff (params : JsonDict) :
    (∃ replicas, replicasOf params = .ok replicas) ↔ ¬ InfiniteReplicas params := by
  constructor
  · rintro ⟨replicas, hreplicas⟩ ⟨neg, hneg⟩
    simp [replicasOf, hneg, pyInt] at hreplicas
  · intro hfinite
    cases hint : pyInt (replicasValue params) with
    | error e => exact ⟨1, replicasOf_of_error hint hfinite⟩
    | ok n =>
      refine ⟨n, ?_⟩
      unfold replicasOf
      rw [show pyInt ((params.get? "replicas").getD (.int 1)) = .ok n from hint]

/-- An inspection returns exactly if it can read the replica count. -/
theorem scoreParams_ok_iff (params : JsonDict) (reasons : List String) (bucket : Int) :
    (∃ acc, scoreParams settings params reasons bucket = .ok acc) ↔ ¬ InfiniteReplicas params := by
  rw [← replicasOf_ok_iff, scoreParams_eq]
  cases replicasOf params with
  | error e => simp [Except.map]
  | ok replicas => simp [Except.map]

/-- Assigning to another key changes nothing that a check of a field reads. -/
theorem findings_set_replicas (params : JsonDict) (v : Json) (replicas : Int) :
    findings settings (params.set "replicas" v) replicas = findings settings params replicas := by
  have hget : ∀ key, key ≠ "replicas" → (params.set "replicas" v).get? key = params.get? key := by
    intro key hkey
    rw [OrderedDict.get?_set, if_neg hkey]
  have hfields : privilegedFields.flatMap (fieldFinding (params.set "replicas" v)) =
      privilegedFields.flatMap (fieldFinding params) := by
    have hne : ∀ field ∈ privilegedFields, field.1 ≠ "replicas" := by decide
    apply List.flatMap_congr
    intro field hfield
    unfold fieldFinding
    rw [hget field.1 (hne field hfield)]
  have himage : imageText (params.set "replicas" v) = imageText params := by
    unfold imageText
    rw [hget "image" (by decide)]
  simp only [findings, imageFinding, hfields, himage]

/-- What `int` refuses is inspected as the count one. -/
theorem scoreParams_of_error {params : JsonDict} {e : BuiltinError}
    (he : pyInt (replicasValue params) = .error e) (hfinite : ¬ InfiniteReplicas params)
    (reasons : List String) (bucket : Int) :
    scoreParams settings params reasons bucket =
      scoreParams settings (params.set "replicas" (.int 1)) reasons bucket := by
  have hset : replicasOf (params.set "replicas" (.int 1)) = .ok 1 := by
    unfold replicasOf
    rw [OrderedDict.get?_set, if_pos rfl]
    rfl
  rw [scoreParams_eq, scoreParams_eq, replicasOf_of_error he hfinite, hset]
  simp only [Except.map, findings_set_replicas]

/-! ## Scoring a malformed payload -/

/-- Scoring the payload returns, and a replica count that is no integer counts as one. -/
structure ScoresAnyway (settings : Settings) (action resource namespace_ : String)
    (params : JsonDict) : Prop where
  returns : ∃ rs, score settings action resource namespace_ (some params) = .ok rs
  counted : ∀ e, pyInt (replicasValue params) = .error e →
    score settings action resource namespace_ (some params) =
      score settings action resource namespace_ (some (params.set "replicas" (.int 1)))

/-- The payload is scored by its inspection if the verb takes one. -/
theorem score_of_write {action resource namespace_ : String} {params : JsonDict}
    (hwrite : (normalise action resource namespace_).action ∈ writeVerbs)
    (hentries : params.entries ≠ []) :
    score settings action resource namespace_ (some params) =
      (scoreParams settings params (scoreTarget (normalise action resource namespace_)).1 0).map
        fun acc =>
          ⟨classify ((scoreTarget (normalise action resource namespace_)).2 + acc.2),
            (scoreTarget (normalise action resource namespace_)).2 + acc.2, acc.1⟩ := by
  unfold score
  dsimp only
  rw [if_pos ⟨hentries, hwrite⟩]
  cases scoreParams settings params _ 0 <;> rfl

/-- The payload is not looked at otherwise. -/
theorem score_of_not_write {action resource namespace_ : String}
    (hwrite : (normalise action resource namespace_).action ∉ writeVerbs) (params : JsonDict) :
    score settings action resource namespace_ (some params) =
      score settings action resource namespace_ none := by
  unfold score
  dsimp only
  rw [if_neg (fun h => hwrite h.2)]

/-- Scoring fails where an infinite count is inspected. -/
theorem not_scored_of_infinite {action resource namespace_ : String} {params : JsonDict}
    (hwrite : (normalise action resource namespace_).action ∈ writeVerbs)
    (hinf : InfiniteReplicas params) :
    ¬ ∃ rs, score settings action resource namespace_ (some params) = .ok rs := by
  rintro ⟨rs, hrs⟩
  obtain ⟨neg, hneg⟩ := hinf
  have hfails : ¬ ∃ acc, scoreParams settings params
      (scoreTarget (normalise action resource namespace_)).1 0 = .ok acc := by
    rw [scoreParams_ok_iff, not_not]
    exact ⟨neg, hneg⟩
  rw [score_of_write hwrite (OrderedDict.entries_ne_nil_of_get? hneg)] at hrs
  cases hinspect : scoreParams settings params
      (scoreTarget (normalise action resource namespace_)).1 0 with
  | ok acc => exact hfails ⟨acc, hinspect⟩
  | error e =>
    rw [hinspect] at hrs
    cases hrs

/-- Scoring returns where a finite count is inspected. -/
theorem scored_of_finite {action resource namespace_ : String} {params : JsonDict}
    (hwrite : (normalise action resource namespace_).action ∈ writeVerbs)
    (hfinite : ¬ InfiniteReplicas params) :
    ∃ rs, score settings action resource namespace_ (some params) = .ok rs := by
  by_cases hentries : params.entries = []
  · -- An empty payload is not inspected.
    unfold score
    dsimp only
    rw [if_neg (fun h => h.1 hentries)]
    exact ⟨_, rfl⟩
  · obtain ⟨acc, hacc⟩ : ∃ acc, scoreParams settings params
        (scoreTarget (normalise action resource namespace_)).1 0 = .ok acc :=
      (scoreParams_ok_iff ..).mpr hfinite
    rw [score_of_write hwrite hentries, hacc]
    exact ⟨_, rfl⟩

/-- **Malformed payloads**: scoring survives every payload, except where a write verb
    comes with an infinite replica count. -/
theorem scoresAnyway_iff (settings : Settings) (action resource namespace_ : String)
    (params : JsonDict) :
    ScoresAnyway settings action resource namespace_ params ↔
      ¬ ((normalise action resource namespace_).action ∈ writeVerbs ∧
        InfiniteReplicas params) := by
  constructor
  · rintro ⟨hreturns, -⟩ ⟨hwrite, hinf⟩
    exact not_scored_of_infinite hwrite hinf hreturns
  · intro hread
    by_cases hwrite : (normalise action resource namespace_).action ∈ writeVerbs
    · -- A write verb: the payload is inspected, and the default stands in for the count.
      have hfinite : ¬ InfiniteReplicas params := fun hinf => hread ⟨hwrite, hinf⟩
      refine ⟨scored_of_finite hwrite hfinite, fun e he => ?_⟩
      have hentries : params.entries ≠ [] := by
        cases hget : params.get? "replicas" with
        | some v => exact OrderedDict.entries_ne_nil_of_get? hget
        | none =>
          -- The default is an integer.
          rw [replicasValue, hget] at he
          cases he
      rw [score_of_write hwrite hentries,
        score_of_write hwrite (OrderedDict.entries_set_ne_nil params "replicas" (.int 1)),
        scoreParams_of_error he hfinite]
    · -- Any other verb: the payload is not looked at.
      refine ⟨?_, fun e _ => ?_⟩
      · rw [score_of_not_write hwrite]
        exact ⟨_, rfl⟩
      · rw [score_of_not_write hwrite, score_of_not_write hwrite]

end Malformed

section Example

attribute [local instance] asciiTables

/-- The payload `{"replicas": 1e999}`. -/
def overflowingParams : JsonDict := .ofEntries [("replicas", .float (.inf false))]

/-- Not every payload can be scored. -/
theorem scores_no_overflowingParams :
    ¬ ∀ action resource namespace_ params,
      ScoresAnyway .default action resource namespace_ params := by
  intro h
  have hreturns := (h "create" "deployments" "default" overflowingParams).returns
  exact not_scored_of_infinite (by decide) ⟨false, rfl⟩ hreturns

end Example

end AiK8sGateway.Risk
