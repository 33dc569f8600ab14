import AiK8sGateway.Policies.AgentActions

/-!
# Admission Templates

`k8s/gatekeeper`: the three constraint templates and the constraints that apply them to
Pods.  An argument `object` is `input.review.object`, the Pod under review as JSON.  A
violation rule is the list of its messages, one item for every binding of its variables.

A message mentions the container by its name, so a container without one raises no
violation at all.

## Main results

- `noPrivileged_eq_nil_iff`, `allowedRepos_eq_nil_iff`, `requireLimits_eq_nil_iff`: what a
  Pod without violations of a template looks like.
- `admitted_covered_iff`: when an admitted Pod is covered in all of its containers.
-/

namespace AiK8sGateway.K8s.Gatekeeper

open Foundations Rego
open Policies.AgentActions (sprintf₁)

/-! ## Constraint parameters -/

/-- The namespaces that every constraint excludes. -/
def excludedNamespaces : List String :=
  ["kube-system", "kube-public", "kube-node-lease", "gatekeeper-system"]

/-- `repos` of the constraint `repo-is-from-trusted-registry`. -/
def repos : List String :=
  ["nginx", "python", "alpine", "busybox", "gcr.io/", "quay.io/", "registry.k8s.io/"]

/-! ## Templates -/

section Templates

variable [SprintfFormat]

/-- `input.review.object.spec.<list>[_]`. -/
def containersOf (object : Json) (list : String) : List Json :=
  elements (refPath object ["spec", list])

/-- A rule on the `privileged` flag of the containers of one list. -/
def privilegedViolation (object : Json) (list kind tail : String) : List String :=
  (containersOf object list).flatMap fun container =>
    if eqTrue (refPath container ["securityContext", "privileged"]) then
      -- Without a name the message is undefined, and the rule does not fire.
      sprintf₁ (kind ++ " '") tail (container.field? "name")
    else []

/-- A rule on a host flag of the Pod. -/
def hostViolation (object : Json) (field msg : String) : List String :=
  if eqTrue (refPath object ["spec", field]) then [msg] else []

/-- The host flags with a rule of their own, and the messages of the rules. -/
def hostRules : List (String × String) :=
  [("hostNetwork",
      "spec.hostNetwork=true is not permitted — containers must not share the host network namespace"),
    ("hostPID",
      "spec.hostPID=true is not permitted — containers must not share the host PID namespace"),
    ("hostIPC",
      "spec.hostIPC=true is not permitted — containers must not share the host IPC namespace")]

/-- `violation` of package `k8snoprivilegedcontainer`. -/
def noPrivileged (object : Json) : List String :=
  privilegedViolation object "containers" "container"
      "' has securityContext.privileged=true — this grants full host access and is forbidden" ++
    privilegedViolation object "initContainers" "initContainer"
      "' has securityContext.privileged=true — forbidden" ++
    hostRules.flatMap (fun rule => hostViolation object rule.1 rule.2)

/-- `trusted_image`; not true when the image is undefined. -/
def trustedImage (repos : List String) : Option Json → Bool
  | some image => repos.any (fun pre => startsWithString image pre)
  | none => false

/-- The message about an image; undefined when the name or the image is. -/
def imageMessage (repos : List String) (kind : String) (container : Json) : List String :=
  match container.field? "name", container.field? "image" with
  | some name, some image =>
    [kind ++ " '" ++ SprintfFormat.v name ++ "' uses image '" ++ SprintfFormat.v image
      ++ "' which is not from an approved registry. Allowed prefixes: "
      ++ SprintfFormat.v (.arr (repos.map .str))]
  | _, _ => []

/-- A rule on the images of the containers of one list. -/
def repoViolation (repos : List String) (object : Json) (list kind : String) : List String :=
  (containersOf object list).flatMap fun container =>
    if !trustedImage repos (container.field? "image") then imageMessage repos kind container
    else []

/-- `violation` of package `k8sallowedrepos`. -/
def allowedRepos (repos : List String) (object : Json) : List String :=
  repoViolation repos object "containers" "container" ++
    repoViolation repos object "initContainers" "initContainer"

/-- A rule on one of the resource limits of the containers. -/
def limitViolation (object : Json) (limit tail : String) : List String :=
  (containersOf object "containers").flatMap fun container =>
    if negated (refPath container ["resources", "limits", limit]) then
      sprintf₁ "container '" tail (container.field? "name")
    else []

/-- `violation` of package `k8srequirelimits`. -/
def requireLimits (object : Json) : List String :=
  limitViolation object "memory"
      "' must declare resources.limits.memory to prevent resource exhaustion" ++
    limitViolation object "cpu"
      "' must declare resources.limits.cpu to prevent resource exhaustion"

/-- The messages of the three constraints on a Pod of a namespace. -/
def violations (namespace_ : String) (object : Json) : List String :=
  -- A constraint that excludes the namespace does not match, and its template is not run.
  if namespace_ ∈ excludedNamespaces then []
  else noPrivileged object ++ allowedRepos repos object ++ requireLimits object

/-! ## What the templates see -/

/-- The lists of containers that the templates walk. -/
def walkedLists : List String := ["containers", "initContainers"]

/-- The limits that have to be declared. -/
def limitNames : List String := ["memory", "cpu"]

/-- The container does not ask for full host access. -/
def Unprivileged (container : Json) : Prop :=
  refPath container ["securityContext", "privileged"] ≠ some (.bool true)

omit [SprintfFormat] in
/-- A message about a container is there exactly if the container has a name. -/
theorem sprintf₁_eq_nil_iff [SprintfFormat] (pre post : String) (x : Option Json) :
    sprintf₁ pre post x = [] ↔ x = none := by
  cases x <;> simp [sprintf₁]

theorem imageMessage_eq_nil_iff (repos : List String) (kind : String) (container : Json) :
    imageMessage repos kind container = [] ↔
      container.field? "name" = none ∨ container.field? "image" = none := by
  unfold imageMessage
  cases container.field? "name" <;> cases container.field? "image" <;> simp

theorem privilegedViolation_eq_nil_iff (object : Json) (list kind tail : String) :
    privilegedViolation object list kind tail = [] ↔
      ∀ container ∈ containersOf object list,
        container.field? "name" = none ∨ Unprivileged container := by
  unfold privilegedViolation Unprivileged
  rw [List.flatMap_eq_nil_iff]
  refine forall₂_congr fun container _ => ?_
  rw [Ne, ← eqTrue_iff]
  cases eqTrue (refPath container ["securityContext", "privileged"]) <;>
    simp [sprintf₁_eq_nil_iff]

theorem repoViolation_eq_nil_iff (repos : List String) (object : Json) (list kind : String) :
    repoViolation repos object list kind = [] ↔
      ∀ container ∈ containersOf object list, container.field? "name" = none ∨
        container.field? "image" = none ∨
        trustedImage repos (container.field? "image") = true := by
  unfold repoViolation
  rw [List.flatMap_eq_nil_iff]
  refine forall₂_congr fun container _ => ?_
  cases trustedImage repos (container.field? "image") <;> simp [imageMessage_eq_nil_iff]

theorem limitViolation_eq_nil_iff (object : Json) (limit tail : String) :
    limitViolation object limit tail = [] ↔
      ∀ container ∈ containersOf object "containers", container.field? "name" = none ∨
        negated (refPath container ["resources", "limits", limit]) = false := by
  unfold limitViolation
  rw [List.flatMap_eq_nil_iff]
  refine forall₂_congr fun container _ => ?_
  cases negated (refPath container ["resources", "limits", limit]) <;>
    simp [sprintf₁_eq_nil_iff]

/-- A Pod without violations of `K8sNoPrivilegedContainer`. -/
theorem noPrivileged_eq_nil_iff (object : Json) :
    noPrivileged object = [] ↔
      (∀ list ∈ walkedLists, ∀ container ∈ containersOf object list,
          container.field? "name" = none ∨ Unprivileged container) ∧
        ∀ rule ∈ hostRules, refPath object ["spec", rule.1] ≠ some (.bool true) := by
  have hhost : ∀ rule : String × String, hostViolation object rule.1 rule.2 = [] ↔
      refPath object ["spec", rule.1] ≠ some (.bool true) := by
    intro rule
    rw [Ne, ← eqTrue_iff]
    simp [hostViolation]
  simp only [noPrivileged, List.append_eq_nil_iff, privilegedViolation_eq_nil_iff,
    List.flatMap_eq_nil_iff, hhost, walkedLists, List.forall_mem_cons]
  simp

/-- A Pod without violations of `K8sAllowedRepos`. -/
theorem allowedRepos_eq_nil_iff (repos : List String) (object : Json) :
    allowedRepos repos object = [] ↔
      ∀ list ∈ walkedLists, ∀ container ∈ containersOf object list,
        container.field? "name" = none ∨ container.field? "image" = none ∨
          trustedImage repos (container.field? "image") = true := by
  simp only [allowedRepos, List.append_eq_nil_iff, repoViolation_eq_nil_iff, walkedLists,
    List.forall_mem_cons]
  simp

/-- A Pod without violations of `K8sRequireLimits`. -/
theorem requireLimits_eq_nil_iff (object : Json) :
    requireLimits object = [] ↔
      ∀ limit ∈ limitNames, ∀ container ∈ containersOf object "containers",
        container.field? "name" = none ∨
          negated (refPath container ["resources", "limits", limit]) = false := by
  simp only [requireLimits, List.append_eq_nil_iff, limitViolation_eq_nil_iff, limitNames,
    List.forall_mem_cons]
  simp

/-- A Pod without violations, where the constraints apply. -/
theorem violations_eq_nil_iff {namespace_ : String} (hns : namespace_ ∉ excludedNamespaces)
    (object : Json) :
    violations namespace_ object = [] ↔
      noPrivileged object = [] ∧ allowedRepos repos object = [] ∧ requireLimits object = [] := by
  rw [violations, if_neg hns, List.append_eq_nil_iff, List.append_eq_nil_iff, and_assoc]

/-! ## Coverage -/

/-- The image is a text that begins with an allowed prefix. -/
def HasAllowedImage (container : Json) : Prop :=
  ∃ image, container.field? "image" = some (.str image) ∧
    ∃ pre ∈ repos, PythonText.startsWith image pre = true

/-- The limit is there, and neither null nor false. -/
def DeclaresLimit (container : Json) (limit : String) : Prop :=
  ∃ v, refPath container ["resources", "limits", limit] = some v ∧ v ≠ .null ∧ v ≠ .bool false

omit [SprintfFormat] in
theorem trustedImage_repos_iff (container : Json) :
    trustedImage repos (container.field? "image") = true ↔ HasAllowedImage container := by
  unfold HasAllowedImage trustedImage
  cases container.field? "image" with
  | none => simp
  | some image =>
    cases image with
    | str s => simp [startsWithString]
    | _ => simp [startsWithString]

omit [SprintfFormat] in
theorem declaresLimit_iff (container : Json) (limit : String) :
    DeclaresLimit container limit ↔
      negated (refPath container ["resources", "limits", limit]) = false ∧
        refPath container ["resources", "limits", limit] ≠ some .null := by
  rw [negated_eq_false_iff]
  unfold DeclaresLimit
  cases refPath container ["resources", "limits", limit] with
  | none => simp
  | some v => simp [and_comm]

/-- Every container of the Pod is covered. -/
structure Covered (object : Json) : Prop where
  unprivileged : ∀ list ∈ "ephemeralContainers" :: walkedLists,
    ∀ container ∈ containersOf object list, Unprivileged container
  image : ∀ list ∈ "ephemeralContainers" :: walkedLists,
    ∀ container ∈ containersOf object list, HasAllowedImage container
  limits : ∀ list ∈ walkedLists, ∀ container ∈ containersOf object list,
    ∀ limit ∈ limitNames, DeclaresLimit container limit
  host : ∀ rule ∈ hostRules, refPath object ["spec", rule.1] ≠ some (.bool true)

/-- What the templates do not look at is in order. -/
structure BlindSpotsClean (object : Json) : Prop where
  /-- No template walks the ephemeral containers. -/
  ephemeral : ∀ container ∈ containersOf object "ephemeralContainers",
    Unprivileged container ∧ HasAllowedImage container
  /-- Nobody asks an init container for limits. -/
  initLimits : ∀ container ∈ containersOf object "initContainers",
    ∀ limit ∈ limitNames, DeclaresLimit container limit
  /-- Without a name there is no message, and so no violation. -/
  unnamed : ∀ list ∈ walkedLists, ∀ container ∈ containersOf object list,
    container.field? "name" = none → Unprivileged container ∧ HasAllowedImage container ∧
      (list = "containers" → ∀ limit ∈ limitNames, DeclaresLimit container limit)
  /-- The same holds for a missing image. -/
  imageless : ∀ list ∈ walkedLists, ∀ container ∈ containersOf object list,
    container.field? "image" ≠ none
  /-- A null is not undefined. -/
  nullLimits : ∀ container ∈ containersOf object "containers", ∀ limit ∈ limitNames,
    refPath container ["resources", "limits", limit] ≠ some .null

/-- **Coverage**: an admitted Pod is covered in all of its containers exactly if what the
    templates do not look at is in order. -/
theorem admitted_covered_iff {namespace_ : String} (hns : namespace_ ∉ excludedNamespaces)
    {object : Json} (hadmitted : violations namespace_ object = []) :
    Covered object ↔ BlindSpotsClean object := by
  obtain ⟨hprivileged, hrepos, hlimits⟩ := (violations_eq_nil_iff hns object).mp hadmitted
  rw [noPrivileged_eq_nil_iff] at hprivileged
  rw [allowedRepos_eq_nil_iff] at hrepos
  rw [requireLimits_eq_nil_iff] at hlimits
  constructor
  · rintro ⟨hunprivileged, himage, hdeclared, -⟩
    refine ⟨?_, ?_, ?_, ?_, ?_⟩
    · -- Ephemeral containers: the templates never look at them.
      intro container hmem
      have hlist := List.mem_cons_self (a := "ephemeralContainers") (l := walkedLists)
      exact ⟨hunprivileged _ hlist container hmem, himage _ hlist container hmem⟩
    · -- Init containers: nobody asks them for limits.
      exact hdeclared "initContainers" (by decide)
    · -- Containers without a name: the rules do not fire on them.
      intro list hlist container hmem _
      have hlist' := List.mem_cons_of_mem "ephemeralContainers" hlist
      exact ⟨hunprivileged list hlist' container hmem, himage list hlist' container hmem,
        fun _ => hdeclared list hlist container hmem⟩
    · -- A covered container has an image, so it cannot be without one.
      intro list hlist container hmem hnone
      obtain ⟨image, hsome, -⟩ := himage list (List.mem_cons_of_mem _ hlist) container hmem
      rw [hnone] at hsome
      cases hsome
    · -- Null limits count as declared.
      intro container hmem limit hlimit
      have hdeclares := hdeclared "containers" (by decide) container hmem limit hlimit
      exact ((declaresLimit_iff container limit).mp hdeclares).2
  · -- What the templates look at they have passed; the blind spots are the rest.
    intro hclean
    refine ⟨?_, ?_, ?_, hprivileged.2⟩
    · -- Privileges.
      intro list hlist container hmem
      rcases List.mem_cons.mp hlist with rfl | hwalked
      · exact (hclean.ephemeral container hmem).1
      · rcases hprivileged.1 list hwalked container hmem with hname | hunprivileged
        · exact (hclean.unnamed list hwalked container hmem hname).1
        · exact hunprivileged
    · -- Images.
      intro list hlist container hmem
      rcases List.mem_cons.mp hlist with rfl | hwalked
      · exact (hclean.ephemeral container hmem).2
      · rcases hrepos list hwalked container hmem with hname | himage | htrusted
        · exact (hclean.unnamed list hwalked container hmem hname).2.1
        · exact absurd himage (hclean.imageless list hwalked container hmem)
        · exact (trustedImage_repos_iff container).mp htrusted
    · -- Limits.
      intro list hlist container hmem limit hlimit
      by_cases hinit : list = "initContainers"
      · subst hinit
        exact hclean.initLimits container hmem limit hlimit
      · have hcontainers : list = "containers" := by
          simpa [walkedLists, hinit] using hlist
        subst hcontainers
        rcases hlimits limit hlimit container hmem with hname | hdeclared
        · exact (hclean.unnamed _ hlist container hmem hname).2.2 rfl limit hlimit
        · exact (declaresLimit_iff container limit).mpr
            ⟨hdeclared, hclean.nullLimits container hmem limit hlimit⟩

end Templates

section Example

/-- A container with both limits. -/
def limitedContainer : Json :=
  .obj [("name", .str "app"), ("image", .str "nginx:alpine"),
    ("resources", .obj [("limits", .obj [("cpu", .str "200m"), ("memory", .str "128Mi")])])]

/-- A Pod with an init container without limits. -/
def limitlessInitPod : Json :=
  .obj [("spec", .obj [("containers", .arr [limitedContainer]),
    ("initContainers", .arr [.obj [("name", .str "init"), ("image", .str "busybox:1.36")]])])]

/-- Not every admitted Pod is covered. -/
theorem admitted_limitlessInitPod :
    ¬ ∀ [SprintfFormat] (namespace_ : String) (object : Json), namespace_ ∉ excludedNamespaces →
      violations namespace_ object = [] → Covered object := by
  intro h
  let _ : SprintfFormat := ⟨fun _ => ""⟩
  have hcovered := h "default" limitlessInitPod (by decide) (by decide)
  obtain ⟨v, hv, -⟩ := hcovered.limits "initContainers" (by decide) _ (List.mem_singleton_self _)
    "memory" (by decide)
  cases hv

/-- An image of the list, on a container that asks for nothing else. -/
def debugContainer : Json := .obj [("name", .str "debug"), ("image", .str "busybox:1.36")]

/-- A Pod with a container and an init container with both limits, and an ephemeral one. -/
def limitedPod : Json :=
  .obj [("spec", .obj [("containers", .arr [limitedContainer]),
    ("initContainers", .arr [limitedContainer]), ("ephemeralContainers", .arr [debugContainer])])]

/-- The Pod is admitted, and covered. -/
theorem covered_limitedPod : Covered limitedPod := by
  let _ : SprintfFormat := ⟨fun _ => ""⟩
  have hadmitted : violations "default" limitedPod = [] := by decide
  apply (admitted_covered_iff (by decide) hadmitted).mpr
  have hcontainers : containersOf limitedPod "containers" = [limitedContainer] := rfl
  have hinit : containersOf limitedPod "initContainers" = [limitedContainer] := rfl
  have hephemeral : containersOf limitedPod "ephemeralContainers" = [debugContainer] := rfl
  have hlimits : ∀ limit ∈ limitNames, DeclaresLimit limitedContainer limit ∧
      refPath limitedContainer ["resources", "limits", limit] ≠ some .null := by
    simp [limitNames, DeclaresLimit, refPath, limitedContainer, Json.field?, List.lookup_cons]
  refine ⟨?_, ?_, ?_, ?_, ?_⟩
  · -- The ephemeral container.
    intro container hmem
    rw [hephemeral, List.mem_singleton] at hmem
    rw [hmem]
    refine ⟨?_, "busybox:1.36", rfl, by decide⟩
    simp [Unprivileged, refPath, debugContainer, Json.field?, List.lookup_cons]
  · -- The init container has limits.
    intro container hmem limit hlimit
    rw [hinit, List.mem_singleton] at hmem
    rw [hmem]
    exact (hlimits limit hlimit).1
  · -- Every container has a name and an image.
    simp [walkedLists, hcontainers, hinit, limitedContainer, Json.field?]
  · simp [walkedLists, hcontainers, hinit, limitedContainer, Json.field?, List.lookup_cons]
  · -- No limit is null.
    intro container hmem limit hlimit
    rw [hcontainers, List.mem_singleton] at hmem
    rw [hmem]
    exact (hlimits limit hlimit).2

end Example

end AiK8sGateway.K8s.Gatekeeper
