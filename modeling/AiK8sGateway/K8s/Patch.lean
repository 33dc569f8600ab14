import AiK8sGateway.Foundations.StrategicMerge
import AiK8sGateway.K8s.Manifest

/-!
# Patching a Live Deployment

`update` and `patch` send the body that `create` would send, and the API server merges it
into the live deployment.  The builder fills in a default for every setting that the
params leave out, so the merge sets that one as well.

## Main results

- `dispatch_patch`: what `_dispatch` sends as a patch.
- `patch_keeps_iff`: when the settings that the params do not name survive the patch.
-/

namespace AiK8sGateway.K8s

open Foundations PythonText EffectProgram StrategicMerge

/-! ## Merging a body into a live object -/

/-- A field that is null in the patch is kept. -/
def orKept (live patch : Json) : Json := if patch.isNull then live else patch

/-- The name of a container, if it is a text. -/
def V1Container.nameText (container : V1Container) : Option String :=
  match container.name with
  | .str name => some name
  | _ => none

/-- The merge of a container; a list of ports that is there is set. -/
def mergeContainer (live patch : V1Container) : V1Container where
  name := orKept live.name patch.name
  image := orKept live.image patch.image
  -- The body of the builder always has one port.
  ports := if patch.ports = [] then live.ports else patch.ports
  resources :=
    { requests := mergeFields live.resources.requests (present patch.resources.requests)
      limits := mergeFields live.resources.limits (present patch.resources.limits) }
  securityContext :=
    { privileged := patch.securityContext.privileged.or live.securityContext.privileged
      allowPrivilegeEscalation := patch.securityContext.allowPrivilegeEscalation.or
        live.securityContext.allowPrivilegeEscalation }

/-- The merge of a Pod spec: containers by name, the other fields one by one. -/
def mergePodSpec (live patch : V1PodSpec) : V1PodSpec where
  containers := mergeByKey V1Container.nameText mergeContainer live.containers patch.containers
  securityContext :=
    { runAsNonRoot := patch.securityContext.runAsNonRoot.or live.securityContext.runAsNonRoot
      runAsUser := patch.securityContext.runAsUser.or live.securityContext.runAsUser }
  initContainers := patch.initContainers.or live.initContainers
  hostNetwork := patch.hostNetwork.or live.hostNetwork
  hostPid := patch.hostPid.or live.hostPid
  hostIpc := patch.hostIpc.or live.hostIpc
  volumes := patch.volumes.or live.volumes

/-- The merge of metadata. -/
def mergeMeta (live patch : V1ObjectMeta) : V1ObjectMeta where
  name := patch.name.or live.name
  labels := mergeFields live.labels (present patch.labels)

/-- The live deployment after `patch_namespaced_deployment`. -/
def mergePatch (live patch : V1Deployment) : V1Deployment where
  apiVersion := patch.apiVersion
  kind := patch.kind
  metadata := mergeMeta live.metadata patch.metadata
  spec :=
    { replicas := patch.spec.replicas
      selector := mergeFields live.spec.selector (present patch.spec.selector)
      template :=
        { metadata := mergeMeta live.spec.template.metadata patch.spec.template.metadata
          spec := mergePodSpec live.spec.template.spec patch.spec.template.spec } }

/-- The container of a deployment with this name. -/
def V1Deployment.containerNamed? (deployment : V1Deployment) (name : String) :
    Option V1Container :=
  deployment.spec.template.spec.containers.find? fun container => container.nameText = some name

/-! ## What is sent -/

section Dispatch

variable [CharTables] [ModelValidation]

/-- The patch of `_dispatch` is for the name in the params, and its body is the builder's. -/
theorem dispatch_patch {action resource namespace_ name ns : String} {params : JsonDict}
    {body : V1Deployment}
    (h : Prog.MayPerform (dispatch action resource namespace_ params).run
      (.sdk (.patchNamespacedDeployment name ns body))) :
    requireParam params "name" action resource = .ok name ∧ buildDeployment params = .ok body := by
  have hcall := dispatch_sdk_call (t := ⟨action, resource, namespace_⟩) h
  cases hcall with
  | patchDeployment hr ha hbody =>
    -- The table is entered by the resource and the verb; only one branch sends a patch.
    have hverb : action ≠ "list" ∧ action ≠ "get" ∧ action ≠ "create" := by
      rcases ha with rfl | rfl <;> decide
    rw [dispatch_of_deployment hr] at h
    unfold dispatchDeployments at h
    rw [if_neg hverb.1, if_neg hverb.2.1, if_neg hverb.2.2, if_pos ha] at h
    obtain ⟨name', hname, h⟩ := mayPerform_ofBuiltin h
    obtain ⟨body', hbody', h⟩ := mayPerform_ofBuiltin h
    cases mayPerform_sdk (fun _ => Prog.not_mayPerform_done _ _) h
    exact ⟨hname, hbody'⟩

/-- A patch is sent whenever there is a name and a body. -/
theorem mayPerform_patch {namespace_ name : String} {params : JsonDict} {body : V1Deployment}
    (hname : requireParam params "name" "patch" "deployments" = .ok name)
    (hbuild : buildDeployment params = .ok body) :
    Prog.MayPerform (dispatch "patch" "deployments" namespace_ params).run
      (.sdk (.patchNamespacedDeployment name namespace_ body)) := by
  have hdispatch : dispatch "patch" "deployments" namespace_ params =
      (do
        let name ← ofBuiltin (requireParam params "name" "patch" "deployments")
        let body ← ofBuiltin (buildDeployment params)
        let resp ← sdk (.patchNamespacedDeployment name namespace_ body)
        let d : DeploymentObject := resp
        return .obj [("name", optStr d.name), ("patched", .bool true)]) := rfl
  rw [hdispatch, hname, hbuild]
  exact .here

/-! ## Settings -/

/-- Where a resource value is declared. -/
inductive ResourceKind where
  | requests
  | limits

/-- The declared values of a kind. -/
def V1ResourceRequirements.values (resources : V1ResourceRequirements) :
    ResourceKind → List (String × Json)
  | .requests => resources.requests
  | .limits => resources.limits

/-- A resource value: its key in the params, where it goes, and the builder's default. -/
structure ResourceSetting where
  key : String
  kind : ResourceKind
  resource : String
  default : String

/-- The resource values that the builder writes. -/
def resourceSettings : List ResourceSetting :=
  [⟨"cpu_request", .requests, "cpu", "50m"⟩, ⟨"memory_request", .requests, "memory", "64Mi"⟩,
    ⟨"cpu_limit", .limits, "cpu", "200m"⟩, ⟨"memory_limit", .limits, "memory", "128Mi"⟩]

/-- The settings of a container that the params do not name are as they were. -/
structure SettingsKept (params : JsonDict) (live patched : V1Container) : Prop where
  image : params.get? "image" = none → patched.image = live.image
  ports : params.get? "container_port" = none → patched.ports = live.ports
  resources : ∀ s ∈ resourceSettings, params.get? s.key = none →
    (patched.resources.values s.kind).lookup s.resource =
      (live.resources.values s.kind).lookup s.resource

/-- The settings of a container that the params do not name are the builder's defaults. -/
structure SettingsDefault (params : JsonDict) (live : V1Container) : Prop where
  image : params.get? "image" = none → live.image = .str "nginx:alpine"
  ports : params.get? "container_port" = none → live.ports = [80]
  resources : ∀ s ∈ resourceSettings, params.get? s.key = none →
    (live.resources.values s.kind).lookup s.resource = some (.str s.default)

/-- What the params do not name survives the patch. -/
structure KeepsUnnamed (params : JsonDict) (live patched : V1Deployment) (name : String) :
    Prop where
  replicas : params.get? "replicas" = none → patched.spec.replicas = live.spec.replicas
  container : ∀ container, live.containerNamed? name = some container →
    ∃ container', patched.containerNamed? name = some container' ∧
      SettingsKept params container container'

omit [CharTables] [ModelValidation] in
theorem lookup_containerOf (params : JsonDict) (port : Int) :
    ∀ s ∈ resourceSettings, ((containerOf params port).resources.values s.kind).lookup s.resource =
      some (setting params s.key s.default) := by
  simp [resourceSettings, containerOf, V1ResourceRequirements.values, List.lookup_cons]

omit [CharTables] [ModelValidation] in
/-- The resource values of a merged container. -/
theorem values_mergeContainer (live patch : V1Container) (kind : ResourceKind) :
    (mergeContainer live patch).resources.values kind =
      mergeFields (live.resources.values kind) (present (patch.resources.values kind)) := by
  cases kind <;> rfl

omit [CharTables] [ModelValidation] in
/-- A setting that the params leave out is set to its default. -/
theorem lookup_values_merge {params : JsonDict} (live : V1Container) (port : Int)
    {s : ResourceSetting} (hs : s ∈ resourceSettings) (hnone : params.get? s.key = none) :
    ((mergeContainer live (containerOf params port)).resources.values s.kind).lookup s.resource =
      some (.str s.default) := by
  have hnodup : (((containerOf params port).resources.values s.kind).map Prod.fst).Nodup := by
    cases s.kind <;> simp [containerOf, V1ResourceRequirements.values]
  rw [values_mergeContainer, lookup_mergeFields (nodup_present hnodup), lookup_present hnodup,
    lookup_containerOf params port s hs, setting, hnone]
  rfl

omit [ModelValidation] in
/-- A container keeps its unnamed settings in the merge exactly if they are the defaults. -/
theorem settingsKept_iff {params : JsonDict} {port : Int}
    (hport : pyInt ((params.get? "container_port").getD (.int 80)) = .ok port)
    (live : V1Container) :
    SettingsKept params live (mergeContainer live (containerOf params port)) ↔
      SettingsDefault params live := by
  have himage : params.get? "image" = none →
      (mergeContainer live (containerOf params port)).image = .str "nginx:alpine" := by
    intro hnone
    simp [mergeContainer, containerOf, setting, hnone, orKept, Json.isNull]
  have hports : params.get? "container_port" = none →
      (mergeContainer live (containerOf params port)).ports = [80] := by
    intro hnone
    rw [hnone] at hport
    cases hport
    rfl
  -- What is unnamed becomes the default, so it is kept exactly if it was the default.
  constructor
  · intro hkept
    refine ⟨fun hnone => ?_, fun hnone => ?_, fun s hs hnone => ?_⟩
    · rw [← hkept.image hnone, himage hnone]
    · rw [← hkept.ports hnone, hports hnone]
    · rw [← hkept.resources s hs hnone, lookup_values_merge live port hs hnone]
  · intro hdefault
    refine ⟨fun hnone => ?_, fun hnone => ?_, fun s hs hnone => ?_⟩
    · rw [hdefault.image hnone, himage hnone]
    · rw [hdefault.ports hnone, hports hnone]
    · rw [hdefault.resources s hs hnone, lookup_values_merge live port hs hnone]

omit [CharTables] [ModelValidation] in
/-- Merging containers of one name keeps the name. -/
theorem nameText_mergeContainer {live patch : V1Container}
    (hname : patch.nameText = live.nameText) :
    (mergeContainer live patch).nameText = live.nameText := by
  have hmerged : (mergeContainer live patch).name = orKept live.name patch.name := rfl
  unfold V1Container.nameText at hname ⊢
  rw [hmerged, orKept]
  by_cases hnull : patch.name.isNull = true
  · rw [if_pos hnull]
  · rw [if_neg hnull]
    exact hname

omit [ModelValidation] in
/-- The body is for the container of that name if the params give the name as a text. -/
theorem nameText_containerOf_iff {params : JsonDict} {action resource name : String}
    (hname : requireParam params "name" action resource = .ok name) (port : Int) :
    (containerOf params port).nameText = some name ↔ params.get? "name" = some (.str name) := by
  unfold requireParam at hname
  unfold V1Container.nameText containerOf setting
  dsimp only at hname ⊢
  cases hget : params.get? "name" with
  | none =>
    -- A missing name is an empty one, and is refused.
    rw [hget] at hname
    cases hname
  | some v => cases v <;> simp

omit [CharTables] [ModelValidation] in
/-- The container of that name after the patch. -/
theorem containerNamed?_mergePatch {params : JsonDict} {name : String} {port : Int}
    {live body : V1Deployment} {container : V1Container}
    (hspec : body.spec.template.spec.containers = [containerOf params port])
    (hlive : live.containerNamed? name = some container) :
    (mergePatch live body).containerNamed? name =
      some (if (containerOf params port).nameText = some name then
        mergeContainer container (containerOf params port) else container) := by
  show (mergeByKey V1Container.nameText mergeContainer _ _).find? _ = _
  rw [find?_mergeByKey (fun _ _ h => nameText_mergeContainer h) hlive, hspec]
  split_ifs with hname <;> simp [hname]

/-- **Partial updates**: a patch that is sent keeps the settings that its params do not name
    exactly if the live deployment has the builder's defaults there.  A name that is no
    text names no live container, and then only the replica count is at stake. -/
theorem patch_keeps_iff {action resource namespace_ name ns : String} {params : JsonDict}
    {body live : V1Deployment} {container : V1Container}
    (hsent : Prog.MayPerform (dispatch action resource namespace_ params).run
      (.sdk (.patchNamespacedDeployment name ns body)))
    (hlive : live.containerNamed? name = some container) :
    KeepsUnnamed params live (mergePatch live body) name ↔
      (params.get? "replicas" = none → live.spec.replicas = 1) ∧
        (params.get? "name" = some (.str name) → SettingsDefault params container) := by
  obtain ⟨hname, hbuild⟩ := dispatch_patch hsent
  obtain ⟨hreplicas, port, hport, -, hspec⟩ := buildDeployment_ok hbuild
  have hpatched := containerNamed?_mergePatch (by rw [hspec]) hlive
  rw [← nameText_containerOf_iff hname port, ← settingsKept_iff hport]
  have hcount : params.get? "replicas" = none →
      (mergePatch live body).spec.replicas = 1 := by
    intro hnone
    rw [hnone] at hreplicas
    exact (Except.ok.inj hreplicas).symm
  constructor
  · -- The patch keeps what is unnamed, so that this was the default.
    rintro ⟨hkept, hcontainer⟩
    refine ⟨fun hnone => ?_, fun htext => ?_⟩
    · rw [← hkept hnone, hcount hnone]
    · obtain ⟨container', hfound, hsettings⟩ := hcontainer container hlive
      rw [hpatched, if_pos htext] at hfound
      rwa [Option.some.inj hfound]
  · -- The live values are the defaults, which the patch writes again.
    rintro ⟨hdefault, hsettings⟩
    refine ⟨fun hnone => ?_, fun container' hcontainer' => ?_⟩
    · rw [hdefault hnone, hcount hnone]
    · obtain rfl := Option.some.inj (hlive.symm.trans hcontainer')
      refine ⟨_, hpatched, ?_⟩
      split_ifs with htext
      · exact hsettings htext
      · -- The container of the body has another name, and this one is left alone.
        exact ⟨fun _ => rfl, fun _ => rfl, fun _ _ _ => rfl⟩

end Dispatch

section Example

attribute [local instance] asciiTables requiresName

/-- The params `{"name": "web"}`. -/
def webParams : JsonDict := .ofEntries [("name", .str "web")]

/-- A deployment of one container with the default settings. -/
def liveDeployment (replicas : Int) : V1Deployment where
  apiVersion := "apps/v1"
  kind := "Deployment"
  metadata := { name := some (.str "web"), labels := [] }
  spec :=
    { replicas := replicas
      selector := [("app", .str "web")]
      template :=
        { metadata := { labels := [("app", .str "web")] }
          spec := { securityContext := {}, containers := [containerOf webParams 80] } } }

/-- The params `{"name": "web", "image": "nginx:1.27"}`. -/
def imageParams : JsonDict := .ofEntries [("name", .str "web"), ("image", .str "nginx:1.27")]

/-- A patch of the image scales a deployment of three replicas down. -/
theorem patch_keeps_not :
    ¬ ∀ action resource namespace_ name ns params body live container,
      Prog.MayPerform (dispatch action resource namespace_ params).run
        (.sdk (.patchNamespacedDeployment name ns body)) →
      live.containerNamed? name = some container →
        KeepsUnnamed params live (mergePatch live body) name := by
  intro h
  cases hbuild : buildDeployment imageParams with
  | error e => cases hbuild
  | ok body =>
    have hsent : Prog.MayPerform (dispatch "patch" "deployments" "default" imageParams).run
        (.sdk (.patchNamespacedDeployment "web" "default" body)) := mayPerform_patch rfl hbuild
    have hkept := (h _ _ _ _ _ _ _ (liveDeployment 3) _ hsent rfl).replicas rfl
    have hone : (1 : Int) = body.spec.replicas := Except.ok.inj (buildDeployment_ok hbuild).1
    have hthree : body.spec.replicas = 3 := hkept
    omega

/-- With one replica and the default settings the same patch is a patch of the image. -/
theorem patch_keeps_defaults :
    ∃ body, buildDeployment imageParams = .ok body ∧
      KeepsUnnamed imageParams (liveDeployment 1) (mergePatch (liveDeployment 1) body) "web" := by
  obtain ⟨body, hbuild⟩ : ∃ body, buildDeployment imageParams = .ok body := ⟨_, rfl⟩
  have hsent : Prog.MayPerform (dispatch "patch" "deployments" "default" imageParams).run
      (.sdk (.patchNamespacedDeployment "web" "default" body)) := mayPerform_patch rfl hbuild
  refine ⟨body, hbuild, (patch_keeps_iff hsent rfl).mpr ?_⟩
  refine ⟨fun _ => rfl, fun _ => ⟨?_, fun _ => rfl, ?_⟩⟩
  · intro hnone
    cases hnone
  · intro s hs _
    have hnone : ∀ s ∈ resourceSettings, webParams.get? s.key = none := by decide
    have hlookup := lookup_containerOf webParams 80 s hs
    rw [setting, hnone s hs] at hlookup
    exact hlookup

end Example

end AiK8sGateway.K8s
