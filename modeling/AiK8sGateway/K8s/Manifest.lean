import AiK8sGateway.Foundations.RegoValue
import AiK8sGateway.K8s.Client

/-!
# The Manifest of a Deployment

What `_build_deployment` puts into a deployment, and the Pod that the cluster stamps from
its template, as the JSON document that an admission controller reviews.

## Main results

- `buildDeployment_ok`: the parts of a deployment that was built.
- `refPath_containerJson_limit`: a limit is in the document unless it is null.
-/

namespace AiK8sGateway.K8s

open Foundations PythonText Rego

/-! ## What the builder makes -/

/-- The value of a setting in the params, or its default. -/
def setting (params : JsonDict) (key default : String) : Json :=
  (params.get? key).getD (.str default)

/-- The container that the builder asks for. -/
def containerOf (params : JsonDict) (port : Int) : V1Container where
  name := setting params "name" "gateway-managed-app"
  image := setting params "image" "nginx:alpine"
  ports := [port]
  resources :=
    { requests := [("cpu", setting params "cpu_request" "50m"),
        ("memory", setting params "memory_request" "64Mi")]
      limits := [("cpu", setting params "cpu_limit" "200m"),
        ("memory", setting params "memory_limit" "128Mi")] }
  securityContext := { privileged := some false, allowPrivilegeEscalation := some false }

/-- The deployment that the builder makes with the two converted integers. -/
def deploymentOf (params : JsonDict) (replicas port : Int) : V1Deployment :=
  let name := setting params "name" "gateway-managed-app"
  { apiVersion := "apps/v1"
    kind := "Deployment"
    metadata := { name := some name, labels := [("managed-by", .str "ai-k8s-gateway")] }
    spec :=
      { replicas := replicas
        selector := [("app", name)]
        template :=
          { metadata := { labels := [("app", name), ("managed-by", .str "ai-k8s-gateway")] }
            spec :=
              { securityContext := { runAsNonRoot := some true, runAsUser := some 65534 }
                containers := [containerOf params port] } } } }

/-- **The builder succeeds** on two integers and a name. -/
theorem buildDeployment_of_named [CharTables] [ModelValidation] {params : JsonDict}
    {replicas port : Int} (hname : setting params "name" "gateway-managed-app" ≠ .null)
    (hreplicas : pyInt ((params.get? "replicas").getD (.int 1)) = .ok replicas)
    (hport : pyInt ((params.get? "container_port").getD (.int 80)) = .ok port) :
    buildDeployment params = .ok (deploymentOf params replicas port) := by
  have hcontainer := ModelValidation.v1Container_named (containerOf params port) hname
  unfold containerOf setting at hcontainer
  simp only [buildDeployment, hreplicas, hport, bind, Except.bind, hcontainer]
  rfl

/-- **Parts of a manifest**: a deployment that was built has the converted replica count and
    one container, with a name and the converted port. -/
theorem buildDeployment_ok [CharTables] [ModelValidation] {params : JsonDict} {body : V1Deployment}
    (h : buildDeployment params = .ok body) :
    pyInt ((params.get? "replicas").getD (.int 1)) = .ok body.spec.replicas ∧
      ∃ port, pyInt ((params.get? "container_port").getD (.int 80)) = .ok port ∧
        setting params "name" "gateway-managed-app" ≠ .null ∧
        body.spec.template.spec =
          { securityContext := { runAsNonRoot := some true, runAsUser := some 65534 }
            containers := [containerOf params port] } := by
  unfold buildDeployment at h
  -- The replicas are converted first, then the port, and the container is validated last.
  cases hreplicas : pyInt ((params.get? "replicas").getD (.int 1)) with
  | error e => simp [hreplicas, bind, Except.bind] at h
  | ok replicas =>
    cases hport : pyInt ((params.get? "container_port").getD (.int 80)) with
    | error e => simp [hreplicas, hport, bind, Except.bind] at h
    | ok port =>
      simp only [hreplicas, hport, bind, Except.bind] at h
      cases hcontainer : v1Container _ with
      | error e => rw [hcontainer] at h; cases h
      | ok container =>
        rw [hcontainer] at h
        obtain ⟨hname, rfl⟩ := v1Container_ok hcontainer
        cases h
        exact ⟨rfl, port, rfl, hname, rfl⟩

/-! ## Documents -/

/-- The fields that are not null. -/
def present (fields : List (String × Json)) : List (String × Json) :=
  fields.filter fun field => !field.2.isNull

/-- An optional boolean as a JSON value. -/
def optBool : Option Bool → Json
  | some b => .bool b
  | none => .null

/-- An optional list of values as a JSON value. -/
def optArr : Option (List Json) → Json
  | some items => .arr items
  | none => .null

/-- A container as the document spells it. -/
def containerJson (container : V1Container) : Json :=
  .obj (present [("name", container.name), ("image", container.image),
    ("ports", .arr (container.ports.map fun port => .obj [("containerPort", .int port)])),
    ("resources", .obj [("requests", .obj (present container.resources.requests)),
      ("limits", .obj (present container.resources.limits))]),
    ("securityContext", .obj (present
      [("privileged", optBool container.securityContext.privileged),
        ("allowPrivilegeEscalation", optBool container.securityContext.allowPrivilegeEscalation)]))])

/-- The fields of the spec of a Pod as the document spells them. -/
def podSpecFields (spec : V1PodSpec) : List (String × Json) :=
  [("containers", .arr (spec.containers.map containerJson)),
    ("securityContext", .obj (present
      [("runAsNonRoot", optBool spec.securityContext.runAsNonRoot),
        ("runAsUser", optInt spec.securityContext.runAsUser)])),
    ("initContainers", optArr (spec.initContainers.map (·.map containerJson))),
    ("hostNetwork", optBool spec.hostNetwork), ("hostPID", optBool spec.hostPid),
    ("hostIPC", optBool spec.hostIpc), ("volumes", optArr spec.volumes)]

/-- The Pod stamped from the template of a deployment. -/
def stampedPod (body : V1Deployment) : Json :=
  .obj [("apiVersion", .str "v1"), ("kind", .str "Pod"),
    ("metadata", .obj [("labels", .obj (present body.spec.template.metadata.labels))]),
    ("spec", .obj (present (podSpecFields body.spec.template.spec)))]

theorem nodup_present {fields : List (String × Json)} (hnodup : (fields.map Prod.fst).Nodup) :
    ((present fields).map Prod.fst).Nodup :=
  (List.filter_sublist.map Prod.fst).nodup hnodup

/-- A field of a document is there unless it is null. -/
theorem lookup_present {fields : List (String × Json)} (hnodup : (fields.map Prod.fst).Nodup)
    (key : String) :
    (present fields).lookup key = (fields.lookup key).filter (fun v => !v.isNull) := by
  induction fields with
  | nil => rfl
  | cons field fields ih =>
    obtain ⟨k, v⟩ := field
    rw [List.map_cons, List.nodup_cons] at hnodup
    have hrest := ih hnodup.2
    rw [OrderedDict.lookup_cons]
    by_cases hnull : v.isNull = true
    · -- The field is dropped, and no later one has its key.
      have hskip : present ((k, v) :: fields) = present fields := by simp [present, hnull]
      rw [hskip, hrest]
      by_cases hkey : key = k
      · have hnone : fields.lookup k = none := OrderedDict.lookup_eq_none_of_notMem hnodup.1
        simp [hkey, hnone, hnull, Option.filter_some]
      · rw [if_neg hkey]
    · -- The field is kept.
      have hkeep : present ((k, v) :: fields) = (k, v) :: present fields := by
        simp [present, hnull]
      rw [hkeep, OrderedDict.lookup_cons, hrest]
      by_cases hkey : key = k
      · simp [hkey, hnull, Option.filter_some]
      · rw [if_neg hkey, if_neg hkey]

theorem field?_present {fields : List (String × Json)} (hnodup : (fields.map Prod.fst).Nodup)
    (key : String) :
    (Json.obj (present fields)).field? key = (fields.lookup key).filter (fun v => !v.isNull) :=
  lookup_present hnodup key

/-! ## References into a stamped Pod -/

theorem field?_containerJson_name (container : V1Container) :
    (containerJson container).field? "name" =
      (some container.name).filter (fun v => !v.isNull) := by
  rw [containerJson, field?_present (by simp)]
  rfl

theorem field?_containerJson_image (container : V1Container) :
    (containerJson container).field? "image" =
      (some container.image).filter (fun v => !v.isNull) := by
  rw [containerJson, field?_present (by simp)]
  rfl

/-- A container is privileged in the document if it was made so. -/
theorem refPath_containerJson_privileged (container : V1Container) :
    refPath (containerJson container) ["securityContext", "privileged"] =
      container.securityContext.privileged.map .bool := by
  rw [refPath, containerJson, field?_present (by simp)]
  show (refPath (.obj (present _)) ["privileged"]) = _
  rw [refPath, field?_present (by simp)]
  cases container.securityContext.privileged <;> rfl

/-- A limit is in the document unless it is null. -/
theorem refPath_containerJson_limit (container : V1Container) (limit : String)
    (hnodup : (container.resources.limits.map Prod.fst).Nodup) :
    refPath (containerJson container) ["resources", "limits", limit] =
      (container.resources.limits.lookup limit).filter (fun v => !v.isNull) := by
  rw [refPath, containerJson, field?_present (by simp)]
  show (refPath (.obj (present container.resources.limits)) [limit]) = _
  rw [refPath, field?_present hnodup]
  cases (container.resources.limits.lookup limit).filter (fun v => !v.isNull) <;> rfl

/-- A field of the spec of a stamped Pod is there unless it is null. -/
theorem refPath_stampedPod (body : V1Deployment) (field : String) :
    refPath (stampedPod body) ["spec", field] =
      ((podSpecFields body.spec.template.spec).lookup field).filter (fun v => !v.isNull) := by
  show refPath (.obj (present (podSpecFields _))) [field] = _
  rw [refPath, field?_present (by simp [podSpecFields])]
  cases ((podSpecFields body.spec.template.spec).lookup field).filter (fun v => !v.isNull) <;> rfl

end AiK8sGateway.K8s
