import AiK8sGateway.Config
import AiK8sGateway.Foundations.EffectProgram

/-!
# Kubernetes Client

`app/k8s/client.py`.  The Kubernetes SDK and its configuration loaders are outside
the repository: `Op` lists the calls the client makes of them, and a reply is
whatever they return or raise.  `executeAction` is the program over these calls.  The
checks that the model classes of the SDK make are a parameter, `ModelValidation`.

## Main results

- `executeAction_sdk_call`: every SDK call of `executeAction` is one of the dispatch
  table, at the normalised target.
- `executeAction_returnsPlain`: what it returns is plain enough for any JSON writer.
-/

namespace AiK8sGateway.K8s

open Foundations PythonText EffectProgram

/-! ## SDK objects

The fields that the client sets or reads.  A constructor argument the client leaves
out is `None`. -/

/-- `client.V1ObjectMeta`. -/
structure V1ObjectMeta where
  name : Option Json := none
  labels : List (String × Json)

/-- `client.V1ResourceRequirements`. -/
structure V1ResourceRequirements where
  requests : List (String × Json)
  limits : List (String × Json)

/-- `client.V1SecurityContext`. -/
structure V1SecurityContext where
  privileged : Option Bool := none
  allowPrivilegeEscalation : Option Bool := none

/-- `client.V1PodSecurityContext`. -/
structure V1PodSecurityContext where
  runAsNonRoot : Option Bool := none
  runAsUser : Option Int := none

/-- `client.V1Container`, with one exposed port each in `ports`. -/
structure V1Container where
  name : Json
  image : Json
  ports : List Int
  resources : V1ResourceRequirements
  securityContext : V1SecurityContext

/-- `client.V1PodSpec`. -/
structure V1PodSpec where
  containers : List V1Container
  securityContext : V1PodSecurityContext
  initContainers : Option (List V1Container) := none
  hostNetwork : Option Bool := none
  hostPid : Option Bool := none
  hostIpc : Option Bool := none
  volumes : Option (List Json) := none

/-- `client.V1PodTemplateSpec`. -/
structure V1PodTemplateSpec where
  metadata : V1ObjectMeta
  spec : V1PodSpec

/-- `client.V1DeploymentSpec`; `selector` holds the match labels. -/
structure V1DeploymentSpec where
  replicas : Int
  selector : List (String × Json)
  template : V1PodTemplateSpec

/-- `client.V1Deployment`. -/
structure V1Deployment where
  apiVersion : String
  kind : String
  metadata : V1ObjectMeta
  spec : V1DeploymentSpec

/-- The client-side validation of the SDK's model classes.  Of those that the client builds
    only a container can lack something that is required. -/
class ModelValidation where
  /-- `client.V1Container(...)`. -/
  v1Container : V1Container → Except BuiltinError V1Container
  /-- A container with a name is the one that was asked for. -/
  v1Container_named : ∀ c, c.name ≠ .null → v1Container c = .ok c
  /-- One without a name is refused. -/
  v1Container_unnamed : ∀ c, c.name = .null → ∃ msg, v1Container c = .error (.valueError msg)

export ModelValidation (v1Container)

section Validation

variable [ModelValidation]

/-- A container that passes the validation has a name, and is the one that was asked for. -/
theorem v1Container_ok {c c' : V1Container} (h : v1Container c = .ok c') :
    c.name ≠ .null ∧ c' = c := by
  by_cases hname : c.name = .null
  · obtain ⟨msg, herror⟩ := ModelValidation.v1Container_unnamed c hname
    cases herror.symm.trans h
  · rw [ModelValidation.v1Container_named c hname] at h
    exact ⟨hname, (Except.ok.inj h).symm⟩

/-- The validation raises nothing but a `ValueError`. -/
theorem v1Container_error {c : V1Container} {e : BuiltinError} (h : v1Container c = .error e) :
    ∃ msg, e = .valueError msg := by
  by_cases hname : c.name = .null
  · obtain ⟨msg, herror⟩ := ModelValidation.v1Container_unnamed c hname
    exact ⟨msg, (Except.error.inj (herror.symm.trans h)).symm⟩
  · cases (ModelValidation.v1Container_named c hname).symm.trans h

end Validation

/-- The validation of the SDK, with its message. -/
@[reducible] def requiresName : ModelValidation where
  v1Container c :=
    match c.name with
    | .null => .error (.valueError "Invalid value for `name`, must not be `None`")
    | _ => .ok c
  v1Container_named c h := by
    split
    · rename_i hnull
      exact absurd hnull h
    · rfl
  v1Container_unnamed c h := by
    rw [h]
    exact ⟨_, rfl⟩

/-- A pod as the API server returns it. -/
structure PodObject where
  name : Option String
  «namespace» : Option String
  phase : Option String
  nodeName : Option String

/-- A deployment as the API server returns it; `images` are those of its containers. -/
structure DeploymentObject where
  name : Option String
  «namespace» : Option String
  uid : Option String
  replicas : Option Int32
  readyReplicas : Option Int32
  images : List (Option String)

/-- A secret or a config map as the API server returns it, values included. -/
structure DataObject where
  name : Option String
  data : List (String × String)

/-- A namespace as the API server returns it. -/
structure NamespaceObject where
  name : Option String

/-! ## SDK calls -/

/-- The SDK methods of the dispatch table with their arguments. -/
inductive SdkCall where
  | listNamespacedPod («namespace» : String)
  | readNamespacedPod (name «namespace» : String)
  | deleteNamespacedPod (name «namespace» : String)
  | listNamespacedDeployment («namespace» : String)
  | readNamespacedDeployment (name «namespace» : String)
  | createNamespacedDeployment («namespace» : String) (body : V1Deployment)
  | patchNamespacedDeployment (name «namespace» : String) (body : V1Deployment)
  | deleteNamespacedDeployment (name «namespace» : String)
  | listNamespacedSecret («namespace» : String)
  | listNamespace
  | listNamespacedConfigMap («namespace» : String)

/-- What a successful call returns. -/
def SdkCall.Result : SdkCall → Type
  | listNamespacedPod _ => List PodObject
  | readNamespacedPod _ _ => PodObject
  | deleteNamespacedPod _ _ => Unit
  | listNamespacedDeployment _ => List DeploymentObject
  | readNamespacedDeployment _ _ => DeploymentObject
  | createNamespacedDeployment _ _ => DeploymentObject
  | patchNamespacedDeployment _ _ _ => DeploymentObject
  | deleteNamespacedDeployment _ _ => Unit
  | listNamespacedSecret _ => List DataObject
  | listNamespace => List NamespaceObject
  | listNamespacedConfigMap _ => List DataObject

/-- What the client asks of its libraries. -/
inductive Op where
  | loadInclusterConfig
  | loadKubeConfig
  | sdk (call : SdkCall)

/-- A library call returns or raises. -/
def Op.Reply : Op → Type
  | loadInclusterConfig => Except PyExc Unit
  | loadKubeConfig => Except PyExc Unit
  | sdk call => Except PyExc call.Result

/-- The signature of the Kubernetes libraries. -/
def signature : Signature := ⟨Op, Op.Reply⟩

/-- The exceptions of the client: its own two, and those of Python and the libraries. -/
inductive ClientExc where
  | k8sUnavailableError (msg : String)
  | k8sActionError (msg : String) (statusCode : Option Int)
  | py (e : PyExc)

/-- Client code: it calls the libraries and may raise. -/
abbrev ClientM := ExceptT ClientExc (Prog signature)

/-- What a library raises propagates. -/
def ofLibrary {α : Type} (x : Prog signature (Except PyExc α)) : ClientM α :=
  ExceptT.mk (Except.mapError .py <$> x)

/-- What a built-in operation raises propagates. -/
def ofBuiltin {α : Type} (x : Except BuiltinError α) : ClientM α :=
  ExceptT.mk (pure (x.mapError fun e => .py (.builtin e)))

/-- Call the SDK. -/
def sdk (call : SdkCall) : ClientM call.Result :=
  ofLibrary (Prog.call (S := signature) (.sdk call))

/-- After a built-in operation only its actual result is continued with. -/
theorem mayPerform_ofBuiltin {α β : Type} {x : Except BuiltinError α} {f : α → ClientM β} {op : Op}
    (h : Prog.MayPerform (ofBuiltin x >>= f).run op) :
    ∃ a, x = .ok a ∧ Prog.MayPerform (f a).run op := by
  cases x with
  | ok a => exact ⟨a, rfl, h⟩
  | error e => exact absurd h (Prog.not_mayPerform_done _ _)

/-- Code that makes one SDK call and then none makes that call only. -/
theorem mayPerform_sdk {α : Type} {call call' : SdkCall} {f : call.Result → ClientM α}
    (hf : ∀ r, ¬ Prog.MayPerform (f r).run (.sdk call'))
    (h : Prog.MayPerform (sdk call >>= f).run (.sdk call')) : call = call' := by
  rcases Prog.mayPerform_exceptBind h with h | ⟨r, h⟩
  · cases h with
    | here => rfl
    | there _ h => exact absurd h (Prog.not_mayPerform_done _ _)
  · exact absurd h (hf r)

/-! ## Configuration -/

/-- `_load_config`: the in-cluster token first, then the kubeconfig file. -/
def loadConfig : ClientM Unit :=
  tryCatch (ofLibrary (Prog.call (S := signature) .loadInclusterConfig)) fun
    -- Only a `ConfigException` leads on to the second attempt.
    | .py (.configException _) =>
      tryCatch (ofLibrary (Prog.call (S := signature) .loadKubeConfig)) fun
        | .py (.configException _) =>
          throw (.k8sUnavailableError
            ("No Kubernetes configuration found (tried in-cluster token and " ++
              "kubeconfig).  Run `bash demo/setup.sh` to provision a local kind " ++
              "cluster, or set $KUBECONFIG to point at your cluster config."))
        | exc => throw exc
    | exc => throw exc

/-- Loading the configuration makes no SDK call. -/
theorem loadConfig_no_sdk (call : SdkCall) : ¬ Prog.MayPerform loadConfig.run (.sdk call) := by
  intro h
  rcases Prog.mayPerform_tryCatch h with h | ⟨e, h⟩
  · cases h with
    | there _ h => exact absurd h (Prog.not_mayPerform_done _ _)
  · split at h
    · rcases Prog.mayPerform_tryCatch h with h | ⟨e', h⟩
      · cases h with
        | there _ h => exact absurd h (Prog.not_mayPerform_done _ _)
      · split at h <;> exact absurd h (Prog.not_mayPerform_done _ _)
    · exact absurd h (Prog.not_mayPerform_done _ _)

/-! ## Builder helpers -/

section Builder

variable [CharTables] [ModelValidation]

/-- `_require_param`. -/
def requireParam (params : JsonDict) (key action resource : String) : Except BuiltinError String :=
  let value := (params.get? key).getD (.str "")
  -- Any falsy value counts as missing, and any other one is made a string.
  if value.truthy then .ok value.toStr
  else .error (.valueError
    ("'" ++ key ++ "' is required in params for action='" ++ action ++ "' on resource='"
      ++ resource ++ "'."))

/-- `_build_deployment`. -/
def buildDeployment (params : JsonDict) : Except BuiltinError V1Deployment := do
  let name := (params.get? "name").getD (.str "gateway-managed-app")
  let image := (params.get? "image").getD (.str "nginx:alpine")
  -- The two integers are converted, and may raise; the rest is passed on as it is.
  let replicas ← pyInt ((params.get? "replicas").getD (.int 1))
  let port ← pyInt ((params.get? "container_port").getD (.int 80))
  let cpuReq := (params.get? "cpu_request").getD (.str "50m")
  let cpuLim := (params.get? "cpu_limit").getD (.str "200m")
  let memReq := (params.get? "memory_request").getD (.str "64Mi")
  let memLim := (params.get? "memory_limit").getD (.str "128Mi")
  let resources : V1ResourceRequirements :=
    { requests := [("cpu", cpuReq), ("memory", memReq)]
      limits := [("cpu", cpuLim), ("memory", memLim)] }
  let container ← v1Container
    { name := name
      image := image
      ports := [port]
      resources := resources
      securityContext := { privileged := some false, allowPrivilegeEscalation := some false } }
  return {
    apiVersion := "apps/v1"
    kind := "Deployment"
    metadata := { name := some name, labels := [("managed-by", .str "ai-k8s-gateway")] }
    spec :=
      { replicas := replicas
        selector := [("app", name)]
        template :=
          { metadata :=
              { labels := [("app", name), ("managed-by", .str "ai-k8s-gateway")] }
            spec :=
              { securityContext := { runAsNonRoot := some true, runAsUser := some 65534 }
                containers := [container] } } } }

/-! ## Dispatch -/

/-- An optional text as a JSON value. -/
def optStr : Option String → Json
  | some s => .str s
  | none => .null

/-- An optional integer as a JSON value. -/
def optInt : Option Int → Json
  | some n => .int n
  | none => .null

/-- An optional 32-bit integer as a JSON value. -/
def optInt32 (n : Option Int32) : Json := optInt (n.map Int32.toInt)

/-- The error after the dispatch table. -/
def unsupported (action resource : String) : ClientExc :=
  .py (.builtin (.valueError
    ("Unsupported combination: action='" ++ action ++ "' resource='" ++ resource ++
      "'. To add support, add a branch in app/k8s/client.py::_dispatch().")))

/-- The branch of `_dispatch` for pods. -/
def dispatchPods (action resource namespace_ : String) (params : JsonDict) : ClientM Json :=
  if action = "list" then do
    let resp ← sdk (.listNamespacedPod namespace_)
    return .arr (resp.map fun (p : PodObject) =>
      .obj [("name", optStr p.name), ("phase", optStr p.phase)])
  else if action = "get" then do
    let name ← ofBuiltin (requireParam params "name" action resource)
    let resp ← sdk (.readNamespacedPod name namespace_)
    let p : PodObject := resp
    return .obj [("name", optStr p.name), ("namespace", optStr p.namespace),
      ("phase", optStr p.phase), ("node", optStr p.nodeName)]
  else if action = "delete" then do
    let name ← ofBuiltin (requireParam params "name" action resource)
    let _ ← sdk (.deleteNamespacedPod name namespace_)
    return .obj [("deleted", .str name), ("namespace", .str namespace_)]
  else throw (unsupported action resource)

/-- The answer to a deployment `get`, which names the image of the first container. -/
def deploymentInfo (d : DeploymentObject) : Except BuiltinError Json :=
  match d.images with
  | image :: _ =>
    .ok (.obj [("name", optStr d.name), ("replicas", optInt32 d.replicas),
      ("ready", .int (d.readyReplicas.getD 0).toInt), ("image", optStr image)])
  | [] => .error (.indexError "list index out of range")

/-- The branch of `_dispatch` for deployments. -/
def dispatchDeployments (action resource namespace_ : String) (params : JsonDict) : ClientM Json :=
  if action = "list" then do
    let resp ← sdk (.listNamespacedDeployment namespace_)
    return .arr (resp.map fun (d : DeploymentObject) =>
      .obj [("name", optStr d.name), ("replicas", optInt32 d.replicas),
        ("ready", .int (d.readyReplicas.getD 0).toInt)])
  else if action = "get" then do
    let name ← ofBuiltin (requireParam params "name" action resource)
    let resp ← sdk (.readNamespacedDeployment name namespace_)
    ofBuiltin (deploymentInfo resp)
  else if action = "create" then do
    let body ← ofBuiltin (buildDeployment params)
    let resp ← sdk (.createNamespacedDeployment namespace_ body)
    let d : DeploymentObject := resp
    return .obj [("name", optStr d.name), ("namespace", optStr d.namespace), ("uid", optStr d.uid)]
  else if action = "update" ∨ action = "patch" then do
    let name ← ofBuiltin (requireParam params "name" action resource)
    let body ← ofBuiltin (buildDeployment params)
    let resp ← sdk (.patchNamespacedDeployment name namespace_ body)
    let d : DeploymentObject := resp
    return .obj [("name", optStr d.name), ("patched", .bool true)]
  else if action = "delete" then do
    let name ← ofBuiltin (requireParam params "name" action resource)
    let _ ← sdk (.deleteNamespacedDeployment name namespace_)
    return .obj [("deleted", .str name), ("namespace", .str namespace_)]
  else throw (unsupported action resource)

/-- `_dispatch`. -/
def dispatch (action resource namespace_ : String) (params : JsonDict) : ClientM Json :=
  if resource ∈ ["pods", "pod"] then dispatchPods action resource namespace_ params
  else if resource ∈ ["deployments", "deployment"] then
    dispatchDeployments action resource namespace_ params
  else if resource ∈ ["secrets", "secret"] ∧ action = "list" then do
    let resp ← sdk (.listNamespacedSecret namespace_)
    -- Names only; the data values stay behind.
    return .arr (resp.map fun (s : DataObject) => optStr s.name)
  else if resource ∈ ["namespaces", "namespace"] ∧ action = "list" then do
    let resp ← sdk .listNamespace
    return .arr (resp.map fun (n : NamespaceObject) => optStr n.name)
  else if resource ∈ ["configmaps", "configmap"] ∧ action = "list" then do
    let resp ← sdk (.listNamespacedConfigMap namespace_)
    return .arr (resp.map fun (cm : DataObject) => optStr cm.name)
  else throw (unsupported action resource)

/-- Deployments have a branch of their own. -/
theorem dispatch_of_deployment {resource : String} (h : resource ∈ ["deployments", "deployment"])
    (action namespace_ : String) (params : JsonDict) :
    dispatch action resource namespace_ params =
      dispatchDeployments action resource namespace_ params := by
  have hpods : ∀ r ∈ ["deployments", "deployment"], r ∉ ["pods", "pod"] := by decide
  rw [dispatch, if_neg (hpods _ h), if_pos h]

/-! ## Public API -/

/-- `s or default` for strings. -/
def strOr (s default : String) : String := if s = "" then default else s

/-- The three strings as `execute_action` hands them to `_dispatch`. -/
def normalise (action resource namespace_ : String) : Target where
  action := strip (lower action)
  resource := strip (lower resource)
  -- The namespace keeps its case, and an empty one gets a default.
  «namespace» := strOr (strip namespace_) "default"

/-- `execute_action`. -/
def executeAction (action resource namespace_ : String) (params : JsonDict) : ClientM Json := do
  loadConfig
  -- From here on the strings are the normalised ones.
  let t := normalise action resource namespace_
  let result ← tryCatch (dispatch t.action t.resource t.namespace params) fun
    -- The body of the exception is dropped.
    | .py (.apiException status reason _) =>
      throw (.k8sActionError
        ("Kubernetes API returned HTTP " ++ (status.map toString).getD "None" ++ ": " ++
          reason.getD "None") status)
    | exc => throw exc
  return .obj [("status", .str "success"), ("data", result)]

/-! ## The calls of the dispatch table -/

/-- The SDK calls that `_dispatch` makes for a target, one constructor for each branch. -/
inductive DispatchCall (t : Target) (params : JsonDict) : SdkCall → Prop where
  | listPods (hr : t.resource ∈ ["pods", "pod"]) (ha : t.action = "list") :
      DispatchCall t params (.listNamespacedPod t.namespace)
  | getPod {name : String} (hr : t.resource ∈ ["pods", "pod"]) (ha : t.action = "get") :
      DispatchCall t params (.readNamespacedPod name t.namespace)
  | deletePod {name : String} (hr : t.resource ∈ ["pods", "pod"]) (ha : t.action = "delete") :
      DispatchCall t params (.deleteNamespacedPod name t.namespace)
  | listDeployments (hr : t.resource ∈ ["deployments", "deployment"]) (ha : t.action = "list") :
      DispatchCall t params (.listNamespacedDeployment t.namespace)
  | getDeployment {name : String} (hr : t.resource ∈ ["deployments", "deployment"])
      (ha : t.action = "get") :
      DispatchCall t params (.readNamespacedDeployment name t.namespace)
  | createDeployment {body : V1Deployment} (hr : t.resource ∈ ["deployments", "deployment"])
      (ha : t.action = "create") (hbody : buildDeployment params = .ok body) :
      DispatchCall t params (.createNamespacedDeployment t.namespace body)
  | patchDeployment {name : String} {body : V1Deployment}
      (hr : t.resource ∈ ["deployments", "deployment"])
      (ha : t.action = "update" ∨ t.action = "patch") (hbody : buildDeployment params = .ok body) :
      DispatchCall t params (.patchNamespacedDeployment name t.namespace body)
  | deleteDeployment {name : String} (hr : t.resource ∈ ["deployments", "deployment"])
      (ha : t.action = "delete") :
      DispatchCall t params (.deleteNamespacedDeployment name t.namespace)
  | listSecrets (hr : t.resource ∈ ["secrets", "secret"]) (ha : t.action = "list") :
      DispatchCall t params (.listNamespacedSecret t.namespace)
  | listNamespaces (hr : t.resource ∈ ["namespaces", "namespace"]) (ha : t.action = "list") :
      DispatchCall t params .listNamespace
  | listConfigMaps (hr : t.resource ∈ ["configmaps", "configmap"]) (ha : t.action = "list") :
      DispatchCall t params (.listNamespacedConfigMap t.namespace)

theorem dispatchPods_sdk_call {action resource namespace_ : String} {params : JsonDict}
    {call : SdkCall} (hr : resource ∈ ["pods", "pod"])
    (h : Prog.MayPerform (dispatchPods action resource namespace_ params).run (.sdk call)) :
    DispatchCall ⟨action, resource, namespace_⟩ params call := by
  -- One case for each verb; the last one raises.
  unfold dispatchPods at h
  split_ifs at h with hlist hget hdelete
  · obtain rfl := mayPerform_sdk (fun _ => Prog.not_mayPerform_done _ _) h
    exact .listPods hr hlist
  · obtain ⟨name, -, h⟩ := mayPerform_ofBuiltin h
    obtain rfl := mayPerform_sdk (fun _ => Prog.not_mayPerform_done _ _) h
    exact .getPod hr hget
  · obtain ⟨name, -, h⟩ := mayPerform_ofBuiltin h
    obtain rfl := mayPerform_sdk (fun _ => Prog.not_mayPerform_done _ _) h
    exact .deletePod hr hdelete
  · exact absurd h (Prog.not_mayPerform_done _ _)

theorem dispatchDeployments_sdk_call {action resource namespace_ : String} {params : JsonDict}
    {call : SdkCall} (hr : resource ∈ ["deployments", "deployment"])
    (h : Prog.MayPerform (dispatchDeployments action resource namespace_ params).run
      (.sdk call)) : DispatchCall ⟨action, resource, namespace_⟩ params call := by
  unfold dispatchDeployments at h
  split_ifs at h with hlist hget hcreate hpatch hdelete
  · -- The `list` case.
    obtain rfl := mayPerform_sdk (fun _ => Prog.not_mayPerform_done _ _) h
    exact .listDeployments hr hlist
  · -- The `get` case.
    obtain ⟨name, -, h⟩ := mayPerform_ofBuiltin h
    obtain rfl := mayPerform_sdk (fun _ => Prog.not_mayPerform_done _ _) h
    exact .getDeployment hr hget
  · -- The `create` case.
    obtain ⟨body, hbody, h⟩ := mayPerform_ofBuiltin h
    obtain rfl := mayPerform_sdk (fun _ => Prog.not_mayPerform_done _ _) h
    exact .createDeployment hr hcreate hbody
  · -- The `update` and `patch` case.
    obtain ⟨name, -, h⟩ := mayPerform_ofBuiltin h
    obtain ⟨body, hbody, h⟩ := mayPerform_ofBuiltin h
    obtain rfl := mayPerform_sdk (fun _ => Prog.not_mayPerform_done _ _) h
    exact .patchDeployment hr hpatch hbody
  · -- The `delete` case.
    obtain ⟨name, -, h⟩ := mayPerform_ofBuiltin h
    obtain rfl := mayPerform_sdk (fun _ => Prog.not_mayPerform_done _ _) h
    exact .deleteDeployment hr hdelete
  · exact absurd h (Prog.not_mayPerform_done _ _)

theorem dispatch_sdk_call {t : Target} {params : JsonDict} {call : SdkCall}
    (h : Prog.MayPerform (dispatch t.action t.resource t.namespace params).run (.sdk call)) :
    DispatchCall t params call := by
  unfold dispatch at h
  split_ifs at h with hpods hdeployments hsecrets hnamespaces hconfigmaps
  · exact dispatchPods_sdk_call hpods h
  · exact dispatchDeployments_sdk_call hdeployments h
  · obtain rfl := mayPerform_sdk (fun _ => Prog.not_mayPerform_done _ _) h
    exact .listSecrets hsecrets.1 hsecrets.2
  · obtain rfl := mayPerform_sdk (fun _ => Prog.not_mayPerform_done _ _) h
    exact .listNamespaces hnamespaces.1 hnamespaces.2
  · obtain rfl := mayPerform_sdk (fun _ => Prog.not_mayPerform_done _ _) h
    exact .listConfigMaps hconfigmaps.1 hconfigmaps.2
  · exact absurd h (Prog.not_mayPerform_done _ _)

/-- **Dispatch**: `execute_action` makes no SDK call but those of the dispatch table at
    the normalised target. -/
theorem executeAction_sdk_call {action resource namespace_ : String} {params : JsonDict}
    {call : SdkCall}
    (h : Prog.MayPerform (executeAction action resource namespace_ params).run (.sdk call)) :
    DispatchCall (normalise action resource namespace_) params call := by
  rcases Prog.mayPerform_exceptBind h with h | ⟨-, h⟩
  · -- Looking for a configuration calls no SDK method.
    exact absurd h (loadConfig_no_sdk call)
  · rcases Prog.mayPerform_exceptBind h with h | ⟨r, h⟩
    · rcases Prog.mayPerform_tryCatch h with h | ⟨e, h⟩
      · exact dispatch_sdk_call h
      · split at h <;> exact absurd h (Prog.not_mayPerform_done _ _)
    · exact absurd h (Prog.not_mayPerform_done _ _)

/-! ## What `execute_action` returns -/

omit [CharTables] [ModelValidation] in
@[simp] theorem isPlain_optStr (depth : Nat) (s : Option String) :
    (optStr s).isPlain depth = true := by
  cases s <;> cases depth <;> rfl

omit [CharTables] [ModelValidation] in
@[simp] theorem isPlain_int32 (depth : Nat) (n : Int32) : (Json.int n.toInt).isPlain depth = true := by
  have hlow := n.le_toInt
  have hhigh := n.toInt_lt
  exact Json.isPlain_int depth (by omega)

omit [CharTables] [ModelValidation] in
@[simp] theorem isPlain_optInt32 (depth : Nat) (n : Option Int32) :
    (optInt32 n).isPlain depth = true := by
  cases n with
  | none => cases depth <;> rfl
  | some n => exact isPlain_int32 depth n

omit [CharTables] [ModelValidation] in
/-- A list of plain values is plain. -/
theorem isPlain_arr_map {α : Type} {depth : Nat} (items : List α) (f : α → Json)
    (hf : ∀ a, (f a).isPlain depth = true) :
    (Json.arr (items.map f)).isPlain (depth + 1) = true := by
  show (items.map f).all (Json.isPlain depth) = true
  rw [List.all_map, List.all_eq_true]
  exact fun a _ => hf a

omit [CharTables] [ModelValidation] in
/-- What `_dispatch` answers about a deployment is plain. -/
theorem deploymentInfo_isPlain {d : DeploymentObject} {v : Json} (h : deploymentInfo d = .ok v) :
    v.isPlain 2 = true := by
  unfold deploymentInfo at h
  split at h
  · cases h
    simp
  · cases h

/-- A result that any JSON writer writes. -/
abbrev ReturnsPlain (depth : Nat) (x : ClientM Json) : Prop :=
  Prog.ReturnsOk (fun v => v.isPlain depth = true) x

omit [CharTables] [ModelValidation] in
theorem returnsPlain_ofBuiltin {depth : Nat} {x : Except BuiltinError Json}
    (h : ∀ v, x = .ok v → v.isPlain depth = true) : ReturnsPlain depth (ofBuiltin x) := by
  cases x with
  | ok v => exact Prog.returnsOk_pure (h v rfl)
  | error e => exact Prog.returnsOk_throw _

omit [ModelValidation] in
theorem dispatchPods_returnsPlain (action resource namespace_ : String) (params : JsonDict) :
    ReturnsPlain 2 (dispatchPods action resource namespace_ params) := by
  unfold dispatchPods
  split_ifs with hlist hget hdelete
  · apply Prog.returnsOk_seq
    intro pods
    apply Prog.returnsOk_pure
    exact isPlain_arr_map pods _ fun p => by simp
  · apply Prog.returnsOk_seq
    intro name
    apply Prog.returnsOk_seq
    intro p
    apply Prog.returnsOk_pure
    simp
  · apply Prog.returnsOk_seq
    intro name
    apply Prog.returnsOk_seq
    intro _
    apply Prog.returnsOk_pure
    rfl
  · exact Prog.returnsOk_throw _

theorem dispatchDeployments_returnsPlain (action resource namespace_ : String)
    (params : JsonDict) : ReturnsPlain 2 (dispatchDeployments action resource namespace_ params) := by
  unfold dispatchDeployments
  split_ifs with hlist hget hcreate hpatch hdelete
  · -- The `list` case.
    apply Prog.returnsOk_seq
    intro deployments
    apply Prog.returnsOk_pure
    exact isPlain_arr_map deployments _ fun d => by simp
  · -- The `get` case.
    apply Prog.returnsOk_seq
    intro name
    apply Prog.returnsOk_seq
    intro d
    exact returnsPlain_ofBuiltin fun v hv => deploymentInfo_isPlain hv
  · -- The `create` case.
    apply Prog.returnsOk_seq
    intro body
    apply Prog.returnsOk_seq
    intro d
    apply Prog.returnsOk_pure
    simp
  · -- The `update` and `patch` case.
    apply Prog.returnsOk_seq
    intro name
    apply Prog.returnsOk_seq
    intro body
    apply Prog.returnsOk_seq
    intro d
    apply Prog.returnsOk_pure
    simp
  · -- The `delete` case.
    apply Prog.returnsOk_seq
    intro name
    apply Prog.returnsOk_seq
    intro _
    apply Prog.returnsOk_pure
    rfl
  · exact Prog.returnsOk_throw _

theorem dispatch_returnsPlain (action resource namespace_ : String) (params : JsonDict) :
    ReturnsPlain 2 (dispatch action resource namespace_ params) := by
  unfold dispatch
  split_ifs with hpods hdeployments hsecrets hnamespaces hconfigmaps
  · exact dispatchPods_returnsPlain _ _ _ _
  · exact dispatchDeployments_returnsPlain _ _ _ _
  · apply Prog.returnsOk_seq
    intro secrets
    apply Prog.returnsOk_pure
    exact isPlain_arr_map secrets _ fun s => isPlain_optStr _ _
  · apply Prog.returnsOk_seq
    intro namespaces
    apply Prog.returnsOk_pure
    exact isPlain_arr_map namespaces _ fun n => isPlain_optStr _ _
  · apply Prog.returnsOk_seq
    intro configmaps
    apply Prog.returnsOk_pure
    exact isPlain_arr_map configmaps _ fun cm => isPlain_optStr _ _
  · exact Prog.returnsOk_throw _

/-- **Answers**: whatever `execute_action` returns is plain. -/
theorem executeAction_returnsPlain (action resource namespace_ : String) (params : JsonDict) :
    ReturnsPlain 3 (executeAction action resource namespace_ params) := by
  unfold executeAction
  refine Prog.returnsOk_bind (Prog.returnsOk_true loadConfig) fun _ _ => ?_
  have hdispatch := dispatch_returnsPlain (normalise action resource namespace_).action
    (normalise action resource namespace_).resource
    (normalise action resource namespace_).namespace params
  refine Prog.returnsOk_bind (Prog.returnsOk_tryCatch hdispatch fun e => ?_) fun v hv => ?_
  · -- The handler of `ApiException` only raises.
    split <;> exact Prog.returnsOk_throw _
  · apply Prog.returnsOk_pure
    simp [hv]

end Builder

end AiK8sGateway.K8s
