import AiK8sGateway.Foundations.FixedReplies
import AiK8sGateway.K8s.Manifest

/-!
# How Executions Fail

What `execute_action` raises when every library call has a fixed outcome.  Its docstring
names its own two exceptions and `ValueError`; the conversions of the builder raise other
classes as well, and so does the answer about a deployment without containers.

## Main results

- `buildDeployment_strays_iff`: which payloads make the builder raise another class.
- `dispatch_strays_iff`: where `_dispatch` raises what neither layer expects.
- `executeAction_uncaught_iff`: when an execution ends with such an exception.
-/

namespace AiK8sGateway.K8s

open Foundations PythonText EffectProgram Prog

/-! ## Classes of exceptions -/

/-- What a built-in operation raised is no `ValueError`. -/
def IsOther (e : BuiltinError) : Prop := ∀ msg, e ≠ .valueError msg

/-- What `_execute_k8s` does not catch. -/
def ClientExc.Uncaught : ClientExc → Prop
  | .py e => e.isValueError = false
  | _ => False

/-- What neither `execute_action` nor `_execute_k8s` catches. -/
def ClientExc.Stray : ClientExc → Prop
  | .py (.apiException _ _ _) => False
  | .py e => e.isValueError = false
  | _ => False

theorem stray_builtin_iff (e : BuiltinError) : ClientExc.Stray (.py (.builtin e)) ↔ IsOther e := by
  cases e <;> simp [ClientExc.Stray, PyExc.isValueError, IsOther]

/-! ## Libraries -/

/-- What comes of every library call.  An execution makes no call twice, so one outcome for
    each is all that it sees. -/
abbrev Libraries := (op : signature.Op) → signature.Reply op

namespace Libraries

/-- `config.load_incluster_config()`. -/
def incluster (libs : Libraries) : Except PyExc Unit := libs Op.loadInclusterConfig

/-- `config.load_kube_config()`. -/
def kubeConfig (libs : Libraries) : Except PyExc Unit := libs Op.loadKubeConfig

/-- A call of the SDK. -/
def sdk (libs : Libraries) (call : SdkCall) : Except PyExc call.Result := libs (Op.sdk call)

end Libraries

/-- The libraries raise what they document: the loaders `ConfigException`, the SDK
    `ApiException`. -/
structure RaisesDocumented (libs : Libraries) : Prop where
  incluster : ∀ e, libs.incluster = .error e → ∃ msg, e = .configException msg
  kubeConfig : ∀ e, libs.kubeConfig = .error e → ∃ msg, e = .configException msg
  sdk : ∀ call e, libs.sdk call = .error e →
    ∃ status reason body, e = .apiException status reason body

/-- Some configuration is found. -/
def Configured (libs : Libraries) : Prop := libs.incluster = .ok () ∨ libs.kubeConfig = .ok ()

/-! ## The builder -/

section Builder

variable [CharTables] [ModelValidation]

/-- `int` of the value raises something else than a `ValueError`. -/
def Unconvertible (v : Json) : Prop := Raises IsOther (pyInt v)

omit [ModelValidation] in
/-- `int` refuses nulls and containers with a `TypeError`, and infinities with an
    `OverflowError`. -/
theorem unconvertible_iff (v : Json) :
    Unconvertible v ↔ v = .null ∨ (∃ items, v = .arr items) ∨ (∃ fields, v = .obj fields) ∨
      ∃ neg, v = .float (.inf neg) := by
  unfold Unconvertible
  cases v with
  | null | arr items | obj fields => simp [pyInt, IsOther]
  | bool b | int n => simp [pyInt]
  | float x => cases x <;> simp [pyInt, IsOther]
  | str s =>
    have hvalue : ¬ Raises IsOther (intOfStr s) := by
      intro hraises
      obtain ⟨e, he, hother⟩ := hraises
      obtain ⟨msg, rfl⟩ := intOfStr_error he
      exact hother msg rfl
    simp [pyInt, hvalue]

/-- The replica count and the port of a payload, with the defaults of the builder. -/
def replicasValue (params : JsonDict) : Json := (params.get? "replicas").getD (.int 1)

def portValue (params : JsonDict) : Json := (params.get? "container_port").getD (.int 80)

/-- One of the two conversions of the builder raises something else than a `ValueError`,
    and none before it raises at all. -/
def UnconvertiblePayload (params : JsonDict) : Prop :=
  Unconvertible (replicasValue params) ∨
    (∃ n, pyInt (replicasValue params) = .ok n) ∧ Unconvertible (portValue params)

omit [CharTables] in
theorem not_raises_v1Container (c : V1Container) : ¬ Raises IsOther (v1Container c) := by
  intro hraises
  obtain ⟨e, he, hother⟩ := hraises
  obtain ⟨msg, rfl⟩ := v1Container_error he
  exact hother msg rfl

/-- **The builder** raises something else than a `ValueError` exactly for such payloads. -/
theorem buildDeployment_strays_iff (params : JsonDict) :
    Raises IsOther (buildDeployment params) ↔ UnconvertiblePayload params := by
  unfold buildDeployment
  dsimp only
  rw [raises_bind_iff]
  refine or_congr Iff.rfl ?_
  -- After the conversions only the validation of the container can raise.
  have hrest : ∀ (c : V1Container) (f : V1Container → V1Deployment),
      ¬ Raises IsOther (v1Container c >>= fun container => pure (f container)) := by
    intro c f
    rw [raises_bind_of_not (not_raises_v1Container c)]
    simp [pure, Except.pure]
  constructor
  · -- Both conversions raise, one after the other.
    intro h
    obtain ⟨n, hn, h⟩ := h
    rw [raises_bind_iff] at h
    refine ⟨⟨n, hn⟩, h.resolve_right ?_⟩
    intro h
    obtain ⟨port, -, h⟩ := h
    exact hrest _ _ h
  · -- The first one is enough.
    intro h
    obtain ⟨⟨n, hn⟩, hport⟩ := h
    refine ⟨n, hn, ?_⟩
    rw [raises_bind_iff]
    exact .inl hport

end Builder

/-! ## The dispatch table -/

section Dispatch

variable [CharTables] [ModelValidation] {libs : Libraries}

/-- The name in a payload, empty by default. -/
def nameValue (params : JsonDict) : Json := (params.get? "name").getD (.str "")

omit [ModelValidation] in
theorem requireParam_ok_iff {params : JsonDict} {action resource name : String} :
    requireParam params "name" action resource = .ok name ↔
      (nameValue params).truthy = true ∧ name = (nameValue params).toStr := by
  unfold requireParam nameValue
  dsimp only
  split_ifs with htruthy
  · simp [htruthy, eq_comm]
  · simp [htruthy]

omit [ModelValidation] in
/-- A missing parameter is a `ValueError`. -/
theorem not_raises_requireParam (params : JsonDict) (key action resource : String) :
    ¬ Raises IsOther (requireParam params key action resource) := by
  unfold requireParam
  dsimp only
  split_ifs
  · exact not_raises_ok _
  · rw [raises_error_iff]
    exact fun hother => hother _ rfl

omit [CharTables] [ModelValidation] in
theorem strays_ofBuiltin_iff {α : Type} (x : Except BuiltinError α) :
    Raises ClientExc.Stray (result libs (ofBuiltin x)) ↔ Raises IsOther x := by
  have hresult : result libs (ofBuiltin x) = x.mapError fun e => .py (.builtin e) := rfl
  rw [hresult, raises_mapError_iff]
  simp only [stray_builtin_iff]

omit [CharTables] [ModelValidation] in
theorem result_sdk (libs : Libraries) (call : SdkCall) :
    result libs (sdk call) = (libs.sdk call).mapError .py := rfl

omit [CharTables] [ModelValidation] in
/-- What the SDK raises is translated. -/
theorem not_strays_sdk (hlibs : RaisesDocumented libs) (call : SdkCall) :
    ¬ Raises ClientExc.Stray (result libs (sdk call)) := by
  rw [result_sdk, raises_mapError_iff]
  intro hraises
  obtain ⟨e, he, hstray⟩ := hraises
  obtain ⟨status, reason, body, rfl⟩ := hlibs.sdk call e he
  exact hstray

omit [CharTables] [ModelValidation] in
/-- A branch that ends with an SDK call and its answer. -/
theorem not_strays_sdk_pure (hlibs : RaisesDocumented libs) (call : SdkCall)
    (f : call.Result → Json) :
    ¬ Raises ClientExc.Stray (result libs (sdk call >>= fun resp => pure (f resp))) := by
  rw [result_bind, raises_bind_of_not (not_strays_sdk hlibs call)]
  simp

omit [ModelValidation] in
/-- A branch that starts with a required name. -/
theorem strays_requireParam_iff (params : JsonDict) (action resource : String)
    (f : String → ClientM Json) :
    Raises ClientExc.Stray
        (result libs (ofBuiltin (requireParam params "name" action resource) >>= f)) ↔
      (nameValue params).truthy = true ∧
        Raises ClientExc.Stray (result libs (f (nameValue params).toStr)) := by
  -- The check of the name raises a `ValueError` only.
  have hname : ¬ Raises ClientExc.Stray
      (result libs (ofBuiltin (requireParam params "name" action resource))) := by
    rw [strays_ofBuiltin_iff]
    exact not_raises_requireParam params "name" action resource
  have hok : ∀ name, result libs (ofBuiltin (requireParam params "name" action resource)) =
      .ok name ↔ requireParam params "name" action resource = .ok name := by
    intro name
    show (requireParam params "name" action resource).mapError _ = .ok name ↔ _
    cases requireParam params "name" action resource <;> simp [Except.mapError]
  rw [result_bind, raises_bind_of_not hname]
  simp only [hok, requireParam_ok_iff]
  constructor
  · intro h
    obtain ⟨_, ⟨htruthy, rfl⟩, h⟩ := h
    exact ⟨htruthy, h⟩
  · intro h
    exact ⟨_, ⟨h.1, rfl⟩, h.2⟩

/-- A branch that builds a deployment and sends it. -/
theorem strays_build_iff (hlibs : RaisesDocumented libs) (params : JsonDict)
    (call : V1Deployment → SdkCall) (f : ∀ body, (call body).Result → Json) :
    Raises ClientExc.Stray (result libs (ofBuiltin (buildDeployment params) >>= fun body =>
        sdk (call body) >>= fun resp => pure (f body resp))) ↔
      UnconvertiblePayload params := by
  rw [result_bind, raises_bind_iff, strays_ofBuiltin_iff, buildDeployment_strays_iff]
  refine or_iff_left ?_
  intro h
  obtain ⟨body, -, h⟩ := h
  exact not_strays_sdk_pure hlibs (call body) (f body) h

omit [CharTables] [ModelValidation] in
theorem not_strays_unsupported (action resource : String) :
    ¬ Raises ClientExc.Stray
      (result libs (throw (unsupported action resource) : ClientM Json)) := by
  rw [result_throw, raises_error_iff, unsupported, stray_builtin_iff]
  exact fun hother => hother _ rfl

/-- The target and payload for which `_dispatch` raises what nobody expects. -/
inductive Breaks (libs : Libraries) (t : Target) (params : JsonDict) : Prop where
  | create (hresource : t.resource ∈ ["deployments", "deployment"]) (haction : t.action = "create")
      (hpayload : UnconvertiblePayload params)
  | patch (hresource : t.resource ∈ ["deployments", "deployment"])
      (haction : t.action = "update" ∨ t.action = "patch")
      (hname : (nameValue params).truthy = true) (hpayload : UnconvertiblePayload params)
  | emptyDeployment (hresource : t.resource ∈ ["deployments", "deployment"])
      (haction : t.action = "get") (hname : (nameValue params).truthy = true)
      {d : DeploymentObject}
      (hread : libs.sdk (.readNamespacedDeployment (nameValue params).toStr t.namespace) = .ok d)
      (hempty : d.images = [])

omit [ModelValidation] in
theorem not_strays_dispatchPods (hlibs : RaisesDocumented libs)
    (action resource namespace_ : String) (params : JsonDict) :
    ¬ Raises ClientExc.Stray
      (result libs (dispatchPods action resource namespace_ params)) := by
  unfold dispatchPods
  split_ifs with hlist hget hdelete
  · exact not_strays_sdk_pure hlibs _ _
  · rw [strays_requireParam_iff]
    exact fun h => not_strays_sdk_pure hlibs _ _ h.2
  · rw [strays_requireParam_iff]
    exact fun h => not_strays_sdk_pure hlibs _ _ h.2
  · exact not_strays_unsupported action resource

omit [CharTables] [ModelValidation] in
/-- The answer about a deployment names its first container. -/
theorem raises_deploymentInfo_iff (d : DeploymentObject) :
    Raises IsOther (deploymentInfo d) ↔ d.images = [] := by
  unfold deploymentInfo
  cases d.images with
  | nil => simp [IsOther]
  | cons image images => simp

omit [CharTables] [ModelValidation] in
/-- The branch for `get`. -/
theorem strays_get_iff (hlibs : RaisesDocumented libs) (name namespace_ : String) :
    Raises ClientExc.Stray (result libs (sdk (.readNamespacedDeployment name namespace_) >>=
        fun resp => ofBuiltin (deploymentInfo resp))) ↔
      ∃ d : DeploymentObject,
        libs.sdk (.readNamespacedDeployment name namespace_) = .ok d ∧ d.images = [] := by
  have hok : ∀ d, result libs (sdk (.readNamespacedDeployment name namespace_)) = .ok d ↔
      libs.sdk (.readNamespacedDeployment name namespace_) = .ok d := by
    intro d
    rw [result_sdk]
    cases libs.sdk (.readNamespacedDeployment name namespace_) <;> simp [Except.mapError]
  rw [result_bind, raises_bind_of_not (not_strays_sdk hlibs _)]
  refine exists_congr fun d => and_congr (hok d) ?_
  exact (strays_ofBuiltin_iff _).trans (raises_deploymentInfo_iff d)

theorem dispatchDeployments_strays_iff (hlibs : RaisesDocumented libs) {t : Target}
    (hresource : t.resource ∈ ["deployments", "deployment"]) (params : JsonDict) :
    Raises ClientExc.Stray
        (result libs (dispatchDeployments t.action t.resource t.namespace params)) ↔
      Breaks libs t params := by
  constructor
  · intro h
    unfold dispatchDeployments at h
    split_ifs at h with hlist hget hcreate hpatch hdelete
    · -- The `list` case.
      exact absurd h (not_strays_sdk_pure hlibs _ _)
    · -- The `get` case.
      rw [strays_requireParam_iff, strays_get_iff hlibs] at h
      obtain ⟨hname, d, hread, hempty⟩ := h
      exact .emptyDeployment hresource hget hname hread hempty
    · -- The `create` case.
      exact .create hresource hcreate ((strays_build_iff hlibs params _ _).mp h)
    · -- The `update` and `patch` case.
      rw [strays_requireParam_iff] at h
      exact .patch hresource hpatch h.1 ((strays_build_iff hlibs params _ _).mp h.2)
    · -- The `delete` case.
      rw [strays_requireParam_iff] at h
      exact absurd h.2 (not_strays_sdk_pure hlibs _ _)
    · exact absurd h (not_strays_unsupported t.action t.resource)
  · intro h
    unfold dispatchDeployments
    cases h with
    | create _ haction hpayload =>
      rw [if_neg (by simp [haction]), if_neg (by simp [haction]), if_pos haction]
      exact (strays_build_iff hlibs params _ _).mpr hpayload
    | patch _ haction hname hpayload =>
      have hother : t.action ≠ "list" ∧ t.action ≠ "get" ∧ t.action ≠ "create" := by
        rcases haction with haction | haction <;> simp [haction]
      rw [if_neg hother.1, if_neg hother.2.1, if_neg hother.2.2, if_pos haction,
        strays_requireParam_iff]
      exact ⟨hname, (strays_build_iff hlibs params _ _).mpr hpayload⟩
    | emptyDeployment _ haction hname hread hempty =>
      rw [if_neg (by simp [haction]), if_pos haction, strays_requireParam_iff,
        strays_get_iff hlibs]
      exact ⟨hname, _, hread, hempty⟩

/-- **Stray exceptions** come from the builder and from the answer about a deployment
    only. -/
theorem dispatch_strays_iff (hlibs : RaisesDocumented libs) (t : Target) (params : JsonDict) :
    Raises ClientExc.Stray (result libs (dispatch t.action t.resource t.namespace params)) ↔
      Breaks libs t params := by
  by_cases hdeployments : t.resource ∈ ["deployments", "deployment"]
  · rw [dispatch_of_deployment hdeployments]
    exact dispatchDeployments_strays_iff hlibs hdeployments params
  · have hnone : ¬ Breaks libs t params := by
      intro h
      cases h with
      | create hresource | patch hresource | emptyDeployment hresource =>
        exact hdeployments hresource
    refine iff_of_false ?_ hnone
    unfold dispatch
    split_ifs
    · exact not_strays_dispatchPods hlibs _ _ _ _
    · exact not_strays_sdk_pure hlibs _ _
    · exact not_strays_sdk_pure hlibs _ _
    · exact not_strays_sdk_pure hlibs _ _
    · exact not_strays_unsupported _ _

end Dispatch

/-! ## Executions -/

section Execution

variable [CharTables] [ModelValidation] {libs : Libraries}

omit [CharTables] [ModelValidation] in
theorem result_incluster (libs : Libraries) :
    result libs (ofLibrary (Prog.call (S := signature) Op.loadInclusterConfig)) =
      libs.incluster.mapError .py := rfl

omit [CharTables] [ModelValidation] in
theorem result_kubeConfig (libs : Libraries) :
    result libs (ofLibrary (Prog.call (S := signature) Op.loadKubeConfig)) =
      libs.kubeConfig.mapError .py := rfl

omit [CharTables] [ModelValidation] in
/-- With a configuration, loading it gets through. -/
theorem result_loadConfig_ok (hlibs : RaisesDocumented libs) (hconfigured : Configured libs) :
    result libs loadConfig = .ok () := by
  have hincluster := result_incluster libs
  have hkube := result_kubeConfig libs
  cases hfirst : libs.incluster with
  | ok u =>
    rw [hfirst] at hincluster
    exact result_tryCatch_of_ok libs hincluster _
  | error e =>
    -- The kubeconfig file is tried next, and it is there.
    obtain ⟨msg, rfl⟩ := hlibs.incluster e hfirst
    have hsecond : libs.kubeConfig = .ok () := hconfigured.resolve_left (by simp [hfirst])
    rw [hfirst] at hincluster
    rw [hsecond] at hkube
    refine (result_tryCatch_of_error libs hincluster _).trans ?_
    exact result_tryCatch_of_ok libs hkube _

omit [CharTables] [ModelValidation] in
/-- Without one it ends with the exception that leads to a simulated answer. -/
theorem result_loadConfig_error (hlibs : RaisesDocumented libs) (hnone : ¬ Configured libs) :
    ∃ msg, result libs loadConfig = .error (.k8sUnavailableError msg) := by
  have hincluster := result_incluster libs
  have hkube := result_kubeConfig libs
  unfold Configured at hnone
  cases hfirst : libs.incluster with
  | ok u => exact absurd (.inl hfirst) hnone
  | error e =>
    cases hsecond : libs.kubeConfig with
    | ok u => exact absurd (.inr hsecond) hnone
    | error e' =>
      obtain ⟨msg, rfl⟩ := hlibs.incluster e hfirst
      obtain ⟨msg', rfl⟩ := hlibs.kubeConfig e' hsecond
      rw [hfirst] at hincluster
      rw [hsecond] at hkube
      exact ⟨_, (result_tryCatch_of_error libs hincluster _).trans
        (result_tryCatch_of_error libs hkube _)⟩

/-- **Uncaught exceptions**: an execution ends with one exactly if a configuration is
    found and the dispatch breaks. -/
theorem executeAction_uncaught_iff (hlibs : RaisesDocumented libs)
    (action resource namespace_ : String) (params : JsonDict) :
    Raises ClientExc.Uncaught
        (result libs (executeAction action resource namespace_ params)) ↔
      Configured libs ∧ Breaks libs (normalise action resource namespace_) params := by
  unfold executeAction
  by_cases hconfigured : Configured libs
  · rw [result_bind_of_ok libs (result_loadConfig_ok hlibs hconfigured), result_bind,
      raises_bind_iff, result_tryCatch]
    refine (or_iff_left ?_).trans ((raises_tryCatch_iff (Q := ClientExc.Stray) ?_ _).trans ?_)
    · intro h
      obtain ⟨v, -, h⟩ := h
      exact not_raises_ok _ h
    · -- The handler turns `ApiException` into what is caught, and passes on the rest.
      intro e
      cases e with
      | k8sUnavailableError _ | k8sActionError _ _ => simp [ClientExc.Uncaught, ClientExc.Stray]
      | py e => cases e <;> simp [ClientExc.Uncaught, ClientExc.Stray]
    · rw [dispatch_strays_iff hlibs]
      exact (and_iff_right hconfigured).symm
  · -- Without a configuration the error is one that is caught.
    obtain ⟨msg, hload⟩ := result_loadConfig_error hlibs hconfigured
    rw [result_bind_of_error libs hload, raises_error_iff]
    simp [hconfigured, ClientExc.Uncaught]

end Execution

end AiK8sGateway.K8s
