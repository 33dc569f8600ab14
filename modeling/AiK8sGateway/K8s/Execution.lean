import AiK8sGateway.K8s.Client

/-!
# One Execution

`_dispatch` read in three parts: which SDK call a request comes to, the call itself, and
what is made of its answer.  An execution therefore makes one SDK call at most, and what
it returns was made of the answer to that call.

## Main results

- `dispatch_eq`: `_dispatch` is these three parts.
- `execution_of_path`: the traces of `execute_action`.
-/

namespace AiK8sGateway.K8s

open Foundations PythonText EffectProgram Prog

section Execution

variable [CharTables] [ModelValidation]

/-! ## The call of a request -/

/-- `_require_param`, whose `ValueError` propagates. -/
def requiredParam (params : JsonDict) (key action resource : String) : Except ClientExc String :=
  (requireParam params key action resource).mapError fun e => .py (.builtin e)

/-- `_build_deployment`, whose exceptions propagate. -/
def builtDeployment (params : JsonDict) : Except ClientExc V1Deployment :=
  (buildDeployment params).mapError fun e => .py (.builtin e)

/-- The SDK call for pods, or the exception that comes before it. -/
def plannedPods (action resource namespace_ : String) (params : JsonDict) :
    Except ClientExc SdkCall :=
  if action = "list" then .ok (.listNamespacedPod namespace_)
  else if action = "get" then do
    let name ← requiredParam params "name" action resource
    return .readNamespacedPod name namespace_
  else if action = "delete" then do
    let name ← requiredParam params "name" action resource
    return .deleteNamespacedPod name namespace_
  else .error (unsupported action resource)

/-- The SDK call for deployments, or the exception that comes before it. -/
def plannedDeployments (action resource namespace_ : String) (params : JsonDict) :
    Except ClientExc SdkCall :=
  if action = "list" then .ok (.listNamespacedDeployment namespace_)
  else if action = "get" then do
    let name ← requiredParam params "name" action resource
    return .readNamespacedDeployment name namespace_
  else if action = "create" then do
    let body ← builtDeployment params
    return .createNamespacedDeployment namespace_ body
  else if action = "update" ∨ action = "patch" then do
    let name ← requiredParam params "name" action resource
    let body ← builtDeployment params
    return .patchNamespacedDeployment name namespace_ body
  else if action = "delete" then do
    let name ← requiredParam params "name" action resource
    return .deleteNamespacedDeployment name namespace_
  else .error (unsupported action resource)

/-- The SDK call that a request comes to, or the exception that comes before it. -/
def planned (t : Target) (params : JsonDict) : Except ClientExc SdkCall :=
  if t.resource ∈ ["pods", "pod"] then plannedPods t.action t.resource t.namespace params
  else if t.resource ∈ ["deployments", "deployment"] then
    plannedDeployments t.action t.resource t.namespace params
  else if t.resource ∈ ["secrets", "secret"] ∧ t.action = "list" then
    .ok (.listNamespacedSecret t.namespace)
  else if t.resource ∈ ["namespaces", "namespace"] ∧ t.action = "list" then .ok .listNamespace
  else if t.resource ∈ ["configmaps", "configmap"] ∧ t.action = "list" then
    .ok (.listNamespacedConfigMap t.namespace)
  else .error (unsupported t.action t.resource)

/-! ## The answer of a call -/

/-- What `_dispatch` makes of the answer to an SDK call. -/
def answerOf : (call : SdkCall) → call.Result → Except BuiltinError Json
  | .listNamespacedPod _, pods => .ok (.arr (List.map (fun (p : PodObject) =>
      .obj [("name", optStr p.name), ("phase", optStr p.phase)]) pods))
  | .readNamespacedPod _ _, p => .ok (.obj [("name", optStr (PodObject.name p)),
      ("namespace", optStr (PodObject.namespace p)), ("phase", optStr (PodObject.phase p)),
      ("node", optStr (PodObject.nodeName p))])
  | .deleteNamespacedPod name namespace_, _ =>
    .ok (.obj [("deleted", .str name), ("namespace", .str namespace_)])
  | .listNamespacedDeployment _, deployments => .ok (.arr (List.map (fun (d : DeploymentObject) =>
      .obj [("name", optStr d.name), ("replicas", optInt32 d.replicas),
        ("ready", .int (d.readyReplicas.getD 0).toInt)]) deployments))
  | .readNamespacedDeployment _ _, d => deploymentInfo d
  | .createNamespacedDeployment _ _, d => .ok (.obj [("name", optStr (DeploymentObject.name d)),
      ("namespace", optStr (DeploymentObject.namespace d)),
      ("uid", optStr (DeploymentObject.uid d))])
  | .patchNamespacedDeployment _ _ _, d =>
    .ok (.obj [("name", optStr (DeploymentObject.name d)), ("patched", .bool true)])
  | .deleteNamespacedDeployment name namespace_, _ =>
    .ok (.obj [("deleted", .str name), ("namespace", .str namespace_)])
  | .listNamespacedSecret _, secrets =>
    .ok (.arr (List.map (fun (s : DataObject) => optStr s.name) secrets))
  | .listNamespace, namespaces =>
    .ok (.arr (List.map (fun (n : NamespaceObject) => optStr n.name) namespaces))
  | .listNamespacedConfigMap _, configmaps =>
    .ok (.arr (List.map (fun (cm : DataObject) => optStr cm.name) configmaps))

/-- One SDK call, and what is made of its answer. -/
def issue (call : SdkCall) : ClientM Json := do
  let reply ← sdk call
  ofBuiltin (answerOf call reply)

/-- A plan, carried out. -/
def carryOut : Except ClientExc SdkCall → ClientM Json
  | .ok call => issue call
  | .error e => throw e

omit [ModelValidation] in
theorem dispatchPods_eq (action resource namespace_ : String) (params : JsonDict) :
    dispatchPods action resource namespace_ params =
      carryOut (plannedPods action resource namespace_ params) := by
  unfold dispatchPods plannedPods requiredParam
  split_ifs
  · rfl
  · cases requireParam params "name" action resource <;> rfl
  · cases requireParam params "name" action resource <;> rfl
  · rfl

theorem dispatchDeployments_eq (action resource namespace_ : String) (params : JsonDict) :
    dispatchDeployments action resource namespace_ params =
      carryOut (plannedDeployments action resource namespace_ params) := by
  unfold dispatchDeployments plannedDeployments requiredParam builtDeployment
  split_ifs
  · rfl
  · cases requireParam params "name" action resource <;> rfl
  · cases buildDeployment params <;> rfl
  · cases requireParam params "name" action resource with
    | error e => rfl
    | ok name => cases buildDeployment params <;> rfl
  · cases requireParam params "name" action resource <;> rfl
  · rfl

/-- **Three parts**: `_dispatch` makes the planned call and returns what is made of its
    answer. -/
theorem dispatch_eq (t : Target) (params : JsonDict) :
    dispatch t.action t.resource t.namespace params = carryOut (planned t params) := by
  unfold dispatch planned
  split_ifs
  · exact dispatchPods_eq _ _ _ _
  · exact dispatchDeployments_eq _ _ _ _
  all_goals rfl

/-! ## Traces -/

/-- No SDK call is among the actions. -/
def NoSdk (acts : List (Action signature)) : Prop :=
  ∀ call reply, (⟨.sdk call, reply⟩ : Action signature) ∉ acts

/-- What `execute_action` returns. -/
def success (data : Json) : Json := .obj [("status", .str "success"), ("data", data)]

/-- There is nothing to make of the reply. -/
def Refuses (call : SdkCall) (reply : Except PyExc call.Result) : Prop :=
  ∀ answer data, reply = .ok answer → answerOf call answer ≠ .ok data

/-- The traces of `execute_action`: after the configuration it makes the planned call, or
    none. -/
inductive Execution (t : Target) (params : JsonDict) :
    List (Action signature) → Except ClientExc Json → Prop where
  | unissued {acts : List (Action signature)} {e : ClientExc} (h : NoSdk acts) :
      Execution t params acts (.error e)
  | refused {load : List (Action signature)} {call : SdkCall} {reply : Except PyExc call.Result}
      {e : ClientExc} (h : NoSdk load) (hplan : planned t params = .ok call)
      (hreply : Refuses call reply) (he : ∀ msg, e ≠ .k8sUnavailableError msg) :
      Execution t params (load ++ [⟨.sdk call, reply⟩]) (.error e)
  | answered {load : List (Action signature)} {call : SdkCall} {reply : call.Result} {data : Json}
      (h : NoSdk load) (hplan : planned t params = .ok call)
      (hdata : answerOf call reply = .ok data) :
      Execution t params (load ++ [⟨.sdk call, .ok reply⟩]) (.ok (success data))

omit [CharTables] [ModelValidation] in
/-- One SDK call returns what is made of its answer, or raises an exception of Python. -/
theorem issue_of_path {call : SdkCall} {acts : List (Action signature)}
    {r : Except ClientExc Json} (h : Path (issue call).run acts (.done r)) :
    ∃ reply : Except PyExc call.Result, acts = [⟨.sdk call, reply⟩] ∧
      ((∃ x data, reply = .ok x ∧ answerOf call x = .ok data ∧ r = .ok data) ∨
        Refuses call reply ∧ ∃ e, r = .error (.py e)) := by
  rcases path_perform_iff.mp h with ⟨-, hdone⟩ | ⟨reply, rest, rfl, hrest⟩
  · cases hdone
  · refine ⟨reply, ?_⟩
    cases reply with
    -- The SDK raised.
    | error e =>
      obtain ⟨rfl, hr⟩ := path_done_iff.mp hrest
      exact ⟨rfl, .inr ⟨fun _ _ heq => (nomatch heq), e, Prog.done.inj hr⟩⟩
    -- It answered, and reading the answer may still raise.
    | ok x =>
      obtain ⟨rfl, hr⟩ := path_done_iff.mp hrest
      refine ⟨rfl, ?_⟩
      have hr' : r = (answerOf call x).mapError fun e => .py (.builtin e) := Prog.done.inj hr
      cases hanswer : answerOf call x with
      | ok data => exact .inl ⟨x, data, rfl, hanswer, by rw [hr', hanswer]; rfl⟩
      | error e =>
        refine .inr ⟨?_, .builtin e, by rw [hr', hanswer]; rfl⟩
        intro x' data heq hdata
        cases heq
        cases hanswer.symm.trans hdata

omit [CharTables] [ModelValidation] in
theorem noSdk_of_loadConfig {acts : List (Action signature)}
    {q : Prog signature (Except ClientExc Unit)} (h : Path loadConfig.run acts q) : NoSdk acts :=
  fun call _ hmem => loadConfig_no_sdk call (h.mayPerform hmem)

/-- `_dispatch` ends before its SDK call, or with it. -/
theorem dispatch_of_path {t : Target} {params : JsonDict} {acts : List (Action signature)}
    {r : Except ClientExc Json}
    (h : Path (dispatch t.action t.resource t.namespace params).run acts (.done r)) :
    (acts = [] ∧ ∃ e, r = .error e) ∨
      ∃ (call : SdkCall) (reply : Except PyExc call.Result), planned t params = .ok call ∧
        acts = [⟨.sdk call, reply⟩] ∧
          ((∃ x data, reply = .ok x ∧ answerOf call x = .ok data ∧ r = .ok data) ∨
            Refuses call reply ∧ ∃ e, r = .error (.py e)) := by
  rw [dispatch_eq] at h
  cases hplan : planned t params with
  | error e =>
    rw [hplan] at h
    obtain ⟨rfl, hr⟩ := path_done_iff.mp h
    exact .inl ⟨rfl, e, Prog.done.inj hr⟩
  | ok call =>
    rw [hplan] at h
    obtain ⟨reply, hacts, hr⟩ := issue_of_path h
    exact .inr ⟨call, reply, rfl, hacts, hr⟩

/-- A handler that only raises, and does not turn an exception of Python into a missing
    configuration. -/
def OnlyRaises (handler : ClientExc → ClientM Json) : Prop :=
  ∀ e, ∃ e', (handler e).run = .done (.error e') ∧
    ∀ exc, e = .py exc → ∀ msg, e' ≠ .k8sUnavailableError msg

omit [CharTables] [ModelValidation] in
/-- The handler of `execute_action`, which lets every other exception through. -/
theorem onlyRaises_handler : OnlyRaises fun
    | .py (.apiException status reason _) =>
      throw (.k8sActionError
        ("Kubernetes API returned HTTP " ++ (status.map toString).getD "None" ++ ": " ++
          reason.getD "None") status)
    | exc => throw exc := by
  intro e
  dsimp only
  split
  · exact ⟨_, rfl, by rintro exc - msg heq; cases heq⟩
  · exact ⟨_, rfl, by rintro exc rfl msg heq; cases heq⟩

/-- `_dispatch` under such a handler, with a configuration found before. -/
theorem execution_of_guarded {t : Target} {params : JsonDict} {handler : ClientExc → ClientM Json}
    (hhandler : OnlyRaises handler) {load acts : List (Action signature)} (hnone : NoSdk load)
    {r : Except ClientExc Json}
    (h : Path (tryCatch (dispatch t.action t.resource t.namespace params) handler).run acts
      (.done r)) : Execution t params (load ++ acts) (r.map success) := by
  rcases path_tryCatch_done h with
    ⟨data, rfl, hdispatch⟩ | ⟨first, rest, e, rfl, hdispatch, hraise⟩
  · -- `_dispatch` returned, so that it made its call and read the answer.
    rcases dispatch_of_path hdispatch with ⟨-, e, he⟩ | ⟨call, reply, hplan, rfl, hr⟩
    · cases he
    · rcases hr with ⟨x, data', rfl, hanswer, hdata⟩ | ⟨-, e, he⟩
      · cases hdata
        exact .answered hnone hplan hanswer
      · cases he
  · -- It raised, before the call or by it, and the handler raises in its place.
    obtain ⟨e', hrun, he'⟩ := hhandler e
    rw [hrun] at hraise
    obtain ⟨rfl, hr⟩ := path_done_iff.mp hraise
    cases hr
    rcases dispatch_of_path hdispatch with ⟨rfl, -⟩ | ⟨call, reply, hplan, rfl, hr⟩
    · exact .unissued (by simpa using hnone)
    · rcases hr with ⟨_, _, _, _, hok⟩ | ⟨hreply, exc, he⟩
      · cases hok
      · exact .refused hnone hplan hreply (he' exc (Except.error.inj he))

/-- **Traces of `execute_action`**: every run of it to its end is one of them. -/
theorem execution_of_path {action resource namespace_ : String} {params : JsonDict}
    {acts : List (Action signature)} {r : Except ClientExc Json}
    (h : Path (executeAction action resource namespace_ params).run acts (.done r)) :
    Execution (normalise action resource namespace_) params acts r := by
  rcases path_exceptBind_done h with ⟨e, rfl, hload⟩ | ⟨load, rest, _, rfl, hload, hrest⟩
  · exact .unissued (noSdk_of_loadConfig hload)
  · have hnone := noSdk_of_loadConfig hload
    rcases path_exceptBind_done hrest with
      ⟨e, rfl, hguarded⟩ | ⟨calls, last, data, rfl, hguarded, hend⟩
    · exact execution_of_guarded onlyRaises_handler hnone hguarded
    · obtain ⟨rfl, hr⟩ := path_done_iff.mp hend
      cases hr
      rw [List.append_nil]
      exact execution_of_guarded onlyRaises_handler hnone hguarded

/-- **No answer is lost**: what is made of the answer to an SDK call is what is returned. -/
theorem Execution.result_of_answer {t : Target} {params : JsonDict} {acts : List (Action signature)}
    {r : Except ClientExc Json} (h : Execution t params acts r) {call : SdkCall}
    {answer : call.Result} {data : Json} (hmem : ⟨.sdk call, .ok answer⟩ ∈ acts)
    (hdata : answerOf call answer = .ok data) : r = .ok (success data) := by
  cases h with
  | unissued hnone => exact absurd hmem (hnone _ _)
  | refused hnone _ hreply _ =>
    rcases List.mem_append.mp hmem with hload | hlast
    · exact absurd hload (hnone _ _)
    · cases List.mem_singleton.mp hlast
      exact absurd hdata (hreply _ _ rfl)
  | answered hnone _ hanswer =>
    rcases List.mem_append.mp hmem with hload | hlast
    · exact absurd hload (hnone _ _)
    · cases List.mem_singleton.mp hlast
      rw [Except.ok.inj (hanswer.symm.trans hdata)]

end Execution

end AiK8sGateway.K8s
