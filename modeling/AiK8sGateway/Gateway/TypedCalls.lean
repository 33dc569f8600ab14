import AiK8sGateway.Gateway.ClientAgreement
import AiK8sGateway.Gateway.Escalation
import AiK8sGateway.Gateway.SdkCalls

/-!
# Typed Calls of the Client

The convenience methods of `GatewayClient`, end to end: from the arguments of a method over
the posted payload, the gateway and its policy to the call of the Kubernetes SDK.

## Main results

- `planned_eq`: the SDK call that the gateway makes of a typed call.
- `typed_call_delivered`: what becomes of a typed call under the shipped policy.
-/

namespace AiK8sGateway

open Foundations EffectProgram PythonText Approval Audit Auth Risk Rego
open AgentClient (GatewayClient GatewayExc ResourceArgs Response handleResponse)

/-! ## The methods -/

/-- A call of one of the convenience methods, with its arguments. -/
inductive TypedCall where
  | listPods («namespace» : String)
  | getPod (name «namespace» : String)
  | listDeployments («namespace» : String)
  | getDeployment (name «namespace» : String)
  | createDeployment (name image «namespace» : String) (replicas containerPort : Int)
      (resources : ResourceArgs)
  | patchDeployment (name «namespace» : String) (image : Option String) (replicas : Option Int)
  | listSecrets («namespace» : String)
  | listNamespaces

namespace TypedCall

/-- The method, called on a client. -/
def run (self : GatewayClient) : TypedCall → AgentClient.ClientM Json
  | listPods namespace_ => AgentClient.listPods self namespace_
  | getPod name namespace_ => AgentClient.getPod self name namespace_
  | listDeployments namespace_ => AgentClient.listDeployments self namespace_
  | getDeployment name namespace_ => AgentClient.getDeployment self name namespace_
  | createDeployment name image namespace_ replicas containerPort resources =>
    AgentClient.createDeployment self name image namespace_ replicas containerPort resources
  | patchDeployment name namespace_ image replicas =>
    AgentClient.patchDeployment self name namespace_ image replicas
  | listSecrets namespace_ => AgentClient.listSecrets self namespace_
  | listNamespaces => AgentClient.listNamespaces self

/-- The verb and the resource of a method. -/
def verb : TypedCall → String × String
  | listPods _ => ("list", "pods")
  | getPod _ _ => ("get", "pods")
  | listDeployments _ => ("list", "deployments")
  | getDeployment _ _ => ("get", "deployments")
  | createDeployment _ _ _ _ _ _ => ("create", "deployments")
  | patchDeployment _ _ _ _ => ("patch", "deployments")
  | listSecrets _ => ("list", "secrets")
  | listNamespaces => ("list", "namespaces")

/-- The verbs and resources of the methods. -/
def verbs : List (String × String) :=
  [("list", "pods"), ("get", "pods"), ("list", "deployments"), ("get", "deployments"),
    ("create", "deployments"), ("patch", "deployments"), ("list", "secrets"),
    ("list", "namespaces")]

theorem verb_mem (tc : TypedCall) : tc.verb ∈ verbs := by
  cases tc <;> simp [verb, verbs]

/-- The namespace of a call. -/
def «namespace» : TypedCall → String
  | listPods namespace_ | getPod _ namespace_ | listDeployments namespace_
  | getDeployment _ namespace_ | createDeployment _ _ namespace_ _ _ _
  | patchDeployment _ namespace_ _ _ | listSecrets namespace_ => namespace_
  | listNamespaces => "default"

/-- The params of a call, if it has any. -/
def params : TypedCall → Option JsonDict
  | getPod name _ | getDeployment name _ => some (AgentClient.nameParams name)
  | createDeployment name image _ replicas containerPort resources =>
    some (AgentClient.createParams name image replicas containerPort resources)
  | patchDeployment name _ image replicas => some (AgentClient.patchParams name image replicas)
  | _ => none

/-- Every method is a call of `action`. -/
theorem run_eq (self : GatewayClient) (tc : TypedCall) :
    tc.run self = AgentClient.action self tc.verb.1 tc.verb.2 tc.namespace tc.params := by
  cases tc <;> rfl

/-- The body that the gateway gets. -/
def body (tc : TypedCall) : AgentActionRequest :=
  ⟨tc.verb.1, tc.verb.2, tc.namespace, tc.params.getD .empty⟩

/-- The name that a call is about, if it must have one. -/
def name? : TypedCall → Option String
  | getPod name _ | getDeployment name _ | patchDeployment name _ _ _ => some name
  | _ => none

end TypedCall

/-! ## The SDK call -/

/-- The manifest of a deployment of one container. -/
def manifestOf (name image : String) (replicas port : Int) (resources : ResourceArgs) :
    K8s.V1Deployment where
  apiVersion := "apps/v1"
  kind := "Deployment"
  metadata := { name := some (.str name), labels := [("managed-by", .str "ai-k8s-gateway")] }
  spec :=
    { replicas := replicas
      selector := [("app", .str name)]
      template :=
        { metadata := { labels := [("app", .str name), ("managed-by", .str "ai-k8s-gateway")] }
          spec :=
            { securityContext := { runAsNonRoot := some true, runAsUser := some 65534 }
              containers :=
                [{ name := .str name
                   image := .str image
                   ports := [port]
                   resources :=
                    { requests := [("cpu", .str resources.cpuRequest),
                        ("memory", .str resources.memoryRequest)]
                      limits := [("cpu", .str resources.cpuLimit),
                        ("memory", .str resources.memoryLimit)] }
                   securityContext :=
                    { privileged := some false, allowPrivilegeEscalation := some false } }] } } }

section Sent

variable [Runtime]

/-- The namespace that a call goes to. -/
def TypedCall.target (tc : TypedCall) : String := K8s.strOr (strip tc.namespace) "default"

/-- The SDK call that a typed call is for.  A patch sets what it leaves out to the
    defaults of the builder. -/
def TypedCall.sent (tc : TypedCall) : K8s.SdkCall :=
  match tc with
  | listPods _ => .listNamespacedPod tc.target
  | getPod name _ => .readNamespacedPod name tc.target
  | listDeployments _ => .listNamespacedDeployment tc.target
  | getDeployment name _ => .readNamespacedDeployment name tc.target
  | createDeployment name image _ replicas containerPort resources =>
    .createNamespacedDeployment tc.target (manifestOf name image replicas containerPort resources)
  | patchDeployment name _ image replicas =>
    .patchNamespacedDeployment name tc.target
      (manifestOf name (image.getD "nginx:alpine") (replicas.getD 1) 80 {})
  | listSecrets _ => .listNamespacedSecret tc.target
  | listNamespaces => .listNamespace

/-- The builder makes the manifest of the arguments. -/
theorem buildDeployment_createParams (name image : String) (replicas port : Int)
    (resources : ResourceArgs) :
    K8s.buildDeployment (AgentClient.createParams name image replicas port resources) =
      .ok (manifestOf name image replicas port resources) :=
  K8s.buildDeployment_of_named (fun h => (by cases h)) rfl rfl

theorem buildDeployment_patchParams (name : String) (image : Option String)
    (replicas : Option Int) :
    K8s.buildDeployment (AgentClient.patchParams name image replicas) =
      .ok (manifestOf name (image.getD "nginx:alpine") (replicas.getD 1) 80 {}) := by
  cases image <;> cases replicas <;>
    exact K8s.buildDeployment_of_named (fun h => (by cases h)) rfl rfl

/-- The words of the methods are in the form that the gateway dispatches on. -/
theorem strip_lower_verb (tc : TypedCall) :
    strip (lower tc.verb.1) = tc.verb.1 ∧ strip (lower tc.verb.2) = tc.verb.2 := by
  have hall : ∀ v ∈ TypedCall.verbs,
      (v.1.toList.all isAscii = true ∧ strip (String.ofList (v.1.toList.map Char.toLower)) = v.1) ∧
      (v.2.toList.all isAscii = true ∧
        strip (String.ofList (v.2.toList.map Char.toLower)) = v.2) := by decide
  obtain ⟨⟨haction, hverb⟩, hascii, hresource⟩ := hall tc.verb tc.verb_mem
  rw [lower_of_ascii _ haction, lower_of_ascii _ hascii]
  exact ⟨hverb, hresource⟩

theorem normalise_typed (tc : TypedCall) :
    K8s.normalise tc.verb.1 tc.verb.2 tc.namespace = ⟨tc.verb.1, tc.verb.2, tc.target⟩ := by
  obtain ⟨hverb, hresource⟩ := strip_lower_verb tc
  rw [K8s.normalise, hverb, hresource, TypedCall.target]

omit [Runtime] in
theorem name_of_params {tc : TypedCall} {name : String} (h : tc.name? = some name) :
    (tc.params.getD .empty).get? "name" = some (.str name) := by
  cases tc with
  | getPod _ _ | getDeployment _ _ =>
    cases h
    rfl
  | patchDeployment _ _ image replicas =>
    cases h
    cases image <;> cases replicas <;> rfl
  | _ => cases h

/-- A method that needs a name asks for it first. -/
theorem planned_named {tc : TypedCall} {name : String} (h : tc.name? = some name) :
    ∃ next, K8s.planned ⟨tc.verb.1, tc.verb.2, tc.target⟩ (tc.params.getD .empty) =
        (K8s.requiredParam (tc.params.getD .empty) "name" tc.verb.1 tc.verb.2 >>= next) ∧
      next name = .ok tc.sent := by
  cases tc with
  | getPod name namespace_ =>
    -- The name is asked for, then the call is made.
    cases h
    refine ⟨fun name => .ok (.readNamespacedPod name _), ?_, rfl⟩
    simp [K8s.planned, K8s.plannedPods, TypedCall.verb, Pure.pure, Except.pure]
  | getDeployment name namespace_ =>
    cases h
    refine ⟨fun name => .ok (.readNamespacedDeployment name _), ?_, rfl⟩
    simp [K8s.planned, K8s.plannedDeployments, TypedCall.verb, Pure.pure, Except.pure]
  -- `patch_deployment` asks for the name, then builds the body.
  | patchDeployment name namespace_ image replicas =>
    cases h
    let target := (TypedCall.patchDeployment name namespace_ image replicas).target
    refine ⟨fun given => (K8s.builtDeployment (AgentClient.patchParams name image replicas)).bind
      fun body => .ok (.patchNamespacedDeployment given target body), ?_, ?_⟩
    · simp [K8s.planned, K8s.plannedDeployments, TypedCall.verb, TypedCall.params, target, Bind.bind,
        Pure.pure, Except.pure]
    · rw [K8s.builtDeployment, buildDeployment_patchParams]
      rfl
  | _ => cases h

/-- **The call of a method**: the gateway makes of the posted body the SDK call that the
    method is for. -/
theorem planned_eq {tc : TypedCall} (hname : tc.name? ≠ some "") :
    K8s.planned ⟨tc.verb.1, tc.verb.2, tc.target⟩ (tc.params.getD .empty) = .ok tc.sent := by
  cases h : tc.name? with
  | some name =>
    obtain ⟨next, hplan, hnext⟩ := planned_named h
    have hne : name ≠ "" := fun heq => hname (heq ▸ h)
    have hparam : K8s.requiredParam (tc.params.getD .empty) "name" tc.verb.1 tc.verb.2 =
        .ok name := by
      simp [K8s.requiredParam, K8s.requireParam, name_of_params h, hne, Json.truthy, Json.toStr,
        Except.mapError]
    rw [hplan, hparam]
    exact hnext
  | none =>
    cases tc with
    | getPod _ _ | getDeployment _ _ | patchDeployment _ _ _ _ => cases h
    | createDeployment name image namespace_ replicas port resources =>
      simp [K8s.planned, K8s.plannedDeployments, TypedCall.verb, TypedCall.params, TypedCall.sent,
        K8s.builtDeployment, buildDeployment_createParams, Except.mapError]
    | _ => simp [K8s.planned, K8s.plannedPods, K8s.plannedDeployments, TypedCall.verb,
        TypedCall.sent]

/-- An empty name is refused before any call. -/
theorem planned_unnamed {tc : TypedCall} (hname : tc.name? = some "") (call : K8s.SdkCall) :
    K8s.planned ⟨tc.verb.1, tc.verb.2, tc.target⟩ (tc.params.getD .empty) ≠ .ok call := by
  obtain ⟨next, hplan, -⟩ := planned_named hname
  have hparam : ∃ e, K8s.requiredParam (tc.params.getD .empty) "name" tc.verb.1 tc.verb.2 =
      .error e := by
    simp [K8s.requiredParam, K8s.requireParam, name_of_params hname, Json.truthy, Except.mapError]
  obtain ⟨e, he⟩ := hparam
  rw [hplan, he]
  intro h
  cases h

/-- The plan of a posted body. -/
theorem planned_ok_iff (tc : TypedCall) (call : K8s.SdkCall) :
    K8s.planned (K8s.normalise tc.body.action tc.body.resource tc.body.namespace) tc.body.params =
      .ok call ↔ tc.name? ≠ some "" ∧ call = tc.sent := by
  rw [TypedCall.body, normalise_typed]
  by_cases hname : tc.name? = some ""
  · exact iff_of_false (planned_unnamed hname call) fun h => h.1 hname
  · rw [planned_eq hname, Except.ok.injEq, eq_comm]
    exact (and_iff_right hname).symm

/-! ## The approval queue -/

omit [Runtime] in
/-- The params name no host path, and no image that is null. -/
theorem plain_params (tc : TypedCall) :
    tc.body.params.get? "hostPath" ≠ some (.bool true) ∧
      tc.body.params.get? "image" ≠ some .null := by
  cases tc with
  | patchDeployment _ _ image replicas =>
    cases image <;> cases replicas <;>
      exact ⟨fun h => (by cases h), fun h => (by cases h)⟩
  | _ => exact ⟨fun h => (by cases h), fun h => (by cases h)⟩

/-- No call of a method escalates: what it writes is a deployment. -/
theorem not_escalates {req : AgentCall} {tc : TypedCall} (hbody : req.body = tc.body) :
    ¬ req.Escalates := by
  have hwords : ∀ v ∈ TypedCall.verbs, v.1 ∈ Policies.AgentActions.writeActions →
      v.2 ∉ Risk.sensitiveResources := by decide
  obtain ⟨hverb, hresource⟩ := strip_lower_verb tc
  obtain ⟨hhost, hnull⟩ := plain_params tc
  rintro ⟨hwrite, hpoints⟩
  rw [hbody, TypedCall.body] at hwrite
  have hplain : ¬ req.NamesSensitive := by
    rw [AgentCall.NamesSensitive, hbody, TypedCall.body, hresource]
    apply hwords tc.verb tc.verb_mem
    rwa [← hverb, strip_verb (.inr hwrite)]
  rw [AgentCall.MountsHost, AgentCall.NullImage, hbody] at hpoints
  rcases hpoints with ⟨-, h | h | h⟩ | ⟨h, -⟩
  · exact hplain h
  · exact hhost h
  · exact hnull h
  · exact hhost h

end Sent

/-! ## The client's end of a run -/

section Ends

variable [Runtime] {settings : Settings} {run : ServerRun settings}

/-- The SDK calls of a run. -/
def ServerRun.sdkCalls (run : ServerRun settings) : List K8s.SdkCall :=
  (executions run.acts).flatMap fun exec => exec.actions.filterMap sdkCall?

/-- OPA allowed the request of the run, with this payload and this score. -/
structure ServerRun.Cleared (run : ServerRun settings) (token : TokenPayload) (rs : RiskScore) :
    Prop where
  scored : run.call.Scored settings token rs
  allowed : ∃ reply reason, run.call.asked settings token rs reply ∈ run.acts ∧
    readDecision reply = .ok (true, reason)

/-- The run executed its request, once. -/
structure ServerRun.Executed (run : ServerRun settings) (exec : ExecReply) : Prop where
  performed : run.call.executed exec ∈ run.acts
  once : executions run.acts = [exec]
  unqueued : ¬ run.Queued

/-- What a run makes the client return or raise. -/
inductive ClientEnd (run : ServerRun settings) : Except GatewayExc Json → Prop where
  | raised {e : GatewayExc} (hexec : executions run.acts = []) (hqueue : ¬ run.Queued)
      (he : ∀ requestId, e ≠ .gatewayPendingError requestId) : ClientEnd run (.error e)
  | queued {token : TokenPayload} {rs : RiskScore} (h : run.Cleared token rs)
      (hlevel : rs.level = .high) (hexec : executions run.acts = []) :
      ClientEnd run (.ok (run.call.queued rs).toJson)
  | failed {token : TokenPayload} {rs : RiskScore} {exec : ExecReply} {e : HandlerExc}
      {msg : String} (h : run.Cleared token rs) (hexec : run.Executed exec)
      (hresult : run.call.executionResult exec = .error e) :
      ClientEnd run (.error (.gatewayError msg))
  | returned {token : TokenPayload} {rs : RiskScore} {exec : ExecReply} {data : Json}
      (h : run.Cleared token rs) (hexec : run.Executed exec)
      (hresult : run.call.executionResult exec = .ok data) :
      ClientEnd run (.ok (written (run.call.allowed rs data).toJson))
  | unwritten {token : TokenPayload} {rs : RiskScore} {exec : ExecReply} {data : Json}
      {e : GatewayExc} (h : run.Cleared token rs) (hexec : run.Executed exec)
      (hresult : run.call.executionResult exec = .ok data)
      (hnot : ¬ Writable (run.call.allowed rs data).toJson) (he : Undecided e) :
      ClientEnd run (.error e)

/-- An error that speaks of no decision reaches the client as one of the base class. -/
theorem clientEnd_of_raised {e : HandlerExc} {resp : Response} (hexec : executions run.acts = [])
    (hqueue : ¬ run.Queued) (hraised : ∃ status ∈ [500, 502], RaisedWith e status)
    (hsees : Sees (httpResponse (.error e)) resp) : ClientEnd run (handleResponse resp) := by
  obtain ⟨-, msg, hout⟩ := handleResponse_of_raised hraised hsees
  rw [hout]
  exact .raised hexec hqueue fun _ heq => (by cases heq)

/-- After the policy query such a run executes, and may record that. -/
theorem executed_of_acts {token : TokenPayload} {rs : RiskScore} {reply : HttpReply}
    {reason : String} {exec : ExecReply} {rest : List (Action signature)}
    (hs : run.call.Scored settings token rs) (hread : readDecision reply = .ok (true, reason))
    (hacts : run.acts = run.call.asked settings token rs reply :: run.call.executed exec :: rest)
    (hrest : ∀ a ∈ rest, ∃ record, a = logged record) :
    run.Cleared token rs ∧ run.Executed exec := by
  have hnone : executions rest = [] := by
    unfold executions
    rw [List.filterMap_eq_nil_iff]
    intro a ha
    obtain ⟨record, rfl⟩ := hrest a ha
    rfl
  -- The query is the first thing, the execution the second and only one.
  refine ⟨⟨hs, reply, reason, by rw [hacts]; exact List.mem_cons_self .., hread⟩,
    by rw [hacts]; exact .tail _ (.head _), ?_, ?_⟩
  · rw [hacts]
    exact congrArg (exec :: ·) hnone
  · -- Nothing was queued among the three.
    rintro ⟨pending, id, hmem⟩
    rw [hacts] at hmem
    rcases List.mem_cons.mp hmem with hmem | hmem
    · cases hmem
    rcases List.mem_cons.mp hmem with hmem | hmem
    · cases hmem
    obtain ⟨record, hrecord⟩ := hrest _ hmem
    cases hrecord

/-- **Ends**: the client's end of a run of the gateway is one of these. -/
theorem clientEnd_of_run {resp : Response} (hsees : Sees run.response resp) :
    ClientEnd run (handleResponse resp) := by
  have htrace := agentTrace_of_path settings run.path
  rw [Prog.outcome_done] at htrace
  unfold ServerRun.response at hsees
  generalize hacts : run.acts = acts at htrace
  generalize hout : some run.result = out at htrace
  have hquiet : (∀ pending id, enqueued pending id ∉ acts) → ¬ run.Queued := by
    rintro hnone ⟨pending, id, hmem⟩
    exact hnone pending id (hacts ▸ hmem)
  cases htrace with
  | asking _ | decided _ _ | queueing _ _ _ | executed _ _ _ _ => cases hout
  | rejected hverify =>
    rw [Option.some.inj hout] at hsees
    have hqueue := hquiet fun _ _ => List.not_mem_nil
    have hexec : executions run.acts = [] := by rw [hacts]; rfl
    rcases verifyToken_error hverify with rfl | ⟨e', rfl, -, -⟩
    · -- The 401.
      obtain ⟨-, msg, hmsg⟩ := handleResponse_of_authError hsees
      rw [hmsg]
      exact .raised hexec hqueue fun _ heq => (by cases heq)
    · -- Another error of `decode`: a 500.
      exact clientEnd_of_raised hexec hqueue (internal_raised e') hsees
  | unscored _ _ =>
    -- The scorer raised: a 500.
    rw [Option.some.inj hout] at hsees
    exact clientEnd_of_raised (by rw [hacts]; rfl) (hquiet fun _ _ => List.not_mem_nil)
      (internal_raised _) hsees
  | unread _ _ =>
    -- OPA's reply could not be read: a 500.
    rw [Option.some.inj hout] at hsees
    refine clientEnd_of_raised (by rw [hacts]; rfl) (hquiet fun _ _ hmem => ?_)
      (internal_raised _) hsees
    cases List.mem_singleton.mp hmem
  | denied hs hread =>
    -- The 403.
    rw [Option.some.inj hout] at hsees
    rw [(handleResponse_of_denied hsees).2]
    refine .raised (by rw [hacts]; rfl) (hquiet fun _ _ hmem => ?_) fun _ heq => (by cases heq)
    rcases List.mem_cons.mp hmem with hmem | hmem
    · cases hmem
    · cases List.mem_singleton.mp hmem
  | @queued token rs reply reason id hs hread hlevel =>
    -- The pending answer, which can always be written.
    rw [Option.some.inj hout] at hsees
    have hcleared : run.Cleared token rs :=
      ⟨hs, reply, reason, by rw [hacts]; exact List.mem_cons_self .., hread⟩
    have hplain := isPlain_queued hs
    obtain ⟨-, ⟨-, hvalue⟩ | ⟨hnot, -⟩⟩ := handleResponse_of_body hsees
    · rw [hvalue, written_of_isFinite (Json.isFinite_of_isPlain hplain)]
      exact .queued hcleared hlevel (by rw [hacts]; rfl)
    · exact absurd (writable_of_isPlain hplain) hnot
  | @failed token rs reply reason exec e hs hread hlevel hexec =>
    -- The 502 or the 500 of an execution that raised.
    rw [Option.some.inj hout] at hsees
    obtain ⟨-, msg, hmsg⟩ := handleResponse_of_raised (raisedWith_of_mapExecution hexec) hsees
    obtain ⟨hcleared, hexecuted⟩ := executed_of_acts hs hread hacts fun _ h => (by cases h)
    rw [hmsg]
    exact .failed hcleared hexecuted hexec
  | @allowed token rs reply reason exec data hs hread hlevel hexec =>
    -- The allow answer, if it can be written.
    rw [Option.some.inj hout] at hsees
    obtain ⟨hcleared, hexecuted⟩ := executed_of_acts hs hread hacts fun _ h =>
      ⟨_, List.mem_singleton.mp h⟩
    obtain ⟨-, ⟨-, hvalue⟩ | ⟨hnot, e, he, herror⟩⟩ := handleResponse_of_body hsees
    · rw [hvalue]
      exact .returned hcleared hexecuted hexec
    · rw [herror]
      exact .unwritten hcleared hexecuted hexec hnot he

/-! ## Delivery -/

/-- Whatever OPA replied to the run, the shipped policy decided. -/
def ServerRun.UnderPolicy [SprintfFormat] (run : ServerRun settings) : Prop :=
  ∀ url document reply,
    (⟨.httpPost url document, reply⟩ : Action signature) ∈ run.acts → shippedOpa url document reply

/-- The shipped policy allowed the request of the run. -/
def ServerRun.Permitted [SprintfFormat] (run : ServerRun settings) : Prop :=
  ∃ token rs, run.call.Scored settings token rs ∧
    Policies.AgentActions.allow (run.call.policyInput token rs) = true

/-- What becomes of a typed call that this run serves. -/
structure Delivered [SprintfFormat] (tc : TypedCall) (run : ServerRun settings)
    (out : Except GatewayExc Json) : Prop where
  /-- It waits for no approval. -/
  unqueued : ¬ run.Queued
  /-- Of SDK calls it makes the one of its method at most, and only if the policy allows it. -/
  called : run.sdkCalls = [] ∨ run.sdkCalls = [tc.sent] ∧ tc.name? ≠ some "" ∧ run.Permitted
  /-- What is returned was made of the answer to that call, or says that there was none. -/
  returned : ∀ value, out = .ok value → ∃ rs data, value = (run.call.allowed rs data).toJson ∧
    ((∃ exec ∈ executions run.acts, ∃ answer result,
        (⟨.sdk tc.sent, .ok answer⟩ : Action K8s.signature) ∈ exec.actions ∧
          K8s.answerOf tc.sent answer = .ok result ∧ data = K8s.success result) ∨
      run.sdkCalls = [] ∧
        data = simulated tc.body.action tc.body.resource tc.body.namespace tc.body.params)
  /-- An answer is returned. -/
  answered : ∀ exec ∈ executions run.acts, ∀ answer result,
    (⟨.sdk tc.sent, .ok answer⟩ : Action K8s.signature) ∈ exec.actions →
      K8s.answerOf tc.sent answer = .ok result →
        ∃ rs, out = .ok (run.call.allowed rs (K8s.success result)).toJson
  /-- After a denial there was no SDK call. -/
  denied : ∀ reason riskLevel riskScore,
    out = .error (.gatewayDeniedError reason riskLevel riskScore) → run.sdkCalls = []
  /-- The caller never hears of a pending request. -/
  decided : ∀ requestId, out ≠ .error (.gatewayPendingError requestId)

/-- What OPA allowed, the policy allowed. -/
theorem allow_of_cleared [SprintfFormat] {token : TokenPayload} {rs : RiskScore}
    (hpolicy : run.UnderPolicy) (h : run.Cleared token rs) :
    Policies.AgentActions.allow (run.call.policyInput token rs) = true := by
  obtain ⟨reply, reason, hasked, hread⟩ := h.allowed
  exact allow_of_shippedOpa (hpolicy _ _ _ hasked) (readDecision_allow_iff.mp ⟨reason, hread⟩)

/-- An execution is a trace of `execute_action`. -/
theorem ServerRun.Executed.trace {exec : ExecReply} (h : run.Executed exec) :
    K8s.Execution run.call.dispatched run.call.body.params exec.actions exec.result :=
  K8s.execution_of_path (run.executes _ _ _ _ exec h.performed)

theorem ServerRun.Executed.sdkCalls_eq {exec : ExecReply} (h : run.Executed exec) :
    run.sdkCalls = exec.actions.filterMap sdkCall? := by
  rw [ServerRun.sdkCalls, h.once, List.flatMap_singleton]

theorem sdkCalls_of_unexecuted (h : executions run.acts = []) : run.sdkCalls = [] := by
  rw [ServerRun.sdkCalls, h]
  rfl

section Typed

variable {tc : TypedCall} {exec : ExecReply}

/-- The SDK call of an execution is the one of the method. -/
theorem sdkCalls_of_typed (hbody : run.call.body = tc.body) (h : run.Executed exec) :
    run.sdkCalls = [] ∨ run.sdkCalls = [tc.sent] ∧ tc.name? ≠ some "" := by
  have htrace := h.trace
  rw [AgentCall.dispatched, hbody] at htrace
  rw [h.sdkCalls_eq]
  refine (sdkCalls_of_execution htrace).imp_right ?_
  rintro ⟨call, hplan, hcalls⟩
  obtain ⟨hname, rfl⟩ := (planned_ok_iff tc call).mp hplan
  exact ⟨hcalls, hname⟩

/-- What an execution of a typed call returned is the answer to its SDK call, or there was
    no such call. -/
theorem executionResult_of_typed (hbody : run.call.body = tc.body) (h : run.Executed exec)
    {data : Json} (hresult : run.call.executionResult exec = .ok data) :
    (∃ exec ∈ executions run.acts, ∃ answer result,
        (⟨.sdk tc.sent, .ok answer⟩ : Action K8s.signature) ∈ exec.actions ∧
          K8s.answerOf tc.sent answer = .ok result ∧ data = K8s.success result) ∨
      run.sdkCalls = [] ∧
        data = simulated tc.body.action tc.body.resource tc.body.namespace tc.body.params := by
  have htrace := h.trace
  have hcalls := h.sdkCalls_eq
  have hmem : exec ∈ executions run.acts := by rw [h.once]; exact List.mem_singleton.mpr rfl
  rw [AgentCall.executionResult, hbody] at hresult
  rw [AgentCall.dispatched, hbody] at htrace
  generalize hacts : exec.actions = acts at htrace hcalls
  generalize exec.result = r at htrace hresult
  cases htrace with
  | unissued hnone =>
    -- No SDK call was made.
    rw [sdkCalls_of_noSdk hnone] at hcalls
    exact .inr ⟨hcalls, (mapExecution_unavailable hresult).2⟩
  | refused _ _ _ he =>
    -- A refused call is an error.
    obtain ⟨msg, hmsg⟩ := (mapExecution_unavailable hresult).1
    exact absurd hmsg (he msg)
  | @answered load call answer result _ hplan hanswer =>
    -- The answered call is the one of the method.
    obtain ⟨-, rfl⟩ := (planned_ok_iff tc call).mp hplan
    refine .inl ⟨exec, hmem, answer, result, ?_, hanswer, (Except.ok.inj hresult).symm⟩
    rw [hacts]
    exact List.mem_append_right _ (List.mem_singleton.mpr rfl)

omit [Runtime] in
/-- The params of a method have no floats. -/
theorem isFinite_params (tc : TypedCall) : tc.body.params.toJson.isFinite = true := by
  cases tc with
  | patchDeployment _ _ image replicas => cases image <;> cases replicas <;> rfl
  | _ => rfl

/-- The answer to an execution of a typed call is written as it is. -/
theorem written_of_typed (hbody : run.call.body = tc.body) (h : run.Executed exec) {data : Json}
    (hresult : run.call.executionResult exec = .ok data) (rs : RiskScore) :
    written (run.call.allowed rs data).toJson = (run.call.allowed rs data).toJson := by
  have hdata : data.isFinite = true := by
    cases hexec : exec.result with
    | ok v =>
      rw [AgentCall.executionResult, hexec] at hresult
      cases hresult
      exact Json.isFinite_of_isPlain (isPlain_of_executed h.performed hexec)
    | error e =>
      -- A simulation repeats the params.
      rw [AgentCall.executionResult, hexec, hbody] at hresult
      rw [(mapExecution_unavailable hresult).2]
      simp [simulated, isFinite_params tc]
  apply written_of_isFinite
  simp [AgentActionResponse.toJson, AgentCall.allowed, hdata]

/-- The answer to an SDK call is the result of the execution. -/
theorem executionResult_of_answer (h : run.Executed exec) {exec' : ExecReply}
    (hexec : exec' ∈ executions run.acts) {call : K8s.SdkCall} {answer : call.Result}
    {result : Json} (hmem : ⟨.sdk call, .ok answer⟩ ∈ exec'.actions)
    (hanswer : K8s.answerOf call answer = .ok result) :
    exec.result = .ok (K8s.success result) ∧
      run.call.executionResult exec = .ok (K8s.success result) := by
  rw [h.once] at hexec
  obtain rfl := List.mem_singleton.mp hexec
  have hresult := h.trace.result_of_answer hmem hanswer
  rw [AgentCall.executionResult, hresult]
  exact ⟨rfl, rfl⟩

end Typed

end Ends

section Delivery

variable [Runtime] [SprintfFormat] {run : ServerRun .default} {tc : TypedCall}
  {out : Except GatewayExc Json}

/-- A cleared typed call is not high-risk. -/
theorem level_of_typed (hbody : run.call.body = tc.body) (hpolicy : run.UnderPolicy)
    {token : TokenPayload} {rs : RiskScore} (h : run.Cleared token rs) : rs.level ≠ .high := by
  intro hlevel
  have hescalates :=
    (level_high_iff_escalates h.scored (allow_of_cleared hpolicy h)).mp hlevel
  exact not_escalates hbody hescalates

/-- **Ends of a typed call**: every one of them delivers it. -/
theorem delivered_of_end (hbody : run.call.body = tc.body) (hpolicy : run.UnderPolicy)
    (hend : ClientEnd run out) : Delivered tc run out := by
  have hcalled : ∀ {token rs exec}, run.Cleared token rs → run.Executed exec →
      run.sdkCalls = [] ∨ run.sdkCalls = [tc.sent] ∧ tc.name? ≠ some "" ∧ run.Permitted :=
    fun h hexec => (sdkCalls_of_typed hbody hexec).imp_right fun ⟨hcalls, hname⟩ =>
      ⟨hcalls, hname, _, _, h.scored, allow_of_cleared hpolicy h⟩
  cases hend with
  | raised hexec hqueue he =>
    -- Nothing was executed.
    have hcalls := sdkCalls_of_unexecuted hexec
    refine ⟨hqueue, .inl hcalls, fun _ h => (by cases h), ?_, fun _ _ _ _ => hcalls,
      fun requestId heq => he requestId (Except.error.inj heq)⟩
    intro exec hmem
    rw [hexec] at hmem
    cases hmem
  | queued h hlevel _ => exact absurd hlevel (level_of_typed hbody hpolicy h)
  | failed h hexec hresult =>
    -- The execution raised, so the SDK gave no answer.
    refine ⟨hexec.unqueued, hcalled h hexec, fun _ h => (by cases h), ?_,
      fun _ _ _ h => (by cases h), fun _ h => (by cases h)⟩
    intro exec' hmem answer result hsdk hanswer
    have hok := (executionResult_of_answer hexec hmem hsdk hanswer).2
    cases hresult.symm.trans hok
  | @returned token rs exec data h hexec hresult =>
    -- The answer is returned: it is that of the SDK call, or the simulation.
    refine ⟨hexec.unqueued, hcalled h hexec, ?_, ?_, fun _ _ _ h => (by cases h),
      fun _ h => (by cases h)⟩
    · rintro value hvalue
      rw [written_of_typed hbody hexec hresult] at hvalue
      cases hvalue
      exact ⟨rs, data, rfl, executionResult_of_typed hbody hexec hresult⟩
    · intro exec' hmem answer result hsdk hanswer
      have hok := (executionResult_of_answer hexec hmem hsdk hanswer).2
      rw [written_of_typed hbody hexec hresult]
      cases hresult.symm.trans hok
      exact ⟨rs, rfl⟩
  | unwritten h hexec hresult hnot he =>
    -- The answer could not be written: it was the simulation.
    refine ⟨hexec.unqueued, hcalled h hexec, fun _ h => (by cases h), ?_, ?_, ?_⟩
    · intro exec' hmem answer result hsdk hanswer
      -- What an SDK call answers can be written.
      obtain ⟨hok, -⟩ := executionResult_of_answer hexec hmem hsdk hanswer
      exact absurd ((writable_allowed_iff h.scored hexec.performed hresult).mpr
        (.inl ⟨_, hok⟩)) hnot
    · rintro reason riskLevel riskScore heq
      cases heq
      cases he
    · rintro requestId heq
      cases heq
      cases he

/-- **A typed call, end to end**: under the shipped policy it triggers one run of the
    gateway, with its token and its arguments, and that run delivers it. -/
theorem typed_call_delivered {self : GatewayClient}
    {acts : List (Action AgentClient.signature)} {runs : List (ServerRun .default)}
    (hpath : Prog.Path (tc.run self).run acts (.done out)) (hserved : Served .default acts runs)
    (hpolicy : ∀ run ∈ runs, run.UnderPolicy) :
    ∃ run, runs = [run] ∧ run.call.credentials = self.token ∧ run.call.body = tc.body ∧
      Delivered tc run out := by
  rw [TypedCall.run_eq] at hpath
  obtain ⟨reply, rest, rfl, hlast⟩ := AgentClient.path_of_action hpath
  obtain ⟨run, resp, later, rfl, rfl, hsees, hcredentials, hbody, hrest⟩ := served_cons hserved
  obtain ⟨rfl, rfl⟩ := hlast resp rfl (agrees_handleResponse_iff hsees).1
  cases hrest
  refine ⟨run, rfl, hcredentials, hbody, ?_⟩
  exact delivered_of_end hbody (hpolicy run (List.mem_singleton.mpr rfl)) (clientEnd_of_run hsees)

end Delivery

section Example

attribute [local instance] asciiRuntime plainText

/-- What OPA replies in a fixed environment with the shipped policy. -/
theorem underPolicy_alone (call : AgentCall) : (ServerRun.alone shipped call).UnderPolicy := by
  intro url document reply hmem
  obtain ⟨q, rfl⟩ : ∃ q, reply = (shipped.answer q (.httpPost url document)).1 :=
    Prog.run_reply hmem
  exact shippedOpa_shippedReply url document

/-- A deployment of two replicas. -/
def webDeployment : TypedCall := .createDeployment "web" "nginx:1.25" "default" 2 80 {}

/-- A `deployer` creates a deployment: there is one SDK call. -/
theorem typed_call_delivered_webDeployment : ∃ acts out run,
    Prog.Path (webDeployment.run ⟨"http://gateway", "token", true⟩).run acts (.done out) ∧
      Served Settings.default acts [run] ∧ Delivered webDeployment run out ∧
      run.sdkCalls.length = 1 := by
  obtain ⟨acts, out, hpath, hserved⟩ := exists_exchange (.alone shipped
    (.ofSubject "r-1" "agent-deploy" "deployer" webDeployment.body)) "http://gateway"
  have hrun : Prog.Path (webDeployment.run ⟨"http://gateway", "token", true⟩).run acts
    (.done out) := hpath
  obtain ⟨run, hrun, -, -, hdelivered⟩ := typed_call_delivered hrun hserved
    fun run hmem => List.mem_singleton.mp hmem ▸ underPolicy_alone _
  obtain rfl := (List.singleton_inj.mp hrun).symm
  exact ⟨acts, out, _, hpath, hserved, hdelivered, by decide⟩

end Example

end AiK8sGateway
