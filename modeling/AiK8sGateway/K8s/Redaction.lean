import AiK8sGateway.Foundations.Lockstep
import AiK8sGateway.K8s.Client

/-!
# Redacted Replies of the SDK

Two clusters that differ in the data values of secrets and config maps, and in the bodies
of API errors, give the client replies that are equal once these are blanked out.
`execute_action` cannot tell such replies apart.

## Main results

- `dispatch_lockstep`: the dispatch table, branch by branch.
- `executeAction_lockstep`: what `execute_action` asks, returns and raises is the same.
-/

namespace AiK8sGateway.K8s

open Foundations PythonText EffectProgram

/-! ## Redaction -/

/-- The object with its data values blanked out; the keys stay. -/
def DataObject.redact (o : DataObject) : DataObject :=
  { o with data := o.data.map fun entry => (entry.1, "") }

/-- The result of an SDK call without the data values in it. -/
def SdkCall.redact : (call : SdkCall) → call.Result → call.Result
  | listNamespacedSecret _, secrets => List.map DataObject.redact secrets
  | listNamespacedConfigMap _, configMaps => List.map DataObject.redact configMaps
  | _, result => result

/-- An exception of the SDK without the body of the HTTP response. -/
def withoutBody : PyExc → PyExc
  | .apiException status reason _ => .apiException status reason ""
  | e => e

/-- A reply without data values and error bodies. -/
def Op.redact : (op : Op) → op.Reply → op.Reply
  | sdk call, reply => (reply.map call.redact).mapError withoutBody
  | loadInclusterConfig, reply => reply
  | loadKubeConfig, reply => reply

/-- The replies agree but for data values and error bodies. -/
def agreesButData : ReplyRel signature := fun op reply reply' =>
  Op.redact op reply = Op.redact op reply'

/-- The exceptions agree but for error bodies. -/
def ExcAgrees : ClientExc → ClientExc → Prop
  | .py e, .py e' => withoutBody e = withoutBody e'
  | e, e' => e = e'

theorem ExcAgrees.refl (e : ClientExc) : ExcAgrees e e := by
  cases e <;> rfl

/-- Exceptions that agree are equal, or errors of the API server with one status and reason. -/
theorem ExcAgrees.eq_or_apiException {e e' : ClientExc} (h : ExcAgrees e e') :
    e = e' ∨ ∃ status reason body body', e = .py (.apiException status reason body) ∧
      e' = .py (.apiException status reason body') := by
  cases e with
  | py e =>
    cases e' with
    | py e' => cases e <;> cases e' <;> simp_all [ExcAgrees, withoutBody]
    | k8sUnavailableError _ | k8sActionError _ _ => cases h
  | k8sUnavailableError _ | k8sActionError _ _ =>
    cases e' with
    | py _ => cases h
    | _ => exact .inl h

/-- A list of redacted objects names the same objects. -/
theorem names_eq_of_redact {objects objects' : List DataObject}
    (h : objects.map DataObject.redact = objects'.map DataObject.redact) :
    objects.map (fun o => optStr o.name) = objects'.map fun o => optStr o.name := by
  have hnames : ∀ objects : List DataObject, objects.map (fun o => optStr o.name) =
      (objects.map DataObject.redact).map fun o => optStr o.name := by
    intro objects
    rw [List.map_map]
    rfl
  rw [hnames objects, hnames objects', h]

/-! ## Lockstep of client code -/

/-- Client code in lockstep, up to the bodies of the exceptions it raises. -/
abbrev Alike {α : Type} (Q : α → α → Prop) (x x' : ClientM α) : Prop :=
  Prog.LockstepM agreesButData ExcAgrees Q x x'

/-- A call of the SDK returns what agrees but for data values. -/
theorem alike_sdk (call : SdkCall) :
    Alike (fun r r' => call.redact r = call.redact r') (sdk call) (sdk call) := by
  -- Redaction leaves results results and errors errors.
  refine .perform fun (reply reply' : Except PyExc call.Result) hagree => .done ?_
  cases reply with
  | ok r =>
    cases reply' with
    | ok r' => exact .ok (Except.ok.inj hagree)
    | error e' => cases hagree
  | error e =>
    cases reply' with
    | ok r' => cases hagree
    | error e' => exact .error (Except.error.inj hagree)

/-- A built-in operation sees no reply. -/
theorem alike_ofBuiltin {α : Type} (x : Except BuiltinError α) :
    Alike Eq (ofBuiltin x) (ofBuiltin x) := by
  cases x with
  | ok a => exact Prog.lockstepM_pure rfl
  | error e => exact Prog.lockstepM_throw (.refl _)

/-- What follows a built-in operation gets the same value twice. -/
theorem alike_ofBuiltin_bind {α : Type} {x : Except BuiltinError α} {f : α → ClientM Json}
    (hf : ∀ a, Alike Eq (f a) (f a)) : Alike Eq (ofBuiltin x >>= f) (ofBuiltin x >>= f) := by
  refine Prog.lockstepM_bind (alike_ofBuiltin x) fun a a' heq => ?_
  rw [← heq]
  exact hf a

/-- What follows a call of the SDK gets results that agree but for data values. -/
theorem alike_sdk_bind {call : SdkCall} {f : call.Result → ClientM Json}
    (hf : ∀ r r', call.redact r = call.redact r' → Alike Eq (f r) (f r')) :
    Alike Eq (sdk call >>= f) (sdk call >>= f) :=
  Prog.lockstepM_bind (alike_sdk call) hf

/-! ## The dispatch table -/

section Dispatch

variable [CharTables] [ModelValidation]

omit [ModelValidation] in
theorem dispatchPods_lockstep (action resource namespace_ : String) (params : JsonDict) :
    Alike Eq (dispatchPods action resource namespace_ params)
      (dispatchPods action resource namespace_ params) := by
  unfold dispatchPods
  split_ifs with hlist hget hdelete
  · apply alike_sdk_bind
    rintro pods _ rfl
    exact Prog.lockstepM_pure rfl
  · apply alike_ofBuiltin_bind
    intro name
    apply alike_sdk_bind
    rintro p _ rfl
    exact Prog.lockstepM_pure rfl
  · apply alike_ofBuiltin_bind
    intro name
    apply alike_sdk_bind
    intro _ _ _
    exact Prog.lockstepM_pure rfl
  · exact Prog.lockstepM_throw (.refl _)

theorem dispatchDeployments_lockstep (action resource namespace_ : String) (params : JsonDict) :
    Alike Eq (dispatchDeployments action resource namespace_ params)
      (dispatchDeployments action resource namespace_ params) := by
  unfold dispatchDeployments
  split_ifs with hlist hget hcreate hpatch hdelete
  · -- The `list` case.
    apply alike_sdk_bind
    rintro deployments _ rfl
    exact Prog.lockstepM_pure rfl
  · -- The `get` case.
    apply alike_ofBuiltin_bind
    intro name
    apply alike_sdk_bind
    rintro d _ rfl
    exact alike_ofBuiltin _
  · -- The `create` case.
    apply alike_ofBuiltin_bind
    intro body
    apply alike_sdk_bind
    rintro d _ rfl
    exact Prog.lockstepM_pure rfl
  · -- The `update` and `patch` case.
    apply alike_ofBuiltin_bind
    intro name
    apply alike_ofBuiltin_bind
    intro body
    apply alike_sdk_bind
    rintro d _ rfl
    exact Prog.lockstepM_pure rfl
  · -- The `delete` case.
    apply alike_ofBuiltin_bind
    intro name
    apply alike_sdk_bind
    intro _ _ _
    exact Prog.lockstepM_pure rfl
  · exact Prog.lockstepM_throw (.refl _)

/-- **Dispatch**: no branch of the table returns a data value. -/
theorem dispatch_lockstep (action resource namespace_ : String) (params : JsonDict) :
    Alike Eq (dispatch action resource namespace_ params)
      (dispatch action resource namespace_ params) := by
  unfold dispatch
  split_ifs with hpods hdeployments hsecrets hnamespaces hconfigmaps
  · exact dispatchPods_lockstep _ _ _ _
  · exact dispatchDeployments_lockstep _ _ _ _
  · -- Only the names of the objects leave this branch and that of the config maps.
    apply alike_sdk_bind
    intro secrets secrets' hagree
    exact Prog.lockstepM_pure (congrArg Json.arr (names_eq_of_redact hagree))
  · apply alike_sdk_bind
    rintro namespaces _ rfl
    exact Prog.lockstepM_pure rfl
  · apply alike_sdk_bind
    intro configMaps configMaps' hagree
    exact Prog.lockstepM_pure (congrArg Json.arr (names_eq_of_redact hagree))
  · exact Prog.lockstepM_throw (.refl _)

omit [CharTables] [ModelValidation] in
/-- The configuration is loaded from the same replies. -/
theorem loadConfig_lockstep : Prog.LockstepM agreesButData Eq Eq loadConfig loadConfig := by
  refine (Prog.Lockstep.refl _ fun op hperforms r r' hagree => ?_).imp fun x x' heq => ?_
  · cases op with
    | sdk call => exact absurd hperforms (loadConfig_no_sdk call)
    -- Nothing is blanked out in the replies to these two.
    | loadInclusterConfig | loadKubeConfig => exact hagree
  · subst heq
    cases x with
    | ok a => exact .ok rfl
    | error e => exact .error rfl

/-- **Executions**: `execute_action` asks the same, and returns or raises the same, on
    replies that agree but for data values and error bodies. -/
theorem executeAction_lockstep (action resource namespace_ : String) (params : JsonDict) :
    Prog.LockstepM agreesButData Eq Eq (executeAction action resource namespace_ params)
      (executeAction action resource namespace_ params) := by
  unfold executeAction
  refine Prog.lockstepM_bind loadConfig_lockstep fun _ _ _ => ?_
  have hdispatch := dispatch_lockstep (normalise action resource namespace_).action
    (normalise action resource namespace_).resource
    (normalise action resource namespace_).namespace params
  refine Prog.lockstepM_bind (Prog.lockstepM_tryCatch hdispatch fun e e' hagree => ?_)
    fun result _ heq => ?_
  · rcases hagree.eq_or_apiException with rfl | ⟨status, reason, body, body', rfl, rfl⟩
    · -- One exception takes one way through the handlers.
      split <;> exact Prog.lockstepM_throw rfl
    · -- The text of the new error has the status and the reason, and no body.
      exact Prog.lockstepM_throw rfl
  · rw [heq]
    exact Prog.lockstepM_pure rfl

end Dispatch

end AiK8sGateway.K8s
