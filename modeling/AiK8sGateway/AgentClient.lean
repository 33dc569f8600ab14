import AiK8sGateway.Config
import AiK8sGateway.Foundations.EffectProgram

/-!
# Agent Client

`ai_agent_client.py`: the client that an agent calls the gateway with.  It posts a
payload, waits and posts once more on HTTP 503, and turns the response into a value or
into one of its exceptions.

## Main results

- `handleResponse_ok`, `_unauthorized`, `_forbidden`, `_unexpected`: what becomes of a
  response.
- `path_of_action`: with any response but a 503, `action` is one post and
  `_handle_response`.
-/

namespace AiK8sGateway.AgentClient

open Foundations EffectProgram

/-! ## Exceptions and operations -/

/-- What the client raises: the classes of its own, and exceptions that it lets pass. -/
inductive GatewayExc where
  | gatewayError (msg : String)
  | gatewayAuthError (msg : String)
  | gatewayDeniedError (reason riskLevel riskScore : Json)
  | gatewayPendingError (requestId : Json)
  | gatewayConnectionError (msg : String)
  | uncaught (e : PyExc)

/-- An `httpx.Response`: what `resp.text` is, and what `resp.json()` returns, or the
    message of its `JSONDecodeError`. -/
structure Response where
  status : Nat
  text : String
  json : Except String Json

/-- What the client does outside its own frame. -/
inductive Op where
  | post (authorization url : String) (payload : Json)
  | sleep (seconds : Nat)

/-- What it gets back: a post returns a response or raises. -/
def Op.Reply : Op → Type
  | post _ _ _ => Except PyExc Response
  | sleep _ => Unit

/-- The signature of the client. -/
abbrev signature : Signature := ⟨Op, Op.Reply⟩

/-- Client code: it performs operations and may raise. -/
abbrev ClientM := ExceptT GatewayExc (Prog signature)

/-- What a built-in operation raises propagates. -/
def uncaught {α : Type} (x : Except BuiltinError α) : Except GatewayExc α :=
  x.mapError fun e => .uncaught (.builtin e)

/-! ## `GatewayClient` -/

/-- `GatewayClient`: the fields that the modelled methods read. -/
structure GatewayClient where
  gatewayUrl : String
  token : String
  retryOn503 : Bool := true

/-- `resp.json()`. -/
def Response.decoded (resp : Response) : Except GatewayExc Json :=
  resp.json.mapError fun msg => .uncaught (.jsonDecodeError msg)

/-- `_handle_response`. -/
def handleResponse (resp : Response) : Except GatewayExc Json :=
  if resp.status = 200 then resp.decoded
  else if resp.status = 202 then do
    let body ← resp.decoded
    let requestId ← uncaught (body.getD "request_id" (.str "unknown"))
    throw (.gatewayPendingError requestId)
  else if resp.status = 401 then
    throw (.gatewayAuthError "JWT rejected by gateway. Obtain a new token and retry.")
  else if resp.status = 403 then do
    let body ← resp.decoded
    let detail ← uncaught (body.getD "detail" (.obj []))
    let reason ← uncaught (detail.getD "reason" (.str "Policy denied the action."))
    let riskLevel ← uncaught (detail.getD "risk_level" (.str "unknown"))
    -- Each field has a default for a detail that lacks it.
    let riskScore ← uncaught (detail.getD "risk_score" (.int (-1)))
    throw (.gatewayDeniedError reason riskLevel riskScore)
  else
    throw (.gatewayError ("Unexpected gateway response " ++ toString resp.status ++ ": " ++
      String.ofList (resp.text.toList.take 300)))

/-- A 200 is returned. -/
theorem handleResponse_ok {resp : Response} {value : Json} (hstatus : resp.status = 200)
    (hjson : resp.json = .ok value) : handleResponse resp = .ok value := by
  simp [handleResponse, Response.decoded, hstatus, hjson, Except.mapError]

theorem throw_ne_ok {α : Type} (e : GatewayExc) (a : α) :
    (throw e : Except GatewayExc α) ≠ .ok a := by
  intro h
  cases h

/-- Code that raises in the end does not return. -/
theorem bind_ne_ok {α β : Type} {x : Except GatewayExc α} {f : α → Except GatewayExc β}
    (h : ∀ a b, f a ≠ .ok b) (b : β) : x >>= f ≠ .ok b := by
  intro hb
  cases x with
  | error e => cases hb
  | ok a => exact h a b hb

/-- Only a 200 is returned. -/
theorem status_of_returned {resp : Response} {value : Json}
    (h : handleResponse resp = .ok value) : resp.status = 200 := by
  by_contra hstatus
  unfold handleResponse at h
  rw [if_neg hstatus] at h
  split_ifs at h
  · -- The 202: an exception with the id of the request.
    exact bind_ne_ok (fun _ => bind_ne_ok fun _ => throw_ne_ok _) _ h
  · -- The 403: an exception with the fields of the detail.
    exact bind_ne_ok (fun _ => bind_ne_ok fun _ => bind_ne_ok fun _ => bind_ne_ok fun _ =>
      bind_ne_ok fun _ => throw_ne_ok _) _ h

/-- A 401 is an authentication error. -/
theorem handleResponse_unauthorized {resp : Response} (hstatus : resp.status = 401) :
    ∃ msg, handleResponse resp = .error (.gatewayAuthError msg) := by
  simp only [handleResponse, hstatus]
  exact ⟨_, rfl⟩

/-- A 403 with a detail object is a denial; what the object lacks is filled in. -/
theorem handleResponse_forbidden {resp : Response} {detail : List (String × Json)}
    (hstatus : resp.status = 403) (hjson : resp.json = .ok (.obj [("detail", .obj detail)])) :
    handleResponse resp = .error (.gatewayDeniedError
      ((detail.lookup "reason").getD (.str "Policy denied the action."))
      ((detail.lookup "risk_level").getD (.str "unknown"))
      ((detail.lookup "risk_score").getD (.int (-1)))) := by
  simp only [handleResponse, hstatus, Response.decoded, hjson]
  rfl

/-- Any other status, the 202 apart, is an error of the base class. -/
theorem handleResponse_unexpected {resp : Response}
    (hstatus : resp.status ∉ [200, 202, 401, 403]) :
    ∃ msg, handleResponse resp = .error (.gatewayError msg) := by
  simp only [List.mem_cons, List.not_mem_nil, or_false, not_or] at hstatus
  obtain ⟨hok, haccepted, hunauthorized, hforbidden⟩ := hstatus
  simp only [handleResponse, if_neg hok, if_neg haccepted, if_neg hunauthorized,
    if_neg hforbidden]
  exact ⟨_, rfl⟩

/-- `self._client.post`, whose headers carry the token, with the `except` clause around
    it: `explain` makes the message from that of the `RequestError`. -/
def post (self : GatewayClient) (payload : Json) (explain : String → String) :
    ClientM Response := do
  match ← ExceptT.lift (Prog.call (S := signature)
      (.post ("Bearer " ++ self.token) "/agent-action" payload)) with
  | .ok resp => return resp
  | .error (.requestError exc) => throw (.gatewayConnectionError (explain exc))
  | .error e => throw (.uncaught e)

/-- The payload of `action`.  `params or {}` is the empty dictionary for `None` and for
    an empty one. -/
def payload (action resource namespace_ : String) (params : Option JsonDict) : Json :=
  .obj [("action", .str action), ("resource", .str resource), ("namespace", .str namespace_),
    ("params", (params.getD .empty).toJson)]

/-- `action`. -/
def action (self : GatewayClient) (action resource namespace_ : String)
    (params : Option JsonDict) : ClientM Json := do
  let payload := payload action resource namespace_ params
  let resp ← post self payload fun exc =>
    "Cannot reach gateway at " ++ self.gatewayUrl ++ ": " ++ exc
  if resp.status = 503 ∧ self.retryOn503 = true then
    -- One retry, whose failure is reported without the URL.
    let _ ← ExceptT.lift (Prog.call (S := signature) (.sleep 1))
    let resp ← post self payload id
    ExceptT.mk (pure (handleResponse resp))
  else
    ExceptT.mk (pure (handleResponse resp))

/-! ## Typed convenience methods -/

section Typed

variable (self : GatewayClient)

/-- `list_pods`. -/
def listPods (namespace_ : String := "default") : ClientM Json :=
  action self "list" "pods" namespace_ none

/-- `params={"name": name}`. -/
def nameParams (name : String) : JsonDict := ⟨[("name", .str name)], by simp⟩

/-- `get_pod`. -/
def getPod (name : String) (namespace_ : String := "default") : ClientM Json :=
  action self "get" "pods" namespace_ (some (nameParams name))

/-- `list_deployments`. -/
def listDeployments (namespace_ : String := "default") : ClientM Json :=
  action self "list" "deployments" namespace_ none

/-- `get_deployment`. -/
def getDeployment (name : String) (namespace_ : String := "default") : ClientM Json :=
  action self "get" "deployments" namespace_ (some (nameParams name))

/-- The resources of a container, as `create_deployment` takes them. -/
structure ResourceArgs where
  cpuRequest : String := "50m"
  cpuLimit : String := "200m"
  memoryRequest : String := "64Mi"
  memoryLimit : String := "128Mi"

/-- The params of `create_deployment`. -/
def createParams (name image : String) (replicas containerPort : Int) (resources : ResourceArgs) :
    JsonDict :=
  ⟨[("name", .str name), ("image", .str image), ("replicas", .int replicas),
    ("container_port", .int containerPort), ("cpu_request", .str resources.cpuRequest),
    ("cpu_limit", .str resources.cpuLimit), ("memory_request", .str resources.memoryRequest),
    ("memory_limit", .str resources.memoryLimit)], by simp⟩

/-- `create_deployment`. -/
def createDeployment (name image : String) (namespace_ : String := "default")
    (replicas : Int := 1) (containerPort : Int := 80) (resources : ResourceArgs := {}) :
    ClientM Json :=
  action self "create" "deployments" namespace_
    (some (createParams name image replicas containerPort resources))

/-- The params of `patch_deployment`: an argument that is `None` is left out. -/
def patchParams (name : String) (image : Option String) (replicas : Option Int) : JsonDict :=
  let params := nameParams name
  let params := match image with
    | some image => params.set "image" (.str image)
    | none => params
  match replicas with
  | some replicas => params.set "replicas" (.int replicas)
  | none => params

/-- `patch_deployment`. -/
def patchDeployment (name : String) (namespace_ : String := "default")
    (image : Option String := none) (replicas : Option Int := none) : ClientM Json :=
  action self "patch" "deployments" namespace_ (some (patchParams name image replicas))

/-- `list_secrets`. -/
def listSecrets (namespace_ : String := "default") : ClientM Json :=
  action self "list" "secrets" namespace_ none

/-- `list_namespaces`. -/
def listNamespaces : ClientM Json := action self "list" "namespaces" "default" none

end Typed

/-! ## Approval queue -/

/-- The body of a decision. -/
def decisionBody (approved : Bool) (reason : String) : Json :=
  .obj [("approved", .bool approved), ("reason", .str reason)]

/-- The post of a decision about a request, with the `except` clause around it. -/
def sendDecision (self : GatewayClient) (requestId : String) (approved : Bool) (reason : String) :
    ClientM Json := do
  match ← ExceptT.lift (Prog.call (S := signature) (.post ("Bearer " ++ self.token)
      ("/approve/" ++ requestId) (decisionBody approved reason))) with
  | .ok resp => ExceptT.mk (pure (handleResponse resp))
  | .error (.requestError exc) => throw (.gatewayConnectionError exc)
  | .error e => throw (.uncaught e)

/-- `approve`. -/
def approve (self : GatewayClient) (requestId reason : String) : ClientM Json :=
  sendDecision self requestId true reason

/-- `reject`. -/
def reject (self : GatewayClient) (requestId reason : String) : ClientM Json :=
  sendDecision self requestId false reason

/-! ## Runs of `action` -/

section Runs

variable {self : GatewayClient} {verb resource namespace_ : String} {params : Option JsonDict}

/-- The post that `action` makes, with its reply. -/
def posted (self : GatewayClient) (verb resource namespace_ : String) (params : Option JsonDict)
    (reply : Except PyExc Response) : Action signature :=
  ⟨.post ("Bearer " ++ self.token) "/agent-action" (payload verb resource namespace_ params), reply⟩

/-- **Runs of `action`**: it posts first, and any response but a 503 ends it. -/
theorem path_of_action {acts : List (Action signature)} {out : Except GatewayExc Json}
    (h : Prog.Path (action self verb resource namespace_ params).run acts (.done out)) :
    ∃ reply rest, acts = posted self verb resource namespace_ params reply :: rest ∧
      ∀ resp, reply = .ok resp → resp.status ≠ 503 → rest = [] ∧ out = handleResponse resp := by
  cases h with
  | @cons _ _ reply rest _ h =>
    refine ⟨reply, rest, rfl, ?_⟩
    rintro resp rfl hstatus
    -- With any status but 503 nothing is left to perform after the first post.
    have hrun : Prog.Path (if resp.status = 503 ∧ self.retryOn503 = true then _
        else ExceptT.mk (pure (handleResponse resp)) : ClientM Json).run rest (.done out) := h
    rw [if_neg fun hretry => hstatus hretry.1] at hrun
    obtain ⟨rfl, hout⟩ := Prog.path_done_iff.mp hrun
    exact ⟨rfl, Prog.done.inj hout⟩

/-- A response that is no 503 is all that `action` waits for. -/
theorem action_path {resp : Response} (hstatus : resp.status ≠ 503) :
    Prog.Path (action self verb resource namespace_ params).run
      [posted self verb resource namespace_ params (.ok resp)] (.done (handleResponse resp)) := by
  apply Prog.Path.cons
  show Prog.Path (if resp.status = 503 ∧ self.retryOn503 = true then _
    else ExceptT.mk (pure (handleResponse resp)) : ClientM Json).run [] _
  rw [if_neg fun hretry => hstatus hretry.1]
  exact .nil

/-! ### With the retry -/

/-- What `post` makes of a reply. -/
def received (explain : String → String) : Except PyExc Response → Except GatewayExc Response
  | .ok resp => .ok resp
  | .error (.requestError exc) => .error (.gatewayConnectionError (explain exc))
  | .error e => .error (.uncaught e)

/-- The message of a first post that fails. -/
def unreachable (self : GatewayClient) (exc : String) : String :=
  "Cannot reach gateway at " ++ self.gatewayUrl ++ ": " ++ exc

/-- After this response the client posts once more. -/
def Retries (self : GatewayClient) (resp : Response) : Prop :=
  resp.status = 503 ∧ self.retryOn503 = true

/-- The runs of `action`: one post, or two with a pause in between. -/
inductive ActionTrace (self : GatewayClient) (verb resource namespace_ : String)
    (params : Option JsonDict) : List (Action signature) → Except GatewayExc Json → Prop where
  | once {reply : Except PyExc Response} (h : ∀ resp, reply = .ok resp → ¬ Retries self resp) :
      ActionTrace self verb resource namespace_ params
        [posted self verb resource namespace_ params reply]
        (received (unreachable self) reply >>= handleResponse)
  | retried {first : Response} {reply : Except PyExc Response} (h : Retries self first) :
      ActionTrace self verb resource namespace_ params
        [posted self verb resource namespace_ params (.ok first), ⟨.sleep 1, ()⟩,
          posted self verb resource namespace_ params reply]
        (received id reply >>= handleResponse)

/-- A post is one operation. -/
theorem post_of_path {payload : Json} {explain : String → String} {acts : List (Action signature)}
    {r : Except GatewayExc Response}
    (h : Prog.Path (post self payload explain).run acts (.done r)) :
    ∃ reply, acts = [⟨.post ("Bearer " ++ self.token) "/agent-action" payload, reply⟩] ∧
      r = received explain reply := by
  cases h with
  | @cons _ _ reply rest _ h =>
    cases reply with
    | ok resp =>
      obtain ⟨rfl, hr⟩ := Prog.path_done_iff.mp h
      exact ⟨_, rfl, Prog.done.inj hr⟩
    | error e =>
      -- The branches are those of the `except` clause.
      cases e <;> obtain ⟨rfl, hr⟩ := Prog.path_done_iff.mp h <;>
        exact ⟨_, rfl, Prog.done.inj hr⟩

/-- The last post of `action`, with what is made of its reply. -/
theorem last_of_path {payload : Json} {explain : String → String}
    {acts : List (Action signature)} {out : Except GatewayExc Json}
    (h : Prog.Path (post self payload explain >>= fun resp =>
      ExceptT.mk (pure (handleResponse resp))).run acts (.done out)) :
    ∃ reply, acts = [⟨.post ("Bearer " ++ self.token) "/agent-action" payload, reply⟩] ∧
      out = received explain reply >>= handleResponse := by
  rcases Prog.path_exceptBind_done h with ⟨e, rfl, hpost⟩ | ⟨_, rest, resp, rfl, hpost, hrest⟩
  · obtain ⟨reply, rfl, hr⟩ := post_of_path hpost
    exact ⟨reply, rfl, congrArg (· >>= handleResponse) hr⟩
  · obtain ⟨reply, rfl, hr⟩ := post_of_path hpost
    obtain ⟨rfl, hout⟩ := Prog.path_done_iff.mp hrest
    refine ⟨reply, rfl, ?_⟩
    rw [← hr]
    exact Prog.done.inj hout

/-- A pause raises nothing. -/
theorem sleep_of_path {seconds : Nat} {acts : List (Action signature)} {r : Except GatewayExc Unit}
    (h : Prog.Path (ExceptT.lift (Prog.call (S := signature) (.sleep seconds)) :
      ClientM Unit).run acts (.done r)) : acts = [⟨.sleep seconds, ()⟩] ∧ r = .ok () := by
  cases h with
  | cons h =>
    obtain ⟨rfl, hr⟩ := Prog.path_done_iff.mp h
    exact ⟨rfl, Prog.done.inj hr⟩

/-- **All runs of `action`**: they are one of the two. -/
theorem actionTrace_of_path {acts : List (Action signature)} {out : Except GatewayExc Json}
    (h : Prog.Path (action self verb resource namespace_ params).run acts (.done out)) :
    ActionTrace self verb resource namespace_ params acts out := by
  rcases Prog.path_exceptBind_done h with ⟨e, rfl, hpost⟩ | ⟨_, rest, resp, rfl, hpost, hrest⟩
  · -- The post raised: there is no response to handle.
    obtain ⟨reply, rfl, hr⟩ := post_of_path hpost
    have hout : (.error e : Except GatewayExc Json) =
        received (unreachable self) reply >>= handleResponse := congrArg (· >>= handleResponse) hr
    rw [hout]
    refine .once ?_
    rintro resp rfl
    cases hr
  · -- There is a response; a 503 is posted again after a pause, if at all.
    obtain ⟨reply, rfl, hr⟩ := post_of_path hpost
    obtain rfl : reply = .ok resp := by
      cases reply with
      | ok resp' => rw [Except.ok.inj hr]
      | error e => cases e <;> cases hr
    by_cases hretry : resp.status = 503 ∧ self.retryOn503 = true
    · rw [if_pos hretry] at hrest
      rcases Prog.path_exceptBind_done hrest with
        ⟨e, -, hsleep⟩ | ⟨_, later, _, rfl, hsleep, hagain⟩
      · -- A pause does not raise.
        cases (sleep_of_path hsleep).2
      · -- The second response is the last one.
        obtain ⟨rfl, -⟩ := sleep_of_path hsleep
        obtain ⟨reply, rfl, hout⟩ := last_of_path hagain
        rw [hout]
        exact .retried hretry
    · -- Any other response is handled as it is.
      rw [if_neg hretry] at hrest
      obtain ⟨rfl, hout⟩ := Prog.path_done_iff.mp hrest
      rw [Prog.done.inj hout]
      exact .once fun resp' heq => Except.ok.inj heq ▸ hretry

/-- A decision is one post. -/
theorem decision_of_path {requestId reason : String} {approved : Bool}
    {acts : List (Action signature)} {out : Except GatewayExc Json}
    (h : Prog.Path (sendDecision self requestId approved reason).run acts (.done out)) :
    ∃ reply, acts = [⟨.post ("Bearer " ++ self.token) ("/approve/" ++ requestId)
        (decisionBody approved reason), reply⟩] ∧ out = received id reply >>= handleResponse := by
  cases h with
  | @cons _ _ reply rest _ h =>
    cases reply with
    | ok resp =>
      obtain ⟨rfl, hout⟩ := Prog.path_done_iff.mp h
      exact ⟨_, rfl, Prog.done.inj hout⟩
    | error e =>
      cases e <;> obtain ⟨rfl, hout⟩ := Prog.path_done_iff.mp h <;>
        exact ⟨_, rfl, Prog.done.inj hout⟩

/-- After a 503 the second response decides. -/
theorem retried_path {first resp : Response} (hretry : Retries self first) :
    Prog.Path (action self verb resource namespace_ params).run
      [posted self verb resource namespace_ params (.ok first), ⟨.sleep 1, ()⟩,
        posted self verb resource namespace_ params (.ok resp)] (.done (handleResponse resp)) := by
  obtain ⟨hstatus, hretry⟩ := hretry
  apply Prog.Path.cons
  show Prog.Path (if first.status = 503 ∧ self.retryOn503 = true then _
    else ExceptT.mk (pure (handleResponse first)) : ClientM Json).run _ _
  rw [if_pos ⟨hstatus, hretry⟩]
  exact .cons (.cons .nil)

end Runs

end AiK8sGateway.AgentClient
