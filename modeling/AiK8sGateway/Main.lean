import AiK8sGateway.Approval.Queue
import AiK8sGateway.Audit.Logger
import AiK8sGateway.Auth.JwtHandler
import AiK8sGateway.K8s.Client

/-!
# Gateway Handlers

`app/main.py`.  A handler is a program over the operations it performs outside its
own frame: the HTTP call to OPA, the approval queue, `execute_action` and the audit
log.  Request ids, clock readings and the behaviour of `jwt.decode` are inputs.

FastAPI has parsed the body and the Authorization header when a handler starts, and
turns what the handler returns or raises into a response.  It is a parameter, `FastApi`.
-/

namespace AiK8sGateway

open Foundations EffectProgram PythonText Approval Audit Auth Risk

/-! ## Operations -/

/-- How an HTTP exchange ends: the client raises, or there is a response, whose body
    decodes as JSON or fails to with a message. -/
inductive HttpReply where
  | raised (e : PyExc)
  | response (status : Nat) (body : Except String Json)

/-- The status of a response. -/
def HttpReply.status? : HttpReply → Option Nat
  | .raised _ => none
  | .response status _ => some status

/-- One call of `execute_action`: what it asked of the Kubernetes libraries, and what
    it returned or raised. -/
structure ExecReply where
  actions : List (Action K8s.signature)
  result : Except K8s.ClientExc Json

/-- What a handler does outside its own frame. -/
inductive Op where
  | httpPost (url : String) (document : Json)
  | enqueue (request : PendingRequest)
  | resolve (requestId : String)
  | listPending
  | executeAction (action resource «namespace» : String) (params : JsonDict)
  | auditLog (record : AuditRecord)

/-- What it gets back.  `audit.log` never raises. -/
def Op.Reply : Op → Type
  | httpPost _ _ => HttpReply
  | enqueue _ => String
  | resolve _ => Option PendingRequest
  | listPending => List Json
  | executeAction _ _ _ _ => ExecReply
  | auditLog _ => Unit

/-- The signature of the handlers. -/
abbrev signature : Signature := ⟨Op, Op.Reply⟩

/-- Handler code: it performs operations and may raise. -/
abbrev Handler := ExceptT HandlerExc (Prog signature)

/-- Perform one operation. -/
def perform (op : Op) : Handler op.Reply := ExceptT.lift (Prog.call (S := signature) op)

/-- Go on with a result, or raise. -/
def ofExcept {α : Type} (x : Except HandlerExc α) : Handler α := ExceptT.mk (pure x)

/-- What Python or a library raises here, nothing catches. -/
def uncaught {α : Type} (x : Except PyExc α) : Except HandlerExc α := x.mapError .uncaught

/-! ## Bodies -/

/-- `AgentActionRequest`. -/
structure AgentActionRequest where
  action : String
  resource : String
  «namespace» : String := "default"
  params : JsonDict := .empty

/-- The validation of a JSON body as an `AgentActionRequest`; other keys are ignored. -/
def AgentActionRequest.ofJson? (body : Json) : Option AgentActionRequest := do
  let action ← match body.field? "action" with
    | some (.str s) => some s
    | _ => none
  let resource ← match body.field? "resource" with
    | some (.str s) => some s
    | _ => none
  let namespace_ ← match body.field? "namespace" with
    | none => some "default"
    | some (.str s) => some s
    | _ => none
  let params ← match body.field? "params" with
    | none => some .empty
    | some (.obj fields) => some (.ofEntries fields)
    | _ => none
  return ⟨action, resource, namespace_, params⟩

/-- `AgentActionResponse`. -/
structure AgentActionResponse where
  requestId : String
  decision : Decision
  riskLevel : RiskLevel
  riskScore : Int
  message : String
  data : Json := .null

/-- `AgentActionResponse` as a JSON object. -/
def AgentActionResponse.toJson (r : AgentActionResponse) : Json :=
  .obj [("request_id", .str r.requestId), ("decision", .str r.decision.value),
    ("risk_level", .str r.riskLevel.value), ("risk_score", .int r.riskScore),
    ("message", .str r.message), ("data", r.data)]

/-- `ApproveRequest`. -/
structure ApproveRequest where
  approved : Bool
  reason : Option String := none

/-- The body of `POST /approve/{request_id}`, if validation accepts it.  A value that would
    have to be converted to a boolean is not accepted here. -/
def ApproveRequest.ofJson? (body : Json) : Option ApproveRequest := do
  let approved ← match body.field? "approved" with
    | some (.bool b) => some b
    | _ => none
  let reason ← match body.field? "reason" with
    | none | some .null => some none
    | some (.str s) => some (some s)
    | _ => none
  return ⟨approved, reason⟩

section Handlers

variable [CharTables] (settings : Settings)

/-! ## Internal helpers -/

/-- The value of `"input"` in `opa_input`. -/
def policyInput (identity role : Json) (action resource namespace_ : String)
    (riskLevel : RiskLevel) (params : JsonDict) : Json :=
  .obj [("identity", identity), ("role", role), ("action", .str (lower action)),
    ("resource", .str (lower resource)), ("namespace", .str (lower namespace_)),
    ("risk_level", .str riskLevel.value), ("params", params.toJson)]

/-- `opa_input`. -/
def opaInput (identity role : Json) (action resource namespace_ : String) (riskLevel : RiskLevel)
    (params : JsonDict) : Json :=
  .obj [("input", policyInput identity role action resource namespace_ riskLevel params)]

/-- The policy URL. -/
def opaEndpoint : String := settings.opaUrl ++ "/" ++ settings.opaPolicyPath

/-- The body of the `try` in `_query_opa`, after the request. -/
def readReply : HttpReply → Except PyExc (Bool × String)
  | .raised e => .error e
  | .response status body =>
    -- `raise_for_status`.
    if ¬ (200 ≤ status ∧ status < 300) then .error (.httpStatusError status)
    else do
      let value ← body.mapError .jsonDecodeError
      let result ← (value.getD "result" (.obj [])).mapError .builtin
      let allow ← (result.getD "allow" (.bool false)).mapError .builtin
      let reason ← (result.getD "reason"
        (.str "OPA decision (no reason provided)")).mapError .builtin
      -- `bool` and `str`, whatever the types of the two values.
      return (allow.truthy, reason.toStr)

/-- The `try` statement of `_query_opa`: two classes of exceptions deny, any other one
    propagates. -/
def readDecision (reply : HttpReply) : Except PyExc (Bool × String) :=
  match readReply reply with
  | .error (.requestError _) =>
    .ok (false, "OPA sidecar unreachable — failing closed for safety")
  | .error (.httpStatusError code) =>
    .ok (false, "OPA returned HTTP " ++ toString code ++ " — failing closed")
  | decision => decision

/-- `_query_opa`. -/
def queryOpa (identity role : Json) (action resource namespace_ : String) (riskLevel : RiskLevel)
    (params : JsonDict) : Handler (Bool × String) := do
  let reply ← perform (.httpPost (opaEndpoint settings)
    (opaInput identity role action resource namespace_ riskLevel params))
  ofExcept (uncaught (readDecision reply))

/-- The loud answer of `_execute_k8s` without a cluster. -/
def simulated (action resource namespace_ : String) (params : JsonDict) : Json :=
  .obj [("status", .str "[SIMULATED — cluster unreachable]"),
    ("WARNING", .str ("No Kubernetes cluster was found.  " ++
      "This response is NOT REAL.  " ++
      "Run `bash demo/setup.sh` to provision a local kind cluster.")),
    ("would_have_executed", .obj
      [("action", .str action), ("resource", .str resource), ("namespace", .str namespace_),
        ("params", params.toJson)])]

/-- The `try` statement of `_execute_k8s`, for a result of `execute_action`. -/
def mapExecution (action resource namespace_ : String) (params : JsonDict) :
    Except K8s.ClientExc Json → Except HandlerExc Json
  | .ok result => .ok result
  -- Without a cluster the answer is a simulated one, and no error.
  | .error (.k8sUnavailableError _) => .ok (simulated action resource namespace_ params)
  | .error (.k8sActionError msg _) =>
    .error (.httpException 502 (.str ("Kubernetes API error: " ++ msg)) [])
  | .error (.py e) =>
    if e.isValueError then
      .error (.httpException 502 (.str ("Kubernetes API error: " ++ e.message)) [])
    else .error (.uncaught e)

/-- `_execute_k8s`. -/
def executeK8s (action resource namespace_ : String) (params : JsonDict) : Handler Json := do
  let reply ← perform (.executeAction action resource namespace_ params)
  ofExcept (mapExecution action resource namespace_ params reply.result)

/-! ## `POST /agent-action` -/

/-- One request to `agent_action`, with the values it takes from elsewhere:
    `str(uuid.uuid4())`, the clock reading of a pending request, and `jwt.decode`. -/
structure AgentCall where
  requestId : String
  queuedAt : String
  decode : JwtDecode
  credentials : String
  body : AgentActionRequest

/-- The audit record of `agent_action`; its three calls differ in the decision. -/
def AgentCall.record (c : AgentCall) (token : TokenPayload) (rs : RiskScore)
    (decision : Decision) (opaReason : String) : AuditRecord where
  requestId := c.requestId
  identity := token.sub
  role := token.role
  action := c.body.action
  resource := c.body.resource
  «namespace» := c.body.namespace
  params := c.body.params
  riskLevel := rs.level
  riskScore := rs.score
  riskReasons := rs.reasons
  decision := decision
  opaReason := some opaReason

/-- The `PendingRequest` of stage 5a. -/
def AgentCall.pending (c : AgentCall) (token : TokenPayload) (rs : RiskScore) :
    PendingRequest where
  requestId := c.requestId
  identity := token.sub
  role := token.role
  action := c.body.action
  resource := c.body.resource
  «namespace» := c.body.namespace
  params := c.body.params
  riskLevel := rs.level
  riskScore := rs.score
  riskReasons := rs.reasons
  queuedAt := c.queuedAt

/-- The detail of the 403. -/
def AgentCall.deniedDetail (c : AgentCall) (rs : RiskScore) (opaReason : String) : Json :=
  .obj [("request_id", .str c.requestId), ("decision", .str Decision.deny.value),
    ("reason", .str opaReason), ("risk_level", .str rs.level.value)]

/-- The 403 of stage 4a. -/
def AgentCall.denied (c : AgentCall) (rs : RiskScore) (opaReason : String) : HandlerExc :=
  .httpException 403 (c.deniedDetail rs opaReason) []

/-- The response of stage 5a. -/
def AgentCall.queued (c : AgentCall) (rs : RiskScore) : AgentActionResponse where
  requestId := c.requestId
  decision := .pendingApproval
  riskLevel := rs.level
  riskScore := rs.score
  message := "Action is high-risk and has been queued for human approval. " ++
    "Use GET /pending to view it and POST /approve/" ++ c.requestId ++ " to resolve."

/-- The response of stage 5b. -/
def AgentCall.allowed (c : AgentCall) (rs : RiskScore) (k8sResult : Json) :
    AgentActionResponse where
  requestId := c.requestId
  decision := .allow
  riskLevel := rs.level
  riskScore := rs.score
  message := "Action evaluated, approved, and executed on Kubernetes."
  data := k8sResult

/-- `agent_action`. -/
def agentAction (c : AgentCall) : Handler AgentActionResponse := do
  -- Stage 1: JWT authentication.
  let token ← ofExcept (verifyToken c.decode settings c.credentials)
  -- Stage 2: risk scoring, on the strings as they were sent.
  let rs ← ofExcept (uncaught ((score settings c.body.action c.body.resource c.body.namespace
    (some c.body.params)).mapError .builtin))
  -- Stage 3: OPA evaluation.
  let (allowed, opaReason) ← queryOpa settings token.sub token.role c.body.action
    c.body.resource c.body.namespace rs.level c.body.params
  if !allowed then
    -- Stage 4a: the denial is audited before it is raised.
    let _ ← perform (.auditLog (c.record token rs .deny opaReason))
    throw (c.denied rs opaReason)
  else if rs.level = .high then
    -- Stage 5a: nothing is executed before an approval.
    let _ ← perform (.enqueue (c.pending token rs))
    let _ ← perform (.auditLog (c.record token rs .pendingApproval opaReason))
    return c.queued rs
  else
    -- Stage 5b: the audit call comes after the execution.
    let k8sResult ← executeK8s c.body.action c.body.resource c.body.namespace c.body.params
    let _ ← perform (.auditLog (c.record token rs .allow opaReason))
    return c.allowed rs k8sResult

/-! ## `GET /pending` -/

/-- One request to `list_pending`. -/
structure ListCall where
  decode : JwtDecode
  credentials : String

/-- `list_pending`. -/
def listPending (c : ListCall) : Handler Json := do
  let _ ← ofExcept (verifyToken c.decode settings c.credentials)
  let items ← perform .listPending
  return .obj [("count", .int items.length), ("items", .arr items)]

/-! ## `POST /approve/{request_id}` -/

/-- One request to `approve_action`. -/
structure ApproveCall where
  requestId : String
  decode : JwtDecode
  credentials : String
  body : ApproveRequest

/-- The detail of the 404. -/
def ApproveCall.notPendingDetail (c : ApproveCall) : Json :=
  .str ("No pending request found with id=" ++ quoted c.requestId ++ ". " ++
    "It may have already been resolved or the ID is incorrect.")

/-- The 404 for an id that is not pending. -/
def ApproveCall.notPending (c : ApproveCall) : HandlerExc :=
  .httpException 404 c.notPendingDetail []

/-- `s or default` for an optional text. -/
def reasonOr (reason : Option String) (default : String) : String :=
  match reason with
  | some s => if s = "" then default else s
  | none => default

/-- The second audit record, with the human decision. -/
def ApproveCall.record (c : ApproveCall) (approver : Json) (pending : PendingRequest)
    (decision : Decision) : AuditRecord where
  requestId := c.requestId
  identity := pending.identity
  role := pending.role
  action := pending.action
  resource := pending.resource
  «namespace» := pending.namespace
  params := pending.params
  riskLevel := pending.riskLevel
  riskScore := pending.riskScore
  riskReasons := pending.riskReasons
  decision := decision
  opaReason := some
    ("Human " ++ (if c.body.approved then "approved" else "denied") ++ " by " ++
      approver.repr ++ ". Reason: " ++ reasonOr c.body.reason "none")

/-- The body of the answer. -/
def ApproveCall.answer (c : ApproveCall) (approver : Json) (decision : Decision)
    (message : String) (data : Json) : Json :=
  .obj [("request_id", .str c.requestId), ("decision", .str decision.value),
    ("approver", approver), ("message", .str message), ("data", data)]

/-- `approve_action`. -/
def approveAction (c : ApproveCall) : Handler Json := do
  let token ← ofExcept (verifyToken c.decode settings c.credentials)
  let approver := token.sub
  -- The entry leaves the queue before anything else happens to it.
  match ← perform (.resolve c.requestId) with
  | none => throw c.notPending
  | some pending =>
    if c.body.approved then
      let k8sResult ← executeK8s pending.action pending.resource pending.namespace pending.params
      let _ ← perform (.auditLog (c.record approver pending .humanAllow))
      return c.answer approver .humanAllow
        ("Approved by " ++ approver.repr ++ " and executed on Kubernetes.") k8sResult
    else
      let _ ← perform (.auditLog (c.record approver pending .humanDeny))
      return c.answer approver .humanDeny
        ("Denied by " ++ approver.repr ++ ". Reason: " ++
          reasonOr c.body.reason "no reason provided") .null

/-! ## What the handlers raise -/

/-- What the handlers raise, and the status of the response to that. -/
inductive RaisedWith : HandlerExc → Nat → Prop where
  | unauthorized : RaisedWith authError 401
  | forbidden (c : AgentCall) (rs : RiskScore) (opaReason : String) :
      RaisedWith (c.denied rs opaReason) 403
  | notFound (c : ApproveCall) : RaisedWith c.notPending 404
  | badGateway (detail : String) : RaisedWith (.httpException 502 (.str detail) []) 502
  | internal (e : PyExc) : RaisedWith (.uncaught e) 500

/-- None of it is a success. -/
theorem RaisedWith.status_ne {e : HandlerExc} {status : Nat} (h : RaisedWith e status) :
    status ≠ 200 := by
  cases h <;> decide

variable {settings} in
/-- What `verify_token` raises is a 401 or a 500. -/
theorem raisedWith_of_verifyToken {decode : JwtDecode} {credentials : String} {e : HandlerExc}
    (h : verifyToken decode settings credentials = .error e) :
    ∃ status ∈ [401, 500], RaisedWith e status := by
  rcases verifyToken_error h with rfl | ⟨e', rfl, -, -⟩
  · exact ⟨401, by decide, .unauthorized⟩
  · exact ⟨500, by decide, .internal e'⟩

/-- What `_execute_k8s` raises is a 502 or a 500. -/
theorem raisedWith_of_mapExecution {action resource namespace_ : String}
    {params : JsonDict} {result : Except K8s.ClientExc Json} {e : HandlerExc}
    (h : mapExecution action resource namespace_ params result = .error e) :
    ∃ status ∈ [500, 502], RaisedWith e status := by
  cases result with
  | ok data => cases h
  | error exc =>
    cases exc with
    | k8sUnavailableError msg => cases h
    | k8sActionError msg code =>
      cases h
      exact ⟨502, by decide, .badGateway _⟩
    | py exc =>
      simp only [mapExecution] at h
      split_ifs at h <;> cases h
      · exact ⟨502, by decide, .badGateway _⟩
      · exact ⟨500, by decide, .internal _⟩

end Handlers

/-! ## FastAPI -/

/-- FastAPI with pydantic, as far as the gateway and its clients rely on it: the response to
    what a handler returns or raises. -/
class FastApi where
  httpResponse : Except HandlerExc Json → HttpReply
  /-- What stands for a float in a response; some floats have no JSON text. -/
  writtenFloat : PyFloat → Json
  writtenFloat_finite : Json.KeepsFinite writtenFloat
  /-- A value is answered with 200, and what can be decoded of that is the value up to its
      floats.  If it cannot be written the answer is a 500. -/
  response_ok : ∀ value,
    (∃ body, httpResponse (.ok value) = .response 200 body ∧
      ∀ v, body = .ok v → v = value.mapFloat writtenFloat) ∨
    ∃ body, httpResponse (.ok value) = .response 500 body
  /-- A plain value arrives as it is. -/
  response_plain : ∀ value, value.isPlain 8 = true →
    httpResponse (.ok value) = .response 200 (.ok value)
  /-- An `HTTPException` is answered with its status and its detail. -/
  response_httpException : ∀ status detail headers, detail.isPlain 8 = true →
    httpResponse (.error (.httpException status detail headers)) =
      .response status (.ok (.obj [("detail", detail)]))
  /-- Any other exception is a 500. -/
  response_uncaught : ∀ e, ∃ body, httpResponse (.error (.uncaught e)) = .response 500 body

export FastApi (httpResponse)

/-- What the gateway takes from outside the repository. -/
class Runtime extends CharTables, K8s.ModelValidation, FastApi

/-- A value as it is written. -/
def written [FastApi] (value : Json) : Json := value.mapFloat FastApi.writtenFloat

theorem written_of_isFinite [FastApi] {value : Json} (h : value.isFinite = true) :
    written value = value :=
  Json.mapFloat_of_isFinite FastApi.writtenFloat_finite value h

/-! ## Responses of the handlers -/

section Responses

variable [CharTables] [FastApi]

omit [CharTables] in
/-- The 403. -/
theorem httpResponse_denied (c : AgentCall) (rs : RiskScore) (opaReason : String) :
    httpResponse (.error (c.denied rs opaReason)) =
      .response 403 (.ok (.obj [("detail", c.deniedDetail rs opaReason)])) := by
  apply FastApi.response_httpException
  simp [AgentCall.deniedDetail]

/-- The 404. -/
theorem httpResponse_notPending (c : ApproveCall) :
    httpResponse (.error c.notPending) =
      .response 404 (.ok (.obj [("detail", c.notPendingDetail)])) :=
  FastApi.response_httpException _ _ _ (Json.isPlain_str _ _)

/-- An exception is answered with its status. -/
theorem RaisedWith.response {e : HandlerExc} {status : Nat} (h : RaisedWith e status) :
    ∃ body, httpResponse (.error e) = .response status body := by
  cases h with
  | unauthorized | badGateway detail =>
    exact ⟨_, FastApi.response_httpException _ _ _ (Json.isPlain_str _ _)⟩
  | forbidden c rs opaReason => exact ⟨_, httpResponse_denied c rs opaReason⟩
  | notFound c => exact ⟨_, httpResponse_notPending c⟩
  | internal e => exact FastApi.response_uncaught e

end Responses

/-! ## Requests -/

section Requests

variable [Runtime] (settings : Settings)

/-- A request to one of the routes. -/
inductive Call where
  | agentAction (c : AgentCall)
  | listPending (c : ListCall)
  | approveAction (c : ApproveCall)

/-- The handler of a request, up to its response. -/
def Call.handle : Call → Prog signature HttpReply
  | .agentAction c =>
    (fun r => httpResponse (r.map AgentActionResponse.toJson)) <$>
      (AiK8sGateway.agentAction settings c).run
  | .listPending c => httpResponse <$> (AiK8sGateway.listPending settings c).run
  | .approveAction c => httpResponse <$> (AiK8sGateway.approveAction settings c).run

end Requests

/-! ## A small runtime -/

/-- Null for a float without a JSON text. -/
def finiteOrNull (x : PyFloat) : Json := if (Json.float x).isFinite then .float x else .null

theorem finiteOrNull_finite : Json.KeepsFinite finiteOrNull := fun _ h => if_pos h

/-- A FastAPI that writes everything. -/
@[reducible] def writesAll : FastApi where
  httpResponse
    | .ok value => .response 200 (.ok (value.mapFloat finiteOrNull))
    | .error (.httpException status detail _) => .response status (.ok (.obj [("detail", detail)]))
    | .error (.uncaught _) => .response 500 (.error "Expecting value: line 1 column 1 (char 0)")
  writtenFloat := finiteOrNull
  writtenFloat_finite := finiteOrNull_finite
  response_ok _ := .inl ⟨_, rfl, fun _ h => (Except.ok.inj h).symm⟩
  response_plain value h := by
    have hkept := Json.mapFloat_of_isFinite finiteOrNull_finite value (Json.isFinite_of_isPlain h)
    exact congrArg (fun v => HttpReply.response 200 (.ok v)) hkept
  response_httpException _ _ _ _ := rfl
  response_uncaught _ := ⟨_, rfl⟩

/-- ASCII text, the validation of the SDK, and that FastAPI. -/
@[reducible] def asciiRuntime : Runtime where
  toCharTables := asciiTables
  toModelValidation := K8s.requiresName
  toFastApi := writesAll

end AiK8sGateway
