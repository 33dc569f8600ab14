import AiK8sGateway.Gateway.PolicyReply
import AiK8sGateway.Gateway.Sequential

/-!
# Outcomes of One Request

What one run of `agent_action` leaves behind: whether a query that was not answered
with an allow is refused, and whether the run is in the audit log.

## Main results

- `failsClosed_iff`: the query fails closed on a reply exactly if the reply is the
  boolean true, or can be read and is no allow.
- `auditedOnce_iff`: a run is audited once exactly if scoring returned, the reply of
  OPA could be read, and the execution returned or found no cluster.
-/

namespace AiK8sGateway

open Foundations EffectProgram PythonText Approval Audit Auth Risk

/-! ## Failing closed -/

section FailsClosed

variable [Runtime] (settings : Settings)

/-- On this reply a run is refused unless the answer is the boolean true: the response
    is a 403 with the decision `deny`, and all that is done is one audit record of it.
    In particular nothing is executed and the queue is not touched. -/
def FailsClosed (req : AgentCall) (token : TokenPayload) (rs : RiskScore)
    (reply : HttpReply) : Prop :=
  answersTrue reply = false → ∀ acts response, Executes acts →
    Prog.Path ((Call.agentAction req).handle settings)
      (req.asked settings token rs reply :: acts) (.done response) →
    ∃ reason detail, acts = [logged (req.record token rs .deny reason)] ∧
      response = .response 403 (.ok (.obj [("detail", detail)])) ∧
      detail.field? "decision" = some (.str "deny")

/-- The replies on which the query fails closed: the boolean true, and what can be read
    and is no allow. -/
def closedReply (reply : HttpReply) : Bool :=
  answersTrue reply || (readable reply && !answersAllow reply)

variable {settings} {req : AgentCall} {token : TokenPayload} {rs : RiskScore} {reply : HttpReply}

/-- An ended trace is a path to the response. -/
theorem path_of_endedTrace {acts : List (Action signature)}
    {result : Except HandlerExc AgentActionResponse}
    (h : AgentTrace settings req acts (some result)) :
    Prog.Path ((Call.agentAction req).handle settings) acts
      (.done (httpResponse (result.map AgentActionResponse.toJson))) :=
  Prog.path_map_iff.mpr ⟨_, path_of_agentTrace settings h, rfl⟩

/-- Where the query fails closed, the reply is a closed one: on any other reply some run
    ends without the refusal. -/
theorem closedReply_of_failsClosed (hs : req.Scored settings token rs)
    (h : FailsClosed settings req token rs reply) : closedReply reply = true := by
  by_contra hopen
  simp only [closedReply, Bool.or_eq_true, Bool.and_eq_true, Bool.not_eq_true', not_or,
    not_and, Bool.not_eq_true, Bool.not_eq_false] at hopen
  obtain ⟨htrue, hopen⟩ := hopen
  rcases readDecision_cases reply with ⟨-, -, reason, hread⟩ | ⟨hno, hreadable, -⟩ |
    ⟨-, -, e, hread⟩
  · -- A truthy answer goes on, to the queue or to the cluster.
    by_cases hlevel : rs.level = .high
    · -- A high-risk request is queued.
      have htrace : AgentTrace settings req [req.asked settings token rs reply,
          enqueued (req.pending token rs) req.requestId,
          logged (req.record token rs .pendingApproval reason)] (some (.ok (req.queued rs))) :=
        .queued hs hread hlevel
      have hexecutes : Executes [enqueued (req.pending token rs) req.requestId,
          logged (req.record token rs .pendingApproval reason)] := by
        intro action resource namespace_ params exec hmem
        rcases List.mem_cons.mp hmem with hmem | hmem
        · cases hmem
        · cases List.mem_singleton.mp hmem
      obtain ⟨_, _, hacts, -, -⟩ := h htrue _ _ hexecutes (path_of_endedTrace htrace)
      cases hacts
    · -- Any other request is executed, say on no cluster.
      obtain ⟨exec, hexec, msg, hresult⟩ := exists_unavailable req.body.action
        req.body.resource req.body.namespace req.body.params
      have hdata : ∃ data, req.executionResult exec = .ok data := by
        unfold AgentCall.executionResult
        rw [hresult]
        exact ⟨_, rfl⟩
      obtain ⟨data, hdata⟩ := hdata
      have hexecutes : Executes [req.executed exec, logged (req.record token rs .allow reason)] := by
        intro action resource namespace_ params exec' hmem
        rcases List.mem_cons.mp hmem with hmem | hmem
        · cases hmem
          exact hexec
        · cases List.mem_singleton.mp hmem
      obtain ⟨_, _, hacts, -, -⟩ := h htrue _ _ hexecutes
        (path_of_endedTrace (.allowed hs hread hlevel hdata))
      cases hacts
  · -- A denial is closed.
    rw [hopen hreadable] at hno
    cases hno
  · -- A reply that cannot be read ends the run with an exception.
    have hexecutes : Executes [] := fun _ _ _ _ _ hmem => absurd hmem List.not_mem_nil
    obtain ⟨_, _, hacts, -, -⟩ := h htrue _ _ hexecutes (path_of_endedTrace (.unread hs hread))
    cases hacts

/-- On a closed reply that is not the boolean true the run is refused. -/
theorem failsClosed_of_closedReply (hs : req.Scored settings token rs)
    (h : closedReply reply = true) : FailsClosed settings req token rs reply := by
  intro htrue acts response _ hpath
  have hclosed : readable reply = true ∧ answersAllow reply = false := by
    simpa [closedReply, htrue] using h
  obtain ⟨reason, hread⟩ := readDecision_deny_iff.mpr hclosed
  obtain ⟨q, hq, hresponse⟩ := Prog.path_map_iff.mp hpath
  cases q with
  | perform op next => cases hresponse
  | done result =>
    obtain ⟨hacts, rfl⟩ := denied_of_trace settings hs hread (agentTrace_of_path settings hq) rfl
    cases hresponse
    exact ⟨reason, _, hacts, httpResponse_denied req rs reason, rfl⟩

/-- **Failing closed**: the policy query fails closed on a reply exactly if the reply is
    the boolean true, or can be read and is no allow. -/
theorem failsClosed_iff (hs : req.Scored settings token rs) :
    FailsClosed settings req token rs reply ↔ closedReply reply = true :=
  ⟨closedReply_of_failsClosed hs, failsClosed_of_closedReply hs⟩

end FailsClosed

/-! ## Audit completeness -/

/-- The records that a list of actions appends to the audit log. -/
def auditRecords : List (Action signature) → List AuditRecord :=
  List.filterMap fun
    | ⟨.auditLog record, _⟩ => some record
    | _ => none

/-- The replies of OPA in a list of actions. -/
def opaReplies : List (Action signature) → List HttpReply :=
  List.filterMap fun
    | ⟨.httpPost _ _, reply⟩ => some reply
    | _ => none

/-- The executions in a list of actions. -/
def executions : List (Action signature) → List ExecReply :=
  List.filterMap fun
    | ⟨.executeAction _ _ _ _, exec⟩ => some exec
    | _ => none

/-- Exactly one audit record has the id of the request, and it carries who asked for
    what. -/
def AuditedOnce (req : AgentCall) (token : TokenPayload) (acts : List (Action signature)) : Prop :=
  ∃ record, (auditRecords acts).filter (fun r => r.requestId = req.requestId) = [record] ∧
    record.identity = token.sub ∧ record.role = token.role ∧
    record.action = req.body.action ∧ record.resource = req.body.resource ∧
    record.namespace = req.body.namespace ∧ record.params = req.body.params

/-- `execute_action` returned, or found no cluster. -/
def absorbed : Except K8s.ClientExc Json → Bool
  | .ok _ => true
  | .error (.k8sUnavailableError _) => true
  | .error _ => false

section AuditCompleteness

variable [Runtime] (settings : Settings)

/-- Nothing on the way to the audit call raised: neither the scorer, nor the reading of
    OPA's reply, nor the execution. -/
structure NothingRaised (req : AgentCall) (acts : List (Action signature)) : Prop where
  scored : ∃ rs, score settings req.body.action req.body.resource req.body.namespace
    (some req.body.params) = .ok rs
  read : ∀ reply ∈ opaReplies acts, readable reply = true
  executed : ∀ exec ∈ executions acts, absorbed exec.result = true

variable {settings}

omit [Runtime] in
/-- `_execute_k8s` returns exactly when the execution did or found no cluster. -/
theorem mapExecution_ok_iff {action resource namespace_ : String} {params : JsonDict}
    {result : Except K8s.ClientExc Json} :
    (∃ data, mapExecution action resource namespace_ params result = .ok data) ↔
      absorbed result = true := by
  cases result with
  | ok data => exact ⟨fun _ => rfl, fun _ => ⟨data, rfl⟩⟩
  | error e =>
    cases e with
    | k8sUnavailableError msg => exact ⟨fun _ => rfl, fun _ => ⟨_, rfl⟩⟩
    | k8sActionError msg code => simp [mapExecution, absorbed]
    | py e => cases hvalue : e.isValueError <;> simp [mapExecution, absorbed, hvalue]

/-- A run whose records are one record of the request is audited once. -/
theorem auditedOnce_of_record {req : AgentCall} {token token' : TokenPayload} {rs : RiskScore}
    {decision : Decision} {reason : String} {acts : List (Action signature)}
    (hverify : verifyToken req.decode settings req.credentials = .ok token)
    (hs : req.Scored settings token' rs)
    (hrecords : auditRecords acts = [req.record token' rs decision reason]) :
    AuditedOnce req token acts := by
  obtain rfl : token' = token := Except.ok.inj (hs.verified.symm.trans hverify)
  refine ⟨req.record token' rs decision reason, ?_, rfl, rfl, rfl, rfl, rfl, rfl⟩
  rw [hrecords]
  simp [AgentCall.record]

/-- **Audit completeness**: an ended run of a verified request is audited once exactly
    if nothing raised on the way. -/
theorem auditedOnce_iff {req : AgentCall} {token : TokenPayload} {acts : List (Action signature)}
    {result : Except HandlerExc AgentActionResponse}
    (hverify : verifyToken req.decode settings req.credentials = .ok token)
    (hpath : Prog.Path (agentAction settings req).run acts (.done result)) :
    AuditedOnce req token acts ↔ NothingRaised settings req acts := by
  have htrace := agentTrace_of_path settings hpath
  rw [Prog.outcome_done] at htrace
  cases htrace with
  -- The token was verified.
  | rejected hverify' => cases hverify'.symm.trans hverify
  | unscored _ hscore =>
    -- The scorer raised.
    constructor
    · rintro ⟨record, hrecord, -⟩
      cases hrecord
    · rintro ⟨⟨rs, hrs⟩, -, -⟩
      cases hrs.symm.trans hscore
  | unread hs hread =>
    -- The reply could not be read.
    constructor
    · rintro ⟨record, hrecord, -⟩
      cases hrecord
    · rintro ⟨-, hreadable, -⟩
      obtain ⟨d, hd⟩ := readDecision_ok_iff.mpr (hreadable _ (List.mem_singleton.mpr rfl))
      cases hd.symm.trans hread
  | denied hs hread | queued hs hread hlevel =>
    -- These two exits log before they leave, and execute nothing.
    refine iff_of_true (auditedOnce_of_record hverify hs rfl) ⟨⟨_, hs.scored⟩, ?_, nofun⟩
    intro reply hmem
    obtain rfl := List.mem_singleton.mp hmem
    exact readDecision_ok_iff.mp ⟨_, hread⟩
  | failed hs hread hlevel hexec =>
    -- The exception left the handler before its audit call.
    refine iff_of_false ?_ ?_
    · rintro ⟨record, hrecord, -⟩
      cases hrecord
    · rintro ⟨-, -, habsorbed⟩
      obtain ⟨data, hdata⟩ := mapExecution_ok_iff.mpr
        (habsorbed _ (List.mem_singleton.mpr rfl))
      cases hdata.symm.trans hexec
  | allowed hs hread hlevel hexec =>
    -- This exit logs at its end, after an execution that did not raise.
    refine iff_of_true (auditedOnce_of_record hverify hs rfl) ⟨⟨_, hs.scored⟩, ?_, ?_⟩
    · intro reply hmem
      obtain rfl := List.mem_singleton.mp hmem
      exact readDecision_ok_iff.mp ⟨_, hread⟩
    · intro exec hmem
      obtain rfl := List.mem_singleton.mp hmem
      exact mapExecution_ok_iff.mp ⟨_, hexec⟩

end AuditCompleteness

section Examples

attribute [local instance] asciiRuntime

/-- An agent lists the pods of the default namespace. -/
def listPods : AgentCall :=
  .ofSubject "r-1" "agent-readonly" "readonly" { action := "list", resource := "pods" }

theorem listPods_scored : ∃ token rs, listPods.Scored Settings.default token rs :=
  ⟨_, _, rfl, rfl⟩

/-- Without an answer of OPA the request is refused. -/
theorem failsClosed_requestError : ∃ token rs, listPods.Scored Settings.default token rs ∧
    FailsClosed Settings.default listPods token rs (.raised (.requestError "refused")) := by
  obtain ⟨token, rs, hs⟩ := listPods_scored
  exact ⟨token, rs, hs, (failsClosed_iff hs).mpr rfl⟩

/-- A reply whose `allow` is the string `false`. -/
def stringAllow : HttpReply :=
  .response 200 (.ok (.obj [("result", .obj [("allow", .str "false")])]))

/-- On the string `false` the query does not fail closed. -/
theorem not_failsClosed_stringAllow :
    ¬ ∀ req token rs reply, req.Scored Settings.default token rs →
      FailsClosed Settings.default req token rs reply := by
  intro h
  obtain ⟨token, rs, hs⟩ := listPods_scored
  have hclosed := closedReply_of_failsClosed hs (h listPods token rs stringAllow hs)
  exact absurd hclosed (by decide)

/-- OPA allows the request, and the cluster gives the reply. -/
def allowedWith (k8sReply : (op : K8s.Op) → op.Reply) : Environment where
  opaReply _ := .response 200 (.ok (.obj [("result", .obj [("allow", .bool true)])]))
  k8sReply := k8sReply

/-- One run of `agent_action`: what it returns or raises, and what it does. -/
def agentRun (env : Environment) (req : AgentCall) :
    Except HandlerExc AgentActionResponse × List (Action signature) :=
  let outcome := Prog.run (S := signature) env.answer (agentAction Settings.default req).run .empty
  (outcome.1, outcome.2.1)

theorem agentRun_path (env : Environment) (req : AgentCall) :
    Prog.Path (agentAction Settings.default req).run (agentRun env req).2
      (.done (agentRun env req).1) :=
  @Prog.run_path signature _ _ env.answer _ _

/-- With a working cluster the request is audited once. -/
theorem auditedOnce_workingCluster : ∃ token,
    AuditedOnce listPods token (agentRun (allowedWith workingCluster) listPods).2 := by
  obtain ⟨token, rs, hs⟩ := listPods_scored
  refine ⟨token, (auditedOnce_iff hs.verified (agentRun_path _ _)).mpr ⟨⟨rs, hs.scored⟩, ?_, ?_⟩⟩
  · have hall : (opaReplies (agentRun (allowedWith workingCluster) listPods).2).all readable =
        true := by decide
    exact List.all_eq_true.mp hall
  · have hall : (executions (agentRun (allowedWith workingCluster) listPods).2).all
        (fun exec => absorbed exec.result) = true := by decide
    exact List.all_eq_true.mp hall

/-- A cluster whose API server answers every call with an error. -/
def failingCluster : (op : K8s.Op) → op.Reply
  | .loadInclusterConfig => .ok ()
  | .loadKubeConfig => .ok ()
  | .sdk _ => .error (.apiException (some 500) (some "Internal Server Error") "")

/-- When the API server fails, the request is not audited. -/
theorem not_auditedOnce_failingCluster :
    ¬ ∀ req token acts result,
      verifyToken req.decode Settings.default req.credentials = .ok token →
      Prog.Path (agentAction Settings.default req).run acts (.done result) →
        AuditedOnce req token acts := by
  intro h
  obtain ⟨token, rs, hs⟩ := listPods_scored
  obtain ⟨record, hrecord, -⟩ :=
    h listPods token _ _ hs.verified (agentRun_path (allowedWith failingCluster) listPods)
  have hnone : (auditRecords (agentRun (allowedWith failingCluster) listPods).2).length = 0 := by
    decide
  rw [List.length_eq_zero_iff.mp hnone] at hrecord
  cases hrecord

end Examples

end AiK8sGateway
