import AiK8sGateway.Gateway.ClientAgreement
import AiK8sGateway.Gateway.Fleet
import AiK8sGateway.Gateway.SdkCalls

/-!
# Decisions of an Operator

`GatewayClient.approve` and `reject` against the gateway as it runs, with any number of
other requests in between.  What such a call returns is about all runs of the gateway: that
the request was executed for this approval, or that it is never executed.

## Main results

- `returned_of_answered`: a call that returns took the request out of the queue.
- `operator_calls`: approvals and rejections that returned, over a run.
-/

namespace AiK8sGateway

open Foundations EffectProgram PythonText Approval Audit Auth Risk Reachable
open AgentClient (GatewayClient GatewayExc Response handleResponse decisionBody)

/-! ## The exchange -/

/-- **The decision arrives**: validation gives back what the client was called with. -/
theorem body_of_decision (approved : Bool) (reason : String) :
    ApproveRequest.ofJson? (decisionBody approved reason) = some ⟨approved, some reason⟩ := by
  simp [ApproveRequest.ofJson?, decisionBody, Json.field?, OrderedDict.lookup_cons]

section Exchange

/-- Thread `t` of the gateway has answered the one post of a client run.  Its path names the
    request of the handler, so that the id is one that a path keeps. -/
structure Answered (c : GatewayConfig) (t : Nat) (ac : ApproveCall) (resp : Response)
    (acts : List (Action AgentClient.signature)) : Prop where
  served : ∃ response, c.threads[t]? = some (.approveAction ac, .done response) ∧
    Sees response resp
  posted : ∃ payload, ApproveRequest.ofJson? payload = some ac.body ∧
    acts = [⟨.post ("Bearer " ++ ac.credentials) ("/approve/" ++ ac.requestId) payload, .ok resp⟩]

/-- The gateway got what the client was called with, and its response is what the client
    handles. -/
theorem decision_of_answered {self : GatewayClient} {requestId reason : String} {approved : Bool}
    {acts : List (Action AgentClient.signature)} {out : Except GatewayExc Json} {t : Nat}
    {ac : ApproveCall} {resp : Response} {c : GatewayConfig}
    (hpath : Prog.Path (AgentClient.sendDecision self requestId approved reason).run acts
      (.done out))
    (hanswered : Answered c t ac resp acts) :
    ac.requestId = requestId ∧ ac.credentials = self.token ∧ ac.body = ⟨approved, some reason⟩ ∧
      out = handleResponse resp := by
  obtain ⟨reply, hacts, hout⟩ := AgentClient.decision_of_path hpath
  obtain ⟨payload, hbody, hposted⟩ := hanswered.posted
  rw [hacts] at hposted
  injection hposted with hfirst _
  injection hfirst with hop hreply
  injection hop with hauth hurl hpayload
  rw [← hpayload, body_of_decision] at hbody
  refine ⟨((String.append_right_inj _).mp hurl).symm, ((String.append_right_inj _).mp hauth).symm,
    (Option.some.inj hbody).symm, ?_⟩
  cases hreply
  exact hout

end Exchange

/-! ## Calls that return -/

section Returned

variable [Runtime] {settings : Settings} {opa : Opa} {c : GatewayConfig}

/-- A body that was returned is the handler's, as it was written. -/
theorem returned_body {body : Json} {resp : Response} {value : Json}
    (hsees : Sees (httpResponse (.ok body)) resp) (hout : handleResponse resp = .ok value) :
    value = written body := by
  rcases handleResponse_of_body hsees with ⟨-, ⟨-, hbody⟩ | ⟨-, e, -, herror⟩⟩
  · exact Except.ok.inj (hout.symm.trans hbody)
  · cases hout.symm.trans herror

/-- What a handler raised is not returned. -/
theorem not_returned_of_raised {e : HandlerExc} {status : Nat} {resp : Response} {value : Json}
    (h : RaisedWith e status) (hsees : Sees (httpResponse (.error e)) resp) :
    handleResponse resp ≠ .ok value := by
  intro hout
  obtain ⟨body, hbody⟩ := h.response
  rw [hbody, sees_iff, AgentClient.status_of_returned hout] at hsees
  exact h.status_ne hsees.1.symm

/-- What a handler did whose answer, as it was written, a call returned. -/
inductive Returned (settings : Settings) (ac : ApproveCall) (acts : List (Action signature)) :
    Json → Prop where
  | approved {token : TokenPayload} {pending : PendingRequest} {exec : ExecReply} {data : Json}
      {message : String} (hverify : verifyToken ac.decode settings ac.credentials = .ok token)
      (hbody : ac.body.approved = true) (hresolved : ac.resolved (some pending) ∈ acts)
      (hexecuted : executedPending pending exec ∈ acts)
      (hresult : pendingResult pending exec = .ok data) :
      Returned settings ac acts (written (ac.answer token.sub .humanAllow message data))
  | denied {token : TokenPayload} {pending : PendingRequest} {message : String}
      (hverify : verifyToken ac.decode settings ac.credentials = .ok token)
      (hbody : ac.body.approved = false) (hresolved : ac.resolved (some pending) ∈ acts) :
      Returned settings ac acts (written (ac.answer token.sub .humanDeny message .null))

/-- **A call that returns** took the request out of the queue. -/
theorem returned_of_trace {ac : ApproveCall} {acts : List (Action signature)}
    {response : HttpReply} {resp : Response} {value : Json}
    (h : CallTrace settings (.approveAction ac) acts (some response)) (hsees : Sees response resp)
    (hout : handleResponse resp = .ok value) : Returned settings ac acts value := by
  generalize hsome : some response = out at h
  cases h with
  | @approveAction _ _ out h =>
    cases h with
    | resolving _ | taken _ | executed _ _ _ => cases hsome
    | rejected hverify =>
      -- The 401.
      cases hsome
      obtain ⟨status, -, hraised⟩ := raisedWith_of_verifyToken hverify
      exact absurd hout (not_returned_of_raised hraised hsees)
    | unknown _ =>
      -- The 404.
      cases hsome
      exact absurd hout (not_returned_of_raised (.notFound ac) hsees)
    | failed _ _ hexec =>
      -- The execution raised.
      cases hsome
      obtain ⟨status, -, hraised⟩ := raisedWith_of_mapExecution hexec
      exact absurd hout (not_returned_of_raised hraised hsees)
    | approved hverify hbody hexec =>
      -- The answer to an approval, with what the execution gave.
      cases hsome
      rw [returned_body hsees hout]
      exact .approved hverify hbody (.head _) (.tail _ (.head _)) hexec
    | denied hverify hbody =>
      -- The answer to a rejection.
      cases hsome
      rw [returned_body hsees hout]
      exact .denied hverify hbody (.head _)

/-- Every such answer took an entry. -/
theorem Returned.resolved {ac : ApproveCall} {acts : List (Action signature)} {value : Json}
    (h : Returned settings ac acts value) : ∃ pending, ac.resolved (some pending) ∈ acts := by
  cases h with
  | approved _ _ hresolved _ _ | denied _ _ hresolved => exact ⟨_, hresolved⟩

/-- A call that returned, in the history of the gateway. -/
structure ReturnedIn (settings : Settings) (c : GatewayConfig) (t : Nat) (ac : ApproveCall)
    (requestId : String) (approved : Bool) (value : Json) : Prop where
  id : ac.requestId = requestId
  body : ac.body.approved = approved
  returned : Returned settings ac (localActions t c.history) value
  performed : ∀ a ∈ localActions t c.history, .act t (.approveAction ac) a ∈ c.history

theorem returned_of_answered (h : (gateway settings opa).Reachable c) {self : GatewayClient}
    {requestId reason : String} {approved : Bool} {acts : List (Action AgentClient.signature)}
    {value : Json} {t : Nat} {ac : ApproveCall} {resp : Response}
    (hpath : Prog.Path (AgentClient.sendDecision self requestId approved reason).run acts
      (.done (.ok value)))
    (hanswered : Answered c t ac resp acts) :
    ReturnedIn settings c t ac requestId approved value := by
  obtain ⟨hid, -, hbody, hout⟩ := decision_of_answered hpath hanswered
  obtain ⟨response, hget, hsees⟩ := hanswered.served
  have htrace := callTrace_of_path settings (path h hget)
  rw [Prog.outcome_done] at htrace
  refine ⟨hid, by rw [hbody], returned_of_trace htrace hsees hout.symm, ?_⟩
  exact fun a ha => (mem_localActions_iff h (arrive_mem h hget)).mp ha

/-- The kind of the event that takes the entry. -/
theorem ReturnedIn.taken {t : Nat} {ac : ApproveCall} {requestId : String} {approved : Bool}
    {value : Json} (hr : ReturnedIn settings c t ac requestId approved value) :
    ∃ pending, .act t (.approveAction ac) (ac.resolved (some pending)) ∈ c.history ∧
      kindOf (.act t (.approveAction ac) (ac.resolved (some pending))) =
        some (if approved then .released else .rejected, requestId) := by
  obtain ⟨pending, hmem⟩ := hr.returned.resolved
  refine ⟨pending, hr.performed _ hmem, ?_⟩
  rw [kindOf_resolved_some, hr.id, hr.body]

/-! ## Decisions over a run -/

/-- The calls of operators that returned, over a run. -/
structure OperatorCalls (settings : Settings) (c : GatewayConfig) : Prop where
  /-- An approval is about an authorised request, and reports the answer to its SDK call. -/
  approved : ∀ (t : Nat) (ac : ApproveCall) (resp : Response)
    (acts : List (Action AgentClient.signature)) (self : GatewayClient) (i reason : String)
    (value : Json), Answered c t ac resp acts →
      Prog.Path (AgentClient.approve self i reason).run acts (.done (.ok value)) →
        ∃ req token rs approver message data, req.requestId = i ∧
          Authorised settings c.history req token rs ∧
          value = written (ac.answer approver .humanAllow message data) ∧
          Truthful c.history req (written data)
  /-- After a rejection nothing is executed, and the request is not in the queue. -/
  rejected : ∀ (t : Nat) (ac : ApproveCall) (resp : Response)
    (acts : List (Action AgentClient.signature)) (self : GatewayClient) (i reason : String)
    (value : Json), Answered c t ac resp acts →
      Prog.Path (AgentClient.reject self i reason).run acts (.done (.ok value)) →
        callsFor i c.history = [] ∧ c.shared.peek i = none
  /-- Of all decisions about a request one returns. -/
  once : ∀ (t t' : Nat) (ac ac' : ApproveCall) (resp resp' : Response)
    (acts acts' : List (Action AgentClient.signature)) (self self' : GatewayClient)
    (i reason reason' : String) (approved approved' : Bool) (value value' : Json),
      Answered c t ac resp acts → Answered c t' ac' resp' acts' →
      Prog.Path (AgentClient.sendDecision self i approved reason).run acts (.done (.ok value)) →
      Prog.Path (AgentClient.sendDecision self' i approved' reason').run acts' (.done (.ok value')) →
        t = t'

/-- For an id an entry is taken once at most. -/
theorem taken_le_one (h : (gateway settings opa).Reachable c) (i : String) :
    stored i c.shared + tally .released i c.history + tally .rejected i c.history ≤ 1 := by
  have htaken := stored_add_taken_le h i
  have henqueued := enqueued_add_denied_le_one h i
  omega

/-- A returned approval is truthful. -/
theorem truthful_of_returnedIn (h : (gateway settings opa).Reachable c) {t : Nat}
    {ac : ApproveCall} {i : String} {value : Json}
    (hr : ReturnedIn settings c t ac i true value) :
    ∃ req token rs approver message data, req.requestId = i ∧
      Authorised settings c.history req token rs ∧
      value = written (ac.answer approver .humanAllow message data) ∧
      Truthful c.history req (written data) := by
  have hreturned := hr.returned
  cases hreturned with
  | @approved token pending exec data message _ _ _ hexecuted hresult =>
    obtain ⟨req, token', rs, hauth, hid, haction, hresource, hns, hparams, hexec⟩ :=
      executedFor_of_mem h (hr.performed _ hexecuted)
    rw [pendingResult, haction, hresource, hns, hparams] at hresult
    exact ⟨req, token', rs, _, _, data, (Option.some.inj hid).symm.trans hr.id, hauth, rfl,
      truthful_of_executedFor hexec hresult fun v hv =>
        written_of_execution h (hr.performed _ hexecuted) hv⟩
  | denied _ hbody _ => cases hr.body.symm.trans hbody

/-- After a returned rejection nothing was executed, and nothing is in the queue. -/
theorem nothing_of_returnedIn (h : (gateway settings opa).Reachable c) {t : Nat}
    {ac : ApproveCall} {i : String} {value : Json}
    (hr : ReturnedIn settings c t ac i false value) :
    callsFor i c.history = [] ∧ c.shared.peek i = none := by
  obtain ⟨pending, hmem, hkind⟩ := hr.taken
  have hone := one_le_tally hmem hkind
  have hexecuted := executed_add_refused_le_one h i
  have htaken := taken_le_one h i
  have hcount : tally .executed i c.history = 0 ∧ stored i c.shared = 0 := by
    simp only [Bool.false_eq_true, if_false] at hone
    omega
  refine ⟨callsFor_of_tally hcount.1, ?_⟩
  cases hpeek : c.shared.peek i with
  | none => rfl
  | some pending' => simp [stored, hpeek] at hcount

/-- Two calls that returned are one. -/
theorem eq_of_returnedIn (h : (gateway settings opa).Reachable c) {t t' : Nat}
    {ac ac' : ApproveCall} {i : String} {approved approved' : Bool} {value value' : Json}
    (hr : ReturnedIn settings c t ac i approved value)
    (hr' : ReturnedIn settings c t' ac' i approved' value') : t = t' := by
  obtain ⟨pending, hmem, hkind⟩ := hr.taken
  obtain ⟨pending', hmem', hkind'⟩ := hr'.taken
  have htaken := taken_le_one h i
  have hone := one_le_tally hmem hkind
  have hone' := one_le_tally hmem' hkind'
  -- Two events of different kinds would be counted twice.
  have hsame : approved = approved' := by
    cases approved <;> cases approved' <;> simp at hone hone' ⊢ <;> omega
  subst hsame
  have hle : tally (if approved then .released else .rejected) i c.history ≤ 1 := by
    cases approved <;> simp <;> omega
  have heq := eq_of_tally_le_one hle hmem hmem' hkind hkind'
  injection heq

/-- **Decisions of operators**: in every run, whatever OPA and the cluster answer. -/
theorem operator_calls (h : (gateway settings opa).Reachable c) : OperatorCalls settings c where
  approved _ _ _ _ _ _ _ _ hanswered hpath :=
    truthful_of_returnedIn h (returned_of_answered h hpath hanswered)
  rejected _ _ _ _ _ _ _ _ hanswered hpath :=
    nothing_of_returnedIn h (returned_of_answered h hpath hanswered)
  once _ _ _ _ _ _ _ _ _ _ _ _ _ _ _ _ _ hanswered hanswered' hpath hpath' :=
    eq_of_returnedIn h (returned_of_answered h hpath hanswered)
      (returned_of_answered h hpath' hanswered')

end Returned

section Example

attribute [local instance] asciiRuntime

/-- A decision of an operator about the deployment `r-1`. -/
def operatorDecision (approved : Bool) : ApproveCall :=
  .ofSubject "r-1" "operator" "deployer" ⟨approved, some "checked"⟩

/-- The deployment is approved, and then rejected. -/
def decidedDeployment : GatewayConfig :=
  sequential Settings.default trusting
    [submittedDeployment, .approveAction (operatorDecision true),
      .approveAction (operatorDecision false)]

/-- The client that approves gets an answer. -/
theorem exists_returned : ∃ resp acts value,
    Answered decidedDeployment 1 (operatorDecision true) resp acts ∧
      Prog.Path (AgentClient.approve ⟨"http://gateway", "token", true⟩ "r-1" "checked").run acts
        (.done (.ok value)) := by
  obtain ⟨v, hget⟩ : ∃ v, decidedDeployment.threads[1]? =
      some (.approveAction (operatorDecision true), .done (.response 200 (.ok v))) := ⟨_, rfl⟩
  exact ⟨⟨200, "", .ok v⟩, _, v,
    ⟨⟨_, hget, rfl⟩, ⟨_, body_of_decision true "checked", rfl⟩⟩, .cons .nil⟩

/-- The approval took the deployment, and the rejection found nothing. -/
theorem operator_calls_decidedDeployment :
    OperatorCalls Settings.default decidedDeployment ∧
      ∃ resp acts value, Answered decidedDeployment 1 (operatorDecision true) resp acts ∧
        Prog.Path (AgentClient.approve ⟨"http://gateway", "token", true⟩ "r-1" "checked").run acts
          (.done (.ok value)) := by
  have hreach : (gateway Settings.default anyOpa).Reachable decidedDeployment :=
    sequential_reachable (fun _ _ => trivial) _ (by decide)
  exact ⟨operator_calls hreach, exists_returned⟩

end Example

end AiK8sGateway
