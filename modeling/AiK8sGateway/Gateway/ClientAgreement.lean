import AiK8sGateway.AgentClient
import AiK8sGateway.Gateway.HumanApproval

/-!
# Agreement of Client and Gateway

`GatewayClient.action` on one side and `agent_action` on the other: two programs with
operations of their own, which meet in an HTTP exchange.  What the client returns or
raises is compared with what the run of the gateway did.

## Main results

- `body_of_payload`: the gateway gets the arguments that the client was called with.
- `agrees_iff`: a client run triggers one run of the gateway, and the two agree exactly
  if that run denies nothing, queues nothing, and has an answer to what it dispatched.
-/

namespace AiK8sGateway

open Foundations EffectProgram PythonText Approval Audit Auth Risk
open AgentClient (GatewayClient GatewayExc Response handleResponse)

/-- FastAPI can write the value, and the client can read that. -/
def Writable [FastApi] (value : Json) : Prop :=
  ∃ v, httpResponse (.ok value) = .response 200 (.ok v)

/-! ## Runs of the gateway -/

section Agreement

variable [Runtime] (settings : Settings)

/-- One ended run of `agent_action`, in which the executions are runs of
    `execute_action`. -/
structure ServerRun where
  call : AgentCall
  acts : List (Action signature)
  result : Except HandlerExc AgentActionResponse
  path : Prog.Path (agentAction settings call).run acts (.done result)
  executes : Executes acts

variable {settings}

namespace ServerRun

variable (run : ServerRun settings)

/-- The response of the run. -/
def response : HttpReply := httpResponse (run.result.map AgentActionResponse.toJson)

/-- The gateway allowed the action: it dispatched it. -/
def Allowed : Prop := executions run.acts ≠ []

/-- The gateway put the action into the queue. -/
def Queued : Prop := ∃ pending id, enqueued pending id ∈ run.acts

/-- The gateway denied the action, and recorded this reason, level and score. -/
def Denied (reason riskLevel riskScore : Json) : Prop :=
  ∃ record ∈ auditRecords run.acts, record.decision = .deny ∧
    record.opaReason.map Json.str = some reason ∧ riskLevel = .str record.riskLevel.value ∧
    riskScore = .int record.riskScore

/-- `verify_token` rejected the token. -/
def Rejected : Prop :=
  verifyToken run.call.decode settings run.call.credentials = .error authError

/-- What the client returns or raises is what the gateway did. -/
structure Agrees (out : Except GatewayExc Json) : Prop where
  returns : (∃ value, out = .ok value) ↔ run.Allowed
  pending : ∀ requestId, out = .error (.gatewayPendingError requestId) ↔
    run.Queued ∧ requestId = .str run.call.requestId
  denied : ∀ reason riskLevel riskScore,
    out = .error (.gatewayDeniedError reason riskLevel riskScore) ↔
      run.Denied reason riskLevel riskScore
  unauthorized : (∃ msg, out = .error (.gatewayAuthError msg)) ↔ run.Rejected

/-- `execute_action` returned, or found no cluster and FastAPI can write the simulated answer,
    which repeats the params. -/
def Answerable (exec : ExecReply) : Prop :=
  (∃ v, exec.result = .ok v) ∨
    (∃ msg, exec.result = .error (.k8sUnavailableError msg)) ∧
      ∀ token rs, run.call.Scored settings token rs →
        Writable (run.call.allowed rs (simulated run.call.body.action run.call.body.resource
          run.call.body.namespace run.call.body.params)).toJson

/-- If OPA's reply was read at all, it allowed a request that is not high-risk, and the
    execution of that can be answered. -/
structure DirectOnly : Prop where
  decided : ∀ token rs reply, run.call.Scored settings token rs →
    reply ∈ opaReplies run.acts → readable reply = true →
      answersAllow reply = true ∧ rs.level ≠ .high
  answered : ∀ exec ∈ executions run.acts, run.Answerable exec

end ServerRun

/-! ## Responses of the gateway -/

/-- The client sees a response. -/
def Sees (reply : HttpReply) (resp : Response) : Prop := reply = .response resp.status resp.json

omit [Runtime] in
theorem sees_iff {status : Nat} {body : Except String Json} {resp : Response} :
    Sees (.response status body) resp ↔ resp.status = status ∧ resp.json = body := by
  unfold Sees
  rw [HttpReply.response.injEq, eq_comm, @eq_comm _ body]

/-- To the client a 500 or a 502 is an error of the base class. -/
theorem handleResponse_of_raised {e : HandlerExc} {resp : Response}
    (h : ∃ status ∈ [500, 502], RaisedWith e status) (hsees : Sees (httpResponse (.error e)) resp) :
    resp.status ≠ 503 ∧ ∃ msg, handleResponse resp = .error (.gatewayError msg) := by
  obtain ⟨status, hstatus, hraised⟩ := h
  obtain ⟨body, hbody⟩ := hraised.response
  rw [hbody, sees_iff] at hsees
  simp only [List.mem_cons, List.not_mem_nil, or_false] at hstatus
  have hunexpected : resp.status ∉ [200, 202, 401, 403] ∧ resp.status ≠ 503 := by
    rw [hsees.1]
    rcases hstatus with rfl | rfl <;> decide
  exact ⟨hunexpected.2, AgentClient.handleResponse_unexpected hunexpected.1⟩

/-- What nothing caught is a 500. -/
theorem internal_raised (e : PyExc) : ∃ status ∈ [500, 502], RaisedWith (.uncaught e) status :=
  ⟨500, by decide, .internal e⟩

/-- The exception speaks of no decision. -/
inductive Undecided : GatewayExc → Prop where
  | base (msg : String) : Undecided (.gatewayError msg)
  | undecodable (msg : String) : Undecided (.uncaught (.jsonDecodeError msg))

/-- A returned body as it was written, or an exception if FastAPI cannot write it. -/
theorem handleResponse_of_body {body : Json} {resp : Response}
    (hsees : Sees (httpResponse (.ok body)) resp) :
    resp.status ≠ 503 ∧
      (Writable body ∧ handleResponse resp = .ok (written body) ∨
        ¬ Writable body ∧ ∃ e, Undecided e ∧ handleResponse resp = .error e) := by
  rcases FastApi.response_ok body with ⟨text, htext, hwritten⟩ | ⟨text, htext⟩
  · -- The text was written.
    rw [htext, sees_iff] at hsees
    obtain ⟨hstatus, hjson⟩ := hsees
    refine ⟨by simp [hstatus], ?_⟩
    cases text with
    | ok v =>
      refine .inl ⟨⟨v, htext⟩, ?_⟩
      rw [AgentClient.handleResponse_ok hstatus hjson, hwritten v rfl]
      rfl
    | error msg =>
      -- The text does not decode, and `resp.json()` raises.
      refine .inr ⟨fun ⟨v, hv⟩ => ?_, _, .undecodable msg, ?_⟩
      · cases htext.symm.trans hv
      · simp [handleResponse, Response.decoded, hstatus, hjson, Except.mapError]
  · -- The value could not be written: a 500.
    rw [htext, sees_iff] at hsees
    obtain ⟨msg, hmsg⟩ := @AgentClient.handleResponse_unexpected resp (by simp [hsees.1])
    refine ⟨by simp [hsees.1], .inr ⟨fun ⟨v, hv⟩ => ?_, _, .base msg, hmsg⟩⟩
    cases htext.symm.trans hv

/-- A plain value can be written. -/
theorem writable_of_isPlain {value : Json} (h : value.isPlain 8 = true) : Writable value :=
  ⟨value, FastApi.response_plain value h⟩

/-! ## The outcomes of one run -/

section Outcomes

variable {run : ServerRun settings} {resp : Response}

/-- The run executed nothing, recorded nothing and queued nothing. -/
structure Silent (run : ServerRun settings) : Prop where
  unexecuted : executions run.acts = []
  unrecorded : auditRecords run.acts = []
  unqueued : ∀ pending id, enqueued pending id ∉ run.acts

/-- A silent run agrees with an exception that speaks of no queue and of no denial. -/
theorem agrees_of_silent {e : GatewayExc} (h : Silent run)
    (hpending : ∀ requestId, e ≠ .gatewayPendingError requestId)
    (hdenied : ∀ reason riskLevel riskScore,
      e ≠ .gatewayDeniedError reason riskLevel riskScore)
    (hauth : (∃ msg, e = .gatewayAuthError msg) ↔ run.Rejected) : run.Agrees (.error e) where
  returns := iff_of_false (fun ⟨_, h⟩ => nomatch h) fun hallowed => hallowed h.unexecuted
  pending requestId := by
    refine iff_of_false (fun heq => hpending requestId (Except.error.inj heq)) ?_
    rintro ⟨⟨pending, id, hmem⟩, -⟩
    exact h.unqueued pending id hmem
  denied reason riskLevel riskScore := by
    refine iff_of_false (fun heq => hdenied _ _ _ (Except.error.inj heq)) ?_
    rintro ⟨record, hrecord, -⟩
    rw [h.unrecorded] at hrecord
    cases hrecord
  unauthorized := by
    rw [← hauth]
    simp

/-- A verified token was not rejected. -/
theorem not_rejected {token : TokenPayload}
    (hverify : verifyToken run.call.decode settings run.call.credentials = .ok token) :
    ¬ run.Rejected := by
  intro hrejected
  cases hverify.symm.trans hrejected

/-- A silent run that ended with an error of no decision agrees. -/
theorem agrees_of_raised {e : HandlerExc} (h : Silent run) (hverified : ¬ run.Rejected)
    (hresult : run.result = .error e)
    (hraised : ∃ status ∈ [500, 502], RaisedWith e status) (hsees : Sees run.response resp) :
    resp.status ≠ 503 ∧ run.Agrees (handleResponse resp) := by
  unfold ServerRun.response at hsees
  rw [hresult] at hsees
  obtain ⟨hstatus, msg, hout⟩ := handleResponse_of_raised hraised hsees
  refine ⟨hstatus, ?_⟩
  rw [hout]
  refine agrees_of_silent h nofun nofun ?_
  exact iff_of_false (fun ⟨_, h⟩ => nomatch h) hverified

/-- The 401, as the client sees it. -/
theorem handleResponse_of_authError (hsees : Sees (httpResponse (.error authError)) resp) :
    resp.status = 401 ∧ ∃ msg, handleResponse resp = .error (.gatewayAuthError msg) := by
  unfold authError at hsees
  rw [FastApi.response_httpException _ _ _ (Json.isPlain_str _ _), sees_iff] at hsees
  exact ⟨hsees.1, AgentClient.handleResponse_unauthorized hsees.1⟩

/-- A run whose token did not verify agrees. -/
theorem agrees_of_unverified {e : HandlerExc} (h : Silent run)
    (hverify : verifyToken run.call.decode settings run.call.credentials = .error e)
    (hresult : run.result = .error e) (hsees : Sees run.response resp) :
    resp.status ≠ 503 ∧ run.Agrees (handleResponse resp) := by
  rcases verifyToken_error hverify with rfl | ⟨e', rfl, -, -⟩
  · unfold ServerRun.response at hsees
    rw [hresult] at hsees
    obtain ⟨hstatus, msg, hout⟩ := handleResponse_of_authError hsees
    refine ⟨by simp [hstatus], ?_⟩
    rw [hout]
    exact agrees_of_silent h nofun nofun (iff_of_true ⟨_, rfl⟩ hverify)
  · -- `decode` failed with something else, which is a 500.
    refine agrees_of_raised h ?_ hresult (internal_raised e') hsees
    intro hrejected
    cases hverify.symm.trans hrejected

/-- The 403, as the client sees it. -/
theorem handleResponse_of_denied {c : AgentCall} {rs : RiskScore} {reason : String}
    (hsees : Sees (httpResponse (.error (c.denied rs reason))) resp) :
    resp.status = 403 ∧ handleResponse resp =
      .error (.gatewayDeniedError (.str reason) (.str rs.level.value) (.int (-1))) := by
  rw [httpResponse_denied, sees_iff] at hsees
  exact ⟨hsees.1, AgentClient.handleResponse_forbidden hsees.1 hsees.2⟩

/-- A denied run disagrees: the detail of the 403 has no `risk_score`. -/
theorem not_agrees_of_denied {token : TokenPayload} {rs : RiskScore} {reply : HttpReply}
    {reason : String} (hs : run.call.Scored settings token rs)
    (hacts : run.acts =
      [run.call.asked settings token rs reply, logged (run.call.record token rs .deny reason)])
    (hresult : run.result = .error (run.call.denied rs reason))
    (hsees : Sees run.response resp) :
    resp.status = 403 ∧ ¬ run.Agrees (handleResponse resp) := by
  unfold ServerRun.response at hsees
  rw [hresult] at hsees
  obtain ⟨hstatus, hforbidden⟩ := handleResponse_of_denied hsees
  refine ⟨hstatus, fun hagrees => ?_⟩
  have hdenied : run.Denied (.str reason) (.str rs.level.value) (.int rs.score) := by
    refine ⟨run.call.record token rs .deny reason, ?_, rfl, rfl, rfl, rfl⟩
    rw [hacts]
    exact List.mem_cons_self ..
  have hout := (hagrees.denied _ _ _).mpr hdenied
  rw [hforbidden] at hout
  -- The client falls back to -1, and a score is never negative.
  have hscore : (-1 : Int) = rs.score := by
    injection hout with hout
    injection hout with _ _ hscore
    injection hscore
  have hnonneg := score_nonneg hs.scored
  omega

/-- A queued run disagrees: it is answered with a 200. -/
theorem not_agrees_of_queued {token : TokenPayload} {rs : RiskScore} {reply : HttpReply}
    {reason id : String} (hs : run.call.Scored settings token rs)
    (hacts : run.acts = [run.call.asked settings token rs reply,
      enqueued (run.call.pending token rs) id,
      logged (run.call.record token rs .pendingApproval reason)])
    (hresult : run.result = .ok (run.call.queued rs)) (hsees : Sees run.response resp) :
    resp.status ≠ 503 ∧ ¬ run.Agrees (handleResponse resp) := by
  unfold ServerRun.response at hsees
  rw [hresult] at hsees
  obtain ⟨hstatus, ⟨-, hout⟩ | ⟨hnot, -⟩⟩ := handleResponse_of_body hsees
  · refine ⟨hstatus, fun hagrees => ?_⟩
    apply hagrees.returns.mp ⟨_, hout⟩
    rw [hacts]
    rfl
  · exact absurd (writable_of_isPlain (isPlain_queued hs)) hnot

/-- A run whose execution raised disagrees: it dispatched, and the client gets an error. -/
theorem not_agrees_of_failed {exec : ExecReply} {e : HandlerExc}
    (hexecs : executions run.acts = [exec]) (hresult : run.result = .error e)
    (hraised : ∃ status ∈ [500, 502], RaisedWith e status) (hsees : Sees run.response resp) :
    resp.status ≠ 503 ∧ ¬ run.Agrees (handleResponse resp) := by
  unfold ServerRun.response at hsees
  rw [hresult] at hsees
  obtain ⟨hstatus, msg, hout⟩ := handleResponse_of_raised hraised hsees
  refine ⟨hstatus, fun hagrees => ?_⟩
  have hallowed : run.Allowed := by
    unfold ServerRun.Allowed
    rw [hexecs]
    exact List.cons_ne_nil _ _
  obtain ⟨value, hvalue⟩ := hagrees.returns.mpr hallowed
  cases hout.symm.trans hvalue

/-- A run that executed agrees exactly if its answer can be written. -/
theorem agrees_iff_of_allowed {token : TokenPayload} {rs : RiskScore} {reply : HttpReply}
    {reason : String} {exec : ExecReply} {data : Json}
    (hs : run.call.Scored settings token rs)
    (hacts : run.acts = [run.call.asked settings token rs reply, run.call.executed exec,
      logged (run.call.record token rs .allow reason)])
    (hresult : run.result = .ok (run.call.allowed rs data)) (hsees : Sees run.response resp) :
    resp.status ≠ 503 ∧
      (run.Agrees (handleResponse resp) ↔ Writable (run.call.allowed rs data).toJson) := by
  have hallowed : run.Allowed := by
    unfold ServerRun.Allowed
    rw [hacts]
    exact List.cons_ne_nil _ _
  unfold ServerRun.response at hsees
  rw [hresult] at hsees
  obtain ⟨hstatus, ⟨hwritable, hout⟩ | ⟨hnot, e, -, hout⟩⟩ := handleResponse_of_body hsees
  · -- The answer was written, and the client returns it: each of the four parts.
    refine ⟨hstatus, iff_of_true ?_ hwritable⟩
    rw [hout]
    constructor
    · exact iff_of_true ⟨_, rfl⟩ hallowed
    · refine fun requestId => iff_of_false nofun ?_
      rintro ⟨⟨pending, id, hmem⟩, -⟩
      rw [hacts] at hmem
      simp only [List.mem_cons, List.not_mem_nil, or_false] at hmem
      rcases hmem with hmem | hmem | hmem <;> cases hmem
    · refine fun reason riskLevel riskScore => iff_of_false nofun ?_
      rintro ⟨record, hrecord, hdecision, -⟩
      rw [hacts] at hrecord
      obtain rfl := List.mem_singleton.mp hrecord
      cases hdecision
    · exact iff_of_false (fun ⟨_, h⟩ => nomatch h) (not_rejected hs.verified)
  · -- The answer could not be written, and the client raises although the action ran.
    refine ⟨hstatus, iff_of_false (fun hagrees => ?_) hnot⟩
    obtain ⟨value, hvalue⟩ := hagrees.returns.mpr hallowed
    cases hout.symm.trans hvalue

/-- What an execution of the run returned is plain. -/
theorem isPlain_of_executed {exec : ExecReply} {v : Json}
    (hmem : run.call.executed exec ∈ run.acts) (hresult : exec.result = .ok v) :
    v.isPlain 3 = true := by
  have hpath := run.executes _ _ _ _ _ hmem
  rw [hresult] at hpath
  exact (K8s.executeAction_returnsPlain _ _ _ _).of_path hpath v rfl

/-- The answer that was made of an execution can be written exactly if that is answerable. -/
theorem writable_allowed_iff {token : TokenPayload} {rs : RiskScore} {exec : ExecReply}
    {data : Json} (hs : run.call.Scored settings token rs)
    (hmem : run.call.executed exec ∈ run.acts) (hdata : run.call.executionResult exec = .ok data) :
    Writable (run.call.allowed rs data).toJson ↔ run.Answerable exec := by
  unfold ServerRun.Answerable
  cases hresult : exec.result with
  | ok v =>
    -- What the cluster returned is plain, and so is the whole answer.
    refine iff_of_true ?_ (.inl ⟨v, rfl⟩)
    rw [AgentCall.executionResult, hresult] at hdata
    cases hdata
    apply writable_of_isPlain
    have hplain := Json.isPlain_mono (isPlain_of_executed hmem hresult) (show 3 ≤ 7 by decide)
    have hscore := Json.isPlain_int 7 (natAbs_score_lt hs)
    simp [AgentActionResponse.toJson, AgentCall.allowed, hscore, hplain]
  | error exc =>
    rw [AgentCall.executionResult, hresult] at hdata
    obtain ⟨⟨msg, rfl⟩, rfl⟩ := mapExecution_unavailable hdata
    constructor
    · intro hwritable
      refine .inr ⟨⟨msg, rfl⟩, fun token' rs' hs' => ?_⟩
      obtain ⟨-, rfl⟩ := hs.unique hs'
      exact hwritable
    · rintro (⟨v, hv⟩ | ⟨-, hwritable⟩)
      · cases hv
      · exact hwritable token rs hs

/-- After an allow for a request that is not high-risk only the execution is in question. -/
theorem directOnly_iff_of_executed {token : TokenPayload} {rs : RiskScore} {reply : HttpReply}
    {reason : String} {exec : ExecReply} (hs : run.call.Scored settings token rs)
    (hread : readDecision reply = .ok (true, reason)) (hlevel : rs.level ≠ .high)
    (hreplies : opaReplies run.acts = [reply]) (hexecs : executions run.acts = [exec]) :
    run.DirectOnly ↔ run.Answerable exec := by
  constructor
  · intro h
    apply h.answered
    rw [hexecs]
    exact List.mem_singleton.mpr rfl
  · intro h
    constructor
    · intro token' rs' reply' hs' hmem _
      rw [hreplies] at hmem
      obtain rfl := List.mem_singleton.mp hmem
      obtain ⟨-, rfl⟩ := hs.unique hs'
      exact ⟨readDecision_allow_iff.mp ⟨_, hread⟩, hlevel⟩
    · intro exec' hmem
      rw [hexecs] at hmem
      obtain rfl := List.mem_singleton.mp hmem
      exact h

/-- **One run**: the gateway never answers 503, and the client agrees with a run exactly if
    it denies nothing, queues nothing, and what it dispatched can be answered. -/
theorem agrees_handleResponse_iff (hsees : Sees run.response resp) :
    resp.status ≠ 503 ∧ (run.Agrees (handleResponse resp) ↔ run.DirectOnly) := by
  have htrace := agentTrace_of_path settings run.path
  rw [Prog.outcome_done] at htrace
  generalize hacts : run.acts = acts at htrace
  generalize hout : some run.result = out at htrace
  -- Where no reply was read and nothing was executed the condition is empty.
  have hempty : executions acts = [] → (∀ token rs reply,
      run.call.Scored settings token rs → reply ∈ opaReplies acts →
        readable reply = false) → run.DirectOnly := by
    subst hacts
    intro hexec hunreadable
    constructor
    · intro token rs reply hs hmem hread
      cases (hunreadable token rs reply hs hmem).symm.trans hread
    · intro exec hmem
      rw [hexec] at hmem
      cases hmem
  have hsilent : executions acts = [] → auditRecords acts = [] →
      (∀ pending id, enqueued pending id ∉ acts) → Silent run := by
    subst hacts
    exact Silent.mk
  cases htrace with
  | asking hs | decided hs hread | queueing hs hread hlevel | executed hs hread hlevel hexec =>
    cases hout
  -- The 401.
  | rejected hverify =>
    obtain ⟨hstatus, hagrees⟩ := agrees_of_unverified
      (hsilent rfl rfl fun _ _ => List.not_mem_nil) hverify (Option.some.inj hout) hsees
    refine ⟨hstatus, iff_of_true hagrees (hempty rfl ?_)⟩
    intro token rs reply hs
    cases hverify.symm.trans hs.verified
  | unscored hverify hscore =>
    -- The scorer raised: a 500, and nothing was done.
    have hquiet : Silent run := hsilent rfl rfl fun _ _ => List.not_mem_nil
    obtain ⟨hstatus, hagrees⟩ := agrees_of_raised hquiet (not_rejected hverify)
      (Option.some.inj hout) (internal_raised _) hsees
    refine ⟨hstatus, iff_of_true hagrees (hempty rfl ?_)⟩
    intro token rs reply hs
    cases hscore.symm.trans hs.scored
  | unread hs hread =>
    -- The one reply of OPA could not be read.
    have hquiet : Silent run := by
      refine hsilent rfl rfl fun pending id hmem => ?_
      cases List.mem_singleton.mp hmem
    obtain ⟨hstatus, hagrees⟩ := agrees_of_raised hquiet (not_rejected hs.verified)
      (Option.some.inj hout) (internal_raised _) hsees
    refine ⟨hstatus, iff_of_true hagrees (hempty rfl ?_)⟩
    intro token rs reply _ hmem
    obtain rfl := List.mem_singleton.mp hmem
    cases hreadable : readable reply with
    | false => rfl
    | true =>
      obtain ⟨d, hd⟩ := readDecision_ok_iff.mpr hreadable
      cases hd.symm.trans hread
  | denied hs hread =>
    -- The 403: the condition asks for an allow.
    obtain ⟨hstatus, hnot⟩ := not_agrees_of_denied hs hacts (Option.some.inj hout) hsees
    refine ⟨by simp [hstatus], iff_of_false hnot fun hdirect => ?_⟩
    obtain ⟨hreadable, hanswers⟩ := readDecision_deny_iff.mp ⟨_, hread⟩
    have hallow := (hdirect.decided _ _ _ hs (by rw [hacts]; exact List.mem_cons_self ..)
      hreadable).1
    cases hanswers.symm.trans hallow
  | queued hs hread hlevel =>
    -- The pending answer: the condition asks for a level below high.
    obtain ⟨hstatus, hnot⟩ := not_agrees_of_queued hs hacts (Option.some.inj hout) hsees
    refine ⟨hstatus, iff_of_false hnot fun hdirect => ?_⟩
    have hreadable := readDecision_ok_iff.mp ⟨_, hread⟩
    exact (hdirect.decided _ _ _ hs (by rw [hacts]; exact List.mem_cons_self ..)
      hreadable).2 hlevel
  | @failed _ _ _ _ exec e hs hread hlevel hexec =>
    -- The execution raised.
    have hexecs : executions run.acts = [exec] := by rw [hacts]; rfl
    obtain ⟨hstatus, hnot⟩ := not_agrees_of_failed hexecs (Option.some.inj hout)
      (raisedWith_of_mapExecution hexec) hsees
    refine ⟨hstatus, iff_of_false hnot ?_⟩
    rw [directOnly_iff_of_executed hs hread hlevel (by rw [hacts]; rfl) hexecs]
    -- An answerable execution would not have raised.
    rintro (⟨v, hresult⟩ | ⟨⟨msg, hresult⟩, -⟩)
    all_goals
      unfold AgentCall.executionResult at hexec
      rw [hresult] at hexec
      cases hexec
  | @allowed _ _ _ _ exec _ hs hread hlevel hexec =>
    -- The allow answer: agreement hangs on whether it can be written.
    obtain ⟨hstatus, hagrees⟩ := agrees_iff_of_allowed hs hacts (Option.some.inj hout) hsees
    refine ⟨hstatus, hagrees.trans ?_⟩
    rw [directOnly_iff_of_executed hs hread hlevel (by rw [hacts]; rfl) (by rw [hacts]; rfl)]
    have hmem : run.call.executed exec ∈ run.acts := by
      rw [hacts]
      exact .tail _ (.head _)
    exact writable_allowed_iff hs hmem hexec

end Outcomes

/-! ## The exchange -/

omit [Runtime] in
/-- **The body arrives**: validation gives back what the client was called with. -/
theorem body_of_payload (verb resource namespace_ : String) (params : Option JsonDict) :
    AgentActionRequest.ofJson? (AgentClient.payload verb resource namespace_ params) =
      some ⟨verb, resource, namespace_, params.getD .empty⟩ := by
  have hentries : OrderedDict.ofEntries (params.getD .empty).entries = params.getD .empty :=
    OrderedDict.ofEntries_entries _
  simp [AgentActionRequest.ofJson?, AgentClient.payload, Json.field?, OrderedDict.lookup_cons,
    OrderedDict.toJson, hentries]

/-- The gateway answers the posts of a client one after the other, each by a run for the
    token and the body of the post. -/
inductive Served (settings : Settings) :
    List (Action AgentClient.signature) → List (ServerRun settings) → Prop where
  | nil : Served settings [] []
  | sleep {seconds : Nat} {acts : List (Action AgentClient.signature)}
      {runs : List (ServerRun settings)} (h : Served settings acts runs) :
      Served settings (⟨.sleep seconds, ()⟩ :: acts) runs
  | post {payload : Json} {resp : Response} {run : ServerRun settings}
      {acts : List (Action AgentClient.signature)} {runs : List (ServerRun settings)}
      (hbody : AgentActionRequest.ofJson? payload = some run.call.body)
      (hsees : Sees run.response resp) (h : Served settings acts runs) :
      Served settings
        (⟨.post ("Bearer " ++ run.call.credentials) "/agent-action" payload, .ok resp⟩ :: acts)
        (run :: runs)

/-- The first post of a client run, and the run of the gateway that served it. -/
theorem served_cons {self : GatewayClient} {verb resource namespace_ : String}
    {params : Option JsonDict} {reply : Except PyExc Response}
    {acts : List (Action AgentClient.signature)} {runs : List (ServerRun settings)}
    (h : Served settings
      (AgentClient.posted self verb resource namespace_ params reply :: acts) runs) :
    ∃ run resp rest, runs = run :: rest ∧ reply = .ok resp ∧ Sees run.response resp ∧
      run.call.credentials = self.token ∧
      run.call.body = ⟨verb, resource, namespace_, params.getD .empty⟩ ∧
      Served settings acts rest := by
  generalize hfirst : AgentClient.posted self verb resource namespace_ params reply = first at h
  cases h with
  | sleep _ => cases hfirst
  | @post payload resp run _ rest hbody hsees h =>
    unfold AgentClient.posted at hfirst
    injection hfirst with hop hreply
    injection hop with hauth _ hpayload
    rw [← hpayload, body_of_payload] at hbody
    refine ⟨run, resp, rest, rfl, hreply, hsees, ?_, (Option.some.inj hbody).symm, h⟩
    exact ((String.append_right_inj _).mp hauth).symm

/-- **Agreement**: a run of `action` that the gateway serves triggers one run of the
    gateway, for its token and its arguments.  The two agree exactly if that run denies
    nothing, queues nothing, and has an answer to what it dispatched. -/
theorem agrees_iff {self : GatewayClient} {verb resource namespace_ : String}
    {params : Option JsonDict} {acts : List (Action AgentClient.signature)}
    {out : Except GatewayExc Json} {runs : List (ServerRun settings)}
    (hpath : Prog.Path (AgentClient.action self verb resource namespace_ params).run acts
      (.done out))
    (hserved : Served settings acts runs) :
    ∃ run, runs = [run] ∧ run.call.credentials = self.token ∧
      run.call.body = ⟨verb, resource, namespace_, params.getD .empty⟩ ∧
      (run.Agrees out ↔ run.DirectOnly) := by
  obtain ⟨reply, rest, rfl, hlast⟩ := AgentClient.path_of_action hpath
  obtain ⟨run, resp, later, rfl, rfl, hsees, hcredentials, hbody, hrest⟩ := served_cons hserved
  obtain ⟨hstatus, hagrees⟩ := agrees_handleResponse_iff hsees
  -- The gateway answers no 503, so the client does not post again.
  obtain ⟨rfl, rfl⟩ := hlast resp rfl hstatus
  cases hrest
  exact ⟨run, rfl, hcredentials, hbody, hagrees⟩

/-- A response always comes. -/
theorem exists_sees (run : ServerRun settings) : ∃ resp, Sees run.response resp := by
  have hresponse : ∃ status body, run.response = .response status body := by
    have htrace := agentTrace_of_path settings run.path
    rw [Prog.outcome_done] at htrace
    unfold ServerRun.response
    cases hresult : run.result with
    | ok value =>
      rcases FastApi.response_ok value.toJson with ⟨body, hbody, -⟩ | ⟨body, hbody⟩
      · exact ⟨200, body, hbody⟩
      · exact ⟨500, body, hbody⟩
    | error e =>
      rw [hresult] at htrace
      obtain ⟨status, hraised⟩ := raisedWith_of_agentTrace settings htrace
      exact ⟨status, hraised.response⟩
  obtain ⟨status, body, hbody⟩ := hresponse
  exact ⟨⟨status, "", body⟩, hbody⟩

/-- Every run of the gateway is one that a client run triggers. -/
theorem exists_exchange (run : ServerRun settings) (gatewayUrl : String) :
    ∃ acts out,
      Prog.Path (AgentClient.action ⟨gatewayUrl, run.call.credentials, true⟩ run.call.body.action
        run.call.body.resource run.call.body.namespace (some run.call.body.params)).run acts
        (.done out) ∧
      Served settings acts [run] := by
  obtain ⟨resp, hsees⟩ := exists_sees run
  obtain ⟨hstatus, -⟩ := agrees_handleResponse_iff hsees
  exact ⟨_, _, AgentClient.action_path hstatus, .post (body_of_payload _ _ _ _) hsees .nil⟩

end Agreement

section Examples

attribute [local instance] asciiRuntime

/-- A run of the gateway alone, in a fixed environment. -/
def ServerRun.alone (env : Environment) (call : AgentCall) : ServerRun Settings.default where
  call := call
  acts := (agentRun env call).2
  result := (agentRun env call).1
  path := agentRun_path env call
  executes action resource namespace_ params exec hmem := by
    obtain ⟨q, rfl⟩ : ∃ q, exec = (env.answer q
      (.executeAction action resource namespace_ params)).1 := Prog.run_reply hmem
    exact env.execute_path _ _ _ _

/-- Allowed pods are listed, and the client returns. -/
theorem agrees_listPods : ∃ acts out run,
    Prog.Path (AgentClient.action ⟨"http://gateway", "token", true⟩ "list" "pods" "default"
      (some .empty)).run acts (.done out) ∧ Served Settings.default acts [run] ∧
      run.Agrees out := by
  obtain ⟨acts, out, hpath, hserved⟩ :=
    exists_exchange (.alone (allowedWith workingCluster) listPods) "http://gateway"
  obtain ⟨run, hrun, -, -, hagrees⟩ := agrees_iff hpath hserved
  obtain rfl := (List.singleton_inj.mp hrun).symm
  refine ⟨acts, out, _, hpath, hserved, hagrees.mpr ⟨?_, fun exec hmem => ?_⟩⟩
  rotate_left
  · -- The cluster answered.
    have hok : (executions (agentRun (allowedWith workingCluster) listPods).2).all
        (fun exec => exec.result.toBool) = true := by decide
    have hexec := List.all_eq_true.mp hok exec hmem
    cases hresult : exec.result with
    | ok v => exact .inl ⟨v, hresult⟩
    | error e =>
      rw [hresult] at hexec
      cases hexec
  intro token rs reply hs hmem _
  obtain ⟨rs', hscore, hlevel⟩ : ∃ rs', score Settings.default listPods.body.action
      listPods.body.resource listPods.body.namespace (some listPods.body.params) = .ok rs' ∧
        rs'.level ≠ .high := ⟨_, rfl, by decide⟩
  obtain rfl : rs = rs' := Except.ok.inj (hs.scored.symm.trans hscore)
  have hall : (opaReplies (agentRun (allowedWith workingCluster) listPods).2).all answersAllow =
      true := by decide
  exact ⟨List.all_eq_true.mp hall reply hmem, hlevel⟩

/-- A high-risk deployment that OPA allows. -/
def riskyDeployment : AgentCall :=
  .ofSubject "r-1" "agent-deploy" "deployer" hostPathDeployment

theorem riskyDeployment_scored : ∃ token rs,
    riskyDeployment.Scored Settings.default token rs ∧ rs.level = .high :=
  ⟨_, _, ⟨rfl, rfl⟩, rfl⟩

/-- A high-risk deployment is queued, and the client returns as if it had been executed. -/
theorem not_agrees_riskyDeployment :
    ¬ ∀ self verb resource namespace_ params acts out runs,
      Prog.Path (AgentClient.action self verb resource namespace_ params).run acts (.done out) →
      Served Settings.default acts runs → ∃ run, runs = [run] ∧ run.Agrees out := by
  intro h
  obtain ⟨acts, out, hpath, hserved⟩ :=
    exists_exchange (.alone (allowedWith workingCluster) riskyDeployment) "http://gateway"
  obtain ⟨run, hrun, -, -, hagrees⟩ := agrees_iff hpath hserved
  obtain ⟨run', hrun', hagrees'⟩ := h _ _ _ _ _ _ _ _ hpath hserved
  obtain rfl := (List.singleton_inj.mp hrun).symm
  obtain rfl := (List.singleton_inj.mp hrun').symm
  have hdirect := hagrees.mp hagrees'
  -- OPA allowed the request, and its score puts it into the queue.
  obtain ⟨token, rs, hs, hlevel⟩ := riskyDeployment_scored
  have hany : (opaReplies (agentRun (allowedWith workingCluster) riskyDeployment).2).any
      answersAllow = true := by decide
  obtain ⟨reply, hmem, hallow⟩ := List.any_eq_true.mp hany
  obtain ⟨reason, hread⟩ := readDecision_allow_iff.mpr hallow
  have hreadable := readDecision_ok_iff.mp ⟨_, hread⟩
  exact (hdirect.decided token rs reply hs hmem hreadable).2 hlevel

end Examples

end AiK8sGateway
