import AiK8sGateway.Foundations.PendingLog
import AiK8sGateway.Gateway.Specification

/-!
# What the Answers Say about the Queue

The queue as clients can know it: from the requests that were answered and their answers
alone.  A request waits if it was answered `pending-approval` and no approval with a
verified token has named its id since.

## Main results

- `pendingIds_of_serviceRun`: the ids that are pending are those that the answers say.
- `answers_determined`: whether an approval is answered 404, and what `GET /pending` shows,
  follows from the earlier requests and their answers.
-/

namespace AiK8sGateway

open Foundations EffectProgram PythonText Approval Audit Auth Risk Relation Reachable

/-! ## What an answer says -/

/-- The response says that the request waits for a human. -/
def answersQueued : HttpReply → Bool
  | .response 200 (.ok value) =>
    match value.field? "decision" with
    | some (.str decision) => decision = Decision.pendingApproval.value
    | _ => false
  | _ => false

section Says

variable (settings : Settings)

/-- The request was answered that it waits for a human. -/
def Queues (x : Finished) (i : String) : Prop :=
  ∃ c, x.call = .agentAction c ∧ c.requestId = i ∧ answersQueued x.result = true

/-- The request is an approval of the id, or a rejection, with a verified token. -/
def Claims (x : Finished) (i : String) : Prop :=
  ∃ c token, x.call = .approveAction c ∧ c.requestId = i ∧ x.call.token settings = .ok token

/-- After these requests the id waits: it was queued, and nobody has claimed it since. -/
def Waits (runs : List Finished) (i : String) : Prop :=
  ∃ pre x post, runs = pre ++ x :: post ∧ Queues x i ∧ ∀ y ∈ post, ¬ Claims settings y i

/-- The change of what is pending that a request and its answer show. -/
def shownChange (x : Finished) : Option (Change String String) :=
  match x.call with
  | .agentAction c => if answersQueued x.result then some (.add c.requestId) else none
  | .listPending _ => none
  | .approveAction c =>
    match x.call.token settings with
    | .ok _ => some (.take c.requestId)
    | .error _ => none

/-- The ids that are pending after these requests, in order. -/
def pendingIds (runs : List Finished) : List String :=
  Change.pending id (runs.filterMap (shownChange settings))

variable {settings}

theorem shownChange_eq_add_iff {x : Finished} {i : String} :
    shownChange settings x = some (.add i) ↔ Queues x i := by
  obtain ⟨t, call, acts, response⟩ := x
  cases call with
  | agentAction c =>
    cases hq : answersQueued response <;> simp [shownChange, Queues, hq]
  | listPending c => simp [shownChange, Queues]
  | approveAction c =>
    cases htoken : (Call.approveAction c).token settings <;> simp [shownChange, Queues, htoken]

theorem shownChange_eq_take_iff {x : Finished} {i : String} :
    shownChange settings x = some (.take i) ↔ Claims settings x i := by
  obtain ⟨t, call, acts, response⟩ := x
  cases call with
  | agentAction c =>
    cases hq : answersQueued response <;> simp [shownChange, Claims, hq]
  | listPending c => simp [shownChange, Claims]
  | approveAction c =>
    cases htoken : (Call.approveAction c).token settings <;> simp [shownChange, Claims, htoken]

/-- The ids that the answers show as pending are those that wait. -/
theorem mem_pendingIds_iff {runs : List Finished} {i : String} :
    i ∈ pendingIds settings runs ↔ Waits settings runs i := by
  have htaken : ∀ rest : List Finished, Change.take i ∈ rest.filterMap (shownChange settings) ↔
      ∃ y ∈ rest, Claims settings y i := by
    intro rest
    simp only [List.mem_filterMap, shownChange_eq_take_iff]
  rw [pendingIds, Change.mem_pending_iff]
  constructor
  · rintro ⟨pre, post, hlog, hpost⟩
    obtain ⟨before, rest, rfl, -, hrest⟩ := List.filterMap_eq_append_iff.mp hlog
    obtain ⟨silent, x, after, rfl, -, hx, rfl⟩ := List.filterMap_eq_cons_iff.mp hrest
    refine ⟨before ++ silent, x, after, (List.append_assoc ..).symm,
      shownChange_eq_add_iff.mp hx, fun y hy hclaims => ?_⟩
    exact hpost ((htaken after).mpr ⟨y, hy, hclaims⟩)
  · rintro ⟨pre, x, post, rfl, hx, hpost⟩
    refine ⟨pre.filterMap (shownChange settings), post.filterMap (shownChange settings), ?_, ?_⟩
    · rw [List.filterMap_append, List.filterMap_cons_some (shownChange_eq_add_iff.mpr hx)]
    · intro hmem
      obtain ⟨y, hy, hclaims⟩ := (htaken post).mp hmem
      exact hpost y hy hclaims

/-! ### One more request -/

theorem pendingIds_snoc_of_add {runs : List Finished} {x : Finished} {i : String}
    (h : Queues x i) : pendingIds settings (runs ++ [x]) = pendingIds settings runs ++ [i] := by
  have hlast : [x].filterMap (shownChange settings) = [.add i] :=
    List.filterMap_cons_some (shownChange_eq_add_iff.mpr h)
  rw [pendingIds, List.filterMap_append, hlast, Change.pending_snoc_add]
  rfl

theorem pendingIds_snoc_of_take {runs : List Finished} {x : Finished} {i : String}
    (h : Claims settings x i) :
    pendingIds settings (runs ++ [x]) = (pendingIds settings runs).filter (· ≠ i) := by
  have hlast : [x].filterMap (shownChange settings) = [.take i] :=
    List.filterMap_cons_some (shownChange_eq_take_iff.mpr h)
  rw [pendingIds, List.filterMap_append, hlast, Change.pending_snoc_take]
  rfl

theorem pendingIds_snoc_of_none {runs : List Finished} {x : Finished}
    (h : shownChange settings x = none) :
    pendingIds settings (runs ++ [x]) = pendingIds settings runs := by
  have hlast : [x].filterMap (shownChange settings) = [] := List.filterMap_cons_none h
  rw [pendingIds, List.filterMap_append, hlast, List.append_nil, pendingIds]

end Says

/-! ## What the answers of the gateway say -/

section Responses

variable [Runtime] {settings : Settings}

/-- What a handler raised is not an answer that something waits. -/
theorem answersQueued_error {e : HandlerExc} {status : Nat} (h : RaisedWith e status) :
    answersQueued (httpResponse (.error e)) = false := by
  obtain ⟨body, hbody⟩ := h.response
  rw [hbody]
  unfold answersQueued
  split
  · rename_i heq
    injection heq with hstatus _
    exact absurd hstatus h.status_ne
  · rfl

/-- A queued request is answered that it waits. -/
theorem answersQueued_queued {c : AgentCall} {token : TokenPayload} {rs : RiskScore}
    (hs : c.Scored settings token rs) :
    answersQueued (httpResponse (.ok (c.queued rs).toJson)) = true := by
  rw [FastApi.response_plain _ (isPlain_queued hs)]
  rfl

/-- An executed request is not. -/
theorem answersQueued_allowed (c : AgentCall) (rs : RiskScore) (data : Json) :
    answersQueued (httpResponse (.ok (c.allowed rs data).toJson)) = false := by
  rcases FastApi.response_ok (c.allowed rs data).toJson with
    ⟨body, hbody, hwritten⟩ | ⟨body, hbody⟩
  · rw [hbody]
    cases body with
    | error msg => rfl
    | ok v =>
      have hdecision : v.field? "decision" = some (.str Decision.allow.value) := by
        rw [hwritten v rfl, AgentActionResponse.toJson, Json.field?_mapFloat]
        rfl
      simp only [answersQueued, hdecision]
      decide
  · rw [hbody]
    rfl

end Responses

section Gateway

variable [Runtime] {settings : Settings} {opa : Opa} {s s' : Service}

omit [Runtime] in
/-- A submission that is not answered so shows no change. -/
theorem shownChange_of_not_queued {t : Nat} {c : AgentCall} {acts : List (Action signature)}
    {response : HttpReply} (h : answersQueued response = false) :
    shownChange settings ⟨t, .agentAction c, acts, response⟩ = none := by
  simp [shownChange, h]

/-- **One step of the service** changes what is pending as its answer shows. -/
theorem pendingIds_of_step {runs : List Finished} {x : Finished}
    (hids : s.pending.map (·.requestId) = pendingIds settings runs)
    (hstep : Service.Step settings opa s x.call x.result s') :
    s'.pending.map (·.requestId) = pendingIds settings (runs ++ [x]) := by
  -- A claim takes its id out of what is pending, on both sides.
  have hclaim : ∀ c token, x.call = .approveAction c → x.call.token settings = .ok token →
      (s.claim c.requestId).pending.map (·.requestId) = pendingIds settings (runs ++ [x]) := by
    intro c token hcall htoken
    rw [pendingIds_snoc_of_take ⟨c, token, hcall, rfl, htoken⟩, ← hids, Service.pending_claim,
      List.filter_map]
    rfl
  obtain ⟨t, call, acts, response⟩ := x
  simp only at hstep hclaim
  cases hstep with
  -- An answer that shows no change: the token did not verify.
  | refused htoken =>
    rw [pendingIds_snoc_of_none, hids]
    cases call with
    | agentAction c =>
      obtain ⟨status, -, hraised⟩ := raisedWith_of_verifyToken htoken
      exact shownChange_of_not_queued (answersQueued_error hraised)
    | listPending c => rfl
    | approveAction c => simp [shownChange, htoken]
  -- Nor does a failure before the decision.
  | unscored _ _ | undecided _ =>
    rw [pendingIds_snoc_of_none, hids]
    exact shownChange_of_not_queued (answersQueued_error (.internal _))
  | denied _ =>
    rw [pendingIds_snoc_of_none
      (shownChange_of_not_queued (answersQueued_error (.forbidden _ _ _)))]
    exact hids
  | executionFailed _ _ _ herror =>
    obtain ⟨status, -, hraised⟩ := raisedWith_of_mapExecution herror
    rw [pendingIds_snoc_of_none (shownChange_of_not_queued (answersQueued_error hraised))]
    exact hids
  | executed _ _ _ _ =>
    rw [pendingIds_snoc_of_none (shownChange_of_not_queued (answersQueued_allowed _ _ _))]
    exact hids
  -- The queued answer shows the id.
  | @queued c token rs reason h hlevel =>
    rw [pendingIds_snoc_of_add ⟨c, rfl, rfl, answersQueued_queued h.scored⟩, ← hids]
    simp [AgentCall.pending]
  | listed _ =>
    rw [pendingIds_snoc_of_none rfl, hids]
  | @notPending c token htoken hnone =>
    -- Claiming what is not there leaves everything in its place.
    rw [← hclaim c token rfl htoken, Service.pending_claim]
    congr 1
    exact (List.filter_eq_self.mpr fun p hp => by simpa using hnone p hp).symm
  -- The three ways to claim an id.
  | approved htoken _ _ _ _ _ | approvalFailed htoken _ _ _ _ _ | rejected htoken _ _ _ =>
    exact hclaim _ _ rfl htoken

/-- The ids that are pending are those that the answers say. -/
theorem pendingIds_of_serviceRun {runs : List Finished} (hrun : ServiceRun settings opa runs s) :
    s.pending.map (·.requestId) = pendingIds settings runs := by
  induction hrun with
  | start => rfl
  | snoc _ hstep ih => exact pendingIds_of_step ih hstep

/-! ## Every answer -/

/-- A request in a run of the service was one step, after a run of the earlier ones. -/
theorem step_of_serviceRun {pre post : List Finished} {x : Finished}
    (hrun : ServiceRun settings opa (pre ++ x :: post) s) :
    ∃ s₁ s₂, ServiceRun settings opa pre s₁ ∧
      Service.Step settings opa s₁ x.call x.result s₂ := by
  generalize hruns : pre ++ x :: post = runs at hrun
  induction hrun generalizing post with
  | start => simp at hruns
  | @snoc runs s s' y hrun hstep ih =>
    rcases List.eq_nil_or_concat post with rfl | ⟨post', z, rfl⟩
    · -- The request is the last one.
      obtain ⟨rfl, hlast⟩ := List.append_inj' hruns rfl
      cases hlast
      exact ⟨s, s', hrun, hstep⟩
    · have hsplit : (pre ++ x :: post') ++ [z] = runs ++ [y] := by
        rw [← hruns]
        simp
      exact ih (List.append_inj' hsplit rfl).1

/-- An answer with a body is a 200 or a 500. -/
theorem status_ok (value : Json) : (httpResponse (.ok value)).status? ≠ some 404 := by
  rcases FastApi.response_ok value with ⟨body, hbody, -⟩ | ⟨body, hbody⟩
  all_goals
    rw [hbody]
    simp [HttpReply.status?]

/-- A failed execution is a 502 or a 500. -/
theorem status_failed {p : PendingRequest} {exec : ExecReply} {e : HandlerExc}
    (h : pendingResult p exec = .error e) : (httpResponse (.error e)).status? ≠ some 404 := by
  obtain ⟨status, hstatus, hraised⟩ := raisedWith_of_mapExecution h
  obtain ⟨body, hbody⟩ := hraised.response
  rw [hbody]
  simp only [List.mem_cons, List.not_mem_nil, or_false] at hstatus
  rcases hstatus with rfl | rfl <;> simp [HttpReply.status?]

/-- The 404. -/
theorem status_notPending (c : ApproveCall) :
    (httpResponse (.error c.notPending)).status? = some 404 := by
  rw [httpResponse_notPending]
  rfl

/-- An approval with a verified token is a 404 exactly if its id is not pending. -/
theorem status_approval_iff {c : ApproveCall} {token : TokenPayload} {response : HttpReply}
    (hstep : Service.Step settings opa s (.approveAction c) response s')
    (htoken : (Call.approveAction c).token settings = .ok token) :
    response.status? = some 404 ↔ c.requestId ∉ s.pending.map (·.requestId) := by
  have hmem : ∀ p ∈ s.pending, p.requestId = c.requestId →
      c.requestId ∈ s.pending.map (·.requestId) := fun p hp hid =>
    List.mem_map.mpr ⟨p, hp, hid⟩
  cases hstep with
  | refused hrefused => cases hrefused.symm.trans htoken
  | notPending _ hnone =>
    refine iff_of_true (status_notPending _) fun hpending => ?_
    obtain ⟨p, hp, hid⟩ := List.mem_map.mp hpending
    exact hnone p hp hid
  | approved _ hp hid _ _ _ | rejected _ hp hid _ =>
    exact iff_of_false (status_ok _) (not_not.mpr (hmem _ hp hid))
  | approvalFailed _ hp hid _ _ herror =>
    exact iff_of_false (status_failed herror) (not_not.mpr (hmem _ hp hid))

/-- What the finished requests and their answers say about one another. -/
structure AnswersDetermined (settings : Settings) (runs : List Finished) : Prop where
  /-- An approval with a verified token is a 404 exactly if its id does not wait. -/
  approval : ∀ pre x post c token, runs = pre ++ x :: post → x.call = .approveAction c →
    x.call.token settings = .ok token →
      (x.result.status? = some 404 ↔ ¬ Waits settings pre c.requestId)
  /-- A listing with a verified token shows what waits, each id once. -/
  listing : ∀ pre x post c token, runs = pre ++ x :: post → x.call = .listPending c →
    x.call.token settings = .ok token →
      ∃ items : List PendingRequest, (items.map (·.requestId)).Nodup ∧
        (∀ i, i ∈ items.map (·.requestId) ↔ Waits settings pre i) ∧
        x.result = httpResponse (.ok (.obj [("count", .int items.length),
          ("items", .arr (items.map PendingRequest.toDict))]))
  /-- Of all approvals of one id, one at most is not a 404. -/
  winner : ∀ x ∈ runs, ∀ y ∈ runs, ∀ i, Claims settings x i → Claims settings y i →
    x.result.status? ≠ some 404 → y.result.status? ≠ some 404 → x = y

omit [Runtime] in
/-- Once an approval has claimed an id, it does not wait again. -/
theorem later_approval {pre between post : List Finished} {x y : Finished} {i : String}
    (hdistinct : DistinctSubmissions (pre ++ x :: (between ++ y :: post)))
    (hx : Claims settings x i) (hwaits : Waits settings pre i) :
    ¬ Waits settings (pre ++ x :: between) i := by
  rintro ⟨pre', z, post', hsplit, hz, hunclaimed⟩
  obtain ⟨a, w, b, rfl, ⟨cw, hwcall, hwid, -⟩, -⟩ := hwaits
  obtain ⟨cz, hzcall, hzid, -⟩ := hz
  -- The second submission would have to come after the first approval.
  have hafter : z ∈ between := by
    rcases List.append_eq_append_iff.mp hsplit with ⟨rest, hpre', hrest⟩ | ⟨rest, hpre, hrest⟩
    · cases rest with
      | nil =>
        cases hrest
        obtain ⟨_, _, hcall, -, -⟩ := hx
        cases hcall.symm.trans hzcall
      | cons u rest =>
        cases hrest
        exact List.mem_append_right _ (List.mem_cons_self ..)
    · cases rest with
      | nil =>
        cases hrest
        obtain ⟨_, _, hcall, -, -⟩ := hx
        cases hcall.symm.trans hzcall
      | cons u rest =>
        cases hrest
        exact absurd hx (hunclaimed x (List.mem_append_right _ (List.mem_cons_self ..)))
  -- The two submissions would have the same id.
  obtain ⟨-, -, hcross⟩ := List.pairwise_append.mp hdistinct
  have hne := hcross w (List.mem_append_right _ (List.mem_cons_self ..)) z
    (List.mem_cons_of_mem _ (List.mem_append_left _ hafter)) cw cz hwcall hzcall
  exact hne (hwid.trans hzid.symm)

omit [Runtime] in
/-- What waits is there once. -/
theorem nodup_pendingIds {runs : List Finished} (hdistinct : DistinctSubmissions runs) :
    (pendingIds settings runs).Nodup := by
  have hkeys : Change.DistinctKeys id (runs.filterMap (shownChange settings)) := by
    rw [Change.DistinctKeys, List.map_id, List.filterMap_filterMap]
    refine List.Pairwise.filterMap _ ?_ hdistinct
    intro x y hxy i hi j hj hij
    obtain ⟨change, hchange, hadded⟩ := Option.bind_eq_some_iff.mp hi
    obtain ⟨change', hchange', hadded'⟩ := Option.bind_eq_some_iff.mp hj
    -- Both changes add an id, so both requests are submissions.
    cases change with
    | take k => cases hadded
    | add k =>
      cases change' with
      | take k' => cases hadded'
      | add k' =>
        cases hadded
        cases hadded'
        obtain ⟨c, hcall, hid, -⟩ := shownChange_eq_add_iff.mp hchange
        obtain ⟨c', hcall', hid', -⟩ := shownChange_eq_add_iff.mp hchange'
        exact hxy c c' hcall hcall' (by rw [hid, hid', hij])
  simpa [pendingIds] using Change.nodup_pending id hkeys

/-- An approval of an id that is not a 404 found it waiting. -/
theorem waits_of_claims {pre post : List Finished} {x : Finished} {i : String}
    (hrun : ServiceRun settings opa (pre ++ x :: post) s) (hx : Claims settings x i)
    (hstatus : x.result.status? ≠ some 404) : Waits settings pre i := by
  obtain ⟨c, token, hcall, rfl, htoken⟩ := hx
  obtain ⟨s₁, s₂, hpre, hstep⟩ := step_of_serviceRun hrun
  rw [hcall] at hstep htoken
  rw [← mem_pendingIds_iff, ← pendingIds_of_serviceRun hpre]
  by_contra hmem
  exact hstatus ((status_approval_iff hstep htoken).mpr hmem)

/-- Of two approvals of one id the later one is a 404. -/
theorem status_later_approval {pre between post : List Finished} {x y : Finished} {i : String}
    (hrun : ServiceRun settings opa (pre ++ x :: (between ++ y :: post)) s)
    (hdistinct : DistinctSubmissions (pre ++ x :: (between ++ y :: post)))
    (hx : Claims settings x i) (hy : Claims settings y i)
    (hstatus : x.result.status? ≠ some 404) : y.result.status? = some 404 := by
  by_contra hstatus'
  have hsplit : pre ++ x :: (between ++ y :: post) = (pre ++ x :: between) ++ y :: post := by simp
  exact later_approval hdistinct hx (waits_of_claims hrun hx hstatus)
    (waits_of_claims (hsplit ▸ hrun) hy hstatus')

/-- The answers of the service determine one another. -/
theorem answersDetermined_of_serviceRun {runs : List Finished}
    (hrun : ServiceRun settings opa runs s) (hdistinct : DistinctSubmissions runs) :
    AnswersDetermined settings runs := by
  refine ⟨?_, ?_, ?_⟩
  · -- Approvals.
    rintro pre x post c token rfl hcall htoken
    obtain ⟨s₁, s₂, hpre, hstep⟩ := step_of_serviceRun hrun
    rw [hcall] at hstep htoken
    rw [status_approval_iff hstep htoken, pendingIds_of_serviceRun hpre, mem_pendingIds_iff]
  · -- Listings.
    rintro pre x post c token rfl hcall htoken
    obtain ⟨s₁, s₂, hpre, hstep⟩ := step_of_serviceRun hrun
    obtain ⟨hpreDistinct, -, -⟩ := List.pairwise_append.mp hdistinct
    refine ⟨s₁.pending, ?_, fun i => ?_, ?_⟩
    · rw [pendingIds_of_serviceRun hpre]
      exact nodup_pendingIds hpreDistinct
    · rw [pendingIds_of_serviceRun hpre, mem_pendingIds_iff]
    · rw [hcall] at hstep htoken
      generalize x.result = response at hstep
      cases hstep with
      | refused hrefused => cases hrefused.symm.trans htoken
      | listed _ => rfl
  · -- Of two claims the later one is a 404.
    intro x hx y hy i hxclaims hyclaims hxstatus hystatus
    obtain ⟨pre, post, rfl⟩ := List.append_of_mem hx
    rcases List.mem_append.mp hy with hy | hy
    · -- The other one comes before `x`.
      obtain ⟨pre, between, rfl⟩ := List.append_of_mem hy
      have hsplit : (pre ++ y :: between) ++ x :: post = pre ++ y :: (between ++ x :: post) := by
        simp
      rw [hsplit] at hrun hdistinct
      exact absurd (status_later_approval hrun hdistinct hyclaims hxclaims hystatus) hxstatus
    · rcases List.mem_cons.mp hy with rfl | hy
      · rfl
      · obtain ⟨between, post, rfl⟩ := List.append_of_mem hy
        exact absurd (status_later_approval hrun hdistinct hxclaims hyclaims hxstatus) hystatus

/-- **Answers**: in every linearization of every run of the event loop, whether an
    approval is a 404 and what a listing shows follows from the earlier requests and their
    answers, and of all approvals of one id one at most gets through. -/
theorem answers_determined {c : GatewayConfig} (hc : (gateway settings opa).CoopReachable awaits c)
    {runs : List Finished} (hruns : Linearized (gateway settings opa) c runs) :
    AnswersDetermined settings runs := by
  have hreachable := CoopReachable.reachable hc
  obtain ⟨s, hrun, -⟩ := serviceRun_of_linearized hreachable hruns
  exact answersDetermined_of_serviceRun hrun (distinctSubmissions_of_linearized hreachable hruns)

end Gateway

section Example

attribute [local instance] asciiRuntime plainText

/-- The answers about the deployment that is approved in time. -/
theorem answers_determined_approvedInTime :
    ∃ runs, Linearized (gateway Settings.default anyOpa) approvedInTime runs ∧
      AnswersDetermined Settings.default runs := by
  obtain ⟨runs, _, hruns, -⟩ :=
    linearized (suspendsFirst_handle Settings.default) approvedInTime_reachable .refl
  exact ⟨runs, hruns, answers_determined approvedInTime_reachable hruns⟩

end Example

end AiK8sGateway
