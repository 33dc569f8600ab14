import AiK8sGateway.Gateway.ShippedPolicy
import AiK8sGateway.Gateway.Mediation
import AiK8sGateway.K8s.Execution

/-!
# SDK Calls of a Request

What the gateway calls the Kubernetes SDK for, over whole runs: one call at most for each
request id, which is the one that the authorised request comes to.  An answer that reports
an execution was made of the answer to that call, or says that it is a simulation and then
no call was made.

## Main results

- `callsFor_of_execution`: the SDK calls for an id are those of its one execution.
- `one_sdk_call`: at most one SDK call for each id, and no false reports.
-/

namespace AiK8sGateway

open Foundations EffectProgram PythonText Approval Audit Auth Risk Reachable

/-! ## The calls of a history -/

/-- The SDK calls of an event for request id `i`. -/
def callsIn (i : String) (e : GatewayEvent) : List K8s.SdkCall :=
  (sdkCallsOf e).filterMap fun p => if p.1 = i then some p.2 else none

/-- The SDK calls that were made for request id `i`, in order. -/
def callsFor (i : String) (h : List GatewayEvent) : List K8s.SdkCall := h.flatMap (callsIn i)

theorem callsFor_append (i : String) (h h' : List GatewayEvent) :
    callsFor i (h ++ h') = callsFor i h ++ callsFor i h' := List.flatMap_append

/-- Only an execution makes calls. -/
theorem callsIn_of_kindOf {i : String} {e : GatewayEvent} (h : kindOf e ≠ some (.executed, i)) :
    callsIn i e = [] := by
  unfold callsIn
  cases e with
  | arrive t call => rfl
  | act t call a =>
    obtain ⟨op, r⟩ := a
    cases op with
    | executeAction action resource namespace_ params =>
      have hid : call.requestId? ≠ some i := by
        intro hid
        apply h
        simp [kindOf, hid]
      cases hcall : call.requestId? with
      | none => simp [sdkCallsOf, hcall]
      | some j =>
        have hne : j ≠ i := fun heq => hid (by rw [hcall, heq])
        simp [sdkCallsOf, hcall, hne, List.filterMap_map]
    | _ => rfl

theorem callsIn_execution {i : String} {t : Nat} {call : Call}
    {action resource namespace_ : String} {params : JsonDict} {exec : ExecReply}
    (hid : call.requestId? = some i) :
    callsIn i (.act t call ⟨.executeAction action resource namespace_ params, exec⟩) =
      exec.actions.filterMap sdkCall? := by
  simp [callsIn, sdkCallsOf, hid, List.filterMap_map]

/-- Without an execution there are no calls. -/
theorem callsFor_of_tally {i : String} {h : List GatewayEvent} (hzero : tally .executed i h = 0) :
    callsFor i h = [] := by
  rw [callsFor, List.flatMap_eq_nil_iff]
  intro e he
  apply callsIn_of_kindOf
  intro hk
  have hone := one_le_tally he hk
  omega

section Calls

variable [Runtime] {settings : Settings} {opa : Opa} {c : GatewayConfig}

/-- The calls for an id are those of its one execution. -/
theorem callsFor_of_execution (h : (gateway settings opa).Reachable c) {i : String} {t : Nat}
    {call : Call} {action resource namespace_ : String} {params : JsonDict} {exec : ExecReply}
    (hid : call.requestId? = some i)
    (hmem : .act t call ⟨.executeAction action resource namespace_ params, exec⟩ ∈ c.history) :
    callsFor i c.history = exec.actions.filterMap sdkCall? := by
  have hle := executed_add_refused_le_one h i
  obtain ⟨pre, post, hs⟩ := List.append_of_mem hmem
  have hkind : kindOf (.act t call ⟨.executeAction action resource namespace_ params, exec⟩) =
      some (.executed, i) := by simp [kindOf, hid]
  rw [hs] at hle ⊢
  -- The execution is counted, so that there is none before it and none after it.
  simp only [tally, weight_append, weight_cons, hit_eq_one hkind] at hle
  have hpre : callsFor i pre = [] := callsFor_of_tally (by unfold tally; omega)
  have hpost : callsFor i post = [] := callsFor_of_tally (by unfold tally; omega)
  rw [callsFor_append, hpre, List.nil_append, callsFor, List.flatMap_cons, ← callsFor, hpost,
    List.append_nil, callsIn_execution hid]

/-! ## The call of an execution -/

omit [Runtime] in
theorem sdkCalls_of_noSdk {acts : List (Action K8s.signature)} (h : K8s.NoSdk acts) :
    acts.filterMap sdkCall? = [] := by
  rw [List.filterMap_eq_nil_iff]
  rintro ⟨op, reply⟩ ha
  cases op with
  | sdk call => exact absurd ha (h call reply)
  | loadInclusterConfig | loadKubeConfig => rfl

/-- An execution that came back without a result made its planned call at most. -/
theorem sdkCalls_of_execution {t : Target} {params : JsonDict}
    {acts : List (Action K8s.signature)} {r : Except K8s.ClientExc Json}
    (h : K8s.Execution t params acts r) :
    acts.filterMap sdkCall? = [] ∨
      ∃ call, K8s.planned t params = .ok call ∧ acts.filterMap sdkCall? = [call] := by
  cases h with
  | unissued hnone => exact .inl (sdkCalls_of_noSdk hnone)
  | @refused _ call reply _ hnone hplan _ _ | @answered _ call reply _ hnone hplan _ =>
    refine .inr ⟨call, hplan, ?_⟩
    rw [List.filterMap_append, sdkCalls_of_noSdk hnone]
    rfl

/-- `execute_action` was called for request `req`, and this is what it did. -/
structure ExecutedFor (h : List GatewayEvent) (req : AgentCall) (exec : ExecReply) : Prop where
  performed : ∃ t call, call.requestId? = some req.requestId ∧
    .act t call ⟨.executeAction req.body.action req.body.resource req.body.namespace
      req.body.params, exec⟩ ∈ h
  trace : K8s.Execution req.dispatched req.body.params exec.actions exec.result
  calls : callsFor req.requestId h = exec.actions.filterMap sdkCall?

/-- What a recorded execution returned is written as it is. -/
theorem written_of_execution (h : (gateway settings opa).Reachable c) {t : Nat} {call : Call}
    {action resource namespace_ : String} {params : JsonDict} {exec : ExecReply} {v : Json}
    (hmem : .act t call ⟨.executeAction action resource namespace_ params, exec⟩ ∈ c.history)
    (hresult : exec.result = .ok v) : written v = v := by
  have hpath := path_of_execution h hmem
  rw [hresult] at hpath
  have hplain := (K8s.executeAction_returnsPlain _ _ _ _).of_path hpath v rfl
  exact written_of_isFinite (Json.isFinite_of_isPlain hplain)

/-- Every execution is one for an authorised request. -/
theorem executedFor_of_mem (h : (gateway settings opa).Reachable c) {t : Nat} {call : Call}
    {action resource namespace_ : String} {params : JsonDict} {exec : ExecReply}
    (hmem : .act t call ⟨.executeAction action resource namespace_ params, exec⟩ ∈ c.history) :
    ∃ req token rs, Authorised settings c.history req token rs ∧
      call.requestId? = some req.requestId ∧ action = req.body.action ∧
      resource = req.body.resource ∧ namespace_ = req.body.namespace ∧
      params = req.body.params ∧ ExecutedFor c.history req exec := by
  obtain ⟨req, token, rs, hauth, hcleared, rfl, rfl, rfl, rfl⟩ := execution_origin_of_mem h hmem
  have hid : call.requestId? = some req.requestId := by
    rcases hcleared with ⟨-, rfl⟩ | ⟨-, ac, approver, rfl, hid, -⟩
    · rfl
    · exact congrArg some hid
  exact ⟨req, token, rs, hauth, hid, rfl, rfl, rfl, rfl, ⟨t, call, hid, hmem⟩,
    K8s.execution_of_path (path_of_execution h hmem), callsFor_of_execution h hid hmem⟩

/-! ## Reports of executions -/

/-- The response says that the request was executed, with this result. -/
def Reports (response : HttpReply) (data : Json) : Prop :=
  ∃ body, response = .response 200 (.ok body) ∧
    (body.field? "decision" = some (.str Decision.allow.value) ∨
      body.field? "decision" = some (.str Decision.humanAllow.value)) ∧
    body.field? "data" = some data

/-- An exception reports nothing: its response is no success. -/
theorem not_reports_error {e : HandlerExc} {status : Nat} (h : RaisedWith e status) (data : Json) :
    ¬ Reports (httpResponse (.error e)) data := by
  rintro ⟨body, hresponse, -, -⟩
  obtain ⟨body', hbody⟩ := h.response
  rw [hbody] at hresponse
  injection hresponse with hstatus _
  exact h.status_ne hstatus

/-- What a returned object reports is its own decision, and its data as they are written. -/
theorem reports_ok {fields : List (String × Json)} {decision data : Json}
    (h : Reports (httpResponse (.ok (.obj fields))) data)
    (hdecision : fields.lookup "decision" = some decision) :
    (written decision = .str Decision.allow.value ∨
      written decision = .str Decision.humanAllow.value) ∧
    (fields.lookup "data").map written = some data := by
  obtain ⟨body, hresponse, hsays, hdata⟩ := h
  rcases FastApi.response_ok (.obj fields) with ⟨text, htext, hwritten⟩ | ⟨text, htext⟩
  · rw [htext] at hresponse
    injection hresponse with _ hbody
    rw [hwritten body hbody, Json.field?_mapFloat] at hsays hdata
    refine ⟨?_, hdata⟩
    have hfield : (Json.obj fields).field? "decision" = some decision := hdecision
    rw [hfield] at hsays
    exact hsays.imp Option.some.inj Option.some.inj
  · rw [htext] at hresponse
    injection hresponse with hstatus _
    cases hstatus

/-- An object with another decision reports nothing. -/
theorem not_reports_decision {fields : List (String × Json)} {decision : Decision} (data : Json)
    (hdecision : fields.lookup "decision" = some (.str decision.value))
    (hne : decision.value ≠ Decision.allow.value ∧ decision.value ≠ Decision.humanAllow.value) :
    ¬ Reports (httpResponse (.ok (.obj fields))) data := by
  intro hreports
  rcases (reports_ok hreports hdecision).1 with hsays | hsays
  · exact hne.1 (Json.str.inj hsays)
  · exact hne.2 (Json.str.inj hsays)

/-- A listing reports nothing. -/
theorem not_reports_listing (count items : Json) (data : Json) :
    ¬ Reports (httpResponse (.ok (.obj [("count", count), ("items", items)]))) data := by
  rintro ⟨body, hresponse, hsays, -⟩
  rcases FastApi.response_ok (.obj [("count", count), ("items", items)]) with
    ⟨text, htext, hwritten⟩ | ⟨text, htext⟩
  · rw [htext] at hresponse
    injection hresponse with _ hbody
    rw [hwritten body hbody, Json.field?_mapFloat] at hsays
    rcases hsays with hsays | hsays <;> cases hsays
  · rw [htext] at hresponse
    injection hresponse with hstatus _
    cases hstatus

/-- A handler that reports an execution has performed it. -/
theorem execution_of_reports {call : Call} {acts : List (Action signature)} {response : HttpReply}
    {data : Json} (h : CallTrace settings call acts (some response))
    (hreports : Reports response data) :
    ∃ action resource namespace_ params exec result,
      ⟨.executeAction action resource namespace_ params, exec⟩ ∈ acts ∧
        mapExecution action resource namespace_ params exec.result = .ok result ∧
          data = written result := by
  generalize hout : some response = out at h
  cases h with
  | @agentAction req _ out htrace =>
    obtain ⟨result, rfl, rfl⟩ := Option.map_eq_some_iff.mp hout.symm
    cases result with
    -- The handler raised: no report.
    | error e =>
      obtain ⟨status, hraised⟩ := raisedWith_of_agentTrace settings htrace
      exact absurd hreports (not_reports_error hraised data)
    | ok answer =>
      cases htrace with
      -- The pending answer reports no execution.
      | queued _ _ _ =>
        exact absurd hreports (@not_reports_decision _ _ .pendingApproval _ rfl (by decide))
      -- The allow answer has the data of the execution before it.
      | allowed _ _ _ hexec =>
        obtain ⟨-, hdata⟩ := reports_ok hreports rfl
        exact ⟨_, _, _, _, _, _, .tail _ (.head _), hexec, (Option.some.inj hdata).symm⟩
  | @listPending _ _ out htrace =>
    obtain ⟨result, rfl, rfl⟩ := Option.map_eq_some_iff.mp hout.symm
    -- A listing has no decision in it.
    cases result with
    | error e =>
      obtain ⟨status, hraised⟩ := raisedWith_of_listTrace settings htrace
      exact absurd hreports (not_reports_error hraised data)
    | ok answer =>
      cases htrace with
      | listed _ => exact absurd hreports (not_reports_listing _ _ data)
  | @approveAction _ _ out htrace =>
    obtain ⟨result, rfl, rfl⟩ := Option.map_eq_some_iff.mp hout.symm
    cases result with
    | error e =>
      obtain ⟨status, hraised⟩ := raisedWith_of_approveTrace settings htrace
      exact absurd hreports (not_reports_error hraised data)
    | ok answer =>
      cases htrace with
      -- The answer to an approval, in the same way.
      | approved _ _ hexec =>
        obtain ⟨-, hdata⟩ := reports_ok hreports rfl
        exact ⟨_, _, _, _, _, _, .tail _ (.head _), hexec, (Option.some.inj hdata).symm⟩
      -- The answer to a rejection reports no execution.
      | denied _ _ =>
        exact absurd hreports (@not_reports_decision _ _ .humanDeny _ rfl (by decide))

/-- What is reported was made of the answer to the one SDK call, or there was no call and
    the report says so.  A simulation repeats the params, as they are written. -/
inductive Truthful (h : List GatewayEvent) (req : AgentCall) (data : Json) : Prop where
  | executed {exec : ExecReply} {call : K8s.SdkCall} {reply : call.Result} {answer : Json}
      (hexec : ExecutedFor h req exec) (hcalls : callsFor req.requestId h = [call])
      (hreply : (⟨.sdk call, .ok reply⟩ : Action K8s.signature) ∈ exec.actions)
      (hanswer : K8s.answerOf call reply = .ok answer) (hdata : data = K8s.success answer)
  | simulated (hcalls : callsFor req.requestId h = [])
      (hdata : data = written (AiK8sGateway.simulated req.body.action req.body.resource
        req.body.namespace req.body.params))

theorem truthful_of_executedFor {h : List GatewayEvent} {req : AgentCall} {exec : ExecReply}
    {result : Json} (hexec : ExecutedFor h req exec)
    (hdata : mapExecution req.body.action req.body.resource req.body.namespace req.body.params
      exec.result = .ok result)
    (hkept : ∀ v, exec.result = .ok v → written v = v) : Truthful h req (written result) := by
  have htrace := hexec.trace
  have hcalls := hexec.calls
  generalize hacts : exec.actions = acts at htrace hcalls
  generalize exec.result = r at htrace hdata hkept
  cases htrace with
  | unissued hnone =>
    -- No SDK call was made, so that the data is the simulation.
    rw [sdkCalls_of_noSdk hnone] at hcalls
    exact .simulated hcalls (congrArg written (mapExecution_unavailable hdata).2)
  | refused _ _ _ he =>
    -- A refused call is an error, and those are not reported.
    obtain ⟨msg, hmsg⟩ := (mapExecution_unavailable hdata).1
    exact absurd hmsg (he msg)
  | @answered load call reply answer hnone hplan hanswer =>
    -- The answer to the call is the data.
    rw [List.filterMap_append, sdkCalls_of_noSdk hnone, List.nil_append] at hcalls
    obtain rfl := Except.ok.inj hdata
    refine .executed hexec hcalls ?_ hanswer (hkept _ rfl)
    rw [hacts]
    exact List.mem_append_right _ (List.mem_cons_self ..)

/-- SDK calls and reports of a run. -/
structure OneSdkCall (settings : Settings) (c : GatewayConfig) : Prop where
  /-- For an id no SDK call is made, or the one that its authorised request comes to. -/
  called : ∀ i, callsFor i c.history = [] ∨
    ∃ req token rs call, req.requestId = i ∧ Authorised settings c.history req token rs ∧
      K8s.planned req.dispatched req.body.params = .ok call ∧ callsFor i c.history = [call]
  /-- A response that reports an execution is about an authorised request, and truthful. -/
  reported : ∀ (t : Nat) (call : Call) (response : HttpReply) (data : Json),
    c.threads[t]? = some (call, Prog.done response) → Reports response data →
      ∃ req token rs, call.requestId? = some req.requestId ∧
        Authorised settings c.history req token rs ∧ Truthful c.history req data

/-- **One SDK call**: in every run, whatever OPA and the cluster answer. -/
theorem one_sdk_call (h : (gateway settings opa).Reachable c) : OneSdkCall settings c := by
  constructor
  · -- The calls of an id: its executions are one at most.
    intro i
    by_cases hzero : tally .executed i c.history = 0
    · exact .inl (callsFor_of_tally hzero)
    obtain ⟨t, call, action, resource, namespace_, params, exec, hid, hmem⟩ :=
      exists_execution (Nat.pos_of_ne_zero hzero)
    obtain ⟨req, token, rs, hauth, hid', -, -, -, -, hexec⟩ := executedFor_of_mem h hmem
    obtain rfl : req.requestId = i := Option.some.inj (hid'.symm.trans hid)
    rw [hexec.calls]
    refine (sdkCalls_of_execution hexec.trace).imp_right ?_
    rintro ⟨sdkCall, hplan, hcalls⟩
    exact ⟨req, token, rs, sdkCall, rfl, hauth, hplan, hcalls⟩
  · -- The reports: a handler that reports has executed.
    intro t call response data hget hreports
    have htrace := callTrace_of_path settings (path h hget)
    rw [Prog.outcome_done] at htrace
    obtain ⟨action, resource, namespace_, params, exec, result, hmem, hresult, rfl⟩ :=
      execution_of_reports htrace hreports
    have hmem' := (mem_localActions_iff h (arrive_mem h hget)).mp hmem
    obtain ⟨req, token, rs, hauth, hid, rfl, rfl, rfl, rfl, hexec⟩ := executedFor_of_mem h hmem'
    exact ⟨req, token, rs, hid, hauth, truthful_of_executedFor hexec hresult fun v hv =>
      written_of_execution h hmem' hv⟩

end Calls

section Example

attribute [local instance] asciiRuntime plainText

/-- There is one SDK call for the approved deployment. -/
theorem one_sdk_call_approvedDeployment :
    OneSdkCall Settings.default approvedDeployment ∧
      (callsFor "r-1" approvedDeployment.history).length = 1 := by
  have hreach : (gateway Settings.default anyOpa).Reachable approvedDeployment :=
    sequential_reachable (fun _ _ => trivial) _ (by decide)
  exact ⟨one_sdk_call hreach, by decide⟩

end Example

end AiK8sGateway
