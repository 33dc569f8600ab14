import AiK8sGateway.Gateway.TypedCalls

/-!
# Retries of the Client

The client posts once more after a 503.  The gateway itself never answers that, but what
stands between the two may: an ingress, or a service without an endpoint.  It may also
answer so after the post has arrived, and then the gateway serves the request twice, under
two request ids.

## Main results

- `effects_le_one`: one run of the gateway queues once or executes once, or neither.
- `at_most_twice`: behind an unreliable relay a call of the client has at most two effects,
  and a second one only after a 503 that the gateway did not send.
-/

namespace AiK8sGateway

open Foundations EffectProgram PythonText Approval Audit Auth Risk
open AgentClient (GatewayClient GatewayExc ActionTrace Response handleResponse posted)

/-! ## The relay -/

section Relay

variable [Runtime]

/-- A relay in front of the gateway: a post may be lost, and the reply to one that arrived
    may be another than the gateway's. -/
inductive Relayed (settings : Settings) :
    List (Action AgentClient.signature) → List (ServerRun settings) → Prop where
  | nil : Relayed settings [] []
  | sleep {seconds : Nat} {acts : List (Action AgentClient.signature)}
      {runs : List (ServerRun settings)} (h : Relayed settings acts runs) :
      Relayed settings (⟨.sleep seconds, ()⟩ :: acts) runs
  | lost {authorization url : String} {payload : Json} {reply : Except PyExc Response}
      {acts : List (Action AgentClient.signature)} {runs : List (ServerRun settings)}
      (h : Relayed settings acts runs) :
      Relayed settings (⟨.post authorization url payload, reply⟩ :: acts) runs
  | arrived {payload : Json} {reply : Except PyExc Response} {run : ServerRun settings}
      {acts : List (Action AgentClient.signature)} {runs : List (ServerRun settings)}
      (hbody : AgentActionRequest.ofJson? payload = some run.call.body)
      (h : Relayed settings acts runs) :
      Relayed settings
        (⟨.post ("Bearer " ++ run.call.credentials) "/agent-action" payload, reply⟩ :: acts)
        (run :: runs)

variable {settings : Settings}

/-- Without a relay every post arrives. -/
theorem relayed_of_served {acts : List (Action AgentClient.signature)}
    {runs : List (ServerRun settings)} (h : Served settings acts runs) :
    Relayed settings acts runs := by
  induction h with
  | nil => exact .nil
  | sleep _ ih => exact .sleep ih
  | post hbody _ _ ih => exact .arrived hbody ih

/-- A run of the gateway for what the client asks. -/
structure Serves (run : ServerRun settings) (client : GatewayClient)
    (verb resource namespace_ : String) (params : Option JsonDict) : Prop where
  credentials : run.call.credentials = client.token
  body : run.call.body = ⟨verb, resource, namespace_, params.getD .empty⟩

/-- A post of the client triggers one run at most. -/
theorem relayed_posted {self : GatewayClient} {verb resource namespace_ : String}
    {params : Option JsonDict} {reply : Except PyExc Response}
    {acts : List (Action AgentClient.signature)} {runs : List (ServerRun settings)}
    (h : Relayed settings (posted self verb resource namespace_ params reply :: acts) runs) :
    ∃ (here : Option (ServerRun settings)) (later : List (ServerRun settings)),
      runs = here.toList ++ later ∧ Relayed settings acts later ∧
        ∀ run ∈ here, Serves run self verb resource namespace_ params := by
  generalize hfirst : posted self verb resource namespace_ params reply = first at h
  cases h with
  | sleep _ => cases hfirst
  | lost h => exact ⟨none, runs, rfl, h, fun _ hrun => (by cases hrun)⟩
  | @arrived payload _ run _ rest hbody h =>
    unfold posted at hfirst
    injection hfirst with hop _
    injection hop with hauth _ hpayload
    rw [← hpayload, body_of_payload] at hbody
    refine ⟨some run, rest, rfl, h, ?_⟩
    rintro _ ⟨⟩
    exact ⟨((String.append_right_inj _).mp hauth).symm, (Option.some.inj hbody).symm⟩

/-- A run that serves a post is one that it triggers. -/
theorem relayed_of_serves {self : GatewayClient} {verb resource namespace_ : String}
    {params : Option JsonDict} {run : ServerRun settings} (reply : Except PyExc Response)
    (hserves : Serves run self verb resource namespace_ params)
    {acts : List (Action AgentClient.signature)} {runs : List (ServerRun settings)}
    (h : Relayed settings acts runs) :
    Relayed settings (posted self verb resource namespace_ params reply :: acts) (run :: runs) := by
  unfold posted
  rw [← hserves.credentials]
  refine .arrived ?_ h
  rw [body_of_payload, hserves.body]

/-! ## One run -/

/-- The actions that leave something behind: a queued request, or an execution. -/
def isEffect : Action signature → Bool
  | ⟨.enqueue _, _⟩ | ⟨.executeAction _ _ _ _, _⟩ => true
  | _ => false

/-- The effects of a run. -/
def ServerRun.effects (run : ServerRun settings) : Nat := run.acts.countP isEffect

/-- **One effect**: a run queues its request once or executes it once, or neither. -/
theorem effects_le_one (run : ServerRun settings) : run.effects ≤ 1 := by
  have htrace := agentTrace_of_path settings run.path
  rw [Prog.outcome_done] at htrace
  unfold ServerRun.effects
  generalize run.acts = acts at htrace
  generalize some run.result = out at htrace
  cases htrace with
  | rejected | unscored | asking | unread | decided | denied | queueing | queued | failed
  | executed | allowed => exact Nat.le_of_ble_eq_true rfl

theorem executed_or_not (run : ServerRun settings) :
    executions run.acts = [] ∨ ∃ exec, run.Executed exec := by
  obtain ⟨resp, hsees⟩ := exists_sees run
  have hend := clientEnd_of_run hsees
  generalize handleResponse resp = out at hend
  cases hend with
  | raised hexec _ _ => exact .inl hexec
  | queued _ _ hexec => exact .inl hexec
  | failed _ hexec _ | returned _ hexec _ | unwritten _ hexec _ _ _ => exact .inr ⟨_, hexec⟩

/-- The SDK call of a run is the one that its request comes to. -/
theorem sdkCalls_of_run (run : ServerRun settings) :
    run.sdkCalls = [] ∨ ∃ call,
      K8s.planned run.call.dispatched run.call.body.params = .ok call ∧ run.sdkCalls = [call] := by
  rcases executed_or_not run with hexec | ⟨exec, hexec⟩
  · exact .inl (sdkCalls_of_unexecuted hexec)
  · rw [hexec.sdkCalls_eq]
    exact sdkCalls_of_execution hexec.trace

/-! ## One call of the client -/

/-- What a call of the client leaves behind. -/
structure AtMostTwice (client : GatewayClient) (verb resource namespace_ : String)
    (params : Option JsonDict) (acts : List (Action AgentClient.signature))
    (runs : List (ServerRun settings)) : Prop where
  /-- Each run of the gateway is for the client's token and arguments. -/
  asked : ∀ run ∈ runs, Serves run client verb resource namespace_ params
  /-- Each has one effect at most. -/
  effects : ∀ run ∈ runs, run.effects ≤ 1
  /-- Each makes no SDK call, or the one that the arguments come to. -/
  called : ∀ run ∈ runs, run.sdkCalls = [] ∨ ∃ call,
    K8s.planned (K8s.normalise verb resource namespace_) (params.getD .empty) = .ok call ∧
      run.sdkCalls = [call]
  /-- There are two only after a 503 that the first of them did not answer. -/
  repeated : 1 < runs.length → client.retryOn503 = true ∧ ∃ first again resp,
    runs = [first, again] ∧ resp.status = 503 ∧ ¬ Sees first.response resp ∧
      acts.head? = some (posted client verb resource namespace_ params (.ok resp))

/-- The runs that a call triggers: one for each of its posts, at most. -/
theorem runs_of_path {self : GatewayClient} {verb resource namespace_ : String}
    {params : Option JsonDict} {acts : List (Action AgentClient.signature)}
    {out : Except GatewayExc Json} {runs : List (ServerRun settings)}
    (hpath : Prog.Path (AgentClient.action self verb resource namespace_ params).run acts
      (.done out))
    (hrelay : Relayed settings acts runs) :
    ∃ here again : Option (ServerRun settings), runs = here.toList ++ again.toList ∧
      (∀ run ∈ runs, Serves run self verb resource namespace_ params) ∧
      (again ≠ none → ∃ resp, AgentClient.Retries self resp ∧
        acts.head? = some (posted self verb resource namespace_ params (.ok resp))) := by
  cases AgentClient.actionTrace_of_path hpath with
  | once _ =>
    -- One post, and no pause.
    obtain ⟨here, later, rfl, hrest, hserves⟩ := relayed_posted hrelay
    cases hrest
    refine ⟨here, none, rfl, fun run hrun => hserves run ?_, fun hne => absurd rfl hne⟩
    simpa using hrun
  | @retried first _ hretry =>
    -- A post, a pause, and a second post.
    obtain ⟨here, later, rfl, hrest, hserves⟩ := relayed_posted hrelay
    cases hrest with
    | sleep hrest =>
      obtain ⟨again, last, rfl, hlast, hserves'⟩ := relayed_posted hrest
      cases hlast
      refine ⟨here, again, by simp, fun run hrun => ?_, fun _ => ⟨first, hretry, rfl⟩⟩
      rcases List.mem_append.mp hrun with hrun | hrun
      · exact hserves run (by simpa using hrun)
      · exact hserves' run (by simpa using hrun)

/-- **At most twice**: behind a relay that loses posts and replies. -/
theorem at_most_twice {self : GatewayClient} {verb resource namespace_ : String}
    {params : Option JsonDict} {acts : List (Action AgentClient.signature)}
    {out : Except GatewayExc Json} {runs : List (ServerRun settings)}
    (hpath : Prog.Path (AgentClient.action self verb resource namespace_ params).run acts
      (.done out))
    (hrelay : Relayed settings acts runs) :
    AtMostTwice self verb resource namespace_ params acts runs := by
  obtain ⟨here, again, hruns, hasked, hagain⟩ := runs_of_path hpath hrelay
  refine ⟨hasked, fun run _ => effects_le_one run, ?_, ?_⟩
  · -- Each run makes the planned SDK call at most.
    intro run hrun
    have hcalled := sdkCalls_of_run run
    rw [AgentCall.dispatched, (hasked run hrun).body] at hcalled
    exact hcalled
  · intro hlength
    -- Two runs are one for each of two posts.
    cases here with
    | none => cases again <;> simp [hruns] at hlength
    | some first =>
      cases again with
      | none => simp [hruns] at hlength
      | some again =>
        obtain ⟨resp, hretry, hhead⟩ := hagain (Option.some_ne_none _)
        refine ⟨hretry.2, first, again, resp, hruns, hretry.1, ?_, hhead⟩
        exact fun hsees => (agrees_handleResponse_iff hsees).1 hretry.1

end Relay

section Example

attribute [local instance] asciiRuntime plainText

/-- The gateway serves a deployment under this request id. -/
def deploymentRun (requestId : String) : ServerRun Settings.default :=
  .alone shipped (.ofSubject requestId "agent-deploy" "deployer" plainRequest)

/-- The reply of a relay that gave up waiting. -/
def gaveUp : Response := ⟨503, "", .error "Expecting value: line 1 column 1 (char 0)"⟩

/-- A relay that gives up on the first post, which has arrived: there are two SDK calls. -/
theorem at_most_twice_deploymentRun : ∃ acts out,
    Prog.Path (AgentClient.action ⟨"http://gateway", "token", true⟩ plainRequest.action
      plainRequest.resource plainRequest.namespace (some plainRequest.params)).run acts
      (.done out) ∧
    Relayed Settings.default acts [deploymentRun "r-1", deploymentRun "r-2"] ∧
    AtMostTwice ⟨"http://gateway", "token", true⟩ plainRequest.action plainRequest.resource
      plainRequest.namespace (some plainRequest.params) acts
      [deploymentRun "r-1", deploymentRun "r-2"] ∧
    (deploymentRun "r-1").sdkCalls.length = 1 ∧ (deploymentRun "r-2").sdkCalls.length = 1 := by
  obtain ⟨resp, -⟩ := exists_sees (deploymentRun "r-2")
  have hpath := @AgentClient.retried_path ⟨"http://gateway", "token", true⟩ plainRequest.action
    plainRequest.resource plainRequest.namespace (some plainRequest.params) gaveUp resp ⟨rfl, rfl⟩
  have hserves : ∀ requestId, Serves (deploymentRun requestId) ⟨"http://gateway", "token", true⟩
      plainRequest.action plainRequest.resource plainRequest.namespace (some plainRequest.params) :=
    fun _ => ⟨rfl, rfl⟩
  have hrelay := relayed_of_serves (.ok gaveUp) (hserves "r-1")
    (@Relayed.sleep _ _ 1 _ _ (relayed_of_serves (.ok resp) (hserves "r-2") .nil))
  exact ⟨_, _, hpath, hrelay, at_most_twice hpath hrelay, by decide, by decide⟩

end Example

end AiK8sGateway
