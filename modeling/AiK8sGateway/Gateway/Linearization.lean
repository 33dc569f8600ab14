import AiK8sGateway.Foundations.Atomicity
import AiK8sGateway.Gateway.AuditTrail

/-!
# Requests Are Atomic

Every handler gives way once at most, at the query of OPA, and has not done anything
before it.  So the requests that the event loop has finished are those of a serial run,
in which each of them ran alone, and two of them are in that order in every longer run.

## Main results

- `suspendsFirst_handle`: no handler does anything before it gives way.
- `submission_unique`: a request id belongs to one finished submission.
- `gateway_linearizable`: every run of the event loop is linearizable.
-/

namespace AiK8sGateway

open Foundations EffectProgram PythonText Relation Reachable

section Linearization

variable [Runtime] {settings : Settings} {opa : Opa} {c c' : GatewayConfig}

/-- A finished request. -/
abbrev Finished := Completed signature Call HttpReply

/-- A handler that gives way has not done anything yet. -/
theorem suspendsFirst_handle (settings : Settings) (call : Call) :
    (call.handle settings).SuspendsFirst awaits := by
  intro acts op next hpath hop
  cases op with
  | httpPost url document => exact idle_before_query settings hpath
  | _ => cases hop

/-- A finished request has arrived. -/
theorem arrived_of_linearized (h : (gateway settings opa).Reachable c) {runs : List Finished}
    (hruns : Linearized (gateway settings opa) c runs) {x : Finished} (hx : x ∈ runs) :
    .arrive x.thread x.call ∈ c.history :=
  arrive_mem h ((hruns.ended x.thread x.call x.result).mpr ⟨x.acts, hx⟩)

/-- Two finished submissions of one id are one. -/
theorem submission_unique (h : (gateway settings opa).Reachable c) {runs : List Finished}
    (hruns : Linearized (gateway settings opa) c runs) {x y : Finished} (hx : x ∈ runs)
    (hy : y ∈ runs) {req req' : AgentCall} (hxcall : x.call = .agentAction req)
    (hycall : y.call = .agentAction req') (hid : req.requestId = req'.requestId) : x = y := by
  have harrive := arrived_of_linearized h hruns hx
  have harrive' := arrived_of_linearized h hruns hy
  rw [hxcall] at harrive
  rw [hycall] at harrive'
  have hsame := eq_of_tally_le_one (submitted_le_one h req.requestId) harrive harrive'
    (by simp) (by simp [hid])
  refine List.inj_on_of_nodup_map hruns.distinct hx hy ?_
  exact congrArg Event.thread hsame

/-- A request had been answered before another one arrived, and comes before it in the
    order: it is among the requests that were finished then, and the other is not. -/
def RealTime (c : GatewayConfig) (runs new : List Finished) : Prop :=
  ∀ x ∈ runs ++ new, ∀ y ∈ runs ++ new, ∀ call response,
    c.threads[x.thread]? = some (call, .done response) → c.threads.length ≤ y.thread →
      x ∈ runs ∧ y ∈ new

/-- **Linearizability**: at every moment of a run of the event loop the finished requests
    are those of a serial run with the same operations, the same answers and the same
    queue; a later moment only adds requests to it, so the order respects real time. -/
theorem gateway_linearizable (h : (gateway settings opa).CoopReachable awaits c)
    (h' : ReflTransGen ((gateway settings opa).CoopStep awaits) c c') :
    ∃ runs new, Linearized (gateway settings opa) c runs ∧
      Linearized (gateway settings opa) c' (runs ++ new) ∧ RealTime c runs new := by
  obtain ⟨runs, new, hruns, hnew⟩ := linearized (suspendsFirst_handle settings) h h'
  refine ⟨runs, new, hruns, hnew, ?_⟩
  intro x hx y hy call response hended harrived
  exact hruns.before hnew hx hy hended harrived

end Linearization

section Example

attribute [local instance] asciiRuntime plainText

/-- The deployment, its approval and two approvals in vain are a serial run. -/
theorem gateway_linearizable_approvedInTime :
    ∃ runs new, Linearized (gateway Settings.default anyOpa)
        (gateway Settings.default anyOpa).start runs ∧
      Linearized (gateway Settings.default anyOpa) approvedInTime (runs ++ new) ∧
      RealTime (gateway Settings.default anyOpa).start runs new :=
  gateway_linearizable .refl approvedInTime_reachable

end Example

end AiK8sGateway
