import AiK8sGateway.Gateway.System

/-!
# Sequential Runs

Requests served one after the other by a fixed environment: an OPA that answers every
query with a function of the document, and Kubernetes libraries that answer every call
the same way.  Such a run can be computed, and it is one of the runs of the gateway.

## Main results

- `sequential_reachable`: the configuration after a sequential run is reachable.
- `call_mem_of_arrive`, `done_of_sequential`: only its requests arrive in it, and all of
  their handlers have ended.
-/

namespace AiK8sGateway

open Foundations EffectProgram PythonText Approval

/-- A fixed environment. -/
structure Environment where
  opaReply : Json → HttpReply
  k8sReply : (op : K8s.Op) → op.Reply

section Sequential

variable [Runtime] (settings : Settings) (env : Environment)

/-- How the environment answers the Kubernetes client; it keeps no state. -/
def Environment.k8sAnswer (_ : Unit) (op : K8s.Op) : op.Reply × Unit := (env.k8sReply op, ())

/-- One execution of `execute_action` in the environment. -/
def Environment.execute (action resource namespace_ : String) (params : JsonDict) : ExecReply :=
  let outcome := Prog.run (S := K8s.signature) env.k8sAnswer
    (K8s.executeAction action resource namespace_ params).run ()
  ⟨outcome.2.1, outcome.1⟩

/-- It is a run of `execute_action`. -/
theorem Environment.execute_path (action resource namespace_ : String) (params : JsonDict) :
    Prog.Path (K8s.executeAction action resource namespace_ params).run
      (env.execute action resource namespace_ params).actions
      (.done (env.execute action resource namespace_ params).result) :=
  @Prog.run_path K8s.signature _ _ env.k8sAnswer _ ()

/-- How the environment and the queue answer an operation. -/
def Environment.answer (q : ApprovalQueue) : (op : Op) → op.Reply × ApprovalQueue
  | .httpPost _ document => (env.opaReply document, q)
  | .enqueue request => q.enqueue request
  | .resolve requestId => q.resolve requestId
  | .listPending => (q.listPending, q)
  | .executeAction action resource namespace_ params =>
    (env.execute action resource namespace_ params, q)
  | .auditLog _ => ((), q)

/-- Serve one more request to its end. -/
def runNext (c : GatewayConfig) (call : Call) : GatewayConfig :=
  let outcome := Prog.run (S := signature) env.answer (call.handle settings) c.shared
  ⟨c.threads ++ [(call, .done outcome.1)], outcome.2.2,
    c.history ++ .arrive c.threads.length call ::
      outcome.2.1.map (.act c.threads.length call)⟩

/-- Serve a list of requests, starting with the empty queue. -/
def sequential (calls : List Call) : GatewayConfig :=
  calls.foldl (runNext settings env) ⟨[], .empty, []⟩

/-- The request ids that a list of requests submits. -/
def submittedIds : List Call → List String :=
  List.filterMap fun
    | .agentAction c => some c.requestId
    | _ => none

variable {settings env} {opa : Opa}

/-- The environment answers as the gateway allows. -/
theorem serves_answer (hopa : ∀ url document, opa url document (env.opaReply document))
    (q : ApprovalQueue) (op : Op) : serves opa q op (env.answer q op).1 (env.answer q op).2 := by
  cases op with
  | httpPost url document => exact ⟨hopa url document, rfl⟩
  | enqueue request => rfl
  | resolve requestId => rfl
  | listPending => exact ⟨rfl, rfl⟩
  | executeAction action resource namespace_ params => exact ⟨env.execute_path _ _ _ _, rfl⟩
  | auditLog record => rfl

theorem runNext_reachable (hopa : ∀ url document, opa url document (env.opaReply document))
    {c : GatewayConfig} (hc : (gateway settings opa).Reachable c) {call : Call}
    (hfresh : freshId c.history call) :
    (gateway settings opa).Reachable (runNext settings env c call) :=
  Reachable.runCall (M := gateway settings opa) (serves_answer hopa) hc call hfresh

/-- **Sequential runs are runs**: requests with distinct ids, served one after the
    other, lead to a reachable configuration. -/
theorem sequential_reachable (hopa : ∀ url document, opa url document (env.opaReply document))
    (calls : List Call) (hids : (submittedIds calls).Nodup) :
    (gateway settings opa).Reachable (sequential settings env calls) := by
  suffices h : ∀ calls c, (gateway settings opa).Reachable c → (submittedIds calls).Nodup →
      (∀ t req, .arrive t (.agentAction req) ∈ c.history →
        req.requestId ∉ submittedIds calls) →
      (gateway settings opa).Reachable (calls.foldl (runNext settings env) c) from
    h calls _ .refl hids (by simp)
  -- The ids still to come are distinct, and none of them is in the history.
  intro calls
  induction calls with
  | nil =>
    intro c hc _ _
    exact hc
  | cons call calls ih =>
    intro c hc hnodup hold
    have hfresh : freshId c.history call := by
      cases call with
      | agentAction req =>
        intro t req' hmem heq
        exact hold t req' hmem (by simp [submittedIds, heq])
      | _ => trivial
    refine ih _ (runNext_reachable hopa hc hfresh) ?_ ?_
    · -- The ids still to come are distinct.
      exact hnodup.sublist ((List.sublist_cons_self _ _).filterMap _)
    · -- None of them is in the history, the one of this call included.
      intro t req hmem hin
      simp only [runNext, List.mem_append, List.mem_cons, Event.arrive.injEq, List.mem_map,
        reduceCtorEq, and_false, exists_false, or_false] at hmem
      rcases hmem with hmem | ⟨-, hcall⟩
      · refine hold t req hmem ?_
        exact ((List.sublist_cons_self call calls).filterMap _).subset hin
      · subst hcall
        change (req.requestId :: submittedIds calls).Nodup at hnodup
        exact (List.nodup_cons.mp hnodup).1 hin

/-- **Induction on sequential runs**: what holds before the first request and survives
    each of the requests holds at the end. -/
theorem sequential_induction {P : GatewayConfig → Prop} {calls : List Call}
    (hstart : P ⟨[], .empty, []⟩)
    (hnext : ∀ c, P c → ∀ call ∈ calls, P (runNext settings env c call)) :
    P (sequential settings env calls) :=
  List.foldlRecOn calls (runNext settings env) hstart hnext

/-- What arrives in a sequential run is one of its requests. -/
theorem call_mem_of_arrive {calls : List Call} {t : Nat} {call : Call}
    (harrive : .arrive t call ∈ (sequential settings env calls).history) : call ∈ calls := by
  suffices h : ∀ t call, .arrive t call ∈ (sequential settings env calls).history →
      call ∈ calls from h t call harrive
  refine sequential_induction
    (P := fun c => ∀ t call, .arrive t call ∈ c.history → call ∈ calls) ?_ ?_
  · intro t call hmem
    cases hmem
  · intro c ih next hnext t call hmem
    -- The events that a request adds are its own arrival and operations.
    simp only [runNext, List.mem_append, List.mem_cons, Event.arrive.injEq, List.mem_map,
      reduceCtorEq, and_false, exists_false, or_false] at hmem
    rcases hmem with hmem | ⟨-, rfl⟩
    · exact ih t call hmem
    · exact hnext

/-- Every handler of a sequential run has ended. -/
theorem done_of_sequential {calls : List Call} {thread : Call × Prog signature HttpReply}
    (hmem : thread ∈ (sequential settings env calls).threads) :
    ∃ response, thread.2 = .done response := by
  suffices h : ∀ thread ∈ (sequential settings env calls).threads,
      ∃ response, thread.2 = .done response from h thread hmem
  refine sequential_induction
    (P := fun c => ∀ thread ∈ c.threads, ∃ response, thread.2 = .done response) ?_ ?_
  · intro thread hmem
    cases hmem
  · intro c ih call _ thread hmem
    rcases List.mem_append.mp hmem with hold | hnew
    · exact ih thread hold
    · obtain rfl := List.mem_singleton.mp hnew
      exact ⟨_, rfl⟩

end Sequential

/-! ## A cluster that answers -/

/-- A token whose payload names a subject and a role. -/
def decodeAs (sub role : String) : Auth.JwtDecode := fun _ _ _ =>
  .ok ⟨[("sub", .str sub), ("role", .str role)], by simp⟩

/-- A request to `agent_action` with such a token. -/
def AgentCall.ofSubject (requestId sub role : String) (body : AgentActionRequest) : AgentCall where
  requestId := requestId
  queuedAt := "2024-01-01T00:00:00+00:00"
  decode := decodeAs sub role
  credentials := "token"
  body := body

/-- A request to `approve_action` with such a token. -/
def ApproveCall.ofSubject (requestId sub role : String) (body : ApproveRequest) :
    ApproveCall where
  requestId := requestId
  decode := decodeAs sub role
  credentials := "token"
  body := body

/-- An object under every name, and empty lists. -/
def K8s.SdkCall.found : (call : K8s.SdkCall) → call.Result
  | .listNamespacedPod _ => []
  | .readNamespacedPod name namespace_ => ⟨some name, some namespace_, some "Running", none⟩
  | .deleteNamespacedPod _ _ => ()
  | .listNamespacedDeployment _ => []
  | .readNamespacedDeployment name namespace_ =>
    ⟨some name, some namespace_, none, some 1, some 1, [none]⟩
  | .createNamespacedDeployment namespace_ _ => ⟨none, some namespace_, none, some 1, none, []⟩
  | .patchNamespacedDeployment name namespace_ _ =>
    ⟨some name, some namespace_, none, some 1, none, []⟩
  | .deleteNamespacedDeployment _ _ => ()
  | .listNamespacedSecret _ => []
  | .listNamespace => []
  | .listNamespacedConfigMap _ => []

/-- A cluster that accepts every call. -/
def workingCluster : (op : K8s.Op) → op.Reply
  | .loadInclusterConfig => .ok ()
  | .loadKubeConfig => .ok ()
  | .sdk call => .ok call.found

/-- No cluster at all: no configuration is found. -/
def noCluster : (op : K8s.Op) → op.Reply
  | .loadInclusterConfig => .error (.configException "not in a cluster")
  | .loadKubeConfig => .error (.configException "no kubeconfig")
  | .sdk _ => .error (.other "MaxRetryError")

/-- Without a cluster any execution ends with `K8sUnavailableError`. -/
theorem exists_unavailable [Runtime] (action resource namespace_ : String)
    (params : JsonDict) :
    ∃ exec : ExecReply, Prog.Path (K8s.executeAction action resource namespace_ params).run
        exec.actions (.done exec.result) ∧
      ∃ msg, exec.result = .error (.k8sUnavailableError msg) :=
  ⟨_, Environment.execute_path ⟨fun _ => .raised (.other ""), noCluster⟩ _ _ _ _, _, rfl⟩

end AiK8sGateway
