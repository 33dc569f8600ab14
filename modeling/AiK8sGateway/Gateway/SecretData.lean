import AiK8sGateway.Gateway.HumanApproval
import AiK8sGateway.K8s.Redaction

/-!
# Secret Data

The gateway in front of a cluster with a state of its own, and two runs of it on the same
inputs, against clusters that differ in the data values of secrets and config maps only.
No agent can tell the runs apart: the data never reaches a response, an audit record or
the queue.

## Main results

- `handle_lockstep`: a handler does the same whatever made its executions return the same.
- `reachable_of_gatewayOn`: a run in front of a cluster is one of the gateway's runs.
- `secret_data_unobserved`: two runs look the same.
-/

namespace AiK8sGateway

open Foundations EffectProgram PythonText Approval Audit Auth Risk

/-! ## Handlers in lockstep -/

/-- Executions with one result; any other two replies are equal. -/
def sameResult : ReplyRel signature
  | .executeAction _ _ _ _, exec, exec' => exec.result = exec'.result
  | _, reply, reply' => reply = reply'

/-- Handler code that does and returns the same on such replies. -/
abbrev Same {α : Type} (x x' : Handler α) : Prop := Prog.LockstepM sameResult Eq Eq x x'

theorem same_perform_bind {α : Type} {op : Op} {f : op.Reply → Handler α}
    (hf : ∀ r r', sameResult op r r' → Same (f r) (f r')) :
    Same (perform op >>= f) (perform op >>= f) :=
  .perform hf

theorem same_ofExcept_bind {α β : Type} {x : Except HandlerExc α} {f : α → Handler β}
    (hf : ∀ a, Same (f a) (f a)) : Same (ofExcept x >>= f) (ofExcept x >>= f) := by
  cases x with
  | ok a => exact hf a
  | error e => exact Prog.lockstepM_throw rfl

/-- What follows an execution gets the same result twice. -/
theorem same_executeK8s_bind {α : Type} {action resource namespace_ : String} {params : JsonDict}
    {f : Json → Handler α} (hf : ∀ a, Same (f a) (f a)) :
    Same (executeK8s action resource namespace_ params >>= f)
      (executeK8s action resource namespace_ params >>= f) := by
  unfold executeK8s
  rw [perform_bind_bind]
  apply same_perform_bind
  intro exec exec' hresult
  rw [show exec.result = exec'.result from hresult]
  exact same_ofExcept_bind hf

section Handlers

variable [Runtime] (settings : Settings)

theorem agentAction_same (c : AgentCall) :
    Same (agentAction settings c) (agentAction settings c) := by
  unfold agentAction
  -- Stages 1 and 2, the token and the score, ask nobody; stage 3 gets the same answer of OPA.
  apply same_ofExcept_bind
  intro token
  apply same_ofExcept_bind
  intro rs
  apply same_perform_bind
  rintro reply _ rfl
  apply same_ofExcept_bind
  rintro ⟨allowed, opaReason⟩
  dsimp only
  split_ifs with hdenied hhigh
  · -- Stage 4a: the denial is logged and raised.
    apply same_perform_bind
    intro _ _ _
    exact Prog.lockstepM_throw rfl
  · -- Stage 5a: the request is queued, then logged.
    apply same_perform_bind
    intro _ _ _
    apply same_perform_bind
    intro _ _ _
    exact Prog.lockstepM_pure rfl
  · -- Stage 5b: only here does something of the cluster get into the response.
    apply same_executeK8s_bind
    intro data
    apply same_perform_bind
    intro _ _ _
    exact Prog.lockstepM_pure rfl

omit [Runtime] in
theorem listPending_same (c : ListCall) :
    Same (listPending settings c) (listPending settings c) := by
  unfold listPending
  apply same_ofExcept_bind
  intro _
  apply same_perform_bind
  rintro items _ rfl
  exact Prog.lockstepM_pure rfl

theorem approveAction_same (c : ApproveCall) :
    Same (approveAction settings c) (approveAction settings c) := by
  unfold approveAction
  apply same_ofExcept_bind
  intro token
  apply same_perform_bind
  rintro pending _ rfl
  cases pending with
  | none => exact Prog.lockstepM_throw rfl
  | some pending =>
    dsimp only
    split_ifs with happroved
    · apply same_executeK8s_bind
      intro data
      apply same_perform_bind
      intro _ _ _
      exact Prog.lockstepM_pure rfl
    · apply same_perform_bind
      intro _ _ _
      exact Prog.lockstepM_pure rfl

/-- **Handlers** do and answer the same on executions with the same results. -/
theorem handle_lockstep (call : Call) :
    Prog.Lockstep sameResult Eq (call.handle settings) (call.handle settings) := by
  cases call with
  | agentAction c => exact (agentAction_same settings c).map fun _ _ h => by rw [h.eq]
  | listPending c => exact (listPending_same settings c).map fun _ _ h => by rw [h.eq]
  | approveAction c => exact (approveAction_same settings c).map fun _ _ h => by rw [h.eq]

end Handlers

/-! ## The gateway in front of a cluster -/

/-- The Kubernetes libraries with the cluster behind them: the reply to a call, and the
    state of the cluster after it. -/
abbrev Cluster (κ : Type) : Type := κ → (op : K8s.Op) → op.Reply × κ

/-- A configuration of the gateway in front of a cluster. -/
abbrev ClusterConfig (κ : Type) := Config signature Call HttpReply (ApprovalQueue × κ)

section Cluster

variable [Runtime] {κ : Type}

/-- One call of `execute_action` on a cluster. -/
def execute (cluster : Cluster κ) (k : κ) (action resource namespace_ : String)
    (params : JsonDict) : ExecReply × κ :=
  let outcome := Prog.run (S := K8s.signature) cluster
    (K8s.executeAction action resource namespace_ params).run k
  (⟨outcome.2.1, outcome.1⟩, outcome.2.2)

/-- Which replies an operation may get: an execution is one on the cluster. -/
def servesOn (opa : Opa) (cluster : Cluster κ) (s : ApprovalQueue × κ) :
    (op : Op) → op.Reply → ApprovalQueue × κ → Prop
  | .executeAction action resource namespace_ params, exec, s' =>
    (exec, s'.2) = execute cluster s.2 action resource namespace_ params ∧ s'.1 = s.1
  | op, reply, s' => serves opa s.1 op reply s'.1 ∧ s'.2 = s.2

/-- The gateway in front of a cluster in state `k`. -/
def gatewayOn (settings : Settings) (opa : Opa) (cluster : Cluster κ) (k : κ) :
    System signature Call HttpReply (ApprovalQueue × κ) where
  body := Call.handle settings
  init := (.empty, k)
  admits := freshId
  serves := servesOn opa cluster

variable {settings : Settings} {opa : Opa} {cluster : Cluster κ} {k k' : κ} {c : ClusterConfig κ}

/-- What is served in front of a cluster, the gateway may be served. -/
theorem serves_of_servesOn {s s' : ApprovalQueue × κ} {op : Op} {reply : op.Reply}
    (h : servesOn opa cluster s op reply s') : serves opa s.1 op reply s'.1 := by
  cases op with
  | executeAction action resource namespace_ params =>
    obtain ⟨hexec, hqueue⟩ := h
    obtain ⟨rfl, -⟩ := Prod.mk.inj hexec
    exact ⟨Prog.run_path _ _, hqueue⟩
  | _ => exact h.1

/-- **Runs in front of a cluster** are runs of the gateway. -/
theorem reachable_of_gatewayOn (h : (gatewayOn settings opa cluster k).Reachable c) :
    (gateway settings opa).Reachable ⟨c.threads, c.shared.1, c.history⟩ := by
  induction h with
  | refl => exact .refl
  | tail _ hstep ih =>
    cases hstep with
    | arrive call hnew => exact .tail ih (.arrive call hnew)
    | act t call op next r s' hget hserve =>
      exact .tail ih (.act t call op next r s'.1 hget (serves_of_servesOn hserve))

/-! ## Two clusters -/

/-- States related by `agree` differ in data values only: whatever is asked, the replies
    agree but for data values and error bodies, and the states after it are related. -/
def DifferInData (cluster : Cluster κ) (agree : κ → κ → Prop) : Prop :=
  ∀ k k', agree k k' → ∀ op, K8s.agreesButData op (cluster k op).1 (cluster k' op).1 ∧
    agree (cluster k op).2 (cluster k' op).2

/-- An execution returns or raises the same on both. -/
theorem execute_agrees {agree : κ → κ → Prop} (hagree : DifferInData cluster agree)
    (hk : agree k k') (action resource namespace_ : String) (params : JsonDict) :
    (execute cluster k action resource namespace_ params).1.result =
        (execute cluster k' action resource namespace_ params).1.result ∧
      agree (execute cluster k action resource namespace_ params).2
        (execute cluster k' action resource namespace_ params).2 := by
  obtain ⟨hresult, hnext⟩ :=
    (K8s.executeAction_lockstep action resource namespace_ params).run hagree hk
  exact ⟨hresult.eq, hnext⟩

/-- OPA answers the same; about other replies nothing is said. -/
def sameOpa : ReplyRel signature
  | .httpPost _ _, reply, reply' => reply = reply'
  | _, _, _ => True

/-- The two systems are coupled: related states stay related, and the queues equal. -/
theorem coupled {agree : κ → κ → Prop} (hagree : DifferInData cluster agree) (hk : agree k k') :
    Coupled (gatewayOn settings opa cluster k) (gatewayOn settings opa cluster k') sameOpa
      sameResult (fun s s' => s.1 = s'.1 ∧ agree s.2 s'.2) where
  init := ⟨rfl, hk⟩
  body := handle_lockstep settings
  serves := by
    rintro ⟨q, k⟩ ⟨_, k'⟩ op r r' ⟨q₁, k₁⟩ ⟨q₁', k₁'⟩ ⟨rfl, hk⟩ hserve hserve' hgiven
    cases op with
    | executeAction action resource namespace_ params =>
      -- The cluster's answers agree up to the data.
      obtain ⟨hexec, hqueue⟩ := hserve
      obtain ⟨hexec', hqueue'⟩ := hserve'
      have hboth := execute_agrees hagree hk action resource namespace_ params
      rw [← hexec, ← hexec'] at hboth
      exact ⟨hboth.1, hqueue.trans hqueue'.symm, hboth.2⟩
    | httpPost _ _ =>
      -- OPA answers both in the same way.
      obtain ⟨⟨-, rfl⟩, rfl⟩ := hserve
      obtain ⟨⟨-, rfl⟩, rfl⟩ := hserve'
      exact ⟨hgiven, rfl, hk⟩
    | enqueue _ | resolve _ =>
      -- The reply and the queue after it are functions of the queue.
      obtain ⟨hqueue, rfl⟩ := hserve
      obtain ⟨hqueue', rfl⟩ := hserve'
      obtain ⟨hreply, hnext⟩ := Prod.mk.inj (hqueue.trans hqueue'.symm)
      exact ⟨hreply, hnext, hk⟩
    | listPending =>
      -- The listing is the queue.
      obtain ⟨⟨rfl, rfl⟩, rfl⟩ := hserve
      obtain ⟨⟨rfl, rfl⟩, rfl⟩ := hserve'
      exact ⟨rfl, rfl, hk⟩
    | auditLog _ =>
      -- The log replies nothing.
      obtain ⟨rfl, rfl⟩ := hserve
      obtain ⟨rfl, rfl⟩ := hserve'
      exact ⟨rfl, rfl, hk⟩
  follows := by
    rintro ⟨q, k⟩ ⟨_, k'⟩ op r ⟨q₁, k₁⟩ ⟨rfl, hk⟩ hserve
    cases op with
    | executeAction action resource namespace_ params =>
      exact ⟨_, (q, _), ⟨rfl, rfl⟩, trivial⟩
    | httpPost url document => exact ⟨r, (q₁, k'), ⟨hserve.1, rfl⟩, rfl⟩
    | _ => exact ⟨r, (q₁, k'), ⟨hserve.1, rfl⟩, trivial⟩
  admits := by
    intro h h' call hrel hfresh
    cases call with
    | agentAction req => exact fun t req' hmem => hfresh t req' (arrive_mem_of_related hrel hmem)
    | _ => trivial

/-! ## What can be seen -/

/-- The same requests arrive in the same order, the handlers take the same turns, and OPA
    answers the same. -/
def SameInputs (h h' : List GatewayEvent) : Prop :=
  List.Forall₂ (EventRel (RepliesRelated sameOpa)) h h'

/-- What the gateway has shown to anybody: every response so far, the audit log, and the
    queue. -/
structure SameView (c c' : ClusterConfig κ) : Prop where
  responses : c.threads.map (fun th => (th.1, th.2.outcome)) =
    c'.threads.map fun th => (th.1, th.2.outcome)
  records : recordsOf c.history = recordsOf c'.history
  queue : c.shared.1 = c'.shared.1

omit [Runtime] in
/-- The same operations log the same records. -/
theorem recordsOf_eq {R : ReplyRel signature} {h h' : List GatewayEvent}
    (hrel : List.Forall₂ (EventRel (SameOperation R)) h h') : recordsOf h = recordsOf h' := by
  induction hrel with
  | nil => rfl
  | @cons e e' h h' hevent _ ih =>
    have hhead : recordsOf [e] = recordsOf [e'] := by
      cases hevent with
      | arrive _ _ => rfl
      | act _ _ hsame =>
        cases hsame with
        | @mk op _ _ _ => cases op <;> rfl
    rw [← List.singleton_append, ← List.singleton_append (x := e'), recordsOf_append,
      recordsOf_append, hhead, ih]

omit [Runtime] in
/-- Threads in lockstep serve the same calls and have answered the same. -/
theorem responses_eq {R : ReplyRel signature}
    {threads threads' : List (Call × Prog signature HttpReply)}
    (hrel : List.Forall₂ (fun th th' => th.1 = th'.1 ∧ Prog.Lockstep R Eq th.2 th'.2)
      threads threads') :
    threads.map (fun th => (th.1, th.2.outcome)) = threads'.map fun th => (th.1, th.2.outcome) := by
  induction hrel with
  | nil => rfl
  | cons hthread _ ih =>
    obtain ⟨hcall, hlockstep⟩ := hthread
    rw [List.map_cons, List.map_cons, hcall, hlockstep.outcome_eq, ih]

/-- **Secret data is not observed**: against a cluster that differs in data values only, a
    run can be repeated on the same inputs, and whatever the repetition, all responses,
    audit records and queues are the same. -/
theorem secret_data_unobserved {agree : κ → κ → Prop} (hagree : DifferInData cluster agree)
    (hk : agree k k') (h : (gatewayOn settings opa cluster k).Reachable c) :
    (∃ c', (gatewayOn settings opa cluster k').Reachable c' ∧ SameInputs c.history c'.history) ∧
      ∀ c', (gatewayOn settings opa cluster k').Reachable c' → SameInputs c.history c'.history →
        SameView c c' := by
  have hcoupled : Coupled (gatewayOn settings opa cluster k) (gatewayOn settings opa cluster k')
      sameOpa sameResult fun s s' => s.1 = s'.1 ∧ agree s.2 s'.2 := coupled hagree hk
  refine ⟨hcoupled.follow h, fun c' hc' hinputs => ?_⟩
  have hlockstep := hcoupled.inLockstep h hc' hinputs
  exact ⟨responses_eq hlockstep.threads, recordsOf_eq hlockstep.history, hlockstep.shared.1⟩

end Cluster

section Example

attribute [local instance] asciiRuntime

/-- A cluster whose state is the password in its one secret. -/
def oneSecret : Cluster String := fun password op =>
  match op with
  | .loadInclusterConfig => (.ok (), password)
  | .loadKubeConfig => (.ok (), password)
  | .sdk (.listNamespacedSecret _) => (.ok [⟨some "db", [("password", password)]⟩], password)
  | .sdk call => (.ok call.found, password)

/-- Its states differ in data only. -/
theorem oneSecret_differInData : DifferInData oneSecret fun _ _ => True := by
  intro password password' _ op
  refine ⟨?_, trivial⟩
  cases op with
  | sdk call => cases call <;> rfl
  | _ => rfl

/-- How a cluster and an OPA that allows everything answer. -/
def answerOn {κ : Type} (cluster : Cluster κ) (s : ApprovalQueue × κ) :
    (op : Op) → op.Reply × (ApprovalQueue × κ)
  | .executeAction action resource namespace_ params =>
    let outcome := execute cluster s.2 action resource namespace_ params
    (outcome.1, s.1, outcome.2)
  | op =>
    let reply := trusting.answer s.1 op
    (reply.1, reply.2, s.2)

theorem servesOn_answerOn {κ : Type} (cluster : Cluster κ) (s : ApprovalQueue × κ) (op : Op) :
    servesOn anyOpa cluster s op (answerOn cluster s op).1 (answerOn cluster s op).2 := by
  have hserve : serves anyOpa s.1 op (trusting.answer s.1 op).1 (trusting.answer s.1 op).2 :=
    serves_answer (fun _ _ => trivial) s.1 op
  cases op with
  | executeAction action resource namespace_ params =>
    unfold servesOn answerOn
    exact ⟨rfl, rfl⟩
  | _ => exact ⟨hserve, rfl⟩

/-- An agent lists the secrets of the default namespace. -/
def listSecrets : Call :=
  .agentAction (.ofSubject "r-1" "agent-readonly" "readonly"
    { action := "list", resource := "secrets" })

/-- The gateway has answered that request. -/
def listedSecrets : ClusterConfig String :=
  let outcome := Prog.run (S := signature) (answerOn oneSecret)
    (listSecrets.handle Settings.default) (.empty, "hunter2")
  ⟨[(listSecrets, .done outcome.1)], outcome.2.2,
    .arrive 0 listSecrets :: outcome.2.1.map (.act 0 listSecrets)⟩

theorem listedSecrets_reachable :
    (gatewayOn Settings.default anyOpa oneSecret "hunter2").Reachable listedSecrets :=
  Reachable.runCall (servesOn_answerOn oneSecret) .refl listSecrets fun _ _ hmem =>
    absurd hmem List.not_mem_nil

/-- With another password the listing of the secrets, which is allowed, is the same. -/
theorem secret_data_unobserved_listedSecrets :
    ((∃ c', (gatewayOn Settings.default anyOpa oneSecret "letmein").Reachable c' ∧
        SameInputs listedSecrets.history c'.history) ∧
      ∀ c', (gatewayOn Settings.default anyOpa oneSecret "letmein").Reachable c' →
        SameInputs listedSecrets.history c'.history → SameView listedSecrets c') ∧
      (recordsOf listedSecrets.history).map (·.decision) = [.allow] :=
  ⟨secret_data_unobserved oneSecret_differInData trivial listedSecrets_reachable, by decide⟩

end Example

end AiK8sGateway
