import AiK8sGateway.Foundations.Interleaving
import AiK8sGateway.Gateway.Traces

/-!
# The Gateway as an Interleaved System

All handlers on one approval queue, in any order of steps.  OPA is a relation: which
replies a query may get.  The Kubernetes libraries may answer anything, so an
execution replies with any run of `execute_action`.

## Main results

- `trace_of_split`: an operation in a history ends a trace of its handler.
- `enqueue_of_peek`: what is in the queue was put there earlier.
- `execution_origin`: an execution goes back to one request, verified, scored and
  allowed by OPA, and, if it is high-risk, taken out of the queue by an approval.
-/

namespace AiK8sGateway

open Foundations EffectProgram PythonText Approval Audit Auth Risk

/-! ## The system -/

/-- What OPA may answer when a document is posted to a URL. -/
abbrev Opa := String → Json → HttpReply → Prop

/-- An OPA about which nothing is known. -/
def anyOpa : Opa := fun _ _ _ => True

/-- An event of the gateway. -/
abbrev GatewayEvent := Event signature Call

section System

variable [Runtime]

/-- Which replies an operation may get, and the queue after it. -/
def serves (opa : Opa) (q : ApprovalQueue) :
    (op : Op) → op.Reply → ApprovalQueue → Prop
  | .httpPost url document, reply, q' => opa url document reply ∧ q' = q
  | .enqueue request, id, q' => (id, q') = q.enqueue request
  | .resolve requestId, pending, q' => (pending, q') = q.resolve requestId
  | .listPending, items, q' => items = q.listPending ∧ q' = q
  | .executeAction action resource namespace_ params, reply, q' =>
    Prog.Path (K8s.executeAction action resource namespace_ params).run reply.actions
      (.done reply.result) ∧ q' = q
  | .auditLog _, _, q' => q' = q

/-- `uuid4` does not repeat itself. -/
def freshId (h : List GatewayEvent) : Call → Prop
  | .agentAction c => ∀ t c', .arrive t (.agentAction c') ∈ h → c'.requestId ≠ c.requestId
  | _ => True

/-- The gateway. -/
def gateway (settings : Settings) (opa : Opa) : System signature Call HttpReply ApprovalQueue where
  body := Call.handle settings
  init := .empty
  admits := freshId
  serves := serves opa

end System

/-- A configuration of the gateway. -/
abbrev GatewayConfig := Config signature Call HttpReply ApprovalQueue

/-- The request id that a request is about. -/
def Call.requestId? : Call → Option String
  | .agentAction c => some c.requestId
  | .listPending _ => none
  | .approveAction c => some c.requestId

/-! ## Events -/

variable [Runtime] {settings : Settings} {opa : Opa} {c : GatewayConfig}

/-- **Operations end traces**: with the earlier operations of its thread an operation
    forms a trace of the handler, and the queue of that moment gave the reply. -/
theorem trace_of_split (h : (gateway settings opa).Reachable c) {pre post : List GatewayEvent}
    {t : Nat} {call : Call} {a : Action signature}
    (hs : c.history = pre ++ .act t call a :: post) :
    ∃ acts out c₁ q', CallTrace settings call (acts ++ [a]) out ∧
      (∀ b ∈ acts, .act t call b ∈ pre) ∧ .arrive t call ∈ pre ∧
      (gateway settings opa).Reachable c₁ ∧ c₁.history = pre ∧
      serves opa c₁.shared a.1 a.2 q' := by
  obtain ⟨c₁, q, q', hc₁, hpre, harrive, hpath, hserve⟩ := Reachable.act_of_split h hs
  refine ⟨localActions t pre, q.outcome, c₁, q', callTrace_of_path settings hpath, ?_, harrive,
    hc₁, hpre, hserve⟩
  intro b hb
  subst hpre
  exact (Reachable.mem_localActions_iff hc₁ harrive).mp hb

/-- A reply in a history is one that OPA may give. -/
theorem opa_of_mem (h : (gateway settings opa).Reachable c) {t : Nat} {call : Call}
    {url : String} {document : Json} {reply : HttpReply}
    (hmem : .act t call ⟨.httpPost url document, reply⟩ ∈ c.history) :
    opa url document reply := by
  obtain ⟨pre, post, hs⟩ := List.append_of_mem hmem
  obtain ⟨_, _, _, _, _, _, _, _, _, hserve⟩ := trace_of_split h hs
  exact hserve.1

/-- The Kubernetes calls of an execution in a history are those of `execute_action`. -/
theorem path_of_execution (h : (gateway settings opa).Reachable c) {t : Nat} {call : Call}
    {action resource namespace_ : String} {params : JsonDict} {exec : ExecReply}
    (hmem : .act t call ⟨.executeAction action resource namespace_ params, exec⟩ ∈ c.history) :
    Prog.Path (K8s.executeAction action resource namespace_ params).run exec.actions
      (.done exec.result) := by
  obtain ⟨pre, post, hs⟩ := List.append_of_mem hmem
  obtain ⟨_, _, _, _, _, _, _, _, _, hserve⟩ := trace_of_split h hs
  exact hserve.1

/-- What is in the queue was enqueued. -/
theorem enqueue_of_peek (h : (gateway settings opa).Reachable c) {i : String}
    {pending : PendingRequest} (hpeek : c.shared.peek i = some pending) :
    ∃ t call id, .act t call (enqueued pending id) ∈ c.history := by
  refine Reachable.history_induction
    (P := fun h q => ∀ i pending, q.peek i = some pending →
      ∃ t call id, .act t call (enqueued pending id) ∈ h) ?_ ?_ ?_ h i pending hpeek
  · -- At the beginning the queue is empty.
    intro i pending hpeek
    simp [gateway] at hpeek
  · -- An arrival leaves the queue alone.
    intro h q t call ih _ i pending hpeek
    obtain ⟨t', call', id, hmem⟩ := ih i pending hpeek
    exact ⟨t', call', id, List.mem_append_left _ hmem⟩
  · intro h q t call a q' ih hserve i pending hpeek
    -- Only `enqueue` can have put the entry in; otherwise it was there before.
    have hold : q.peek i = some pending →
        ∃ t' call' id, .act t' call' (enqueued pending id) ∈ h ++ [.act t call a] := by
      intro hold
      obtain ⟨t', call', id, hmem⟩ := ih i pending hold
      exact ⟨t', call', id, List.mem_append_left _ hmem⟩
    obtain ⟨op, r⟩ := a
    cases op with
    -- The new entry, or an old one.
    | enqueue request =>
      obtain rfl : q' = (q.enqueue request).2 := congrArg Prod.snd hserve
      rw [ApprovalQueue.peek_enqueue] at hpeek
      split at hpeek
      · cases hpeek
        exact ⟨t, call, _, List.mem_append_right _ (List.mem_singleton.mpr rfl)⟩
      · exact hold hpeek
    -- Any other entry stays.
    | resolve requestId =>
      obtain rfl : q' = (q.resolve requestId).2 := congrArg Prod.snd hserve
      rw [ApprovalQueue.peek_resolve] at hpeek
      split at hpeek
      · cases hpeek
      · exact hold hpeek
    | httpPost _ _ | listPending | executeAction _ _ _ _ =>
      obtain ⟨-, rfl⟩ := hserve
      exact hold hpeek
    | auditLog _ =>
      obtain rfl := hserve
      exact hold hpeek

/-! ## Where executions come from -/

/-- Within a history, a request was verified and scored with these results, and OPA
    allowed it. -/
structure Authorised (settings : Settings) (h : List GatewayEvent) (req : AgentCall)
    (token : TokenPayload) (rs : RiskScore) : Prop where
  scored : req.Scored settings token rs
  asked : ∃ t reply reason, readDecision reply = .ok (true, reason) ∧
    .act t (.agentAction req) (req.asked settings token rs reply) ∈ h

theorem Authorised.mono {h h' : List GatewayEvent} {req : AgentCall} {token : TokenPayload}
    {rs : RiskScore} (ha : Authorised settings h req token rs) (hsub : ∀ e ∈ h, e ∈ h') :
    Authorised settings h' req token rs := by
  obtain ⟨hs, t, reply, reason, hread, hmem⟩ := ha
  exact ⟨hs, t, reply, reason, hread, hsub _ hmem⟩

omit [Runtime] in
/-- What comes before the second and last of two actions is the first one. -/
private theorem eq_singleton_of_append {acts : List (Action signature)} {a x y : Action signature}
    (h : acts ++ [a] = [x, y]) : acts = [x] := by
  have hsplit : acts ++ [a] = [x] ++ [y] := h
  exact List.append_inj_left' hsplit rfl

/-- An enqueued request is a high-risk one that OPA allowed before. -/
theorem enqueue_origin (h : (gateway settings opa).Reachable c) {pre post : List GatewayEvent}
    {t : Nat} {call : Call} {pending : PendingRequest} {id : String}
    (hs : c.history = pre ++ .act t call (enqueued pending id) :: post) :
    ∃ req token rs, call = .agentAction req ∧ Authorised settings pre req token rs ∧
      rs.level = .high ∧ pending = req.pending token rs := by
  obtain ⟨acts, out, _, _, htrace, hpre, -, -, -, -⟩ := trace_of_split h hs
  obtain ⟨req, token, rs, reply, reason, rfl, hscored, hread, hlevel, hacts, rfl⟩ :=
    enqueue_of_trace settings htrace (List.getLast?_concat ..)
  obtain rfl := eq_singleton_of_append hacts
  refine ⟨req, token, rs, rfl, ⟨hscored, t, reply, reason, hread, ?_⟩, hlevel, rfl⟩
  exact hpre _ (List.mem_singleton.mpr rfl)

/-- What a handler took out of the queue is a high-risk request that OPA allowed. -/
theorem resolve_origin (h : (gateway settings opa).Reachable c) {pre post : List GatewayEvent}
    {t : Nat} {call : Call} {i : String} {pending : PendingRequest}
    (hs : c.history = pre ++ .act t call ⟨.resolve i, some pending⟩ :: post) :
    ∃ req token rs, Authorised settings pre req token rs ∧ rs.level = .high ∧
      pending = req.pending token rs ∧ req.requestId = i := by
  obtain ⟨_, _, c₁, q', -, -, -, hc₁, rfl, hserve⟩ := trace_of_split h hs
  -- The entry was in the queue, so some earlier event enqueued it.
  have hpeek : c₁.shared.peek i = some pending := (Prod.mk.inj hserve).1.symm
  obtain ⟨t', call', id, hmem⟩ := enqueue_of_peek hc₁ hpeek
  obtain ⟨pre', post', hs'⟩ := List.append_of_mem hmem
  obtain ⟨req, token, rs, -, hauth, hlevel, rfl⟩ := enqueue_origin hc₁ hs'
  refine ⟨req, token, rs, hauth.mono ?_, hlevel, rfl, ApprovalQueue.requestId_of_peek hpeek⟩
  intro e he
  rw [hs']
  exact List.mem_append_left _ he

/-- How a request came to its execution: directly, or by an approval with a verified
    token that took it out of the queue. -/
def Cleared (settings : Settings) (h : List GatewayEvent) (t : Nat) (call : Call)
    (req : AgentCall) (token : TokenPayload) (rs : RiskScore) : Prop :=
  (rs.level ≠ .high ∧ call = .agentAction req) ∨
    (rs.level = .high ∧ ∃ ac approver, call = .approveAction ac ∧
      ac.requestId = req.requestId ∧ ac.body.approved = true ∧
      verifyToken ac.decode settings ac.credentials = .ok approver ∧
      .act t call (ac.resolved (some (req.pending token rs))) ∈ h)

/-- **Origin of executions**: an execution is the one of a request that was verified,
    scored and allowed by OPA before it, with exactly the strings and the params that
    were submitted, and a high-risk one was taken out of the queue by an approval. -/
theorem execution_origin (h : (gateway settings opa).Reachable c) {pre post : List GatewayEvent}
    {t : Nat} {call : Call} {action resource namespace_ : String} {params : JsonDict}
    {exec : ExecReply}
    (hs : c.history =
      pre ++ .act t call ⟨.executeAction action resource namespace_ params, exec⟩ :: post) :
    ∃ req token rs, Authorised settings pre req token rs ∧
      Cleared settings pre t call req token rs ∧
      action = req.body.action ∧ resource = req.body.resource ∧
      namespace_ = req.body.namespace ∧ params = req.body.params := by
  obtain ⟨acts, out, c₁, _, htrace, hpre, -, hc₁, hc₁pre, -⟩ := trace_of_split h hs
  rcases execution_of_trace settings htrace (List.getLast?_concat ..) with
    ⟨req, token, rs, reply, reason, rfl, hscored, hread, hlevel, hacts, rfl, rfl, rfl, rfl⟩ |
    ⟨ac, approver, pending, rfl, hverify, happroved, hacts, rfl, rfl, rfl, rfl⟩
  · -- A direct execution: the handler asked OPA and executed.
    obtain rfl := eq_singleton_of_append hacts
    refine ⟨req, token, rs, ⟨hscored, t, reply, reason, hread, ?_⟩, .inl ⟨hlevel, rfl⟩,
      rfl, rfl, rfl, rfl⟩
    exact hpre _ (List.mem_singleton.mpr rfl)
  · obtain rfl := eq_singleton_of_append hacts
    -- The approval resolved the request first; follow it back to its submission.
    have hresolved : .act t (.approveAction ac) (ac.resolved (some pending)) ∈ pre :=
      hpre _ (List.mem_singleton.mpr rfl)
    obtain ⟨pre', post', hsplit⟩ := List.append_of_mem hresolved
    obtain ⟨req, token, rs, hauth, hlevel, rfl, hid⟩ :=
      resolve_origin hc₁ (hc₁pre.trans hsplit)
    refine ⟨req, token, rs, hauth.mono ?_,
      .inr ⟨hlevel, ac, approver, rfl, hid.symm, happroved, hverify, hresolved⟩,
      rfl, rfl, rfl, rfl⟩
    intro e he
    rw [hsplit]
    exact List.mem_append_left _ he

/-- The same for an execution somewhere in a history. -/
theorem execution_origin_of_mem (h : (gateway settings opa).Reachable c) {t : Nat} {call : Call}
    {action resource namespace_ : String} {params : JsonDict} {exec : ExecReply}
    (hmem : .act t call ⟨.executeAction action resource namespace_ params, exec⟩ ∈ c.history) :
    ∃ req token rs, Authorised settings c.history req token rs ∧
      Cleared settings c.history t call req token rs ∧
      action = req.body.action ∧ resource = req.body.resource ∧
      namespace_ = req.body.namespace ∧ params = req.body.params := by
  obtain ⟨pre, post, hs⟩ := List.append_of_mem hmem
  have hsub : ∀ e ∈ pre, e ∈ c.history := by
    intro e he
    rw [hs]
    exact List.mem_append_left _ he
  obtain ⟨req, token, rs, hauth, hcleared, hargs⟩ := execution_origin h hs
  refine ⟨req, token, rs, hauth.mono hsub, hcleared.imp_right ?_, hargs⟩
  rintro ⟨hlevel, ac, approver, hcall, hid, happroved, hverify, hresolved⟩
  exact ⟨hlevel, ac, approver, hcall, hid, happroved, hverify, hsub _ hresolved⟩

end AiK8sGateway
