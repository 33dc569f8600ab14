import AiK8sGateway.Auth.Minting
import AiK8sGateway.Gateway.AuditFile
import AiK8sGateway.Gateway.Escalation

/-!
# Identities in a Run

If the tokens that the gateway accepts are those that `create_token` minted, then two
agents are all that a run knows: whom the audit log names, who put what waits into the
queue, who decided about it, and on whose behalf the cluster was changed.

## Main results

- `only_agents_act`: the agents are the only ones that a run knows, and only one of them
  changes anything.
-/

namespace AiK8sGateway

open Foundations EffectProgram PythonText Approval Audit Auth Risk Rego

section Identities

variable [Runtime]

/-- The token of the call is one that `create_token` minted. -/
def Call.Minted (encode : JwtEncode) (settings : Settings) (ttlMinutes : Int) : Call → Prop
  | .agentAction c => AcceptsMinted encode settings ttlMinutes c.decode
  | .listPending c => AcceptsMinted encode settings ttlMinutes c.decode
  | .approveAction c => AcceptsMinted encode settings ttlMinutes c.decode

/-- Who decided is the subject of a verified token. -/
theorem approver_of_trace {settings : Settings} {call : Call} {acts : List (Action signature)}
    {out : Option HttpReply} {record : AuditRecord} (h : CallTrace settings call acts out)
    (hlast : acts.getLast? = some (logged record)) (hhuman : isHuman record.decision = true) :
    ∃ ac token pending, call = .approveAction ac ∧
      verifyToken ac.decode settings ac.credentials = .ok token ∧
      record = ac.record token.sub pending record.decision := by
  cases h with
  | agentAction h =>
    -- What `agent_action` records is no human decision.
    cases h with
    | denied _ _ | queued _ _ _ | allowed _ _ _ _ =>
      cases hlast
      cases hhuman
    | _ => cases hlast
  | listPending h => cases h <;> cases hlast
  | approveAction h =>
    cases h with
    | approved hverify _ _ | denied hverify _ =>
      cases hlast
      exact ⟨_, _, _, rfl, hverify, rfl⟩
    | _ => cases hlast

/-- The agents are the only ones that the run knows. -/
structure OnlyAgentsAct (settings : Settings) (c : GatewayConfig) : Prop where
  /-- An audit record names an agent and its role. -/
  recorded : ∀ record ∈ recordsOf c.history, Known record.identity record.role
  /-- A human decision is one of an agent. -/
  decided : ∀ record ∈ recordsOf c.history, isHuman record.decision = true →
    ∃ agent ∈ agentIdentities, ∃ ac pending,
      record = ApproveCall.record ac (.str agent.2.sub) pending record.decision
  /-- What waits in the queue is a request of the agent that may write. -/
  queued : ∀ e ∈ c.shared.queue.entries, e.2.identity = .str "agent-deploy"
  /-- So is every request for which a deployment was written. -/
  changed : ∀ i sdkCall, Issues c.history i sdkCall → sdkCall.deployment?.isSome = true →
    ∃ t req token, .arrive t (.agentAction req) ∈ c.history ∧ req.requestId = i ∧
      verifyToken req.decode settings req.credentials = .ok token ∧
      token.sub = .str "agent-deploy"

variable [SprintfFormat] {encode : JwtEncode} {ttlMinutes : Int} {c : GatewayConfig}

/-- **Only agents act**: with the default settings and the shipped policy, in every run
    whose tokens were minted. -/
theorem only_agents_act (h : (gateway .default shippedOpa).Reachable c)
    (hminted : ∀ t call, .arrive t call ∈ c.history → call.Minted encode .default ttlMinutes) :
    OnlyAgentsAct .default c := by
  constructor
  · -- Every record names the agent whose token came with its request.
    intro record hrecord
    obtain ⟨t, req, token, rs, harrive, hscored, habout⟩ := record_origin h hrecord
    rw [habout.identity, habout.role]
    exact known_of_verified (hminted t _ harrive) hscored.verified
  · -- Every human decision was made under an agent's token.
    intro record hrecord hhuman
    obtain ⟨t, call, hmem⟩ := event_of_record hrecord
    obtain ⟨pre, post, hs⟩ := List.append_of_mem hmem
    obtain ⟨acts, out, _, _, htrace, -, harrive, -, -, -⟩ := trace_of_split h hs
    obtain ⟨ac, token, pending, rfl, hverify, hrec⟩ :=
      approver_of_trace htrace (List.getLast?_concat ..) hhuman
    have harrive' : .arrive t (.approveAction ac) ∈ c.history := by
      rw [hs]
      exact List.mem_append_left _ harrive
    obtain ⟨agent, hagent, hsub, -⟩ := known_of_verified (hminted t _ harrive') hverify
    exact ⟨agent, hagent, ac, pending, hsub ▸ hrec⟩
  · -- What waits was submitted by the agent with the `deployer` role.
    intro e he
    have hpeek : c.shared.peek e.1 = some e.2 := OrderedDict.get?_eq_some_iff.mpr he
    obtain ⟨t, call, id, hmem⟩ := enqueue_of_peek h hpeek
    obtain ⟨req, token, rs, rfl, hpending, hscored, -, hwrite⟩ := escalates_of_enqueued h hmem
    have hknown := known_of_verified (hminted t _ (Reachable.arrived h hmem)) hscored.verified
    rw [hwrite.role] at hknown
    rw [hpending]
    exact sub_of_known hknown
  · -- So was every deployment that is written.
    intro i sdkCall hissues hdeployment
    obtain ⟨t, req, token, rs, harrive, hid, hscored, hdispatch, hallow⟩ := issued_origin h hissues
    obtain ⟨body, hbody⟩ := Option.isSome_iff_exists.mp hdeployment
    have haction := (hdispatch.of_deployment hbody).1
    have hwrite := (writeAllowed_of_dispatched hallow (notMem_readOnlyActions haction)).1
    have hknown := known_of_verified (hminted t _ harrive) hscored.verified
    rw [hwrite.role] at hknown
    exact ⟨t, req, token, harrive, hid, hscored.verified, sub_of_known hknown⟩

end Identities

section Example

attribute [local instance] asciiRuntime plainText

/-- A signer whose one token is `token`. -/
def oneToken : JwtEncode := fun _ _ _ => .ok "token"

/-- It accepts that token of `agent-deploy`, and nothing else. -/
def acceptsOneToken : JwtDecode := fun token _ _ =>
  if token = "token" then .ok (tokenClaims ⟨"deployer", "agent-deploy"⟩ "j-1" 0 15)
  else .error (.jwtError "Signature verification failed.")

theorem acceptsMinted_oneToken : AcceptsMinted oneToken .default 15 acceptsOneToken := by
  intro token claims haccept
  unfold acceptsOneToken at haccept
  split at haccept
  · rename_i htoken
    cases haccept
    exact ⟨"agent-deploy", "j-1", 0, _, rfl, rfl, by rw [htoken]; rfl⟩
  · cases haccept

/-- A deployment with that token. -/
def mintedDeployment : GatewayConfig :=
  sequential Settings.default shipped
    [.agentAction { AgentCall.ofSubject "r-1" "" "" plainRequest with decode := acceptsOneToken }]

/-- The deployment is executed, and its record names the agent. -/
theorem only_agents_act_mintedDeployment :
    OnlyAgentsAct .default mintedDeployment ∧ tally .executed "r-1" mintedDeployment.history = 1 := by
  have hreach : (gateway .default shippedOpa).Reachable mintedDeployment :=
    sequential_reachable shippedOpa_shippedReply _ (by decide)
  have hminted : ∀ t call, .arrive t call ∈ mintedDeployment.history →
      call.Minted oneToken .default 15 := by
    intro t call harrive
    obtain rfl := List.mem_singleton.mp (call_mem_of_arrive harrive)
    exact acceptsMinted_oneToken
  exact ⟨only_agents_act hreach hminted, by decide⟩

end Example

end AiK8sGateway
