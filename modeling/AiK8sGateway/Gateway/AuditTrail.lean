import AiK8sGateway.Foundations.Cooperative
import AiK8sGateway.Gateway.HumanApproval

/-!
# The Audit Trail of a Request

The audit log as a protocol for each request id, with the handlers on one event loop:
they give way to each other at the query of OPA and nowhere else.  What a turn may do
to the log and the queue is said once (`TurnEffect`); the state of one id is then a
small automaton (`Trail`) that every turn follows.

## Main results

- `turn_of_step`: what one turn of the event loop is.
- `trail_of_turn`: a turn keeps the trail of every id.
- `audit_trail`: the log and the queue of every cooperative run follow the protocol.
-/

namespace AiK8sGateway

open Foundations EffectProgram PythonText Approval Audit Auth Risk Reachable

/-! ## The event loop -/

/-- The operations that suspend a handler: the HTTP call of `_query_opa` is the only
    one that is awaited. -/
def awaits : Op → Bool
  | .httpPost _ _ => true
  | _ => false

/-! ## Records about one request -/

/-- The records about a request id, in the order of the log. -/
def recordsAbout (i : String) (records : List AuditRecord) : List AuditRecord :=
  records.filter fun record => record.requestId = i

@[simp] theorem recordsAbout_append (i : String) (records new : List AuditRecord) :
    recordsAbout i (records ++ new) = recordsAbout i records ++ recordsAbout i new :=
  List.filter_append ..

@[simp] theorem recordsAbout_singleton (i : String) (record : AuditRecord) :
    recordsAbout i [record] = if record.requestId = i then [record] else [] := by
  simp [recordsAbout, List.filter_cons]

/-- The records of a thread's events are those of its actions. -/
theorem recordsOf_acts (t : Nat) (call : Call) (acts : List (Action signature)) :
    recordsOf (acts.map (.act t call)) = auditRecords acts := by
  unfold recordsOf auditRecords
  rw [List.filterMap_map]
  congr 1
  funext ⟨op, r⟩
  cases op <;> rfl

/-- What a record and a pending request say about the request itself. -/
structure Particulars where
  identity : Json
  role : Json
  action : String
  resource : String
  «namespace» : String
  params : JsonDict
  riskLevel : RiskLevel
  riskScore : Int
  riskReasons : List String

/-- The particulars in an audit record. -/
def particularsOfRecord (r : AuditRecord) : Particulars :=
  ⟨r.identity, r.role, r.action, r.resource, r.namespace, r.params, r.riskLevel, r.riskScore,
    r.riskReasons⟩

/-- The particulars in a pending request. -/
def particularsOfPending (p : PendingRequest) : Particulars :=
  ⟨p.identity, p.role, p.action, p.resource, p.namespace, p.params, p.riskLevel, p.riskScore,
    p.riskReasons⟩

/-! ## What a turn does to the log and the queue -/

/-- An approval of an id that is not pending leaves the queue as it was. -/
theorem peek_resolve_of_none {q : ApprovalQueue} {j : String} (hnone : q.peek j = none)
    (i : String) : (q.resolve j).2.peek i = q.peek i := by
  rw [ApprovalQueue.peek_resolve]
  split_ifs with hij
  · rw [hij, hnone]
  · rfl

@[simp] theorem requestId_record (c : AgentCall) (token : TokenPayload) (rs : RiskScore)
    (decision : Decision) (reason : String) :
    (c.record token rs decision reason).requestId = c.requestId := rfl

@[simp] theorem requestId_pending (c : AgentCall) (token : TokenPayload) (rs : RiskScore) :
    (c.pending token rs).requestId = c.requestId := rfl

section Turns

variable [Runtime]

@[simp] theorem requestId_approveRecord (c : ApproveCall) (approver : Json)
    (pending : PendingRequest) (decision : Decision) :
    (c.record approver pending decision).requestId = c.requestId := rfl

/-- A turn of a request's handler, as the log and the queue see it. -/
inductive TurnEffect : Call → List AuditRecord → ApprovalQueue → ApprovalQueue → Prop where
  | silent {call : Call} {q q' : ApprovalQueue} (hsame : ∀ i, q'.peek i = q.peek i) :
      TurnEffect call [] q q'
  | denied {req : AgentCall} {token : TokenPayload} {rs : RiskScore} {reason : String}
      {q : ApprovalQueue} :
      TurnEffect (.agentAction req) [req.record token rs .deny reason] q q
  | allowed {req : AgentCall} {token : TokenPayload} {rs : RiskScore} {reason : String}
      {q : ApprovalQueue} (hlevel : rs.level ≠ .high) :
      TurnEffect (.agentAction req) [req.record token rs .allow reason] q q
  | queued {req : AgentCall} {token : TokenPayload} {rs : RiskScore} {reason : String}
      {q : ApprovalQueue} (hlevel : rs.level = .high) :
      TurnEffect (.agentAction req) [req.record token rs .pendingApproval reason] q
        (q.enqueue (req.pending token rs)).2
  | taken {ac : ApproveCall} {pending : PendingRequest} {q : ApprovalQueue}
      (hpeek : q.peek ac.requestId = some pending) :
      TurnEffect (.approveAction ac) [] q (q.resolve ac.requestId).2
  | decided {ac : ApproveCall} {pending : PendingRequest} {approver : Json}
      {decision : Decision} {q : ApprovalQueue} (hpeek : q.peek ac.requestId = some pending)
      (hhuman : isHuman decision = true) :
      TurnEffect (.approveAction ac) [ac.record approver pending decision] q
        (q.resolve ac.requestId).2

variable {settings : Settings} {opa : Opa}

/-- **Effects of turns**: a handler that ran to its end had one of the effects. -/
theorem turnEffect_of_trace {call : Call} {acts : List (Action signature)}
    {response : HttpReply} {q q' : ApprovalQueue}
    (h : CallTrace settings call acts (some response)) (hserve : Served (serves opa) q acts q') :
    TurnEffect call (auditRecords acts) q q' := by
  -- Traces without a response belong to handlers that are not at their end.
  generalize hout : some response = out at h
  cases h with
  | agentAction h =>
    cases h with
    -- Rejected by `verify_token`, or by the scorer: no operation at all.
    | rejected _ | unscored _ _ =>
      obtain rfl := served_nil_iff.mp hserve
      exact .silent fun _ => rfl
    | unread _ _ =>
      -- A reply that could not be read: the query was the only operation.
      simp only [served_cons_iff, served_nil_iff] at hserve
      obtain ⟨_, ⟨-, rfl⟩, rfl⟩ := hserve
      exact .silent fun _ => rfl
    | denied _ _ =>
      -- Denied: the query and the record of the denial.
      simp only [served_cons_iff, served_nil_iff] at hserve
      obtain ⟨_, ⟨-, rfl⟩, _, rfl, rfl⟩ := hserve
      exact .denied
    | queued _ _ hlevel =>
      -- The request is enqueued first and logged after it, in the same turn.
      simp only [served_cons_iff, served_nil_iff] at hserve
      obtain ⟨_, ⟨-, rfl⟩, _, henqueue, _, rfl, rfl⟩ := hserve
      obtain rfl := congrArg Prod.snd henqueue
      exact .queued hlevel
    | failed _ _ _ _ =>
      -- The execution raised, so the handler ended before its record.
      simp only [served_cons_iff, served_nil_iff] at hserve
      obtain ⟨_, ⟨-, rfl⟩, _, ⟨-, rfl⟩, rfl⟩ := hserve
      exact .silent fun _ => rfl
    | allowed _ _ hlevel _ =>
      -- Allowed and executed: the record comes last.
      simp only [served_cons_iff, served_nil_iff] at hserve
      obtain ⟨_, ⟨-, rfl⟩, _, ⟨-, rfl⟩, _, rfl, rfl⟩ := hserve
      exact .allowed hlevel
    -- The rest has not ended.
    | asking _ | decided _ _ | queueing _ _ _ | executed _ _ _ _ => cases hout
  | listPending h =>
    cases h with
    -- A listing leaves no trace.
    | rejected _ =>
      obtain rfl := served_nil_iff.mp hserve
      exact .silent fun _ => rfl
    | listed _ =>
      simp only [served_cons_iff, served_nil_iff] at hserve
      obtain ⟨_, ⟨-, rfl⟩, rfl⟩ := hserve
      exact .silent fun _ => rfl
    | asking _ => cases hout
  | approveAction h =>
    cases h with
    | rejected _ =>
      -- Rejected by `verify_token`.
      obtain rfl := served_nil_iff.mp hserve
      exact .silent fun _ => rfl
    | unknown _ =>
      -- There was no such id in the queue.
      simp only [served_cons_iff, served_nil_iff] at hserve
      obtain ⟨_, hresolve, rfl⟩ := hserve
      obtain ⟨hnone, rfl⟩ := Prod.mk.inj hresolve
      exact .silent (peek_resolve_of_none hnone.symm)
    | failed _ _ _ =>
      -- The entry is gone although the execution raised, and nothing is logged.
      simp only [served_cons_iff, served_nil_iff] at hserve
      obtain ⟨_, hresolve, _, ⟨-, rfl⟩, rfl⟩ := hserve
      obtain ⟨hpeek, rfl⟩ := Prod.mk.inj hresolve
      exact .taken hpeek.symm
    | approved _ _ _ =>
      -- Executed, with the record of the human's allow.
      simp only [served_cons_iff, served_nil_iff] at hserve
      obtain ⟨_, hresolve, _, ⟨-, rfl⟩, _, rfl, rfl⟩ := hserve
      obtain ⟨hpeek, rfl⟩ := Prod.mk.inj hresolve
      exact .decided hpeek.symm (by decide)
    | denied _ _ =>
      -- Denied by the human: no execution, but a record.
      simp only [served_cons_iff, served_nil_iff] at hserve
      obtain ⟨_, hresolve, _, rfl, rfl⟩ := hserve
      obtain ⟨hpeek, rfl⟩ := Prod.mk.inj hresolve
      exact .decided hpeek.symm (by decide)
    -- The rest has not ended.
    | resolving _ | taken _ | executed _ _ _ => cases hout

/-! ## Turns of the event loop -/

/-- No `agent_action` handler of this id has performed an operation. -/
def Unheard (i : String) (h : List GatewayEvent) : Prop :=
  ∀ t req a, .act t (.agentAction req) a ∈ h → req.requestId ≠ i

/-- One turn: a handler performs `acts`, with one of the effects above.  What an
    `agent_action` handler performs is the first that is performed for its id. -/
structure Turn (c c' : GatewayConfig) (call : Call) (acts : List (Action signature)) : Prop where
  events : ∃ t arrivals, recordsOf arrivals = [] ∧
    c'.history = c.history ++ arrivals ++ acts.map (.act t call)
  effect : TurnEffect call (auditRecords acts) c.shared c'.shared
  first : ∀ req, call = .agentAction req → acts ≠ [] → Unheard req.requestId c.history

/-- Where a turn ends, the handler has ended or has not done anything yet. -/
theorem ended_or_idle {call : Call} {acts : List (Action signature)}
    {q : Prog signature HttpReply} (h : Prog.Path (call.handle settings) acts q)
    (hparked : q.Parked awaits) : (∃ response, q = .done response) ∨ acts = [] := by
  cases q with
  | done response => exact .inl ⟨response, rfl⟩
  | perform op next =>
    -- The only operation that suspends is the query, and it comes first.
    cases op with
    | httpPost url document => exact .inr (idle_before_query settings h)
    | _ => cases hparked

/-- All that a handler did up to there had one of the effects. -/
theorem turnEffect_of_path {call : Call} {acts : List (Action signature)}
    {p : Prog signature HttpReply} {q q' : ApprovalQueue}
    (hpath : Prog.Path (call.handle settings) acts p) (hparked : p.Parked awaits)
    (hserve : Served (serves opa) q acts q') : TurnEffect call (auditRecords acts) q q' := by
  rcases ended_or_idle hpath hparked with ⟨response, rfl⟩ | rfl
  · exact turnEffect_of_trace (callTrace_of_path settings hpath) hserve
  · obtain rfl := served_nil_iff.mp hserve
    exact .silent fun _ => rfl

/-- While the handler of a request waits for OPA, nothing was done for its id: ids are
    submitted once, and the handler itself has only arrived. -/
theorem unheard_of_waiting {c : GatewayConfig} (h : (gateway settings opa).Reachable c) {t : Nat}
    {req : AgentCall} {p : Prog signature HttpReply}
    (hget : c.threads[t]? = some (.agentAction req, p)) (hidle : localActions t c.history = []) :
    Unheard req.requestId c.history := by
  intro t' req' a hact hid
  have harrive := arrive_mem h hget
  -- Two threads of one id would be two submissions of it.
  have hsame := eq_of_tally_le_one (submitted_le_one h req.requestId) harrive (arrived h hact)
    rfl (by simp [hid])
  cases hsame
  have hlocal := (mem_localActions_iff h harrive).mpr hact
  rw [hidle] at hlocal
  cases hlocal

/-- **Turns**: a step of the event loop is a turn of one handler. -/
theorem turn_of_step {c c' : GatewayConfig} (h : (gateway settings opa).Reachable c)
    (hstep : (gateway settings opa).CoopStep awaits c c') : ∃ call acts, Turn c c' call acts := by
  cases hstep with
  | @arrive acts s' q call hnew hrun =>
    refine ⟨call, acts, ⟨c.threads.length, [.arrive c.threads.length call], rfl, by simp⟩,
      turnEffect_of_path hrun.path hrun.parked_end hrun.served, ?_⟩
    -- A request that has just arrived gives way before its first operation.
    rintro req rfl hne
    obtain ⟨a, rest, rfl⟩ := List.exists_cons_of_ne_nil hne
    have htrace : CallTrace settings (.agentAction req) (a :: rest) q.outcome :=
      callTrace_of_path settings hrun.path
    generalize q.outcome = out at htrace
    cases htrace with
    | agentAction htrace =>
      obtain ⟨url, document, reply, rfl⟩ := query_of_agentTrace settings htrace
      cases hrun.quiet (List.mem_cons_self ..)
  | @resume acts s₁ s' q t call op next r hget hop hserve hrun =>
    have hpath := Reachable.path h hget
    have hidle : localActions t c.history = [] := by
      cases op with
      | httpPost url document => exact idle_before_query settings hpath
      | _ => cases hop
    -- It is the handler's whole run up to here, from its first operation on.
    rw [hidle] at hpath
    have hwhole : Prog.Path (call.handle settings) (⟨op, r⟩ :: acts) q :=
      hpath.trans (.cons hrun.path)
    refine ⟨call, ⟨op, r⟩ :: acts, ⟨t, [], rfl, by simp⟩,
      turnEffect_of_path hwhole hrun.parked_end (.cons hserve hrun.served), ?_⟩
    rintro req rfl -
    exact unheard_of_waiting h hget hidle

end Turns

/-! ## The trail of a request id -/

/-- What the log and the queue may hold about one request id. -/
inductive Trail : List AuditRecord → Option PendingRequest → Prop where
  | untouched : Trail [] none
  | denied {r : AuditRecord} (h : r.decision = .deny) : Trail [r] none
  | allowed {r : AuditRecord} (h : r.decision = .allow) (hlevel : r.riskLevel ≠ .high) :
      Trail [r] none
  | waiting {r : AuditRecord} {pending : PendingRequest} (h : r.decision = .pendingApproval)
      (hlevel : r.riskLevel = .high)
      (hsame : particularsOfPending pending = particularsOfRecord r) : Trail [r] (some pending)
  | taken {r : AuditRecord} (h : r.decision = .pendingApproval) (hlevel : r.riskLevel = .high) :
      Trail [r] none
  | decided {r r' : AuditRecord} (h : r.decision = .pendingApproval)
      (hlevel : r.riskLevel = .high) (hhuman : isHuman r'.decision = true)
      (hsame : particularsOfRecord r' = particularsOfRecord r) : Trail [r, r'] none

/-- There are no records about the id, and it is not in the queue. -/
def Untouched (i : String) (records : List AuditRecord) (q : ApprovalQueue) : Prop :=
  recordsAbout i records = [] ∧ q.peek i = none

section Trails

variable [Runtime] {i : String} {call : Call} {records new : List AuditRecord}
  {q q' : ApprovalQueue}

/-- Only its own `agent_action` handler touches an id that nothing has touched. -/
theorem untouched_of_turn (h : Untouched i records q) (heffect : TurnEffect call new q q')
    (hother : ∀ req, call = .agentAction req → new ≠ [] → req.requestId ≠ i) :
    Untouched i (records ++ new) q' := by
  obtain ⟨hrecords, hpeek⟩ := h
  cases heffect with
  | silent hsame => exact ⟨by simpa using hrecords, by rw [hsame, hpeek]⟩
  | denied | allowed _ =>
    have hne := hother _ rfl (List.cons_ne_nil _ _)
    exact ⟨by simp [hrecords, hne], hpeek⟩
  | queued _ =>
    have hne := hother _ rfl (List.cons_ne_nil _ _)
    exact ⟨by simp [hrecords, hne], by simp [ApprovalQueue.peek_enqueue, hpeek, Ne.symm hne]⟩
  | @taken ac pending _ hstored | @decided ac pending _ _ _ hstored _ =>
    -- What an approval took out was in the queue, so it has another id.
    have hne : ac.requestId ≠ i := by
      rintro rfl
      cases hpeek.symm.trans hstored
    exact ⟨by simp [hrecords, hne], by simp [ApprovalQueue.peek_resolve, hpeek]⟩

/-- **Turns keep trails**, if an `agent_action` handler finds its own id untouched. -/
theorem trail_of_turn (h : Trail (recordsAbout i records) (q.peek i))
    (heffect : TurnEffect call new q q')
    (hfirst : ∀ req, call = .agentAction req → new ≠ [] → Untouched req.requestId records q) :
    Trail (recordsAbout i (records ++ new)) (q'.peek i) := by
  cases heffect with
  | silent hsame => simpa [hsame] using h
  -- A handler of another id neither adds a record to this trail nor moves its entry.
  | @denied req token rs reason =>
    by_cases hid : req.requestId = i
    · subst hid
      -- Denied: the first and only record of the id.
      obtain ⟨hrecords, hpeek⟩ := hfirst _ rfl (List.cons_ne_nil _ _)
      simpa [hrecords, hpeek] using Trail.denied rfl
    · simpa [hid] using h
  | @allowed req token rs reason _ hlevel =>
    by_cases hid : req.requestId = i
    · subst hid
      -- Allowed: likewise.
      obtain ⟨hrecords, hpeek⟩ := hfirst _ rfl (List.cons_ne_nil _ _)
      simpa [hrecords, hpeek] using Trail.allowed rfl hlevel
    · simpa [hid] using h
  | @queued req token rs reason _ hlevel =>
    by_cases hid : req.requestId = i
    · subst hid
      -- Queued: the first record, and the entry beside it.
      obtain ⟨hrecords, -⟩ := hfirst _ rfl (List.cons_ne_nil _ _)
      simpa [hrecords, ApprovalQueue.peek_enqueue] using Trail.waiting rfl hlevel rfl
    · simpa [hid, Ne.symm hid, ApprovalQueue.peek_enqueue] using h
  | @taken ac pending _ hstored =>
    by_cases hid : ac.requestId = i
    · subst hid
      rw [hstored] at h
      generalize hrecords : recordsAbout ac.requestId records = about at h
      -- An id that is in the queue can only be waiting.
      cases h with
      | waiting hdecision hlevel hsame =>
        simpa [hrecords, ApprovalQueue.peek_resolve] using Trail.taken hdecision hlevel
    · simpa [Ne.symm hid, ApprovalQueue.peek_resolve] using h
  | @decided ac pending approver decision _ hstored hhuman =>
    by_cases hid : ac.requestId = i
    · subst hid
      rw [hstored] at h
      generalize hrecords : recordsAbout ac.requestId records = about at h
      cases h with
      | @waiting r _ hdecision hlevel hsame =>
        -- The second record is made of the entry, and the entry repeats the first one.
        have htrail : Trail [r, ac.record approver pending decision] none :=
          .decided hdecision hlevel hhuman hsame
        simpa [hrecords, ApprovalQueue.peek_resolve] using htrail
    · simpa [hid, Ne.symm hid, ApprovalQueue.peek_resolve] using h

end Trails

/-! ## Runs -/

/-- Every id has its trail, and those nobody has done anything about are untouched. -/
structure Followed (c : GatewayConfig) : Prop where
  trail : ∀ i, Trail (recordsAbout i (recordsOf c.history)) (c.shared.peek i)
  untouched : ∀ i, Unheard i c.history → Untouched i (recordsOf c.history) c.shared

/-- The sequences of decisions that the log ends up with for one request, if it has any. -/
def protocols : List (List Decision) :=
  [[.deny], [.allow], [.pendingApproval, .humanAllow], [.pendingApproval, .humanDeny]]

/-- What an audit log and a queue may hold about one request: the records in the order of
    the protocol, the levels they may have, a human record that repeats its pending one,
    and an entry in the queue while that decision is missing. -/
structure AuditTrail (records : List AuditRecord) (queued : Option PendingRequest) : Prop where
  order : ∃ protocol ∈ protocols, records.map (·.decision) <+: protocol
  high : ∀ r ∈ records, r.decision = .pendingApproval ∨ isHuman r.decision = true →
    r.riskLevel = .high
  low : ∀ r ∈ records, r.decision = .allow → r.riskLevel = .low ∨ r.riskLevel = .medium
  repeats : ∀ r ∈ records, isHuman r.decision = true → ∃ r' ∈ records,
    r'.decision = .pendingApproval ∧ particularsOfRecord r = particularsOfRecord r'
  waiting : queued.isSome = true → records.map (·.decision) = [.pendingApproval]

/-- The two human decisions. -/
theorem isHuman_iff {decision : Decision} :
    isHuman decision = true ↔ decision = .humanAllow ∨ decision = .humanDeny := by
  simp [isHuman]

/-- A trail is what the protocol asks for. -/
theorem Trail.auditTrail {records : List AuditRecord} {queued : Option PendingRequest}
    (h : Trail records queued) : AuditTrail records queued := by
  cases h with
  | untouched => constructor <;> simp [protocols]
  | denied h => constructor <;> simp [protocols, h, isHuman]
  | @allowed r h hlevel =>
    have hlow : r.riskLevel = .low ∨ r.riskLevel = .medium := by
      cases hr : r.riskLevel <;> simp_all
    constructor <;> simp [protocols, h, hlow, isHuman]
  | waiting h hlevel _ | taken h hlevel =>
    constructor <;> simp [protocols, h, hlevel, isHuman]
  | @decided r r' h hlevel hhuman hsame =>
    -- The human record has the level of the pending one, since it repeats it.
    have hlevel' : r'.riskLevel = .high := (congrArg Particulars.riskLevel hsame).trans hlevel
    rcases isHuman_iff.mp hhuman with hallow | hdeny
    · constructor <;> simp [protocols, h, hallow, hlevel, hlevel', isHuman, hsame]
    · constructor <;> simp [protocols, h, hdeny, hlevel, hlevel', isHuman, hsame]

section Runs

variable [Runtime] {settings : Settings} {opa : Opa} {c c' : GatewayConfig}

/-- Before the first request nothing was done. -/
theorem followed_start : Followed (gateway settings opa).start where
  trail _ := .untouched
  untouched _ _ := ⟨rfl, rfl⟩

/-- One turn keeps all trails. -/
theorem Followed.turn (h : Followed c) {call : Call} {acts : List (Action signature)}
    (hturn : Turn c c' call acts) : Followed c' := by
  obtain ⟨⟨t, arrivals, harrivals, hhistory⟩, heffect, hfirst⟩ := hturn
  have hrecords : recordsOf c'.history = recordsOf c.history ++ auditRecords acts := by
    simp [hhistory, harrivals, recordsOf_acts]
  have hacts : auditRecords acts ≠ [] → acts ≠ [] := by
    rintro hne rfl
    exact hne rfl
  refine ⟨fun i => ?_, fun i hunheard => ?_⟩
  · -- Trails: by the effect of the turn, as the handler finds its own id untouched.
    rw [hrecords]
    refine trail_of_turn (h.trail i) heffect fun req hcall hne => ?_
    exact h.untouched _ (hfirst req hcall (hacts hne))
  · -- Untouched ids: who is unheard of now was unheard of before.
    rw [hrecords]
    refine untouched_of_turn (h.untouched i ?_) heffect ?_
    · intro t' req a hmem
      refine hunheard t' req a ?_
      rw [hhistory]
      exact List.mem_append_left _ (List.mem_append_left _ hmem)
    · -- A handler that logged something for this id would have been heard.
      rintro req rfl hne
      obtain ⟨a, rest, rfl⟩ := List.exists_cons_of_ne_nil (hacts hne)
      refine hunheard t req a ?_
      rw [hhistory]
      exact List.mem_append_right _ (List.mem_cons_self ..)

theorem followed (h : (gateway settings opa).CoopReachable awaits c) : Followed c := by
  induction h with
  | refl => exact followed_start
  | tail hrun hstep ih =>
    obtain ⟨call, acts, hturn⟩ := turn_of_step (CoopReachable.reachable hrun) hstep
    exact ih.turn hturn

/-- **Audit trails**: in every run of the event loop the log and the queue follow the
    protocol for every request id. -/
theorem audit_trail (h : (gateway settings opa).CoopReachable awaits c) (i : String) :
    AuditTrail (recordsAbout i (recordsOf c.history)) (c.shared.peek i) :=
  ((followed h).trail i).auditTrail

end Runs

section Example

attribute [local instance] asciiRuntime plainText

/-- The approval of the deployment `r-1` by an operator. -/
def operatorApproval : Call :=
  .approveAction (.ofSubject "r-1" "operator" "deployer" { approved := true })

/-- The deployment, submitted by someone else. -/
def submittedDeployment : Call :=
  .agentAction (.ofSubject "r-1" "agent-deploy" "deployer" hostPathDeployment)

/-- The deployment waits for OPA; an approval of it comes too early, one in time and one
    too late. -/
def approvedInTime : GatewayConfig :=
  let arrive := (gateway Settings.default anyOpa).coopArrive trusting.answer awaits
  let early := arrive (arrive (gateway Settings.default anyOpa).start submittedDeployment)
    operatorApproval
  arrive (arrive (System.coopResume trusting.answer awaits early 0) operatorApproval)
    operatorApproval

theorem approvedInTime_reachable :
    (gateway Settings.default anyOpa).CoopReachable awaits approvedInTime := by
  have hserve : ∀ q op, serves anyOpa q op (trusting.answer q op).1 (trusting.answer q op).2 :=
    serves_answer fun _ _ => trivial
  have hfresh : freshId [] submittedDeployment := fun _ _ hmem => absurd hmem List.not_mem_nil
  have harrive : ∀ c, (gateway Settings.default anyOpa).CoopReachable awaits c →
      (gateway Settings.default anyOpa).CoopReachable awaits
        ((gateway Settings.default anyOpa).coopArrive trusting.answer awaits c
          operatorApproval) := fun c h =>
    CoopReachable.coopArrive h hserve trivial
  have hstart : (gateway Settings.default anyOpa).CoopReachable awaits
      ((gateway Settings.default anyOpa).coopArrive trusting.answer awaits
        (gateway Settings.default anyOpa).start submittedDeployment) :=
    CoopReachable.coopArrive .refl hserve hfresh
  exact harrive _ (harrive _ (CoopReachable.coopResume (harrive _ hstart) hserve 0))

/-- The trail of that deployment: two records, and nothing is left in the queue. -/
theorem audit_trail_approvedInTime :
    AuditTrail (recordsAbout "r-1" (recordsOf approvedInTime.history))
        (approvedInTime.shared.peek "r-1") ∧
      (recordsAbout "r-1" (recordsOf approvedInTime.history)).map (·.decision) =
        [.pendingApproval, .humanAllow] :=
  ⟨audit_trail approvedInTime_reachable "r-1", by decide⟩

end Example

end AiK8sGateway
