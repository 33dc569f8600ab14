import AiK8sGateway.Gateway.Fleet
import AiK8sGateway.Gateway.PolicyDecision
import AiK8sGateway.Gateway.ScorerPolicy
import AiK8sGateway.Risk.Explanation

/-!
# What Reaches the Approval Queue

With the default settings and the shipped policy a request is queued if the policy allows
it and the scorer puts it into the highest band.  What the scorer counts and the policy
does not refuse is little: the policy has refused most of what scores.  The demo says so
in words ("HIGH-scoring actions are almost always also OPA-denied"); here the exceptions
are listed.

## Main results

- `level_high_iff_escalates`: an allowed request is high-risk exactly if it escalates.
- `queue_for_escalations`: what is queued escalates, and what escalates is never executed
  without an approval.
- `queue_unused`: without an escalating request the queue stays empty, nobody decides
  anything, and every approval is told that there is no such request.
-/

namespace AiK8sGateway

open Foundations EffectProgram PythonText Approval Audit Auth Risk Rego
open Policies.AgentActions (readOnlyActions writeActions fieldRules)

/-! ## What the scorer counts and the policy lets through -/

/-- A namespace that is a control-plane one once it is stripped. -/
def AgentCall.NamesControlPlane [Runtime] (req : AgentCall) : Prop :=
  strip (lower req.body.namespace) ∈ highRiskNamespaces

/-- A resource that is a sensitive one once it is stripped. -/
def AgentCall.NamesSensitive [Runtime] (req : AgentCall) : Prop :=
  strip (lower req.body.resource) ∈ Risk.sensitiveResources

/-- The field that only the scorer knows. -/
def AgentCall.MountsHost (req : AgentCall) : Prop :=
  req.body.params.get? "hostPath" = some (.bool true)

/-- The image that only the scorer takes for a text. -/
def AgentCall.NullImage (req : AgentCall) : Prop := req.body.params.get? "image" = some .null

/-- A write request that has one of the two things that weigh two points, and something
    else.  Read verbs weigh nothing, and never come to more than three points. -/
def AgentCall.Escalates [Runtime] (req : AgentCall) : Prop :=
  lower req.body.action ∈ writeActions ∧
    (req.NamesControlPlane ∧ (req.NamesSensitive ∨ req.MountsHost ∨ req.NullImage) ∨
      req.MountsHost ∧ (req.NamesSensitive ∨ req.NullImage))

section Points

variable [Runtime] {req : AgentCall} {token : TokenPayload} {rs : RiskScore}

instance : Decidable req.NamesControlPlane := inferInstanceAs (Decidable (_ ∈ _))

instance : Decidable req.NamesSensitive := inferInstanceAs (Decidable (_ ∈ _))

/-- What is true or not weighs `n` points or none. -/
def Weighs (p : Prop) (n points : Int) : Prop := (p ∧ points = n) ∨ (¬ p ∧ points = 0)

omit [Runtime] in
theorem weighs_ite (p : Prop) [Decidable p] (line : String) (n : Int) :
    Weighs p n (pointsOf (if p then [(line, n)] else [])) := by
  by_cases hp : p
  · exact .inl ⟨hp, by simp [hp]⟩
  · exact .inr ⟨hp, by simp [hp]⟩

/-- The points of verb, namespace and resource. -/
theorem points_targetFindings {verb : Int}
    (hverb : actionWeights.lookup (strip (lower req.body.action)) = some verb) :
    ∃ ns resource, Weighs req.NamesControlPlane 2 ns ∧ Weighs req.NamesSensitive 1 resource ∧
      pointsOf (targetFindings (Risk.normalise req.body.action req.body.resource
        req.body.namespace)) = verb + ns + resource := by
  refine ⟨_, _, weighs_ite req.NamesControlPlane ("namespace '" ++
    strip (lower req.body.namespace) ++ "' is a privileged system namespace -> +2") 2,
    weighs_ite req.NamesSensitive ("resource '" ++ strip (lower req.body.resource) ++
      "' stores credentials or RBAC grants -> +1") 1, ?_⟩
  simp only [targetFindings, pointsOf_append, pointsOf_cons, pointsOf_nil, Risk.normalise, hverb,
    Option.getD_some, add_zero]
  rfl

/-! ### A payload without violations -/

omit [Runtime] in
/-- Of the fields that the scorer looks at, a clean payload has the host path at most. -/
theorem points_fields {params : JsonDict}
    (hclean : ∀ rule ∈ fieldRules, params.get? rule.1 ≠ some (.bool true)) :
    Weighs (params.get? "hostPath" = some (.bool true)) 2
      (pointsOf (privilegedFields.flatMap (fieldFinding params))) := by
  -- A field that is not true is no finding.
  have hnone : ∀ field, params.get? field.1 ≠ some (.bool true) →
      fieldFinding params field = [] := by
    intro field hne
    unfold fieldFinding
    split
    · contradiction
    · rfl
  have hrules : ∀ field ∈ privilegedFields.dropLast, ∃ rule ∈ fieldRules, rule.1 = field.1 := by
    decide
  -- The rules of the policy have all of the scorer's fields but the last.
  have hrest : privilegedFields.dropLast.flatMap (fieldFinding params) = [] := by
    rw [List.flatMap_eq_nil_iff]
    intro field hfield
    obtain ⟨rule, hrule, hname⟩ := hrules field hfield
    exact hnone field (hname ▸ hclean rule hrule)
  have hsplit : privilegedFields = privilegedFields.dropLast ++ [("hostPath", 2)] := by decide
  rw [hsplit, List.flatMap_append, hrest, List.nil_append, List.flatMap_singleton]
  by_cases hhost : params.get? "hostPath" = some (.bool true)
  · exact .inl ⟨hhost, by simp [fieldFinding, hhost]⟩
  · exact .inr ⟨hhost, by rw [hnone _ hhost, pointsOf_nil]⟩

/-- Of the images, a clean payload has the null at most. -/
theorem points_image {params : JsonDict}
    (hclean : Policies.AgentActions.ImageAccepted (params.get? "image")) :
    Weighs (params.get? "image" = some .null) 1 (pointsOf (imageFinding .default params)) := by
  have hshared : ¬ SharedImage (params.get? "image") := fun hshared =>
    (not_imageAccepted_iff _).mpr (.inl hshared) hclean
  have hfires := imageFinding_ne_nil_iff params
  by_cases hnull : params.get? "image" = some .null
  · refine .inl ⟨hnull, ?_⟩
    have hne := hfires.mpr (.inr hnull)
    unfold imageFinding at hne ⊢
    split_ifs at hne ⊢ with hfound
    · rfl
    · exact absurd rfl hne
  · refine .inr ⟨hnull, ?_⟩
    have hnil : imageFinding .default params = [] := by
      by_contra hne
      exact (hfires.mp hne).elim hshared hnull
    rw [hnil, pointsOf_nil]

/-- A clean payload has no replica count that the scorer objects to. -/
theorem points_replicas {params : JsonDict} {replicas : Int}
    (hclean : ∀ x, params.get? "replicas" = some x → exceeds x 10 = false)
    (hreplicas : replicasOf params = .ok replicas) :
    replicaFinding .default replicas = [] := by
  by_contra hne
  obtain ⟨v, n, hget, hshared⟩ := (replicaFinding_ne_nil_iff hreplicas).mp hne
  have hexceeds : exceeds v 10 = true := (exceeds_iff v).mpr (.inl ⟨v, n, rfl, hshared⟩)
  exact absurd hexceeds (Bool.eq_false_iff.mp (hclean v hget))

/-- **Points of a clean payload**: those of the host path and of the null image. -/
theorem points_payload [SprintfFormat] (hwrite : WriteAllowed req token rs) {payload : List Finding}
    (hpayload : PayloadFindings .default (strip (lower req.body.action)) req.body.params payload) :
    ∃ host image, Weighs req.MountsHost 2 host ∧ Weighs req.NullImage 1 image ∧
      pointsOf payload = host + image := by
  have hinput : inStrings ((req.policyInput token rs).field? "action") writeActions = true :=
    inStrings_iff.mpr ⟨_, hwrite.action, rfl⟩
  have hparams : ∀ key, ref₂ (req.policyInput token rs) "params" key =
      req.body.params.get? key := fun _ => rfl
  obtain ⟨hfields, himage, hreplicas⟩ :=
    (Policies.AgentActions.payloadViolations_eq_nil_iff hinput).mp hwrite.payload
  simp only [hparams] at hfields himage hreplicas
  cases hpayload with
  | skipped hskip =>
    -- The verb takes a payload, so there was none, and the two fields are not in it.
    have hverb : strip (lower req.body.action) ∈ writeVerbs := by
      rw [strip_verb (.inr hwrite.action)]
      have hsub : ∀ verb ∈ writeActions, verb ∈ writeVerbs := by decide
      exact hsub _ hwrite.action
    have hempty : req.body.params.entries = [] := by
      by_contra hentries
      exact hskip ⟨hentries, hverb⟩
    have hget : ∀ key v, req.body.params.get? key ≠ some v := fun key v hget =>
      OrderedDict.entries_ne_nil_of_get? hget hempty
    exact ⟨0, 0, .inr ⟨hget _ _, rfl⟩, .inr ⟨hget _ _, rfl⟩, rfl⟩
  | inspected _ hcount =>
    -- Otherwise the fields and the image are what the rules leave, and the count is small.
    refine ⟨_, _, points_fields hfields, points_image himage, ?_⟩
    rw [findings, points_replicas hreplicas hcount, List.append_nil, pointsOf_append]

/-- **High-risk and allowed**: a request that the shipped policy allows is in the highest
    band exactly if it escalates. -/
theorem level_high_iff_escalates [SprintfFormat] (hscored : req.Scored .default token rs)
    (hallow : Policies.AgentActions.allow (req.policyInput token rs) = true) :
    rs.level = .high ↔ req.Escalates := by
  obtain ⟨payload, hpayload, -, hscore, hlevel⟩ := score_findings hscored.scored
  rw [hlevel, (classify_iff rs.score).2.2, hscore, pointsOf_append]
  have hverb : ∀ verb ∈ readOnlyActions ++ writeActions, actionWeights.lookup verb =
      some (if verb ∈ writeActions then 1 else 0) := by decide
  rcases readOnly_or_writeAllowed hallow with hread | hwrite
  · -- A read verb weighs nothing and takes no payload.
    have hreadVerb : ∀ verb ∈ readOnlyActions, verb ∉ writeActions ∧ verb ∉ writeVerbs := by decide
    obtain ⟨hnotWrite, hnotInspected⟩ := hreadVerb _ hread
    have hstrip := strip_verb (.inl hread)
    have hlookup := hverb _ (List.mem_append_left _ hread)
    rw [if_neg hnotWrite, ← hstrip] at hlookup
    obtain ⟨ns, resource, hns, hresource, htarget⟩ := points_targetFindings hlookup
    have hnone : payload = [] := by
      cases hpayload with
      | skipped _ => rfl
      | inspected hinspects _ => exact absurd (hstrip ▸ hinspects.2) hnotInspected
    rw [htarget, hnone, pointsOf_nil]
    refine iff_of_false ?_ fun hescalates => hnotWrite hescalates.1
    rcases hns with ⟨-, rfl⟩ | ⟨-, rfl⟩ <;> rcases hresource with ⟨-, rfl⟩ | ⟨-, rfl⟩ <;> decide
  · -- A write verb weighs one, so three more are needed.
    have hstrip := strip_verb (.inr hwrite.action)
    have hlookup := hverb _ (List.mem_append_right _ hwrite.action)
    rw [if_pos hwrite.action, ← hstrip] at hlookup
    obtain ⟨ns, resource, hns, hresource, htarget⟩ := points_targetFindings hlookup
    obtain ⟨host, image, hhost, himage, hpoints⟩ := points_payload hwrite hpayload
    rw [htarget, hpoints]
    unfold AgentCall.Escalates
    rcases hns with ⟨hns, rfl⟩ | ⟨hns, rfl⟩ <;> rcases hresource with ⟨hres, rfl⟩ | ⟨hres, rfl⟩ <;>
      rcases hhost with ⟨hhost, rfl⟩ | ⟨hhost, rfl⟩ <;>
      rcases himage with ⟨himage, rfl⟩ | ⟨himage, rfl⟩ <;>
      simp [hwrite.action, hns, hres, hhost, himage]

/-- **Plain names**: of the requests whose namespace and resource have no whitespace around
    them, the policy lets only those escalate that have a host path and a null image. -/
theorem escalates_of_plain [SprintfFormat] (hwrite : WriteAllowed req token rs)
    (hns : strip (lower req.body.namespace) = lower req.body.namespace)
    (hresource : strip (lower req.body.resource) = lower req.body.resource)
    (hescalates : req.Escalates) : req.MountsHost ∧ req.NullImage := by
  -- The two tables of names are the same ones that the policy looks into.
  have hcontrol : ¬ req.NamesControlPlane := by
    unfold AgentCall.NamesControlPlane
    rw [hns]
    exact hwrite.namespace
  have hsensitive : ¬ req.NamesSensitive := by
    unfold AgentCall.NamesSensitive
    rw [hresource]
    exact hwrite.resource
  rcases hescalates.2 with ⟨hnames, -⟩ | ⟨hhost, hnames | himage⟩
  · exact absurd hnames hcontrol
  · exact absurd hnames hsensitive
  · exact ⟨hhost, himage⟩

end Points

/-! ## Runs -/

section Runs

variable [Runtime] [SprintfFormat] {c : GatewayConfig}

/-- What OPA allowed in a run, the shipped policy allows. -/
theorem allow_of_authorised {settings : Settings} (h : (gateway settings shippedOpa).Reachable c)
    {req : AgentCall} {token : TokenPayload} {rs : RiskScore}
    (hauth : Authorised settings c.history req token rs) :
    Policies.AgentActions.allow (req.policyInput token rs) = true := by
  obtain ⟨-, t, reply, reason, hread, hasked⟩ := hauth
  exact allow_of_shippedOpa (opa_of_mem h hasked) (readDecision_allow_iff.mp ⟨reason, hread⟩)

/-- What is queued escalates, and the policy took it for a `deployer`'s write. -/
theorem escalates_of_enqueued (h : (gateway .default shippedOpa).Reachable c) {t : Nat}
    {call : Call} {pending : PendingRequest} {id : String}
    (hmem : .act t call (enqueued pending id) ∈ c.history) :
    ∃ req token rs, call = .agentAction req ∧ pending = req.pending token rs ∧
      req.Scored .default token rs ∧ req.Escalates ∧ WriteAllowed req token rs := by
  obtain ⟨pre, post, hs⟩ := List.append_of_mem hmem
  obtain ⟨req, token, rs, hcall, hauth, hlevel, hpending⟩ := enqueue_origin h hs
  have hauth' : Authorised .default c.history req token rs := hauth.mono fun e he => by
    rw [hs]
    exact List.mem_append_left _ he
  have hallow := allow_of_authorised h hauth'
  have hescalates := (level_high_iff_escalates hauth.scored hallow).mp hlevel
  refine ⟨req, token, rs, hcall, hpending, hauth.scored, hescalates, ?_⟩
  rcases readOnly_or_writeAllowed hallow with hread | hwrite
  · exact absurd hescalates.1 ((verb_classes_disjoint _).1 hread)
  · exact hwrite

/-- The queue is for escalations, and an escalation goes through the queue. -/
structure QueueForEscalations (h : List GatewayEvent) : Prop where
  /-- What is queued is a `deployer`'s write that escalates; under plain names it has a host
      path and a null image. -/
  queued : ∀ t call pending id, .act t call (enqueued pending id) ∈ h →
    ∃ req token rs, call = .agentAction req ∧ pending = req.pending token rs ∧ req.Escalates ∧
      token.role = .str "deployer" ∧
      (strip (lower req.body.namespace) = lower req.body.namespace →
        strip (lower req.body.resource) = lower req.body.resource →
          req.MountsHost ∧ req.NullImage)
  /-- What is executed was submitted so, and it escalates exactly if an approval executes it. -/
  executed : ∀ t call action resource namespace_ params exec,
    .act t call ⟨.executeAction action resource namespace_ params, exec⟩ ∈ h →
      ∃ t' req, .arrive t' (.agentAction req) ∈ h ∧ call.requestId? = some req.requestId ∧
        action = req.body.action ∧ resource = req.body.resource ∧
        namespace_ = req.body.namespace ∧ params = req.body.params ∧
        (req.Escalates ↔ ∃ ac, call = .approveAction ac)

/-- **The queue is for escalations**, in every run with the default settings and the shipped
    policy. -/
theorem queue_for_escalations (h : (gateway .default shippedOpa).Reachable c) :
    QueueForEscalations c.history := by
  constructor
  · intro t call pending id hmem
    obtain ⟨req, token, rs, hcall, hpending, -, hescalates, hwrite⟩ :=
      escalates_of_enqueued h hmem
    exact ⟨req, token, rs, hcall, hpending, hescalates, hwrite.role,
      fun hns hresource => escalates_of_plain hwrite hns hresource hescalates⟩
  · intro t call action resource namespace_ params exec hmem
    obtain ⟨req, token, rs, hauth, hcleared, haction, hresource, hns, hparams⟩ :=
      execution_origin_of_mem h hmem
    have hhigh := level_high_iff_escalates hauth.scored (allow_of_authorised h hauth)
    obtain ⟨t', _, _, _, hasked⟩ := hauth.asked
    refine ⟨t', req, Reachable.arrived h hasked, ?_, haction, hresource, hns, hparams, ?_⟩
    · rcases hcleared with ⟨-, rfl⟩ | ⟨-, ac, approver, rfl, hid, -⟩
      · rfl
      · exact congrArg some hid
    · rw [← hhigh]
      rcases hcleared with ⟨hlow, rfl⟩ | ⟨hlevel, ac, approver, rfl, -⟩
      · exact iff_of_false hlow (by rintro ⟨ac, hac⟩; cases hac)
      · exact iff_of_true hlevel ⟨ac, rfl⟩

/-! ### Runs without escalations -/

omit [SprintfFormat] in
/-- Nothing is in the queue that was not put into it. -/
theorem queue_eq_nil {settings : Settings} {opa : Opa} (h : (gateway settings opa).Reachable c)
    (hnone : ∀ i, tally .enqueued i c.history = 0) : c.shared.queue.entries = [] := by
  by_contra hne
  obtain ⟨⟨i, pending⟩, hmem⟩ := List.exists_mem_of_ne_nil _ hne
  have hpeek : c.shared.peek i = some pending := OrderedDict.get?_eq_some_iff.mpr hmem
  have hstored : stored i c.shared = 1 := by simp [stored, hpeek]
  have hle := stored_add_taken_le h i
  have hzero := hnone i
  omega

/-- The answer to a listing of an empty queue. -/
def emptyListing : HttpReply := .response 200 (.ok (.obj [("count", .int 0), ("items", .arr [])]))

/-- The queue is empty and has always been: nobody decided anything, and there is nothing to
    list or to approve. -/
structure QueueUnused (settings : Settings) (c : GatewayConfig) : Prop where
  empty : c.shared.queue.entries = []
  undecided : ∀ record ∈ recordsOf c.history, isHuman record.decision = false
  refused : ∀ i, AnsweredNotPending settings c i
  listed : ∀ (t : Nat) (lc : ListCall) (token : TokenPayload) (response : HttpReply),
    c.threads[t]? = some (Call.listPending lc, Prog.done response) →
      verifyToken lc.decode settings lc.credentials = .ok token → response = emptyListing

omit [SprintfFormat] in
/-- A run in which nothing was enqueued has not used its queue. -/
theorem queueUnused_of_none_enqueued {settings : Settings} {opa : Opa}
    (h : (gateway settings opa).Reachable c) (hnone : ∀ i, tally .enqueued i c.history = 0) :
    QueueUnused settings c := by
  have huntaken : ∀ i, tally .released i c.history = 0 ∧ tally .rejected i c.history = 0 := by
    intro i
    have hle := stored_add_taken_le h i
    have hzero := hnone i
    omega
  refine ⟨queue_eq_nil h hnone, ?_, ?_, ?_⟩
  · -- No human record.
    intro record hrecord
    by_contra hhuman
    have htaken := taken_of_humanRecord h hrecord (Bool.not_eq_false _ ▸ hhuman)
    obtain ⟨hreleased, hrejected⟩ := huntaken record.requestId
    omega
  · -- Only the 404 for an approval.
    intro i t ac token response hget hid htoken
    obtain ⟨hreleased, hrejected⟩ := huntaken ac.requestId
    exact notPending_of_untaken h hget htoken hreleased hrejected
  · -- Only the empty listing.
    intro t lc token response hget htoken
    have hpath : Prog.Path ((Call.listPending lc).handle settings) (localActions t c.history)
      (.done response) := Reachable.path h hget
    have htrace := callTrace_of_path settings hpath
    have hmem : ∀ a ∈ localActions t c.history, .act t (.listPending lc) a ∈ c.history :=
      fun a ha => (Reachable.mem_localActions_iff h (Reachable.arrive_mem h hget)).mp ha
    generalize localActions t c.history = acts at htrace hmem
    generalize hout : (Prog.done response).outcome = out at htrace
    cases htrace with
    | @listPending _ _ out htrace =>
      cases htrace with
      -- The token was verified.
      | rejected hverify => cases hverify.symm.trans htoken
      | asking _ => cases hout
      | @listed _ items _ =>
        -- The list was made of an earlier queue, which was empty, too.
        obtain ⟨pre, post, hs⟩ := List.append_of_mem (hmem _ (List.mem_singleton.mpr rfl))
        obtain ⟨_, _, c₁, _, -, -, -, hc₁, hpre, hserve⟩ := trace_of_split h hs
        have hnone' : ∀ i, tally .enqueued i c₁.history = 0 := by
          intro i
          have hzero := hnone i
          rw [hs, tally, Reachable.weight_append] at hzero
          rw [hpre, tally]
          omega
        have hitems : items = [] := by
          have hlist : items = c₁.shared.listPending := hserve.1
          rw [hlist, ApprovalQueue.listPending, OrderedDict.values, queue_eq_nil hc₁ hnone']
          rfl
        cases hout
        rw [hitems]
        exact FastApi.response_plain _ (by decide)

/-- **An unused queue**: with the default settings and the shipped policy, a run in which no
    request escalates never uses the queue. -/
theorem queue_unused (h : (gateway .default shippedOpa).Reachable c)
    (hplain : ∀ t req, .arrive t (.agentAction req) ∈ c.history → ¬ req.Escalates) :
    QueueUnused .default c := by
  refine queueUnused_of_none_enqueued h fun i => ?_
  by_contra hpos
  obtain ⟨t, call, pending, id, -, hmem⟩ := exists_enqueued (Nat.pos_of_ne_zero hpos)
  obtain ⟨req, _, _, rfl, -, -, hescalates, -⟩ := escalates_of_enqueued h hmem
  exact hplain t req (Reachable.arrived h hmem) hescalates

end Runs

section Example

attribute [local instance] asciiRuntime plainText

/-- The deployment with a host path and a null image is allowed, and waits in the queue. -/
theorem queue_for_escalations_hostPathDeployment :
    QueueForEscalations (deployerRun hostPathDeployment).history ∧
      tally .enqueued "r-1" (deployerRun hostPathDeployment).history = 1 :=
  ⟨queue_for_escalations (deployerRun_reachable hostPathDeployment), by decide⟩

/-- A deployment in the default namespace, and an approval of it. -/
def needlessApproval : GatewayConfig :=
  sequential Settings.default shipped
    [.agentAction (.ofSubject "r-1" "agent-deploy" "deployer" plainRequest), operatorApproval]

/-- The deployment was executed at once, and the approval finds nothing. -/
theorem queue_unused_needlessApproval :
    QueueUnused Settings.default needlessApproval ∧
      tally .executed "r-1" needlessApproval.history = 1 := by
  refine ⟨queue_unused (sequential_reachable shippedOpa_shippedReply _ (by decide)) ?_, by decide⟩
  intro t req harrive hescalates
  have hmem := call_mem_of_arrive harrive
  simp only [List.mem_cons, Call.agentAction.injEq, operatorApproval, reduceCtorEq,
    List.not_mem_nil, or_false] at hmem
  subst hmem
  -- It has neither of the two things that weigh two points.
  rcases hescalates.2 with ⟨hnames, -⟩ | ⟨hhost, -⟩
  · exact absurd hnames (by decide)
  · cases hhost

end Example

end AiK8sGateway
