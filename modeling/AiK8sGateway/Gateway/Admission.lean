import AiK8sGateway.Gateway.Payload
import AiK8sGateway.K8s.Gatekeeper
import AiK8sGateway.K8s.Manifest

/-!
# Two Layers of Admission

The gateway's policy decides about the params of a request, the admission templates about
the Pods that come of it.  Each layer is compared with the other: what the policy lets
through against the templates, and the images that the templates let through against the
policy.

## Main results

- `stamped_admitted_iff`: when the Pod of an allowed request passes the templates.
- `admitted_trusted_iff`: which images pass the templates only if the policy trusts them.
-/

namespace AiK8sGateway

open Foundations PythonText Auth Rego K8s K8s.Gatekeeper
open Policies.AgentActions (trustedImagePrefixes ImageAccepted)

/-! ## Prefix lists -/

/-- The image names that the constraint lists without a tag. -/
def officialNames : List String := ["nginx", "python", "alpine", "busybox"]

/-- A Pod of one container with this image, and any other fields. -/
def imagePod (name : Json) (image : String) (fields : List (String × Json)) : Json :=
  .obj [("spec", .obj [("containers",
    .arr [.obj (("name", name) :: ("image", .str image) :: fields)])])]

/-- Two prefixes of a text are prefixes of each other, one way or the other. -/
theorem startsWith_or {s pre pre' : String} (h : startsWith s pre = true)
    (h' : startsWith s pre' = true) : startsWith pre pre' = true ∨ startsWith pre' pre = true := by
  simp only [startsWith, List.isPrefixOf_iff_prefix] at h h' ⊢
  exact (List.prefix_or_prefix_of_prefix h h').symm

theorem startsWith_trans {s pre pre' : String} (h : startsWith s pre = true)
    (h' : startsWith pre pre' = true) : startsWith s pre' = true := by
  simp only [startsWith, List.isPrefixOf_iff_prefix] at h h' ⊢
  exact h'.trans h

/-- Whatever the policy trusts begins with a prefix that the constraint lists. -/
theorem allowed_of_trusted {image : String}
    (htrusted : Policies.AgentActions.isTrustedImage (.str image) = true) :
    ∃ pre ∈ repos, startsWith image pre = true := by
  obtain ⟨pre, hpre, hstarts⟩ := (Policies.AgentActions.isTrustedImage_str_iff image).mp htrusted
  have hlisted : ∀ pre ∈ trustedImagePrefixes, ∃ pre' ∈ repos, startsWith pre pre' = true := by
    decide
  obtain ⟨pre', hpre', hshorter⟩ := hlisted pre hpre
  exact ⟨pre', hpre', startsWith_trans hstarts hshorter⟩

section Images

variable [SprintfFormat]

/-- The template accepts an image exactly if it begins with a listed prefix. -/
theorem allowedRepos_imagePod_iff (name : Json) (image : String) (fields : List (String × Json)) :
    allowedRepos repos (imagePod name image fields) = [] ↔
      ∃ pre ∈ repos, startsWith image pre = true := by
  have hcontainers : containersOf (imagePod name image fields) "containers" =
      [.obj (("name", name) :: ("image", .str image) :: fields)] := rfl
  have hinit : containersOf (imagePod name image fields) "initContainers" = [] := rfl
  rw [allowedRepos_eq_nil_iff]
  simp [walkedLists, hcontainers, hinit, Json.field?, List.lookup_cons, trustedImage,
    startsWithString]

/-- **The same allowlist**: an image that passes the template is trusted by the policy,
    unless its name only begins like one of the official names. -/
theorem admitted_trusted_iff (name : Json) (image : String) (fields : List (String × Json)) :
    (allowedRepos repos (imagePod name image fields) = [] →
        Policies.AgentActions.isTrustedImage (.str image) = true) ↔
      ∀ official ∈ officialNames, startsWith image official = true →
        startsWith image (official ++ ":") = true := by
  rw [allowedRepos_imagePod_iff, Policies.AgentActions.isTrustedImage_str_iff]
  constructor
  · intro htrusted official hofficial hstarts
    have hlisted : ∀ official ∈ officialNames, official ∈ repos := by decide
    obtain ⟨pre, hpre, hstarts'⟩ := htrusted ⟨official, hlisted official hofficial, hstarts⟩
    -- Among the policy's prefixes only the name with its colon goes together with the name.
    have honly : ∀ official ∈ officialNames, ∀ pre ∈ trustedImagePrefixes,
        (startsWith official pre || startsWith pre official) = true → pre = official ++ ":" := by
      decide
    have hcompare := startsWith_or hstarts hstarts'
    rw [← honly official hofficial pre hpre (by simpa using hcompare)]
    exact hstarts'
  · rintro htagged ⟨pre, hpre, hstarts⟩
    -- Every prefix of the constraint is an official name or one that the policy has too.
    have hsplit : ∀ pre ∈ repos, (pre ∈ officialNames ∧ pre ++ ":" ∈ trustedImagePrefixes) ∨
        pre ∈ trustedImagePrefixes := by decide
    rcases hsplit pre hpre with ⟨hofficial, htrusted⟩ | htrusted
    · exact ⟨pre ++ ":", htrusted, htagged pre hofficial hstarts⟩
    · exact ⟨pre, htrusted, hstarts⟩

end Images

section Example

/-- An image that only begins like an official one passes the template, and the policy does
    not trust it. -/
theorem admitted_not_trusted :
    ¬ ∀ [SprintfFormat] (name : Json) (image : String) (fields : List (String × Json)),
      allowedRepos repos (imagePod name image fields) = [] →
        Policies.AgentActions.isTrustedImage (.str image) = true := by
  intro h
  let _ : SprintfFormat := ⟨fun _ => ""⟩
  exact absurd (h (.str "app") "nginx-evil/miner:1" [] (by decide)) (by decide)

end Example

/-! ## Stamped Pods -/

section Stamped

/-- The image and the limits that the payload asks for are not the ones that the templates
    refuse. -/
structure TemplateSafe (params : JsonDict) : Prop where
  image : params.get? "image" ≠ some (.str "")
  limits : ∀ key ∈ ["memory_limit", "cpu_limit"],
    params.get? key ≠ some .null ∧ params.get? key ≠ some (.bool false)

/-- An image that the policy accepts passes the rule on images unless it is empty. -/
theorem imageRule_iff {params : JsonDict} (himage : ImageAccepted (params.get? "image"))
    (port : Int) :
    ((containerJson (containerOf params port)).field? "image" = none ∨
        trustedImage repos ((containerJson (containerOf params port)).field? "image") = true) ↔
      params.get? "image" ≠ some (.str "") := by
  have hfield : (containerJson (containerOf params port)).field? "image" =
      (some ((params.get? "image").getD (.str "nginx:alpine"))).filter (fun v => !v.isNull) :=
    field?_containerJson_image _
  rw [hfield]
  rcases himage with himage | himage | himage | ⟨image, himage, htrusted⟩ <;> rw [himage]
  · -- The builder's own image is an allowed one.
    decide
  · -- A null image has no field in the document.
    simp [Json.isNull, Option.filter_some]
  · -- An empty image is not on the list.
    have hrefused : trustedImage repos (some (.str "")) = false := by decide
    simp [Json.isNull, Option.filter_some, hrefused]
  · -- A trusted image is on the list, and is not empty.
    obtain ⟨pre, hpre, hstarts⟩ := allowed_of_trusted htrusted
    have hallowed : trustedImage repos (some (.str image)) = true :=
      List.any_eq_true.mpr ⟨pre, hpre, hstarts⟩
    have hempty : image ≠ "" := by
      rintro rfl
      exact absurd htrusted (by decide)
    simp [Json.isNull, Option.filter_some, hallowed, hempty]

/-- A limit passes its rule unless the payload has null or false for it. -/
theorem limitRule_iff (params : JsonDict) (port : Int) :
    (∀ limit ∈ limitNames, negated (refPath (containerJson (containerOf params port))
        ["resources", "limits", limit]) = false) ↔
      ∀ key ∈ ["memory_limit", "cpu_limit"],
        params.get? key ≠ some .null ∧ params.get? key ≠ some (.bool false) := by
  -- One lookup in the limits of the container for each of the two names.
  have hvalue : ∀ key default,
      negated ((some (setting params key default)).filter (fun v => !v.isNull)) = false ↔
        params.get? key ≠ some .null ∧ params.get? key ≠ some (.bool false) := by
    intro key default
    unfold setting
    cases params.get? key with
    | none => simp [Json.isNull, Option.filter_some, negated]
    | some v =>
      cases v with
      | bool b => cases b <;> simp [Json.isNull, Option.filter_some, negated]
      | _ => simp [Json.isNull, Option.filter_some, negated]
  simp only [limitNames, List.forall_mem_cons]
  rw [refPath_containerJson_limit _ _ (by simp [containerOf]),
    refPath_containerJson_limit _ _ (by simp [containerOf])]
  simp only [← hvalue "memory_limit" "128Mi", ← hvalue "cpu_limit" "200m"]
  simp [containerOf, List.lookup_cons]

variable [Runtime] [SprintfFormat]

/-- **Layer by layer**: the Pod stamped from the deployment of a payload that the policy
    accepts passes the templates exactly if its image and limits are template-safe. -/
theorem violations_stampedPod_iff {namespace_ : String} (hns : namespace_ ∉ excludedNamespaces)
    {params : JsonDict} {body : V1Deployment} (himage : ImageAccepted (params.get? "image"))
    (hbuild : buildDeployment params = .ok body) :
    violations namespace_ (stampedPod body) = [] ↔ TemplateSafe params := by
  obtain ⟨-, port, -, hname, hspec⟩ := buildDeployment_ok hbuild
  have hcontainers : containersOf (stampedPod body) "containers" =
      [containerJson (containerOf params port)] := by
    rw [containersOf, refPath_stampedPod, hspec]
    rfl
  have hinit : containersOf (stampedPod body) "initContainers" = [] := by
    rw [containersOf, refPath_stampedPod, hspec]
    rfl
  -- The only container, wherever the templates look for one.
  have honly : ∀ list ∈ walkedLists, ∀ container ∈ containersOf (stampedPod body) list,
      container = containerJson (containerOf params port) := by
    simp [walkedLists, hcontainers, hinit]
  have hmem : containerJson (containerOf params port) ∈
      containersOf (stampedPod body) "containers" := by
    rw [hcontainers]
    exact List.mem_singleton_self _
  -- It has a name, so the rules about it do fire.
  have hnamed : (containerJson (containerOf params port)).field? "name" ≠ none := by
    rw [field?_containerJson_name]
    simpa [Option.filter_some, Json.isNull_iff, containerOf] using hname
  -- It is not privileged, and the Pod shares nothing with the host.
  have hunprivileged : Unprivileged (containerJson (containerOf params port)) := by
    rw [Unprivileged, refPath_containerJson_privileged]
    simp [containerOf]
  have hhost : ∀ rule ∈ hostRules,
      refPath (stampedPod body) ["spec", rule.1] ≠ some (.bool true) := by
    simp [hostRules, refPath_stampedPod, hspec, podSpecFields, List.lookup_cons, optBool,
      Json.isNull]
  rw [violations_eq_nil_iff hns, noPrivileged_eq_nil_iff, allowedRepos_eq_nil_iff,
    requireLimits_eq_nil_iff]
  constructor
  · -- The rules on images and limits fire on the container, so they are kept.
    rintro ⟨-, hrepos, hlimits⟩
    refine ⟨(imageRule_iff himage port).mp ?_, (limitRule_iff params port).mp ?_⟩
    · exact (hrepos "containers" (by decide) _ hmem).resolve_left hnamed
    · exact fun limit hlimit => (hlimits limit hlimit _ hmem).resolve_left hnamed
  · rintro ⟨hnonempty, hlimits⟩
    -- They are kept, and the other rules have nothing to fire on.
    refine ⟨⟨?_, hhost⟩, ?_, ?_⟩
    · intro list hlist container hcontainer
      rw [honly list hlist container hcontainer]
      exact .inr hunprivileged
    · intro list hlist container hcontainer
      rw [honly list hlist container hcontainer]
      exact .inr ((imageRule_iff himage port).mpr hnonempty)
    · intro limit hlimit container hcontainer
      rw [honly "containers" (by decide) container hcontainer]
      exact .inr ((limitRule_iff params port).mpr hlimits limit hlimit)

/-- **Layers of admission**: for a deployment write that the policy allows, the Pod stamped
    from the deployment passes the templates exactly if its image and limits are
    template-safe. -/
theorem stamped_admitted_iff {req : AgentCall} {token : TokenPayload} {rs : Risk.RiskScore}
    {body : V1Deployment}
    (hallow : Policies.AgentActions.allow (req.policyInput token rs) = true)
    (haction : req.dispatched.action ∈ ["create", "update", "patch"])
    (hns : req.dispatched.namespace ∉ excludedNamespaces)
    (hbuild : buildDeployment req.body.params = .ok body) :
    violations req.dispatched.namespace (stampedPod body) = [] ↔
      TemplateSafe req.body.params := by
  obtain ⟨hwrite, -⟩ := writeAllowed_of_dispatched hallow (notMem_readOnlyActions haction)
  have hverb : inStrings ((req.policyInput token rs).field? "action")
      Policies.AgentActions.writeActions = true := inStrings_iff.mpr ⟨_, hwrite.action, rfl⟩
  obtain ⟨-, himage, -⟩ :=
    (Policies.AgentActions.payloadViolations_eq_nil_iff hverb).mp hwrite.payload
  exact violations_stampedPod_iff hns himage hbuild

end Stamped

section Example

attribute [local instance] asciiRuntime plainText

/-- The token of a deployer. -/
def deployerToken : TokenPayload where
  claims := .ofEntries [("sub", .str "agent-deploy"), ("role", .str "deployer")]
  sub := .str "agent-deploy"
  role := .str "deployer"
  sub_claim := rfl
  role_claim := rfl
  sub_notNull := rfl
  role_notNull := rfl

/-- A deployment of the default image with these params. -/
def createRequest (params : JsonDict) : AgentCall :=
  .ofSubject "r-1" "agent-deploy" "deployer"
    { action := "create", resource := "deployments", params := params }

/-- The payload `{"cpu_limit": null}`. -/
def limitlessParams : JsonDict := .ofEntries [("cpu_limit", .null)]

/-- Not every Pod that comes of an allowed request passes the templates. -/
theorem stamped_not_admitted :
    ¬ ∀ (req : AgentCall) (token : TokenPayload) (rs : Risk.RiskScore) (body : V1Deployment),
      Policies.AgentActions.allow (req.policyInput token rs) = true →
      req.dispatched.action ∈ ["create", "update", "patch"] →
      req.dispatched.resource ∈ ["deployments", "deployment"] →
      req.dispatched.namespace ∉ excludedNamespaces →
      buildDeployment req.body.params = .ok body →
      violations req.dispatched.namespace (stampedPod body) = [] := by
  intro h
  cases hbuild : buildDeployment limitlessParams with
  | error e => cases hbuild
  | ok body =>
    have hclean := h (createRequest limitlessParams) deployerToken ⟨.low, 1, []⟩ body (by decide)
      (by decide) (by decide) (by decide) hbuild
    have hsafe : TemplateSafe limitlessParams :=
      (violations_stampedPod_iff (by decide) (.inl rfl) hbuild).mp hclean
    exact (hsafe.limits "cpu_limit" (by decide)).1 rfl

/-- The Pod of a deployment with an image and limits of its own passes. -/
theorem stamped_admitted_webRequest :
    ∃ body, buildDeployment webRequest.params = .ok body ∧ body.spec.replicas = 3 ∧
      violations "staging" (stampedPod body) = [] := by
  refine ⟨_, rfl, rfl, ?_⟩
  have hallow : Policies.AgentActions.allow
      ((AgentCall.ofSubject "r-1" "agent-deploy" "deployer" webRequest).policyInput deployerToken
        ⟨.low, 1, []⟩) = true := by decide
  apply (stamped_admitted_iff hallow (by decide) (by decide) rfl).mpr
  constructor
  · intro himage
    have himage' := Json.str.inj (Option.some.inj himage)
    exact absurd himage' (by decide)
  · intro key hkey
    simp only [List.mem_cons, List.not_mem_nil, or_false] at hkey
    rcases hkey with rfl | rfl
    · exact ⟨fun hnull => (by cases hnull), fun hfalse => (by cases hfalse)⟩
    · exact ⟨fun hnull => (by cases hnull), fun hfalse => (by cases hfalse)⟩

end Example

end AiK8sGateway
