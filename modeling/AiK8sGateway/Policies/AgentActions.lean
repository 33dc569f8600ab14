import AiK8sGateway.Foundations.RegoValue

/-!
# The Shipped Authorization Policy

`policies/agent_actions.rego`, package `agent.authz`.  The argument `input` is the
value of the key `"input"` in the document the gateway posts.

A set rule (`deny_reasons`, `payload_violations`) is the list of the messages whose
bodies hold, one list item per rule in the order of the file.
-/

namespace AiK8sGateway.Policies.AgentActions

open Foundations Rego

/-! ## Constants -/

/-- `read_only_actions`. -/
def readOnlyActions : List String := ["get", "list", "watch"]

/-- `write_actions`. -/
def writeActions : List String := ["create", "update", "patch", "apply"]

/-- `delete_actions`. -/
def deleteActions : List String := ["delete", "replace", "exec"]

/-- `privileged_namespaces`. -/
def privilegedNamespaces : List String := ["kube-system", "kube-public", "kube-node-lease"]

/-- `sensitive_resources`. -/
def sensitiveResources : List String :=
  ["secret", "secrets", "role", "roles", "rolebinding", "rolebindings", "clusterrole",
    "clusterroles", "clusterrolebinding", "clusterrolebindings", "serviceaccount",
    "serviceaccounts"]

/-- `trusted_image_prefixes`. -/
def trustedImagePrefixes : List String :=
  ["nginx:", "python:", "alpine:", "busybox:", "gcr.io/", "quay.io/", "registry.k8s.io/"]

/-- `max_replicas`. -/
def maxReplicas : Int := 10

/-- `_is_trusted_image`: one rule for each of the prefixes. -/
def isTrustedImage (image : Json) : Bool :=
  startsWithString image "nginx:" || startsWithString image "python:" ||
    startsWithString image "alpine:" || startsWithString image "busybox:" ||
    startsWithString image "gcr.io/" || startsWithString image "quay.io/" ||
    startsWithString image "registry.k8s.io/"

/-- A trusted image starts with one of the prefixes. -/
theorem isTrustedImage_str_iff (image : String) :
    isTrustedImage (.str image) = true ↔
      ∃ pre ∈ trustedImagePrefixes, PythonText.startsWith image pre = true := by
  simp [isTrustedImage, startsWithString, trustedImagePrefixes, or_assoc]

/-! ## Rules -/

section Rules

variable [SprintfFormat]

/-- The four rules on a boolean field of the payload. -/
def fieldViolation (input : Json) (field msg : String) : List String :=
  if inStrings (input.field? "action") writeActions && eqTrue (ref₂ input "params" field)
  then [msg] else []

/-- The rule on `input.params.image`. -/
def imageViolation (input : Json) : List String :=
  match ref₂ input "params" "image" with
  | none => []
  | some image =>
    let isEmpty := eqString (some image) ""
    let isNull := match image with | .null => true | _ => false
    if inStrings (input.field? "action") writeActions && !isEmpty && !isNull
        && !isTrustedImage image
    then ["image '" ++ SprintfFormat.v image
        ++ "' is not from a trusted registry — only images matching "
        ++ SprintfFormat.v (.arr (trustedImagePrefixes.map .str)) ++ " are permitted"]
    else []

/-- The rule on `input.params.replicas`. -/
def replicasViolation (input : Json) : List String :=
  match ref₂ input "params" "replicas" with
  | none => []
  | some replicas =>
    if inStrings (input.field? "action") writeActions && exceeds replicas maxReplicas
    then ["replicas=" ++ SprintfFormat.v replicas ++ " exceeds the agent gateway limit of "
        ++ toString maxReplicas ++ " — potential resource exhaustion"]
    else []

/-- The boolean fields with a rule of their own, and the messages of the rules. -/
def fieldRules : List (String × String) :=
  [("privileged",
      "params.privileged=true grants full container escape — not permitted via the gateway"),
    ("hostNetwork",
      "params.hostNetwork=true grants direct access to the host network stack — not permitted"),
    ("hostPID",
      "params.hostPID=true allows visibility into all host processes — not permitted"),
    ("hostIPC",
      "params.hostIPC=true shares the host IPC namespace — not permitted")]

/-- `payload_violations`. -/
def payloadViolations (input : Json) : List String :=
  fieldRules.flatMap (fun rule => fieldViolation input rule.1 rule.2) ++
    imageViolation input ++ replicasViolation input

/-- Rule A: `readonly`, any read-only verb on any resource. -/
def allowA (input : Json) : Bool :=
  inStrings (input.field? "role") ["readonly"] && inStrings (input.field? "action") readOnlyActions

/-- Rule B: `deployer`, read-only verbs anywhere. -/
def allowB (input : Json) : Bool :=
  inStrings (input.field? "role") ["deployer"] && inStrings (input.field? "action") readOnlyActions

/-- Rule C: `deployer`, write verbs outside the privileged namespaces, on
    non-sensitive resources, with a clean payload. -/
def allowC (input : Json) : Bool :=
  inStrings (input.field? "role") ["deployer"] &&
    inStrings (input.field? "action") writeActions &&
    !inStrings (input.field? "namespace") privilegedNamespaces &&
    !inStrings (input.field? "resource") sensitiveResources &&
    (payloadViolations input).length == 0

/-- `allow`, false by default. -/
def allow (input : Json) : Bool := allowA input || allowB input || allowC input

/-- `sprintf` with one value; undefined when the value is. -/
def sprintf₁ (pre post : String) : Option Json → List String
  | some x => [pre ++ SprintfFormat.v x ++ post]
  | none => []

/-- `deny_reasons`. -/
def denyReasons (input : Json) : List String :=
  (if inStrings (input.field? "action") deleteActions then
    sprintf₁ "action '" "' is never permitted via the AI agent gateway — deletes require manual kubectl access"
      (input.field? "action") else []) ++
  (if inStrings (input.field? "namespace") privilegedNamespaces &&
      inStrings (input.field? "action") writeActions then
    sprintf₁ "mutations in namespace '" "' are forbidden — control-plane namespaces require manual intervention"
      (input.field? "namespace") else []) ++
  (if eqString (input.field? "role") "readonly" &&
      !inStrings (input.field? "action") readOnlyActions then
    sprintf₁ "role 'readonly' cannot perform '" "' — only get/list/watch are permitted"
      (input.field? "action") else []) ++
  (if eqString (input.field? "role") "deployer" &&
      inStrings (input.field? "action") writeActions &&
      inStrings (input.field? "resource") sensitiveResources then
    sprintf₁ "mutations to '" "' are forbidden — secrets and RBAC resources require human review"
      (input.field? "resource") else []) ++
  (if !inStrings (input.field? "role") ["readonly", "deployer"] then
    sprintf₁ "unrecognised role '" "' — no allow rules matched" (input.field? "role") else []) ++
  payloadViolations input

/-- The values of the `reason` rules whose bodies hold. -/
def reasonValues (input : Json) : List String :=
  (if allow input then ["Allowed by policy."] else []) ++
  (if !allow input && (denyReasons input).length > 0 then
    [concatSet "; " (denyReasons input)] else []) ++
  (if !allow input && (denyReasons input).length == 0 then
    ["Denied: default deny — no allow rule matched."] else [])

/-- The answer of `POST /v1/data/agent/authz`, with the two documents of the package that
    the gateway reads. -/
def response (input : Json) : Json :=
  .obj [("result", .obj
    [("allow", .bool (allow input)), ("reason", .str ((reasonValues input).headD ""))])]

/-! ## What an allowed input looks like -/

/-- An allowed input has a read-only verb, or satisfies Rule C. -/
theorem allow_iff (input : Json) :
    allow input = true ↔
      (inStrings (input.field? "role") ["readonly", "deployer"] = true ∧
          inStrings (input.field? "action") readOnlyActions = true) ∨ allowC input = true := by
  have hrole : inStrings (input.field? "role") ["readonly", "deployer"] =
      (inStrings (input.field? "role") ["readonly"] ||
        inStrings (input.field? "role") ["deployer"]) := by
    unfold inStrings
    split <;> simp
  simp only [allow, allowA, allowB, hrole, Bool.or_eq_true, Bool.and_eq_true]
  tauto

/-- An image value that raises no violation: absent, empty, null or trusted. -/
def ImageAccepted (image : Option Json) : Prop :=
  image = none ∨ image = some .null ∨ image = some (.str "") ∨
    ∃ s, image = some (.str s) ∧ isTrustedImage (.str s) = true

theorem imageViolation_eq_nil_iff {input : Json}
    (hwrite : inStrings (input.field? "action") writeActions = true) :
    imageViolation input = [] ↔ ImageAccepted (ref₂ input "params" "image") := by
  unfold imageViolation ImageAccepted
  cases hx : ref₂ input "params" "image" with
  | none => simp
  | some image =>
    cases image with
    | null => simp [hwrite]
    | str s =>
      by_cases hs : s = ""
      · simp [hs, eqString]
      · cases ht : isTrustedImage (.str s) <;> simp [hwrite, hs, eqString, ht]
    -- `startswith` is undefined on anything but a string, so no other value is trusted.
    | _ => simp [hwrite, eqString, isTrustedImage, startsWithString]

theorem replicasViolation_eq_nil_iff {input : Json}
    (hwrite : inStrings (input.field? "action") writeActions = true) :
    replicasViolation input = [] ↔
      ∀ x, ref₂ input "params" "replicas" = some x → exceeds x maxReplicas = false := by
  unfold replicasViolation
  cases hx : ref₂ input "params" "replicas" with
  | none => simp
  | some x => simp [hwrite]

/-- What a clean payload of a write request looks like. -/
theorem payloadViolations_eq_nil_iff {input : Json}
    (hwrite : inStrings (input.field? "action") writeActions = true) :
    payloadViolations input = [] ↔
      (∀ rule ∈ fieldRules, ref₂ input "params" rule.1 ≠ some (.bool true)) ∧
        ImageAccepted (ref₂ input "params" "image") ∧
        ∀ x, ref₂ input "params" "replicas" = some x → exceeds x maxReplicas = false := by
  -- Every rule starts with the test of the verb, which holds here.
  have hfield : ∀ rule : String × String, fieldViolation input rule.1 rule.2 = [] ↔
      ref₂ input "params" rule.1 ≠ some (.bool true) := by
    intro rule
    rw [← not_iff_not, not_not, ← eqTrue_iff]
    simp [fieldViolation, hwrite]
  simp only [payloadViolations, List.append_eq_nil_iff, List.flatMap_eq_nil_iff, hfield,
    imageViolation_eq_nil_iff hwrite, replicasViolation_eq_nil_iff hwrite, and_assoc]

end Rules

end AiK8sGateway.Policies.AgentActions
