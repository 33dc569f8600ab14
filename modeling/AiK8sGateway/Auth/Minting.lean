import AiK8sGateway.Auth.JwtHandler

/-!
# Token Minting

`app/auth/jwt_handler.py`, the minting half: the agents and `create_token`.
`jose.jwt.encode` is a parameter, as `jose.jwt.decode` is.

## Main results

- `known_of_verified`: a verified token that `create_token` minted is one of an agent.
-/

namespace AiK8sGateway.Auth

open Foundations PythonText

/-- An entry of `AGENT_IDENTITIES`. -/
structure AgentIdentity where
  role : String
  sub : String

/-- `AGENT_IDENTITIES`. -/
def agentIdentities : List (String × AgentIdentity) :=
  [("agent-readonly", ⟨"readonly", "agent-readonly"⟩), ("agent-deploy", ⟨"deployer", "agent-deploy"⟩)]

/-- `jose.jwt.encode(payload, key, algorithm)`. -/
abbrev JwtEncode := JsonDict → String → String → Except PyExc String

/-- The payload that `create_token` signs at the second `now`.  The two datetimes are
    encoded as seconds. -/
def tokenClaims (identity : AgentIdentity) (jti : String) (now ttlMinutes : Int) : JsonDict :=
  ⟨[("sub", .str identity.sub), ("role", .str identity.role), ("jti", .str jti),
    ("iat", .int now), ("exp", .int (now + 60 * ttlMinutes))], by simp⟩

section Tokens

variable [CharTables]

/-- `create_token`, with `settings.jwt_ttl_minutes` as an argument. -/
def createToken (encode : JwtEncode) (settings : Settings) (ttlMinutes : Int)
    (agentId jti : String) (now : Int) : Except PyExc String :=
  match agentIdentities.lookup agentId with
  | none => .error (.builtin (.valueError
      ("Unknown agent identity: " ++ (Json.str agentId).repr ++ ". Valid options: " ++
        reprStrings (agentIdentities.map Prod.fst))))
  | some identity =>
    encode (tokenClaims identity jti now ttlMinutes) settings.jwtSecret settings.jwtAlgorithm

/-- What `decode` accepts under the gateway's key was signed by `create_token`, and is what
    it signed. -/
def AcceptsMinted (encode : JwtEncode) (settings : Settings) (ttlMinutes : Int)
    (decode : JwtDecode) : Prop :=
  ∀ token claims, decode token settings.jwtSecret [settings.jwtAlgorithm] = .ok claims →
    ∃ agentId jti now identity, agentIdentities.lookup agentId = some identity ∧
      claims = tokenClaims identity jti now ttlMinutes ∧
      createToken encode settings ttlMinutes agentId jti now = .ok token

/-- The `sub` and the `role` of one of the agents. -/
def Known (sub role : Json) : Prop :=
  ∃ agent ∈ agentIdentities, sub = .str agent.2.sub ∧ role = .str agent.2.role

/-- A verified token that was minted is one of an agent. -/
theorem known_of_verified {encode : JwtEncode} {settings : Settings} {ttlMinutes : Int}
    {decode : JwtDecode} (haccepts : AcceptsMinted encode settings ttlMinutes decode)
    {credentials : String} {token : TokenPayload}
    (hverify : verifyToken decode settings credentials = .ok token) :
    Known token.sub token.role := by
  obtain ⟨agentId, jti, now, identity, hlookup, hclaims, -⟩ :=
    haccepts _ _ (verifyToken_ok hverify)
  obtain ⟨pre, post, hsplit, -⟩ := List.lookup_eq_some_iff.mp hlookup
  refine ⟨(agentId, identity), by simp [hsplit], ?_, ?_⟩
  · have hsub := token.sub_claim
    rw [hclaims] at hsub
    exact (Option.some.inj hsub).symm
  · have hrole := token.role_claim
    rw [hclaims] at hrole
    exact (Option.some.inj hrole).symm

end Tokens

/-- The role of an agent tells which one it is. -/
theorem sub_of_known {sub : Json} (h : Known sub (.str "deployer")) :
    sub = .str "agent-deploy" := by
  obtain ⟨agent, hmem, rfl, hrole⟩ := h
  have hall : ∀ agent ∈ agentIdentities, agent.2.role = "deployer" →
      agent.2.sub = "agent-deploy" := by decide
  rw [hall agent hmem (Json.str.inj hrole).symm]

end AiK8sGateway.Auth
