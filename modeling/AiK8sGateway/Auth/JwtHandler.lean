import AiK8sGateway.Config

/-!
# Token Verification

`app/auth/jwt_handler.py`, the verifying half.  `jose.jwt.decode` is outside the
repository and is a parameter: what it returns or raises for a token, a key and a
list of algorithms at the time of the call.

## Main results

- `verifyToken_error`: a refusal is the one 401 error, unless `decode` itself failed
  with something other than a `JWTError`.
- `verifyToken_ok`: a verified payload is what `decode` returned for the token.
-/

namespace AiK8sGateway.Auth

open Foundations

/-- `jose.jwt.decode(token, key, algorithms)`. -/
abbrev JwtDecode := String → String → List String → Except PyExc JsonDict

/-- `payload.get(key)` when it is not `None`. -/
def claim? (payload : JsonDict) (key : String) :
    Option {v : Json // payload.get? key = some v ∧ v.isNull = false} :=
  (payload.get? key).attach.bind fun v =>
    if hv : v.1.isNull = false then some ⟨v.1, v.2, hv⟩ else none

/-- A verified payload: its `sub` and `role` claims are there and are not `None`. -/
structure TokenPayload where
  claims : JsonDict
  sub : Json
  role : Json
  sub_claim : claims.get? "sub" = some sub
  role_claim : claims.get? "role" = some role
  sub_notNull : sub.isNull = false
  role_notNull : role.isNull = false

/-- The one error of `verify_token`. -/
def authError : HandlerExc :=
  .httpException 401 (.str "Invalid or expired token. Include a valid Bearer JWT.")
    [("WWW-Authenticate", "Bearer")]

/-- `verify_token`. -/
def verifyToken (decode : JwtDecode) (settings : Settings) (credentials : String) :
    Except HandlerExc TokenPayload :=
  match decode credentials settings.jwtSecret [settings.jwtAlgorithm] with
  -- Expired, forged and malformed tokens all end here.
  | .error (.jwtError _) => .error authError
  | .error e => .error (.uncaught e)
  | .ok payload =>
    match claim? payload "sub", claim? payload "role" with
    | some sub, some role =>
      .ok ⟨payload, sub, role, sub.2.1, role.2.1, sub.2.2, role.2.2⟩
    -- A claim that is missing or `None`.
    | _, _ => .error authError

/-- What `verify_token` raises is its own 401 error, or whatever `decode` raised that
    is not a `JWTError`. -/
theorem verifyToken_error {decode : JwtDecode} {settings : Settings} {credentials : String}
    {e : HandlerExc} (h : verifyToken decode settings credentials = .error e) :
    e = authError ∨ ∃ e', e = .uncaught e' ∧
      decode credentials settings.jwtSecret [settings.jwtAlgorithm] = .error e' ∧
        ∀ msg, e' ≠ .jwtError msg := by
  unfold verifyToken at h
  split at h
  · cases h
    exact .inl rfl
  · rename_i e' hne hdecode
    cases h
    exact .inr ⟨e', rfl, hdecode, hne⟩
  · split at h
    · cases h
    · cases h
      exact .inl rfl

/-- The payload of a verified token is the one `decode` returned. -/
theorem verifyToken_ok {decode : JwtDecode} {settings : Settings} {credentials : String}
    {token : TokenPayload} (h : verifyToken decode settings credentials = .ok token) :
    decode credentials settings.jwtSecret [settings.jwtAlgorithm] = .ok token.claims := by
  unfold verifyToken at h
  split at h
  · cases h
  · cases h
  · rename_i payload hdecode
    split at h
    · cases h
      exact hdecode
    · cases h

end AiK8sGateway.Auth
