import AiK8sGateway.Risk.Scorer

/-!
# Audit Records

`app/audit/logger.py`: the record that one call of `log` appends.  The call itself
swallows every write error, so a handler only ever sees it return.
-/

namespace AiK8sGateway.Audit

open Foundations

/-- The values of `decision`. -/
inductive Decision where
  | allow
  | deny
  | pendingApproval
  | humanAllow
  | humanDeny
  deriving DecidableEq

/-- The string constant of a decision. -/
def Decision.value : Decision → String
  | allow => "allow"
  | deny => "deny"
  | pendingApproval => "pending-approval"
  | humanAllow => "human-allow"
  | humanDeny => "human-deny"

/-- The arguments of one call of `log`. -/
structure AuditRecord where
  requestId : String
  identity : Json
  role : Json
  action : String
  resource : String
  «namespace» : String
  params : JsonDict
  riskLevel : Risk.RiskLevel
  riskScore : Int
  riskReasons : List String
  decision : Decision
  opaReason : Option String := none
  error : Option String := none

end AiK8sGateway.Audit
