import AiK8sGateway.Foundations.PythonValue

/-!
# Settings, Exceptions and Request Targets

`app/config.py`, the exception classes that cross module boundaries, and the
(action, resource, namespace) triple that the scorer, the policy query and the
Kubernetes client each normalise in their own way.
-/

namespace AiK8sGateway

open Foundations

/-- `app.config.Settings`: the fields that the modelled code reads. -/
structure Settings where
  jwtSecret : String := "dev-secret-change-in-production"
  jwtAlgorithm : String := "HS256"
  opaUrl : String := "http://localhost:8181"
  opaPolicyPath : String := "v1/data/agent/authz"
  trustedImagePrefixes : List String :=
    ["nginx:", "python:", "alpine:", "busybox:", "gcr.io/", "quay.io/", "registry.k8s.io/"]
  maxReplicasThreshold : Int := 10

/-- The default settings. -/
def Settings.default : Settings := {}

/-- The exceptions that Python and the libraries raise into gateway code. -/
inductive PyExc where
  | builtin (e : BuiltinError)
  /-- `json.JSONDecodeError`, a `ValueError`. -/
  | jsonDecodeError (msg : String)
  /-- `kubernetes.client.rest.ApiException`. -/
  | apiException (status : Option Int) (reason : Option String) (body : String)
  /-- `kubernetes.config.ConfigException`. -/
  | configException (msg : String)
  /-- `jose.JWTError`. -/
  | jwtError (msg : String)
  /-- `httpx.RequestError`: the request got no response. -/
  | requestError (msg : String)
  /-- `httpx.HTTPStatusError`, raised by `raise_for_status`. -/
  | httpStatusError (statusCode : Nat)
  /-- Any other exception, by its class name. -/
  | other (name : String)

namespace PyExc

/-- `isinstance(exc, ValueError)`. -/
def isValueError : PyExc → Bool
  | builtin (.valueError _) => true
  | jsonDecodeError _ => true
  | _ => false

/-- `str(exc)` of a `ValueError`, the only ones whose text the gateway reads. -/
def message : PyExc → String
  | builtin (.valueError msg) => msg
  | jsonDecodeError msg => msg
  | _ => ""

end PyExc

/-- What a handler may end with: `fastapi.HTTPException`, raised on purpose, or an
    exception that nothing caught. -/
inductive HandlerExc where
  | httpException (statusCode : Nat) (detail : Json) (headers : List (String × String))
  | uncaught (e : PyExc)

/-- An (action, resource, namespace) triple. -/
structure Target where
  action : String
  resource : String
  «namespace» : String
  deriving DecidableEq

end AiK8sGateway
