import AiK8sGateway.Foundations.PythonText
import AiK8sGateway.Foundations.OrderedDict
import AiK8sGateway.Foundations.PythonValue
import AiK8sGateway.Foundations.EffectProgram
import AiK8sGateway.Foundations.Interleaving
import AiK8sGateway.Config
import AiK8sGateway.Risk.Scorer
import AiK8sGateway.Foundations.RegoValue
import AiK8sGateway.Policies.AgentActions
import AiK8sGateway.K8s.Client
import AiK8sGateway.Auth.JwtHandler
import AiK8sGateway.Audit.Logger
import AiK8sGateway.Approval.Queue
import AiK8sGateway.Main
import AiK8sGateway.Gateway.Traces
import AiK8sGateway.Gateway.System
import AiK8sGateway.Gateway.Sequential
import AiK8sGateway.Gateway.PolicyReply
import AiK8sGateway.Gateway.Mediation
import AiK8sGateway.K8s.Rbac
import AiK8sGateway.Gateway.ShippedPolicy
import AiK8sGateway.Gateway.Payload
import AiK8sGateway.Gateway.Normalisation
import AiK8sGateway.Gateway.Outcomes
import AiK8sGateway.Gateway.HumanApproval
import AiK8sGateway.AgentClient
import AiK8sGateway.Gateway.ClientAgreement
import AiK8sGateway.Foundations.PythonRepr
import AiK8sGateway.Foundations.StrategicMerge
import AiK8sGateway.Foundations.Cooperative
import AiK8sGateway.Risk.Inspection
import AiK8sGateway.K8s.Manifest
import AiK8sGateway.K8s.Gatekeeper
import AiK8sGateway.K8s.Patch
import AiK8sGateway.Gateway.PolicyDecision
import AiK8sGateway.Gateway.ScorerPolicy
import AiK8sGateway.Gateway.Admission
import AiK8sGateway.Gateway.ImageTrust
import AiK8sGateway.Gateway.AuditTrail
import AiK8sGateway.Foundations.Lockstep
import AiK8sGateway.K8s.Redaction
import AiK8sGateway.Gateway.SecretData
import AiK8sGateway.Risk.Explanation
import AiK8sGateway.Risk.Padding
import AiK8sGateway.Foundations.PendingLog
import AiK8sGateway.Approval.PendingSet
import AiK8sGateway.Gateway.QueueContents
import AiK8sGateway.Foundations.LineLog
import AiK8sGateway.Foundations.JsonText
import AiK8sGateway.Audit.LogFile
import AiK8sGateway.Foundations.FixedReplies
import AiK8sGateway.K8s.Failures
import AiK8sGateway.Gateway.ExecutionErrors
import AiK8sGateway.Foundations.Atomicity
import AiK8sGateway.Gateway.Linearization
import AiK8sGateway.Gateway.Specification
import AiK8sGateway.Gateway.Answers
import AiK8sGateway.Foundations.Fleet
import AiK8sGateway.Gateway.Fleet
import AiK8sGateway.Gateway.Escalation
import AiK8sGateway.Foundations.JsonDecoder
import AiK8sGateway.Foundations.JsonStructure
import AiK8sGateway.Foundations.NumberText
import AiK8sGateway.Foundations.JsonRoundTrip
import AiK8sGateway.Foundations.LineGroups
import AiK8sGateway.Foundations.JsonFragments
import AiK8sGateway.Foundations.JsonCuts
import AiK8sGateway.Audit.Reader
import AiK8sGateway.Gateway.AuditFile
import AiK8sGateway.K8s.Execution
import AiK8sGateway.Gateway.SdkCalls
import AiK8sGateway.Gateway.TypedCalls
import AiK8sGateway.Gateway.Retries
import AiK8sGateway.Gateway.Identities
import AiK8sGateway.Gateway.OperatorCalls
