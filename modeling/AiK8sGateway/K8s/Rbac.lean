import AiK8sGateway.K8s.Client

/-!
# The Gateway's ClusterRole

`charts/ai-k8s-gateway/templates/rbac.yaml`, and what an SDK call needs of it.
-/

namespace AiK8sGateway.K8s

/-- One entry of `rules`. -/
structure PolicyRule where
  apiGroups : List String
  resources : List String
  verbs : List String

/-- The rules of the ClusterRole. -/
def clusterRole : List PolicyRule :=
  [⟨[""], ["pods"], ["get", "list", "watch"]⟩,
    ⟨["apps"], ["deployments"], ["get", "list", "watch", "create", "update", "patch"]⟩,
    ⟨[""], ["secrets", "namespaces", "configmaps"], ["list"]⟩]

/-- The API group, the resource and the verb that an SDK call is authorised by. -/
def SdkCall.permission : SdkCall → String × String × String
  | listNamespacedPod _ => ("", "pods", "list")
  | readNamespacedPod _ _ => ("", "pods", "get")
  | deleteNamespacedPod _ _ => ("", "pods", "delete")
  | listNamespacedDeployment _ => ("apps", "deployments", "list")
  | readNamespacedDeployment _ _ => ("apps", "deployments", "get")
  | createNamespacedDeployment _ _ => ("apps", "deployments", "create")
  | patchNamespacedDeployment _ _ _ => ("apps", "deployments", "patch")
  | deleteNamespacedDeployment _ _ => ("apps", "deployments", "delete")
  | listNamespacedSecret _ => ("", "secrets", "list")
  | listNamespace => ("", "namespaces", "list")
  | listNamespacedConfigMap _ => ("", "configmaps", "list")

/-- Some rule grants the permission of the call. -/
def covers (rules : List PolicyRule) (call : SdkCall) : Bool :=
  rules.any fun rule =>
    rule.apiGroups.contains call.permission.1 && rule.resources.contains call.permission.2.1 &&
      rule.verbs.contains call.permission.2.2

/-- The call deletes an object. -/
def SdkCall.isDelete : SdkCall → Bool
  | deleteNamespacedPod _ _ => true
  | deleteNamespacedDeployment _ _ => true
  | _ => false

/-- The namespace that a call mutates. -/
def SdkCall.mutatedNamespace? : SdkCall → Option String
  | createNamespacedDeployment namespace_ _ => some namespace_
  | patchNamespacedDeployment _ namespace_ _ => some namespace_
  | deleteNamespacedPod _ namespace_ => some namespace_
  | deleteNamespacedDeployment _ namespace_ => some namespace_
  | _ => none

/-- The deployment that a call writes. -/
def SdkCall.deployment? : SdkCall → Option V1Deployment
  | createNamespacedDeployment _ body => some body
  | patchNamespacedDeployment _ _ body => some body
  | _ => none

/-- The role grants everything the dispatch table does except the deletions. -/
theorem covers_clusterRole_iff (call : SdkCall) :
    covers clusterRole call = true ↔ call.isDelete = false := by
  cases call <;> simp [covers, clusterRole, SdkCall.permission, SdkCall.isDelete]

/-! ## What the dispatch table says about a call -/

section Dispatch

open Foundations PythonText

variable [CharTables] [ModelValidation] {t : Target} {params : JsonDict} {call : SdkCall}

/-- Only the verb `delete` deletes. -/
theorem DispatchCall.action_of_isDelete (h : DispatchCall t params call)
    (hdelete : call.isDelete = true) : t.action = "delete" := by
  cases h with
  | deletePod _ ha => exact ha
  | deleteDeployment _ ha => exact ha
  | _ => cases hdelete

/-- A deployment is written by `create`, `update` and `patch` only, and it is the one
    that `_build_deployment` makes of the params. -/
theorem DispatchCall.of_deployment (h : DispatchCall t params call) {body : V1Deployment}
    (hbody : call.deployment? = some body) :
    t.action ∈ ["create", "update", "patch"] ∧ buildDeployment params = .ok body := by
  cases h with
  | createDeployment _ ha hbuild =>
    cases hbody
    exact ⟨by simp [ha], hbuild⟩
  | patchDeployment _ ha hbuild =>
    cases hbody
    refine ⟨?_, hbuild⟩
    rcases ha with ha | ha <;> simp [ha]
  | _ => cases hbody

/-- A mutation happens in the target's namespace.  Without a deletion it is the one of
    a deployment. -/
theorem DispatchCall.of_mutated (h : DispatchCall t params call) {namespace_ : String}
    (hmutated : call.mutatedNamespace? = some namespace_) :
    t.namespace = namespace_ ∧ (t.action = "delete" ∨
      (t.action ∈ ["create", "update", "patch"] ∧
        t.resource ∈ ["deployments", "deployment"])) := by
  cases h with
  | createDeployment hr ha _ =>
    cases hmutated
    exact ⟨rfl, .inr ⟨by simp [ha], hr⟩⟩
  | patchDeployment hr ha _ =>
    cases hmutated
    refine ⟨rfl, .inr ⟨?_, hr⟩⟩
    rcases ha with ha | ha <;> simp [ha]
  | deletePod _ ha =>
    cases hmutated
    exact ⟨rfl, .inl ha⟩
  | deleteDeployment _ ha =>
    cases hmutated
    exact ⟨rfl, .inl ha⟩
  | _ => cases hmutated

end Dispatch

end AiK8sGateway.K8s
