import AiK8sGateway.Risk.Scorer

/-!
# Human-Approval Queue

`app/approval/queue.py`.  The dictionary of the source maps a request id to its
pending request; that every entry sits under its own id is a field of the model.

## Main results

- `peek_enqueue`, `peek_resolve`: what each operation does to every id.
- `values_enqueue`, `values_resolve`: what it does to the list of pending requests.
-/

namespace AiK8sGateway.Approval

open Foundations

/-- `PendingRequest`.  `queuedAt` is the clock reading of its construction. -/
structure PendingRequest where
  requestId : String
  identity : Json
  role : Json
  action : String
  resource : String
  «namespace» : String
  params : JsonDict
  riskLevel : Risk.RiskLevel
  riskScore : Int
  riskReasons : List String
  queuedAt : String

/-- `PendingRequest.to_dict`. -/
def PendingRequest.toDict (r : PendingRequest) : Json :=
  .obj [("request_id", .str r.requestId), ("identity", r.identity), ("role", r.role),
    ("action", .str r.action), ("resource", .str r.resource), ("namespace", .str r.namespace),
    ("params", r.params.toJson), ("risk_level", .str r.riskLevel.value),
    ("risk_score", .int r.riskScore), ("risk_reasons", .arr (r.riskReasons.map .str)),
    ("queued_at", .str r.queuedAt)]

/-- `ApprovalQueue`: pending requests in enqueue order, each under its own id. -/
structure ApprovalQueue where
  queue : OrderedDict String PendingRequest
  keyed : ∀ e ∈ queue.entries, e.2.requestId = e.1

namespace ApprovalQueue

/-- The empty queue. -/
def empty : ApprovalQueue := ⟨OrderedDict.empty, nofun⟩

/-- `enqueue`: the request id, for convenience, and the queue with the request. -/
def enqueue (q : ApprovalQueue) (request : PendingRequest) : String × ApprovalQueue :=
  (request.requestId,
    ⟨q.queue.set request.requestId request, by
      intro e he
      rcases OrderedDict.mem_setEntries he with rfl | he
      · rfl
      · exact q.keyed e he⟩)

/-- `list_pending`. -/
def listPending (q : ApprovalQueue) : List Json := q.queue.values.map PendingRequest.toDict

/-- `resolve`: the entry if there is one, and the queue without it. -/
def resolve (q : ApprovalQueue) (requestId : String) : Option PendingRequest × ApprovalQueue :=
  (q.queue.get? requestId,
    ⟨q.queue.erase requestId, fun e he => q.keyed e (List.mem_of_mem_filter he)⟩)

/-- `peek`. -/
def peek (q : ApprovalQueue) (requestId : String) : Option PendingRequest :=
  q.queue.get? requestId

/-- `size`. -/
def size (q : ApprovalQueue) : Nat := q.queue.size

/-! ## What the operations do to an id -/

@[simp] theorem peek_empty (i : String) : empty.peek i = none := rfl

theorem peek_enqueue (q : ApprovalQueue) (r : PendingRequest) (i : String) :
    (q.enqueue r).2.peek i = if i = r.requestId then some r else q.peek i :=
  OrderedDict.get?_set q.queue r.requestId r i

@[simp] theorem resolve_fst (q : ApprovalQueue) (i : String) : (q.resolve i).1 = q.peek i := rfl

theorem peek_resolve (q : ApprovalQueue) (j i : String) :
    (q.resolve j).2.peek i = if i = j then none else q.peek i :=
  OrderedDict.get?_erase q.queue j i

/-- A pending request is found under its own id only. -/
theorem requestId_of_peek {q : ApprovalQueue} {i : String} {r : PendingRequest}
    (h : q.peek i = some r) : r.requestId = i :=
  q.keyed (i, r) (OrderedDict.mem_of_get? h)

/-! ## The pending requests in their order -/

/-- A pending request is one of the values, under its own id. -/
theorem peek_eq_some_iff {q : ApprovalQueue} {i : String} {r : PendingRequest} :
    q.peek i = some r ↔ r ∈ q.queue.values ∧ r.requestId = i := by
  rw [peek, OrderedDict.get?_eq_some_iff]
  constructor
  · intro hmem
    exact ⟨List.mem_map.mpr ⟨_, hmem, rfl⟩, q.keyed _ hmem⟩
  · rintro ⟨hmem, rfl⟩
    obtain ⟨e, he, rfl⟩ := List.mem_map.mp hmem
    rwa [q.keyed e he]

theorem peek_eq_none_iff {q : ApprovalQueue} {i : String} :
    q.peek i = none ↔ ∀ r ∈ q.queue.values, r.requestId ≠ i := by
  rw [Option.eq_none_iff_forall_ne_some]
  constructor
  · intro h r hr hid
    exact h r (peek_eq_some_iff.mpr ⟨hr, hid⟩)
  · intro h r hpeek
    obtain ⟨hr, hid⟩ := peek_eq_some_iff.mp hpeek
    exact h r hr hid

/-- A request with a new id goes to the end. -/
theorem values_enqueue {q : ApprovalQueue} {r : PendingRequest} (hnew : q.peek r.requestId = none) :
    (q.enqueue r).2.queue.values = q.queue.values ++ [r] := by
  have hkey : r.requestId ∉ q.queue.entries.map Prod.fst := by
    intro hmem
    obtain ⟨e, he, hid⟩ := List.mem_map.mp hmem
    refine peek_eq_none_iff.mp hnew e.2 (List.mem_map.mpr ⟨e, he, rfl⟩) ?_
    rw [q.keyed e he, hid]
  show (OrderedDict.setEntries _ _ q.queue.entries).map Prod.snd = _
  rw [OrderedDict.setEntries_of_new hkey, List.map_append]
  rfl

/-- A request that is resolved is gone, and the others stay where they are. -/
theorem values_resolve (q : ApprovalQueue) (i : String) :
    (q.resolve i).2.queue.values = q.queue.values.filter (·.requestId ≠ i) := by
  show (q.queue.entries.filter _).map Prod.snd = (q.queue.entries.map Prod.snd).filter _
  rw [List.filter_map]
  congr 1
  refine List.filter_congr fun e he => ?_
  rw [Function.comp_apply, q.keyed e he]

end ApprovalQueue

end AiK8sGateway.Approval
