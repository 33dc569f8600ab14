import AiK8sGateway.Approval.Queue
import AiK8sGateway.Foundations.PendingLog

/-!
# The Queue as a Pending Set

Any sequence of calls of the queue's methods, which its lock puts in some order.  The
queue is compared with what the calls themselves say is pending: a request that was
enqueued, and whose id was not resolved since.

## Main results

- `queue_after`: the dictionary of the queue is the one of the changes made by the calls.
- `mem_pendingOf_iff`: the pending requests in terms of the calls.
- `correctPendingSet`: every method answers as the pending requests demand.
-/

namespace AiK8sGateway.Approval

open Foundations

/-! ## Calls -/

/-- A call of a method of the queue. -/
inductive QueueOp where
  | enqueue (request : PendingRequest)
  | resolve (requestId : String)
  | peek (requestId : String)
  | listPending
  | size

/-- What the method returns. -/
def QueueOp.Reply : QueueOp → Type
  | enqueue _ => String
  | resolve _ => Option PendingRequest
  | peek _ => Option PendingRequest
  | listPending => List Json
  | size => Nat

/-- The reply to a call and the queue after it. -/
def ApprovalQueue.call (q : ApprovalQueue) : (op : QueueOp) → op.Reply × ApprovalQueue
  | .enqueue request => q.enqueue request
  | .resolve requestId => q.resolve requestId
  | .peek requestId => (q.peek requestId, q)
  | .listPending => (q.listPending, q)
  | .size => (q.size, q)

/-- The queue after a sequence of calls. -/
def after (ops : List QueueOp) : ApprovalQueue :=
  ops.foldl (fun q op => (q.call op).2) .empty

@[simp] theorem after_snoc (ops : List QueueOp) (op : QueueOp) :
    after (ops ++ [op]) = ((after ops).call op).2 := List.foldl_concat ..

/-- The request that a call enqueues. -/
def QueueOp.enqueued? : QueueOp → Option PendingRequest
  | enqueue request => some request
  | _ => none

/-- The request ids that are enqueued are pairwise distinct. -/
def DistinctIds (ops : List QueueOp) : Prop :=
  ((ops.filterMap QueueOp.enqueued?).map PendingRequest.requestId).Nodup

/-- The request was enqueued, and its id was not resolved since. -/
def IsPending (ops : List QueueOp) (request : PendingRequest) : Prop :=
  ∃ pre post, ops = pre ++ .enqueue request :: post ∧ .resolve request.requestId ∉ post

/-! ## The changes that calls make -/

/-- The change that a call makes, if it makes one. -/
def QueueOp.change? : QueueOp → Option (Change PendingRequest String)
  | enqueue request => some (.add request)
  | resolve requestId => some (.take requestId)
  | _ => none

/-- The changes of a sequence of calls. -/
def changes (ops : List QueueOp) : List (Change PendingRequest String) :=
  ops.filterMap QueueOp.change?

/-- The requests that are pending after a sequence of calls, as they were enqueued. -/
def pendingOf (ops : List QueueOp) : List PendingRequest :=
  Change.pending PendingRequest.requestId (changes ops)

theorem added_changes (ops : List QueueOp) :
    (changes ops).filterMap Change.added? = ops.filterMap QueueOp.enqueued? := by
  rw [changes, List.filterMap_filterMap]
  apply List.filterMap_congr
  intro op _
  cases op <;> rfl

theorem distinctKeys_changes {ops : List QueueOp} (h : DistinctIds ops) :
    Change.DistinctKeys PendingRequest.requestId (changes ops) := by
  rwa [Change.DistinctKeys, added_changes]

/-- The dictionary of the queue is the one of the changes. -/
theorem queue_after (ops : List QueueOp) :
    (after ops).queue = Change.run PendingRequest.requestId (changes ops) := by
  induction ops using List.reverseRecOn with
  | nil => rfl
  | append_singleton ops op ih =>
    rw [after_snoc, changes, List.filterMap_append]
    cases op with
    | enqueue request =>
      show (after ops).queue.set _ _ = Change.run _ (changes ops ++ [.add request])
      rw [ih, Change.run_snoc]
      rfl
    | resolve requestId =>
      show (after ops).queue.erase _ = Change.run _ (changes ops ++ [.take requestId])
      rw [ih, Change.run_snoc]
      rfl
    | peek _ | listPending | size =>
      show (after ops).queue = Change.run _ (changes ops ++ [])
      rw [ih, List.append_nil]

theorem take_mem_changes_iff {ops : List QueueOp} {i : String} :
    .take i ∈ changes ops ↔ .resolve i ∈ ops := by
  rw [changes, List.mem_filterMap]
  constructor
  · intro h
    obtain ⟨op, hop, hchange⟩ := h
    cases op with
    | resolve i' =>
      cases hchange
      exact hop
    | enqueue _ | peek _ | listPending | size => cases hchange
  · intro hmem
    exact ⟨.resolve i, hmem, rfl⟩

/-- **Pending requests**: those enqueued whose id was not resolved since. -/
theorem mem_pendingOf_iff (ops : List QueueOp) (request : PendingRequest) :
    request ∈ pendingOf ops ↔ IsPending ops request := by
  rw [pendingOf, Change.mem_pending_iff]
  constructor
  · intro h
    obtain ⟨pre, post, hchanges, hpost⟩ := h
    -- The change was made by a call, which splits the calls in the same way.
    obtain ⟨opsPre, rest, rfl, -, hrest⟩ := List.filterMap_eq_append_iff.mp hchanges
    obtain ⟨silent, op, opsPost, rfl, -, hop, rfl⟩ := List.filterMap_eq_cons_iff.mp hrest
    cases op with
    | enqueue request' =>
      cases hop
      refine ⟨opsPre ++ silent, opsPost, (List.append_assoc ..).symm, ?_⟩
      exact fun hmem => hpost (take_mem_changes_iff.mpr hmem)
    | resolve _ | peek _ | listPending | size => cases hop
  · intro h
    obtain ⟨pre, post, rfl, hpost⟩ := h
    refine ⟨changes pre, changes post, List.filterMap_append, ?_⟩
    exact fun hmem => hpost (take_mem_changes_iff.mp hmem)

/-! ## Every call answers as it should -/

/-- After the calls, every method of the queue answers as the pending requests demand. -/
structure CorrectPendingSet (ops : List QueueOp) : Prop where
  /-- The pending requests are those enqueued and not resolved since. -/
  pending_iff : ∀ request, request ∈ pendingOf ops ↔ IsPending ops request
  /-- They are there once each. -/
  once : ((pendingOf ops).map PendingRequest.requestId).Nodup
  /-- They stand in the order in which they were enqueued. -/
  ordered : (pendingOf ops).Sublist (ops.filterMap QueueOp.enqueued?)
  listed : ((after ops).call .listPending).1 = (pendingOf ops).map PendingRequest.toDict
  counted : ((after ops).call .size).1 = (pendingOf ops).length
  /-- Looking changes nothing. -/
  unchanged : ∀ i, ((after ops).call (.peek i)).2 = after ops ∧
    ((after ops).call .listPending).2 = after ops ∧ ((after ops).call .size).2 = after ops
  /-- Peeking shows what resolving would return. -/
  peeked : ∀ i, ((after ops).call (.peek i)).1 = ((after ops).call (.resolve i)).1
  /-- Resolving returns the pending request with the id, as it was enqueued. -/
  resolved : ∀ i request, ((after ops).call (.resolve i)).1 = some request ↔
    request.requestId = i ∧ IsPending ops request
  /-- Resolving in vain changes nothing. -/
  unresolved : ∀ i, ((after ops).call (.resolve i)).1 = none →
    ((after ops).call (.resolve i)).2 = after ops

theorem peek_after_iff {ops : List QueueOp} (h : DistinctIds ops) {i : String}
    {request : PendingRequest} :
    (after ops).peek i = some request ↔ request.requestId = i ∧ IsPending ops request := by
  rw [ApprovalQueue.peek, queue_after, Change.get?_run_iff _ (distinctKeys_changes h),
    ← mem_pendingOf_iff, pendingOf]

/-- What is not there is resolved without an effect. -/
theorem ApprovalQueue.resolve_of_peek {q : ApprovalQueue} {i : String} (h : q.peek i = none) :
    (q.resolve i).2 = q := by
  obtain ⟨queue, keyed⟩ := q
  simp only [resolve, OrderedDict.erase_of_get? h]

/-- **The queue is a pending set**: after any sequence of calls under distinct ids. -/
theorem correctPendingSet {ops : List QueueOp} (h : DistinctIds ops) : CorrectPendingSet ops where
  pending_iff := mem_pendingOf_iff ops
  once := Change.nodup_pending _ (distinctKeys_changes h)
  ordered := by
    rw [← added_changes]
    exact Change.pending_sublist _ _
  listed := by
    show (after ops).queue.values.map _ = _
    rw [queue_after, Change.values_run _ (distinctKeys_changes h), pendingOf]
  counted := by
    show (after ops).queue.size = _
    rw [queue_after, Change.size_run _ (distinctKeys_changes h), pendingOf]
  unchanged _ := ⟨rfl, rfl, rfl⟩
  peeked _ := rfl
  resolved _ _ := peek_after_iff h
  unresolved _ := ApprovalQueue.resolve_of_peek

end AiK8sGateway.Approval
