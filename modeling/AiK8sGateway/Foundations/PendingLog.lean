import AiK8sGateway.Foundations.OrderedDict
import Mathlib.Data.List.Induction

/-!
# Pending Items

Items are added, and taken out again by their keys.  What is pending after a log of such
changes is read off the log alone: an item that was added and whose key was not taken
since.  A dictionary that assigns and erases accordingly holds the pending items in the
order in which they were added, as long as no key is added twice.

## Main results

- `pending_snoc_add`, `pending_snoc_take`: what one change does to the pending items.
- `mem_pending_iff`: the pending items are those added and not taken since.
- `entries_run`: the dictionary refines the pending items.
-/

namespace AiK8sGateway.Foundations

/-- A change of a collection of items with keys. -/
inductive Change (α κ : Type) where
  | add (a : α)
  | take (k : κ)

namespace Change

variable {α κ : Type} {log : List (Change α κ)}

/-- The item that a change adds. -/
def added? : Change α κ → Option α
  | add a => some a
  | take _ => none

section Pending

variable [DecidableEq κ] (key : α → κ)

/-- The change takes this key. -/
def takes (k : κ) : Change α κ → Bool
  | add _ => false
  | take k' => k' = k

/-- The items that were added and not taken since, as they were added. -/
def pending : List (Change α κ) → List α
  | [] => []
  | add a :: log => if log.any (takes (key a)) then pending log else a :: pending log
  | take _ :: log => pending log

theorem any_takes_iff {k : κ} : log.any (takes k) = true ↔ take k ∈ log := by
  rw [List.any_eq_true]
  constructor
  · intro h
    obtain ⟨c, hc, htakes⟩ := h
    cases c with
    | add a => cases htakes
    | take k' => rwa [← of_decide_eq_true htakes]
  · intro hmem
    exact ⟨take k, hmem, decide_eq_true rfl⟩

/-! ## One change -/

/-- What is added comes last. -/
theorem pending_snoc_add (log : List (Change α κ)) (a : α) :
    pending key (log ++ [add a]) = pending key log ++ [a] := by
  induction log with
  | nil => rfl
  | cons c log ih =>
    cases c with
    | take k => exact ih
    | add b =>
      -- Adding takes no key, so it changes nothing about `b`.
      have hany : (log ++ [add a]).any (takes (key b)) = log.any (takes (key b)) := by
        simp [takes]
      rw [List.cons_append, pending, pending, hany, ih]
      split <;> rfl

/-- What is taken is gone. -/
theorem pending_snoc_take (log : List (Change α κ)) (k : κ) :
    pending key (log ++ [take k]) = (pending key log).filter (fun a => key a ≠ k) := by
  induction log with
  | nil => rfl
  | cons c log ih =>
    cases c with
    | take k' => exact ih
    | add b =>
      have hany : (log ++ [take k]).any (takes (key b)) =
          (log.any (takes (key b)) || decide (k = key b)) := by
        simp [takes]
      rw [List.cons_append, pending, pending, hany, ih]
      by_cases htaken : log.any (takes (key b)) = true
      · rw [htaken, Bool.true_or, if_pos rfl, if_pos rfl]
      · rw [Bool.eq_false_iff.mpr htaken, Bool.false_or, if_neg Bool.false_ne_true]
        by_cases hk : k = key b
        · rw [if_pos (decide_eq_true hk), List.filter_cons_of_neg (by simp [hk])]
        · rw [if_neg (by simp [hk]), List.filter_cons_of_pos (by simpa using Ne.symm hk)]

/-! ## What is pending -/

/-- **Pending items**: those that were added, and whose key was not taken since. -/
theorem mem_pending_iff {a : α} :
    a ∈ pending key log ↔ ∃ pre post, log = pre ++ add a :: post ∧ take (key a) ∉ post := by
  induction log with
  | nil => simp [pending]
  | cons c log ih =>
    -- Either the first change is the one that adds `a`, or it stands in front of it.
    have hsplit : (∃ pre post, c :: log = pre ++ add a :: post ∧ take (key a) ∉ post) ↔
        (c = add a ∧ take (key a) ∉ log) ∨ a ∈ pending key log := by
      rw [ih]
      constructor
      · intro h
        obtain ⟨pre, post, hlog, hpost⟩ := h
        cases pre with
        | nil =>
          cases hlog
          exact .inl ⟨rfl, hpost⟩
        | cons c' pre =>
          cases hlog
          exact .inr ⟨pre, post, rfl, hpost⟩
      · intro h
        rcases h with ⟨rfl, hlog⟩ | ⟨pre, post, rfl, hpost⟩
        · exact ⟨[], log, rfl, hlog⟩
        · exact ⟨c :: pre, post, rfl, hpost⟩
    rw [hsplit]
    cases c with
    -- A removal adds nothing.
    | take k => simp [pending]
    | add b =>
      rw [pending]
      -- The item is taken again later, and only the rest counts.
      by_cases htaken : log.any (takes (key b)) = true
      · rw [if_pos htaken]
        refine ⟨.inr, fun h => h.elim (fun hfirst => ?_) id⟩
        cases hfirst.1
        exact absurd (any_takes_iff.mp htaken) hfirst.2
      · -- The item stays, and is the first one.
        rw [if_neg htaken, List.mem_cons]
        refine or_congr_left ⟨fun h => ?_, fun h => ?_⟩
        · subst h
          exact ⟨rfl, fun hmem => htaken (any_takes_iff.mpr hmem)⟩
        · cases h.1
          rfl

/-- The pending items stand in the order in which they were added. -/
theorem pending_sublist (log : List (Change α κ)) :
    (pending key log).Sublist (log.filterMap added?) := by
  induction log with
  | nil => exact List.nil_sublist _
  | cons c log ih =>
    cases c with
    | take k => exact ih
    | add b =>
      have hadded : (add b :: log).filterMap added? = b :: log.filterMap added? := rfl
      rw [pending, hadded]
      split
      · exact ih.cons b
      · exact ih.cons_cons b

/-- No key is added twice. -/
def DistinctKeys (log : List (Change α κ)) : Prop := ((log.filterMap added?).map key).Nodup

omit [DecidableEq κ] in
theorem DistinctKeys.of_append {pre post : List (Change α κ)}
    (h : DistinctKeys key (pre ++ post)) : DistinctKeys key pre := by
  unfold DistinctKeys at h ⊢
  rw [List.filterMap_append, List.map_append] at h
  exact (List.nodup_append.mp h).1

theorem nodup_pending (h : DistinctKeys key log) : ((pending key log).map key).Nodup :=
  ((pending_sublist key log).map key).nodup h

/-! ## The dictionary of pending items -/

/-- One change of the dictionary. -/
def apply (d : OrderedDict κ α) : Change α κ → OrderedDict κ α
  | add a => d.set (key a) a
  | take k => d.erase k

/-- The dictionary after a log of changes. -/
def run (log : List (Change α κ)) : OrderedDict κ α := log.foldl (apply key) .empty

@[simp] theorem run_snoc (log : List (Change α κ)) (c : Change α κ) :
    run key (log ++ [c]) = apply key (run key log) c := List.foldl_concat ..

/-- **Refinement**: under distinct keys the dictionary holds the pending items, each under
    its key. -/
theorem entries_run (h : DistinctKeys key log) :
    (run key log).entries = (pending key log).map fun a => (key a, a) := by
  induction log using List.reverseRecOn with
  | nil => rfl
  | append_singleton log c ih =>
    have hprev := ih h.of_append
    rw [run_snoc]
    cases c with
    | add a =>
      -- The key is new: whatever is pending was added under another one.
      have hnew : key a ∉ (run key log).entries.map Prod.fst := by
        intro hmem
        rw [hprev, List.map_map] at hmem
        obtain ⟨b, hb, hkey⟩ := List.mem_map.mp hmem
        have hb := (pending_sublist key log).subset hb
        unfold DistinctKeys at h
        rw [List.filterMap_append, List.map_append, List.nodup_append] at h
        exact h.2.2 (key b) (List.mem_map.mpr ⟨b, hb, rfl⟩) (key a) (List.mem_cons_self ..) hkey
      rw [pending_snoc_add, List.map_append, ← hprev]
      exact OrderedDict.setEntries_of_new hnew
    | take k =>
      -- A removal filters both in the same way.
      rw [pending_snoc_take]
      show (run key log).entries.filter _ = _
      rw [hprev, List.filter_map]
      rfl

theorem values_run (h : DistinctKeys key log) : (run key log).values = pending key log := by
  rw [OrderedDict.values, entries_run key h, List.map_map]
  exact List.map_id _

theorem size_run (h : DistinctKeys key log) : (run key log).size = (pending key log).length := by
  rw [OrderedDict.size, entries_run key h, List.length_map]

/-- What the dictionary finds under a key is the pending item with the key. -/
theorem get?_run_iff (h : DistinctKeys key log) {k : κ} {a : α} :
    (run key log).get? k = some a ↔ key a = k ∧ a ∈ pending key log := by
  rw [OrderedDict.get?_eq_some_iff, entries_run key h]
  constructor
  · intro hmem
    obtain ⟨b, hb, heq⟩ := List.mem_map.mp hmem
    cases heq
    exact ⟨rfl, hb⟩
  · intro hmem
    obtain ⟨rfl, ha⟩ := hmem
    exact List.mem_map.mpr ⟨a, ha, rfl⟩

end Pending

end Change

end AiK8sGateway.Foundations
