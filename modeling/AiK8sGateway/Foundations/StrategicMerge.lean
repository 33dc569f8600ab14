import AiK8sGateway.Foundations.OrderedDict

/-!
# Strategic Merge

A patch in the shape of the object it is for: what it has is set, what it leaves out is
kept, and a list of named items is merged item by item.

## Main results

- `lookup_mergeFields`: a merged map has what the patch has, and else what it had.
- `find?_mergeByKey`: an item of a merged list is merged with the patch's item of its name.
-/

namespace AiK8sGateway.Foundations.StrategicMerge

variable {κ α : Type} [DecidableEq κ]

/-! ## Maps -/

/-- Set the fields of a patch in a map. -/
def mergeFields (live patch : List (κ × α)) : List (κ × α) :=
  patch.foldl (fun fields field => OrderedDict.setEntries field.1 field.2 fields) live

@[simp] theorem mergeFields_nil (live : List (κ × α)) : mergeFields live [] = live := rfl

theorem mergeFields_cons (live : List (κ × α)) (field : κ × α) (patch : List (κ × α)) :
    mergeFields live (field :: patch) =
      mergeFields (OrderedDict.setEntries field.1 field.2 live) patch := rfl

/-- A merged map has what the patch has, and what it had before where the patch has
    nothing. -/
theorem lookup_mergeFields {live patch : List (κ × α)} (hnodup : (patch.map Prod.fst).Nodup)
    (k : κ) : (mergeFields live patch).lookup k = (patch.lookup k).or (live.lookup k) := by
  induction patch generalizing live with
  | nil => rfl
  | cons field patch ih =>
    obtain ⟨k', v⟩ := field
    rw [List.map_cons, List.nodup_cons] at hnodup
    rw [mergeFields_cons, ih hnodup.2, OrderedDict.lookup_setEntries, OrderedDict.lookup_cons]
    by_cases hk : k = k'
    · -- The later fields have other keys.
      have hnone : patch.lookup k = none := by
        rw [hk]
        exact OrderedDict.lookup_eq_none_of_notMem hnodup.1
      rw [if_pos hk, if_pos hk, hnone]
      rfl
    · rw [if_neg hk, if_neg hk]

/-! ## Lists of named items -/

/-- Merge the items of two lists by their keys; an item of a new key is added. -/
def mergeByKey (key : α → κ) (merge : α → α → α) (live patch : List α) : List α :=
  live.map (fun a => (patch.find? (fun p => key p = key a)).elim a (merge a)) ++
    patch.filter (fun p => ∀ a ∈ live, key a ≠ key p)

/-- The item under a key is merged with the item of the patch under the same key. -/
theorem find?_mergeByKey {key : α → κ} {merge : α → α → α} {live patch : List α} {k : κ} {a : α}
    (hkey : ∀ a p, key p = key a → key (merge a p) = key a)
    (ha : live.find? (fun b => key b = k) = some a) :
    (mergeByKey key merge live patch).find? (fun b => key b = k) =
      some ((patch.find? (fun p => key p = k)).elim a (merge a)) := by
  -- Merging keeps the keys, so the same item is found.
  have hsame : ∀ b, key ((patch.find? (fun p => key p = key b)).elim b (merge b)) = key b := by
    intro b
    cases hfind : patch.find? (fun p => key p = key b) with
    | none => rfl
    | some p => exact hkey b p (by simpa using List.find?_some hfind)
  have hak : key a = k := by simpa using List.find?_some ha
  have hfound : (live.map fun a => (patch.find? (fun p => key p = key a)).elim a (merge a)).find?
      (fun b => key b = k) = some ((patch.find? (fun p => key p = k)).elim a (merge a)) := by
    rw [List.find?_map]
    simp only [Function.comp_def, hsame, ha, Option.map_some, hak]
  rw [mergeByKey, List.find?_append, hfound, Option.some_or]

end AiK8sGateway.Foundations.StrategicMerge
