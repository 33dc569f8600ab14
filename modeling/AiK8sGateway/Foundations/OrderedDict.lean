import Mathlib.Data.List.Lookmap
import Mathlib.Data.List.Nodup

/-!
# Insertion-Ordered Dictionaries

A Python `dict`: a list of key/value pairs in insertion order, with the
invariant that no key occurs twice carried as a field.  Assigning to a present
key keeps its position, and assigning to a new one appends.
-/

namespace AiK8sGateway.Foundations

/-- A `dict`: entries in insertion order, with distinct keys. -/
structure OrderedDict (κ α : Type) where
  entries : List (κ × α)
  nodup : (entries.map Prod.fst).Nodup

namespace OrderedDict

variable {κ α : Type}

@[ext] theorem ext {d e : OrderedDict κ α} (h : d.entries = e.entries) : d = e := by
  cases d; cases e; cases h; rfl

/-- `{}`. -/
def empty : OrderedDict κ α := ⟨[], List.nodup_nil⟩

/-- `d.values()`, in insertion order. -/
def values (d : OrderedDict κ α) : List α := d.entries.map Prod.snd

/-- `len(d)`. -/
def size (d : OrderedDict κ α) : Nat := d.entries.length

variable [DecidableEq κ]

/-- `d.get(k)`. -/
def get? (d : OrderedDict κ α) (k : κ) : Option α := d.entries.lookup k

/-- Replace the value under `k` where it stands. -/
def setEntries (k : κ) (v : α) : List (κ × α) → List (κ × α)
  | [] => [(k, v)]
  | (k', v') :: rest => if k' = k then (k, v) :: rest else (k', v') :: setEntries k v rest

theorem mem_map_fst_setEntries (k : κ) (v : α) (es : List (κ × α)) (x : κ) :
    x ∈ (setEntries k v es).map Prod.fst ↔ x = k ∨ x ∈ es.map Prod.fst := by
  induction es with
  | nil => simp [setEntries]
  | cons e es ih =>
    obtain ⟨k', v'⟩ := e
    unfold setEntries
    by_cases hk : k' = k
    · subst hk
      simp
    · rw [if_neg hk]
      simp only [List.map_cons, List.mem_cons, ih]
      tauto

theorem nodup_setEntries (k : κ) (v : α) (es : List (κ × α))
    (h : (es.map Prod.fst).Nodup) : ((setEntries k v es).map Prod.fst).Nodup := by
  induction es with
  | nil => simp [setEntries]
  | cons e es ih =>
    obtain ⟨k', v'⟩ := e
    simp only [List.map_cons, List.nodup_cons] at h
    unfold setEntries
    by_cases hk : k' = k
    · subst hk
      simpa using h
    · rw [if_neg hk]
      simp only [List.map_cons, List.nodup_cons, mem_map_fst_setEntries]
      exact ⟨fun hmem => hmem.elim hk h.1, ih h.2⟩

/-- An entry of the updated list is the new one or an old one. -/
theorem mem_setEntries {k : κ} {v : α} {es : List (κ × α)} {e : κ × α}
    (he : e ∈ setEntries k v es) : e = (k, v) ∨ e ∈ es := by
  induction es with
  | nil => exact .inl (List.mem_singleton.mp he)
  | cons e' es ih =>
    unfold setEntries at he
    split at he
    · exact (List.mem_cons.mp he).imp_right (List.mem_cons_of_mem _)
    · rcases List.mem_cons.mp he with rfl | he
      · exact .inr (List.mem_cons_self ..)
      · exact (ih he).imp_right (List.mem_cons_of_mem _)

/-- `d[k] = v`. -/
def set (d : OrderedDict κ α) (k : κ) (v : α) : OrderedDict κ α :=
  ⟨setEntries k v d.entries, nodup_setEntries k v d.entries d.nodup⟩

/-- `d` without the key `k`. -/
def erase (d : OrderedDict κ α) (k : κ) : OrderedDict κ α :=
  ⟨d.entries.filter (fun e => e.1 ≠ k), (List.filter_sublist.map Prod.fst).nodup d.nodup⟩

/-! ## Dictionaries from pairs -/

/-- `dict(pairs)`: a key that comes again keeps its place and gets the later value. -/
def ofEntries (es : List (κ × α)) : OrderedDict κ α :=
  es.foldl (fun d e => d.set e.1 e.2) empty

theorem setEntries_of_new {k : κ} {v : α} {es : List (κ × α)} (hk : k ∉ es.map Prod.fst) :
    setEntries k v es = es ++ [(k, v)] := by
  induction es with
  | nil => rfl
  | cons e es ih =>
    simp only [List.map_cons, List.mem_cons, not_or] at hk
    unfold setEntries
    rw [if_neg (Ne.symm hk.1), ih hk.2, List.cons_append]

/-- Pairs with new and distinct keys are appended as they come. -/
theorem entries_foldl_set {es : List (κ × α)} {d : OrderedDict κ α}
    (hnodup : ((d.entries ++ es).map Prod.fst).Nodup) :
    (es.foldl (fun d e => d.set e.1 e.2) d).entries = d.entries ++ es := by
  induction es generalizing d with
  | nil => exact (List.append_nil _).symm
  | cons e es ih =>
    have hnew : e.1 ∉ d.entries.map Prod.fst := by
      rw [List.map_append, List.nodup_append] at hnodup
      intro hmem
      exact hnodup.2.2 _ hmem _ (List.mem_cons_self ..) rfl
    -- A new key goes to the end, and the later ones are still new after it.
    have hset : (d.set e.1 e.2).entries = d.entries ++ [e] := setEntries_of_new hnew
    have hrest := ih (d := d.set e.1 e.2) (by simpa [hset] using hnodup)
    rw [List.foldl_cons, hrest, hset]
    simp

/-- **Round trip**: the pairs of a dictionary make the dictionary. -/
@[simp] theorem ofEntries_entries (d : OrderedDict κ α) : ofEntries d.entries = d :=
  ext (entries_foldl_set (d := empty) d.nodup)

/-! ## Lookup laws -/

/-- Nothing is in the dictionary that is not among the pairs. -/
theorem mem_of_mem_ofEntries {es : List (κ × α)} {e : κ × α} (h : e ∈ (ofEntries es).entries) :
    e ∈ es := by
  have hfold : ∀ (es : List (κ × α)) (d : OrderedDict κ α),
      e ∈ (es.foldl (fun d e => d.set e.1 e.2) d).entries → e ∈ d.entries ∨ e ∈ es := by
    intro es
    induction es with
    | nil => exact fun d h => .inl h
    | cons f es ih =>
      intro d h
      rcases ih (d.set f.1 f.2) h with hset | hmem
      · rcases mem_setEntries hset with rfl | hd
        · exact .inr (List.mem_cons_self ..)
        · exact .inl hd
      · exact .inr (List.mem_cons_of_mem _ hmem)
  exact (hfold es empty h).resolve_left List.not_mem_nil

@[simp] theorem get?_empty (k : κ) : (empty : OrderedDict κ α).get? k = none := rfl

theorem lookup_cons (k : κ) (v : α) (es : List (κ × α)) (x : κ) :
    ((k, v) :: es).lookup x = if x = k then some v else es.lookup x := by
  rw [List.lookup_cons]
  by_cases hx : x = k
  · simp [hx]
  · rw [if_neg hx, beq_eq_false_iff_ne.mpr hx]

/-- A key that is not there has no value. -/
theorem lookup_eq_none_of_notMem {k : κ} {es : List (κ × α)} (h : k ∉ es.map Prod.fst) :
    es.lookup k = none := by
  rw [List.lookup_eq_none_iff]
  intro e he
  rw [bne_iff_ne]
  intro heq
  exact h (List.mem_map.mpr ⟨e, he, heq.symm⟩)

/-- What is found under a key is an entry. -/
theorem mem_of_get? {d : OrderedDict κ α} {k : κ} {v : α} (h : d.get? k = some v) :
    (k, v) ∈ d.entries := by
  obtain ⟨pre, post, hsplit, -⟩ := List.lookup_eq_some_iff.mp h
  simp [hsplit]

theorem lookup_setEntries (k : κ) (v : α) (es : List (κ × α)) (x : κ) :
    (setEntries k v es).lookup x = if x = k then some v else es.lookup x := by
  induction es with
  | nil => simp [setEntries, lookup_cons]
  | cons e es ih =>
    obtain ⟨k', v'⟩ := e
    unfold setEntries
    by_cases hk : k' = k
    · subst hk
      by_cases hx : x = k' <;> simp [lookup_cons, hx]
    · rw [if_neg hk, lookup_cons, lookup_cons, ih]
      by_cases hx : x = k'
      · subst hx
        simp [hk]
      · simp [hx]

theorem get?_set (d : OrderedDict κ α) (k : κ) (v : α) (x : κ) :
    (d.set k v).get? x = if x = k then some v else d.get? x :=
  lookup_setEntries k v d.entries x

theorem entries_ne_nil_of_get? {d : OrderedDict κ α} {k : κ} {v : α} (h : d.get? k = some v) :
    d.entries ≠ [] :=
  List.ne_nil_of_mem (mem_of_get? h)

/-- A dictionary that was assigned to is not empty. -/
theorem entries_set_ne_nil (d : OrderedDict κ α) (k : κ) (v : α) : (d.set k v).entries ≠ [] := by
  apply entries_ne_nil_of_get? (k := k) (v := v)
  rw [get?_set, if_pos rfl]

theorem lookup_filter_ne (k : κ) (es : List (κ × α)) (x : κ) :
    (es.filter (fun e => e.1 ≠ k)).lookup x = if x = k then none else es.lookup x := by
  induction es with
  | nil => simp
  | cons e es ih =>
    obtain ⟨k', v'⟩ := e
    by_cases hk : k' = k
    · subst hk
      rw [List.filter_cons_of_neg (by simp), ih, lookup_cons]
      by_cases hx : x = k' <;> simp [hx]
    · rw [List.filter_cons_of_pos (by simpa using hk), lookup_cons, lookup_cons, ih]
      by_cases hx : x = k'
      · subst hx
        simp [hk]
      · simp [hx]

theorem get?_erase (d : OrderedDict κ α) (k x : κ) :
    (d.erase k).get? x = if x = k then none else d.get? x :=
  lookup_filter_ne k d.entries x

/-- Erasing an absent key changes nothing. -/
theorem erase_of_get? {d : OrderedDict κ α} {k : κ} (h : d.get? k = none) : d.erase k = d := by
  apply ext
  rw [get?, List.lookup_eq_none_iff] at h
  apply List.filter_eq_self.mpr
  intro e he
  have hne : k ≠ e.1 := by simpa using h e he
  simpa using hne.symm

/-! ## Further keys and the order of keys -/

/-- A key is found exactly with the value of its entry. -/
theorem get?_eq_some_iff {d : OrderedDict κ α} {k : κ} {v : α} :
    d.get? k = some v ↔ (k, v) ∈ d.entries := by
  refine ⟨mem_of_get?, fun hmem => ?_⟩
  cases hget : d.get? k with
  | none =>
    rw [get?, List.lookup_eq_none_iff] at hget
    simpa using hget (k, v) hmem
  | some w =>
    have heq : (k, w) = (k, v) := List.inj_on_of_nodup_map d.nodup (mem_of_get? hget) hmem rfl
    exact congrArg (fun e => some e.2) heq

/-- The order of the entries does not matter to a lookup. -/
theorem get?_of_perm {d e : OrderedDict κ α} (h : d.entries.Perm e.entries) (k : κ) :
    d.get? k = e.get? k := by
  ext v
  rw [get?_eq_some_iff, get?_eq_some_iff, h.mem_iff]

/-- `e` has every key of `d` with the same value, and maybe further keys. -/
def Extends (d e : OrderedDict κ α) : Prop := ∀ k v, d.get? k = some v → e.get? k = some v

theorem Extends.entries_ne_nil {d e : OrderedDict κ α} (h : Extends d e) (hd : d.entries ≠ []) :
    e.entries ≠ [] := by
  obtain ⟨⟨k, v⟩, hmem⟩ := List.exists_mem_of_ne_nil _ hd
  exact entries_ne_nil_of_get? (h k v (get?_eq_some_iff.mpr hmem))

end OrderedDict

end AiK8sGateway.Foundations
