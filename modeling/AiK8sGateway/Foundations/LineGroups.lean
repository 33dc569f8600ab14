import AiK8sGateway.Foundations.LineLog

/-!
# The Attempts behind a Line

A line of a log file is what the attempts since the last separator left of theirs.  It is
legible if one attempt alone is behind it, and left the whole of its line.

## Main results

- `linesOf_contents`: the attempts behind each line of the file.
- `legible_sublist`: what is legible comes from attempts of the log, in its order.
- `countP_written_le`: each remainder costs one line at most.
-/

namespace AiK8sGateway.Foundations

/-! ## Groups -/

section Groups

variable {β γ : Type} (outcome : β → WriteOutcome) (whole : β → Bool)

/-- The attempts behind each line of the file; those in `before` have left something since
    the last separator. -/
def groups (before : List β) : List β → List (List β)
  | [] => if before.isEmpty then [] else [before]
  | a :: log =>
    match outcome a with
    | .written => (before ++ [a]) :: groups [] log
    | .failed => groups before log
    | .torn k => if k = 0 then groups before log else groups (before ++ [a]) log

/-- The attempt behind a line, if it is alone and left its whole line. -/
def alone? : List β → Option β
  | [a] => if whole a then some a else none
  | _ => none

/-- The attempts whose lines are legible. -/
def legible (log : List β) : List β := (groups outcome [] log).filterMap (alone? whole)

/-- The write succeeded. -/
def isWritten (a : β) : Bool := outcome a = .written

/-- The write failed and left something behind. -/
def isRemainder (a : β) : Bool :=
  match outcome a with
  | .torn k => k ≠ 0
  | _ => false

variable {outcome whole}

theorem groups_nil_of_ne_nil {before : List β} (h : before ≠ []) :
    groups outcome before [] = [before] := by
  rw [groups, if_neg (by simpa using h)]

theorem groups_written {a : β} (h : outcome a = .written) (before log : List β) :
    groups outcome before (a :: log) = (before ++ [a]) :: groups outcome [] log := by
  rw [groups, h]

theorem groups_failed {a : β} (h : outcome a = .failed) (before log : List β) :
    groups outcome before (a :: log) = groups outcome before log := by
  rw [groups, h]

theorem groups_torn {a : β} {k : Nat} (h : outcome a = .torn k) (before log : List β) :
    groups outcome before (a :: log) =
      if k = 0 then groups outcome before log else groups outcome (before ++ [a]) log := by
  rw [groups, h]

/-- Groups depend on the outcomes only. -/
theorem groups_map (f : γ → β) (before log : List γ) :
    groups outcome (before.map f) (log.map f) =
      (groups (fun a => outcome (f a)) before log).map (List.map f) := by
  induction log generalizing before with
  | nil =>
    unfold groups
    cases before <;> rfl
  | cons a log ih =>
    have hnil := ih []
    have hsnoc := ih (before ++ [a])
    rw [List.map_nil] at hnil
    rw [List.map_append, List.map_singleton] at hsnoc
    cases houtcome : outcome (f a) with
    | written => simp only [List.map_cons, groups, houtcome, hnil, List.map_append, List.map_nil]
    | failed => simp only [List.map_cons, groups, houtcome, ih]
    | torn k =>
      simp only [List.map_cons, groups, houtcome, hsnoc, ih]
      split_ifs <;> rfl

/-- The groups are made of attempts of the log, in its order. -/
theorem flatten_groups_sublist (before log : List β) :
    (groups outcome before log).flatten.Sublist (before ++ log) := by
  induction log generalizing before with
  | nil =>
    unfold groups
    split_ifs
    · exact List.nil_sublist _
    · simp
  | cons a log ih =>
    have hskip : (before ++ log).Sublist (before ++ a :: log) :=
      (List.sublist_cons_self a log).append_left before
    -- A record ends the group.
    cases houtcome : outcome a with
    | written =>
      rw [groups_written houtcome, List.flatten_cons, List.append_assoc]
      exact ((ih []).cons_cons a).append_left before
    -- A failed write leaves nothing.
    | failed =>
      rw [groups_failed houtcome]
      exact (ih before).trans hskip
    | torn k =>
      -- Neither does a write that was torn at once; a remainder joins the group.
      rw [groups_torn houtcome]
      split_ifs
      · exact (ih before).trans hskip
      · have happend := ih (before ++ [a])
        rwa [List.append_assoc] at happend

theorem mem_of_mem_groups {log g : List β} (hg : g ∈ groups outcome [] log) {a : β}
    (ha : a ∈ g) : a ∈ log :=
  (flatten_groups_sublist [] log).subset (List.mem_flatten.mpr ⟨g, hg, ha⟩)

theorem eq_singleton_of_alone? {g : List β} {a : β} (h : alone? whole g = some a) :
    g = [a] ∧ whole a = true := by
  unfold alone? at h
  split at h
  · split_ifs at h with hwhole
    cases h
    exact ⟨rfl, hwhole⟩
  · cases h

/-- **Legible lines** come from attempts of the log, in its order. -/
theorem legible_sublist (log : List β) : (legible outcome whole log).Sublist log := by
  have halone : ∀ gs : List (List β), (gs.filterMap (alone? whole)).Sublist gs.flatten := by
    intro gs
    induction gs with
    | nil => exact List.nil_sublist _
    | cons g gs ih =>
      rw [List.flatten_cons]
      cases halone : alone? whole g with
      | none =>
        rw [List.filterMap_cons_none halone]
        exact ih.trans (List.sublist_append_right g _)
      | some a =>
        obtain ⟨rfl, -⟩ := eq_singleton_of_alone? halone
        rw [List.filterMap_cons_some halone]
        exact ih.cons_cons _
  exact (halone _).trans (flatten_groups_sublist [] log)

/-- **Damage**: each remainder costs one line at most. -/
theorem countP_written_le (hwhole : ∀ a, outcome a = .written → whole a = true) (log : List β) :
    log.countP (isWritten outcome) ≤
      (legible outcome whole log).length + log.countP (isRemainder outcome) := by
  -- With attempts left over from before the log, each of them may cost a line as well.
  have hafter : ∀ before : List β, log.countP (isWritten outcome) ≤
      ((groups outcome before log).filterMap (alone? whole)).length +
        (before.length + log.countP (isRemainder outcome)) := by
    induction log with
    | nil => simp
    | cons a log ih =>
      intro before
      cases houtcome : outcome a with
      | written =>
        have hcount : isWritten outcome a = true ∧ isRemainder outcome a = false := by
          simp [isWritten, isRemainder, houtcome]
        have hrest := ih []
        rw [groups_written houtcome, List.countP_cons_of_pos hcount.1,
          List.countP_cons_of_neg (by simp [hcount.2])]
        cases before with
        -- Nothing stands before it, and the record is read.
        | nil =>
          have halone : alone? whole [a] = some a := if_pos (hwhole a houtcome)
          rw [List.nil_append, List.filterMap_cons_some halone, List.length_cons]
          omega
        | cons b before =>
          -- The line is lost, and what stands before it pays for it.
          have hle := ((List.sublist_cons_self (b :: before ++ [a]) (groups outcome [] log)).filterMap
            (alone? whole)).length_le
          simp only [List.length_cons, List.length_nil] at hrest ⊢
          omega
      | failed =>
        have hcount : isWritten outcome a = false ∧ isRemainder outcome a = false := by
          simp [isWritten, isRemainder, houtcome]
        rw [groups_failed houtcome, List.countP_cons_of_neg (by simp [hcount.1]),
          List.countP_cons_of_neg (by simp [hcount.2])]
        exact ih before
      | torn k =>
        have hcount : isWritten outcome a = false := by simp [isWritten, houtcome]
        rw [groups_torn houtcome, List.countP_cons_of_neg (by simp [hcount])]
        split_ifs with hzero
        · -- Nothing was left, and nothing is paid.
          have hnone : isRemainder outcome a = false := by simp [isRemainder, houtcome, hzero]
          rw [List.countP_cons_of_neg (by simp [hnone])]
          exact ih before
        · -- The remainder pays for the line it is on.
          have hone : isRemainder outcome a = true := by simp [isRemainder, houtcome, hzero]
          have hrest := ih (before ++ [a])
          rw [List.countP_cons_of_pos hone]
          rw [List.length_append, List.length_singleton] at hrest
          omega
  have h := hafter []
  rwa [List.length_nil, Nat.zero_add] at h

/-- Without remainders each line is that of a record that was written. -/
theorem groups_of_noRemainder {log : List β} (h : ∀ a ∈ log, ¬ (outcome a).LeavesRemainder) :
    groups outcome [] log = (log.filter (isWritten outcome)).map fun a => [a] := by
  induction log with
  | nil => rfl
  | cons a log ih =>
    have hrest := ih fun b hb => h b (List.mem_cons_of_mem _ hb)
    cases houtcome : outcome a with
    | written =>
      rw [groups_written houtcome, hrest,
        List.filter_cons_of_pos (by simp [isWritten, houtcome])]
      rfl
    | failed =>
      rw [groups_failed houtcome, hrest,
        List.filter_cons_of_neg (by simp [isWritten, houtcome])]
    | torn k =>
      have hzero : k = 0 := by
        have hnone := h a (List.mem_cons_self ..)
        rw [houtcome] at hnone
        exact not_not.mp hnone
      rw [groups_torn houtcome, if_pos hzero, hrest,
        List.filter_cons_of_neg (by simp [isWritten, houtcome])]

end Groups

/-! ## Lines -/

section Lines

variable {α : Type} {sep : α}

/-- The lines of a file, each with its separator.  What follows the last separator is a
    line of its own, unless nothing does. -/
def linesOf [DecidableEq α] (sep : α) : List α → List (List α)
  | [] => []
  | c :: cs =>
    if c = sep then [c] :: linesOf sep cs
    else
      match linesOf sep cs with
      | [] => [[c]]
      | line :: lines => (c :: line) :: lines

/-- A separator ends a line. -/
theorem linesOf_append [DecidableEq α] {line : List α} (h : sep ∉ line) (rest : List α) :
    linesOf sep (line ++ [sep] ++ rest) = (line ++ [sep]) :: linesOf sep rest := by
  induction line with
  | nil => rw [List.nil_append, List.singleton_append, linesOf, if_pos rfl]
  | cons c line ih =>
    have hne : c ≠ sep := fun heq => h (heq ▸ List.mem_cons_self ..)
    have hline := ih fun hmem => h (List.mem_cons_of_mem _ hmem)
    rw [List.cons_append, List.cons_append, linesOf, if_neg hne, hline]

/-- Without a separator there is one line, if there is anything. -/
theorem linesOf_of_notMem [DecidableEq α] {line : List α} (h : sep ∉ line) (hne : line ≠ []) :
    linesOf sep line = [line] := by
  induction line with
  | nil => exact absurd rfl hne
  | cons c line ih =>
    have hsep : c ≠ sep := fun heq => h (heq ▸ List.mem_cons_self ..)
    have htail : sep ∉ line := fun hmem => h (List.mem_cons_of_mem _ hmem)
    rw [linesOf, if_neg hsep]
    cases line with
    | nil => rfl
    | cons d line => rw [ih htail (List.cons_ne_nil _ _)]

end Lines

namespace LineAppend

variable {α : Type} {sep : α}

/-! ## What a group leaves -/

/-- What of its line an attempt leaves in the file. -/
def kept (a : LineAppend α sep) : List α :=
  match a.outcome with
  | .written => a.line
  | .failed => []
  | .torn k => a.line.take k

/-- Nothing but the line and its separator is added. -/
theorem mem_of_mem_added {a : LineAppend α sep} {c : α} (h : c ∈ a.added) :
    c ∈ a.line ∨ c = sep := by
  rw [← List.mem_singleton (b := sep), ← List.mem_append]
  unfold added at h
  cases houtcome : a.outcome with
  | written =>
    rw [houtcome] at h
    exact h
  | failed =>
    rw [houtcome] at h
    cases h
  | torn k =>
    rw [houtcome] at h
    exact List.mem_of_mem_take h

/-- The attempt left its whole line. -/
def isWhole (a : LineAppend α sep) : Bool := a.kept.length = a.line.length

theorem kept_prefix (a : LineAppend α sep) : a.kept <+: a.line := by
  unfold kept
  cases a.outcome with
  | written => exact List.prefix_rfl
  | failed => exact List.nil_prefix
  | torn k => exact List.take_prefix k a.line

theorem isWhole_iff {a : LineAppend α sep} : a.isWhole = true ↔ a.kept = a.line := by
  rw [isWhole, decide_eq_true_iff]
  exact ⟨a.kept_prefix.eq_of_length, congrArg List.length⟩

theorem kept_of_torn {a : LineAppend α sep} {k : Nat} (houtcome : a.outcome = .torn k) :
    a.kept = a.added := by
  rw [added_of_torn houtcome, kept, houtcome]

theorem added_ne_nil_of_torn {a : LineAppend α sep} {k : Nat} (houtcome : a.outcome = .torn k)
    (hk : k ≠ 0) : a.added ≠ [] := by
  rw [Ne, added_eq_nil_iff_of_torn houtcome, houtcome]
  exact not_not.mpr hk

theorem contents_append (log more : List (LineAppend α sep)) :
    contents (log ++ more) = contents log ++ contents more := List.flatMap_append

theorem contents_cons (a : LineAppend α sep) (log : List (LineAppend α sep)) :
    contents (a :: log) = a.added ++ contents log := List.flatMap_cons

/-- Each of the attempts left a remainder. -/
def Unended (log : List (LineAppend α sep)) : Prop :=
  ∀ a ∈ log, ∃ k, a.outcome = .torn k ∧ k ≠ 0

theorem unended_nil : Unended ([] : List (LineAppend α sep)) := nofun

theorem Unended.snoc {before : List (LineAppend α sep)} (h : Unended before)
    {a : LineAppend α sep} {k : Nat} (houtcome : a.outcome = .torn k) (hk : k ≠ 0) :
    Unended (before ++ [a]) := by
  intro b hb
  rcases List.mem_append.mp hb with hb | hb
  · exact h b hb
  · exact ⟨k, List.mem_singleton.mp hb ▸ houtcome, hk⟩

theorem Unended.notMem {before : List (LineAppend α sep)} (h : Unended before) :
    sep ∉ contents before := by
  intro hmem
  obtain ⟨a, ha, hmem⟩ := List.mem_flatMap.mp hmem
  obtain ⟨k, houtcome, -⟩ := h a ha
  exact notMem_added_of_torn houtcome hmem

theorem Unended.ne_nil {before : List (LineAppend α sep)} (h : Unended before)
    (hne : before ≠ []) : contents before ≠ [] := by
  cases before with
  | nil => exact absurd rfl hne
  | cons a before =>
    obtain ⟨k, houtcome, hk⟩ := h a (List.mem_cons_self ..)
    rw [contents_cons]
    exact List.append_ne_nil_of_left_ne_nil (added_ne_nil_of_torn houtcome hk) _

/-- What such attempts left are parts of their lines. -/
theorem Unended.contents_eq {before : List (LineAppend α sep)} (h : Unended before) :
    contents before = before.flatMap kept := by
  refine List.flatMap_congr fun a ha => ?_
  obtain ⟨k, houtcome, -⟩ := h a ha
  exact (kept_of_torn houtcome).symm

/-- The same with attempts before the log that have left something since the last
    separator. -/
theorem linesOf_contents_after [DecidableEq α] (log : List (LineAppend α sep))
    {before : List (LineAppend α sep)} (h : Unended before) :
    linesOf sep (contents before ++ contents log) = (groups outcome before log).map contents := by
  induction log generalizing before with
  | nil =>
    have hnil : contents ([] : List (LineAppend α sep)) = [] := rfl
    rw [hnil, List.append_nil]
    -- What is left behind the last separator is a line of its own, if there is anything.
    by_cases hne : before = []
    · rw [hne]
      rfl
    · rw [groups_nil_of_ne_nil hne, linesOf_of_notMem h.notMem (h.ne_nil hne)]
      rfl
  | cons a log ih =>
    have hsnoc : contents before ++ a.added = contents (before ++ [a]) := by
      simp [contents]
    rw [contents_cons, ← List.append_assoc]
    cases houtcome : a.outcome with
    | written =>
      -- The separator ends the line of the group.
      have hadded : a.added = a.line ++ [sep] := by rw [added, houtcome]
      have hplain : sep ∉ contents before ++ a.line := by
        rw [List.mem_append]
        exact fun hmem => hmem.elim h.notMem a.plain
      rw [groups_written houtcome, List.map_cons, ← hsnoc, ← ih unended_nil, hadded,
        ← List.append_assoc, linesOf_append hplain]
      rfl
    | failed =>
      -- Nothing was added.
      have hadded : a.added = [] := by rw [added, houtcome]
      rw [groups_failed houtcome, hadded, List.append_nil, ih h]
    | torn k =>
      rw [groups_torn houtcome]
      -- Nothing was added, or the line goes on.
      split_ifs with hzero
      · have hadded : a.added = [] := by
          rw [added_eq_nil_iff_of_torn houtcome, houtcome]
          exact not_not.mpr hzero
        rw [hadded, List.append_nil, ih h]
      · rw [hsnoc, ih (h.snoc houtcome hzero)]

/-- **Lines and groups**: the lines of a file are what its groups of attempts left. -/
theorem linesOf_contents [DecidableEq α] (log : List (LineAppend α sep)) :
    linesOf sep (contents log) = (groups outcome [] log).map contents :=
  linesOf_contents_after log unended_nil

/-- Attempts that share a line: the separator comes from the last one, if there is any. -/
inductive SharesLine : List (LineAppend α sep) → Prop where
  | ended {before : List (LineAppend α sep)} (h : Unended before) {a : LineAppend α sep}
      (ha : a.outcome = .written) : SharesLine (before ++ [a])
  | unended {before : List (LineAppend α sep)} (h : Unended before) (hne : before ≠ []) :
      SharesLine before

theorem sharesLine_of_mem_groups {log before g : List (LineAppend α sep)} (h : Unended before)
    (hg : g ∈ groups outcome before log) : SharesLine g := by
  induction log generalizing before with
  | nil =>
    unfold groups at hg
    -- The last group has no separator.
    split_ifs at hg with hempty
    · cases hg
    · rw [List.mem_singleton.mp hg]
      exact .unended h (by simpa using hempty)
  | cons a log ih =>
    cases houtcome : a.outcome with
    | written =>
      -- The first group is ended by this record.
      rw [groups_written houtcome] at hg
      rcases List.mem_cons.mp hg with rfl | hg
      · exact .ended h houtcome
      · exact ih unended_nil hg
    | failed =>
      rw [groups_failed houtcome] at hg
      exact ih h hg
    | torn k =>
      rw [groups_torn houtcome] at hg
      split_ifs at hg with hzero
      · exact ih h hg
      · exact ih (h.snoc houtcome hzero) hg

/-- The text of a line is what its attempts kept of theirs. -/
theorem SharesLine.contents_eq {g : List (LineAppend α sep)} (h : SharesLine g) :
    ∃ ends, (ends = [] ∨ ends = [sep]) ∧ contents g = g.flatMap kept ++ ends := by
  cases h with
  | @ended before h a ha =>
    have hadded : a.added = a.line ++ [sep] := by rw [added, ha]
    have hkept : a.kept = a.line := by rw [kept, ha]
    refine ⟨[sep], .inr rfl, ?_⟩
    rw [contents_append, h.contents_eq, List.flatMap_append]
    simp [contents, hadded, hkept]
  | unended h hne => exact ⟨[], .inl rfl, by rw [h.contents_eq, List.append_nil]⟩

theorem SharesLine.ne_nil {g : List (LineAppend α sep)} (h : SharesLine g) : g ≠ [] := by
  cases h with
  | ended h ha => simp
  | unended h hne => exact hne

/-- Every one of them kept something, if no line is empty. -/
theorem SharesLine.kept_ne_nil {g : List (LineAppend α sep)} (h : SharesLine g)
    (hlines : ∀ a ∈ g, a.line ≠ []) {a : LineAppend α sep} (ha : a ∈ g) : a.kept ≠ [] := by
  have htorn : ∀ {before : List (LineAppend α sep)}, Unended before → a ∈ before →
      a.kept ≠ [] := by
    intro before hbefore hmem
    obtain ⟨k, houtcome, hk⟩ := hbefore a hmem
    rw [kept_of_torn houtcome]
    exact added_ne_nil_of_torn houtcome hk
  cases h with
  | @ended before h b hb =>
    rcases List.mem_append.mp ha with hmem | hmem
    · exact htorn h hmem
    · rw [kept, List.mem_singleton.mp hmem, hb]
      exact List.mem_singleton.mp hmem ▸ hlines a ha
  | unended h hne => exact htorn h ha

end LineAppend

end AiK8sGateway.Foundations
