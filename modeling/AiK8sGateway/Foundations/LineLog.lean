import Mathlib.Data.List.Infix

/-!
# Line Logs under Write Failures

A log is a file to which lines are appended, each ended by a separator that does not
occur in it.  An append may fail, with nothing written or with a proper prefix of the line
left behind, and the next append builds upon what is there.  Read back line by line, the
file begins with the lines that were written exactly if no line was written after a
remainder.

## Main results

- `lines_line_append`: a line that is written ends what stands before it.
- `written_prefix_lines_iff`: when the file reads back as the lines that were written.
-/

namespace AiK8sGateway.Foundations

/-- How an append ends: with all of it in the file, with none, or with its first `kept`
    symbols. -/
inductive WriteOutcome where
  | written
  | failed
  | torn (kept : Nat)
  deriving DecidableEq

namespace WriteOutcome

/-- What is left of an append of `n` symbols that failed is less than all of it. -/
def Proper (n : Nat) : WriteOutcome → Prop
  | torn kept => kept < n
  | _ => True

/-- The append failed and left something behind. -/
def LeavesRemainder : WriteOutcome → Prop
  | torn kept => kept ≠ 0
  | _ => False

end WriteOutcome

/-- An attempt to append a line, given without its separator. -/
structure LineAppend (α : Type) (sep : α) where
  line : List α
  plain : sep ∉ line
  outcome : WriteOutcome
  proper : outcome.Proper (line.length + 1)

namespace LineAppend

variable {α : Type} {sep : α}

/-- What the attempt adds to the file. -/
def added (a : LineAppend α sep) : List α :=
  match a.outcome with
  | .written => a.line ++ [sep]
  | .failed => []
  | .torn kept => (a.line ++ [sep]).take kept

/-- The file after a log of attempts. -/
def contents (log : List (LineAppend α sep)) : List α := log.flatMap added

/-- The line, if it was written. -/
def written? (a : LineAppend α sep) : Option (List α) :=
  match a.outcome with
  | .written => some a.line
  | _ => none

/-- The lines that were written. -/
def written (log : List (LineAppend α sep)) : List (List α) := log.filterMap written?

/-- No line is written after an attempt that left a remainder. -/
def NoneAfterRemainder (log : List (LineAppend α sep)) : Prop :=
  log.Pairwise fun a b => a.outcome.LeavesRemainder → b.outcome ≠ .written

/-! ## One attempt -/

/-- A line that is written ends what stands before it. -/
theorem lines_line_append [DecidableEq α] {before line : List α} (hbefore : sep ∉ before)
    (hline : sep ∉ line) (rest : List α) :
    (before ++ (line ++ [sep]) ++ rest).splitOn sep = (before ++ line) :: rest.splitOn sep := by
  have hplain : sep ∉ before ++ line := by
    rw [List.mem_append]
    exact fun h => h.elim hbefore hline
  have hassoc : before ++ (line ++ [sep]) ++ rest = (before ++ line) ++ sep :: rest := by
    simp only [List.append_assoc, List.singleton_append]
  rw [hassoc, List.splitOn_append_cons_self_of_not_mem hplain]

/-- What a failed attempt leaves is a part of the line, and no separator. -/
theorem added_of_torn {a : LineAppend α sep} {kept : Nat} (h : a.outcome = .torn kept) :
    a.added = a.line.take kept := by
  have hproper : kept < a.line.length + 1 := by
    simpa only [h, WriteOutcome.Proper] using a.proper
  unfold added
  rw [h]
  exact List.take_append_of_le_length (Nat.le_of_lt_succ hproper)

theorem notMem_added_of_torn {a : LineAppend α sep} {kept : Nat} (h : a.outcome = .torn kept) :
    sep ∉ a.added := by
  rw [added_of_torn h]
  exact fun hmem => a.plain (List.mem_of_mem_take hmem)

/-- It leaves nothing exactly if it is no remainder. -/
theorem added_eq_nil_iff_of_torn {a : LineAppend α sep} {kept : Nat}
    (h : a.outcome = .torn kept) : a.added = [] ↔ ¬ a.outcome.LeavesRemainder := by
  have hproper : kept < a.line.length + 1 := by
    simpa only [h, WriteOutcome.Proper] using a.proper
  rw [added_of_torn h, h, WriteOutcome.LeavesRemainder, not_not, List.take_eq_nil_iff]
  refine ⟨fun hnil => hnil.elim id fun hline => ?_, .inl⟩
  -- Of an empty line only the separator could have been kept.
  have hlen : a.line.length = 0 := List.length_eq_zero_iff.mpr hline
  omega

/-- No line was written. -/
theorem written_eq_nil_iff {log : List (LineAppend α sep)} :
    written log = [] ↔ ∀ b ∈ log, b.outcome ≠ .written := by
  rw [written, List.filterMap_eq_nil_iff]
  refine forall₂_congr fun b _ => ?_
  rw [written?]
  cases b.outcome <;> simp

/-! ## The whole file -/

/-- The same with something before the file that no separator ends: what is written first
    is glued to it. -/
theorem written_prefix_lines_after_iff [DecidableEq α] (log : List (LineAppend α sep))
    {before : List α} (hbefore : sep ∉ before) :
    written log <+: (before ++ contents log).splitOn sep ↔
      NoneAfterRemainder log ∧ (before = [] ∨ written log = []) := by
  induction log generalizing before with
  | nil => simp [written, NoneAfterRemainder]
  | cons a log ih =>
    -- The condition on the whole log, by its first attempt.
    have hsound : NoneAfterRemainder (a :: log) ↔
        (a.outcome.LeavesRemainder → written log = []) ∧ NoneAfterRemainder log := by
      unfold NoneAfterRemainder
      rw [List.pairwise_cons, written_eq_nil_iff]
      refine and_congr_left' ⟨fun h hleaves b hb => h b hb hleaves, fun h b hb hleaves => ?_⟩
      exact h hleaves b hb
    have hcontents : before ++ contents (a :: log) = before ++ a.added ++ contents log := by
      rw [contents, List.flatMap_cons, ← contents, List.append_assoc]
    rw [hsound, hcontents]
    cases houtcome : a.outcome with
    | written =>
      -- The first line of the file is this one after what stood before it.
      have hwritten : written (a :: log) = a.line :: written log := by
        simp [written, written?, houtcome]
      have hadded : a.added = a.line ++ [sep] := by
        rw [added, houtcome]
      have hnil : sep ∉ ([] : List α) := List.not_mem_nil
      have hrest := ih hnil
      rw [List.nil_append] at hrest
      rw [hwritten, hadded, lines_line_append hbefore a.plain, List.cons_prefix_cons, hrest]
      simp [WriteOutcome.LeavesRemainder, and_comm]
    | failed =>
      -- Nothing was added, and nothing was written.
      have hwritten : written (a :: log) = written log := by
        simp [written, written?, houtcome]
      have hadded : a.added = [] := by
        rw [added, houtcome]
      rw [hwritten, hadded, List.append_nil, ih hbefore]
      simp [WriteOutcome.LeavesRemainder]
    | torn kept =>
      -- What was added becomes part of what stands before the rest.
      have hwritten : written (a :: log) = written log := by
        simp [written, written?, houtcome]
      have hplain : sep ∉ before ++ a.added := by
        rw [List.mem_append]
        exact fun h => h.elim hbefore (notMem_added_of_torn houtcome)
      have hnil := added_eq_nil_iff_of_torn houtcome
      rw [hwritten, ih hplain, List.append_eq_nil_iff, hnil, ← houtcome]
      constructor
      · -- From the lines to the condition.
        intro h
        obtain ⟨hnone, hlast⟩ := h
        rcases hlast with ⟨hnil, hleaves⟩ | hunwritten
        · exact ⟨⟨fun h => absurd h hleaves, hnone⟩, .inl hnil⟩
        · exact ⟨⟨fun _ => hunwritten, hnone⟩, .inr hunwritten⟩
      · -- And back, by whether anything was left.
        intro h
        obtain ⟨⟨hfirst, hnone⟩, hlast⟩ := h
        by_cases hleaves : a.outcome.LeavesRemainder
        · exact ⟨hnone, .inr (hfirst hleaves)⟩
        · exact ⟨hnone, hlast.imp_left fun hnil => ⟨hnil, hleaves⟩⟩

/-- **Reading a log back**: the lines of the file begin with the lines that were written
    exactly if none was written after a remainder. -/
theorem written_prefix_lines_iff [DecidableEq α] (log : List (LineAppend α sep)) :
    written log <+: (contents log).splitOn sep ↔ NoneAfterRemainder log := by
  have hnil : sep ∉ ([] : List α) := List.not_mem_nil
  have h := written_prefix_lines_after_iff log hnil
  simpa using h

end LineAppend

end AiK8sGateway.Foundations
