import AiK8sGateway.Foundations.JsonText
import Mathlib.Data.List.Chain

/-!
# The Console of the Demo Client

`console.print` of Rich on the one text with markup that the demo client makes of foreign
input: `print_audit_tail` puts the `repr` of a line behind a label of its own.  Rich raises
when a closing tag has no opening one, so what matters is whether `[/` is in the line.

## Main results

- `untagged_quoted`, `inert_dumps`: `repr` and `json.dumps` bring no closing tag into a text.
- `printed_of_untagged`: a line without closing tags is printed.
-/

namespace AiK8sGateway.Audit

open Foundations PythonText

/-! ## Closing tags -/

/-- No closing tag begins in the text: there is no `[` before a `/`. -/
def Untagged (cs : List Char) : Prop := cs.IsChain fun c d => ¬ (c = '[' ∧ d = '/')

instance (cs : List Char) : Decidable (Untagged cs) :=
  inferInstanceAs (Decidable (cs.IsChain fun c d => ¬ (c = '[' ∧ d = '/')))

theorem untagged_append {cs ds : List Char} (hcs : Untagged cs) (hds : Untagged ds)
    (hhead : cs.getLast? = some '[' → ds.head? ≠ some '/') : Untagged (cs ++ ds) := by
  refine List.isChain_append.mpr ⟨hcs, hds, ?_⟩
  rintro c hc d hd ⟨rfl, rfl⟩
  exact hhead hc hd

theorem untagged_of_notMem {cs : List Char} (h : '[' ∉ cs) : Untagged cs := by
  induction cs with
  | nil => exact .nil
  | cons c cs ih =>
    simp only [List.mem_cons, not_or] at h
    have hone : Untagged [c] := .singleton c
    refine untagged_append hone (ih h.2) fun hlast => ?_
    exact absurd (Option.some.inj hlast).symm h.1

/-- The text has no closing tag, and brings none about when it is appended to another. -/
def Inert (cs : List Char) : Prop := Untagged cs ∧ cs.head? ≠ some '/'

instance (cs : List Char) : Decidable (Inert cs) :=
  inferInstanceAs (Decidable (Untagged cs ∧ cs.head? ≠ some '/'))

theorem Inert.append {cs ds : List Char} (hcs : Inert cs) (hds : Inert ds) : Inert (cs ++ ds) := by
  refine ⟨untagged_append hcs.1 hds.1 fun _ => hds.2, ?_⟩
  cases cs with
  | nil => exact hds.2
  | cons c cs => exact hcs.2

theorem inert_of_notMem {cs : List Char} (hbracket : '[' ∉ cs) (hslash : '/' ∉ cs) : Inert cs :=
  ⟨untagged_of_notMem hbracket, fun hhead => hslash (List.mem_of_head? hhead)⟩

/-! ## Escapes -/

/-- A character is left as it is, or becomes a backslash and something without a bracket. -/
def Escaping (f : Char → List Char) : Prop :=
  ∀ c, f c = [c] ∨ ∃ ds, f c = '\\' :: ds ∧ '[' ∉ ds

section Escaping

variable {f : Char → List Char} (hf : Escaping f)
include hf

/-- An escape begins with a backslash or the character. -/
theorem Escaping.head (c : Char) : (f c).head? = some '\\' ∨ (f c).head? = some c := by
  rcases hf c with h | ⟨ds, h, -⟩
  · exact .inr (by rw [h]; rfl)
  · exact .inl (by rw [h]; rfl)

/-- It ends with a bracket only if the character is one. -/
theorem Escaping.eq_of_getLast {c : Char} (h : (f c).getLast? = some '[') : c = '[' := by
  rcases hf c with hc | ⟨ds, hc, hds⟩
  · rw [hc] at h
    exact Option.some.inj h
  · rw [hc] at h
    rcases List.mem_cons.mp (List.mem_of_getLast? h) with heq | hmem
    · cases heq
    · exact absurd hmem hds

theorem Escaping.untagged (c : Char) : Untagged (f c) := by
  rcases hf c with h | ⟨ds, h, hds⟩
  · rw [h]
    exact .singleton c
  · rw [h]
    refine untagged_of_notMem ?_
    rw [List.mem_cons, not_or]
    exact ⟨by decide, hds⟩

/-- Escapes bring no closing tag into a text. -/
theorem untagged_flatMap {cs : List Char} (h : Untagged cs) : Untagged (cs.flatMap f) := by
  induction cs with
  | nil => exact .nil
  | cons c cs ih =>
    rw [List.flatMap_cons]
    refine untagged_append (hf.untagged c) (ih h.tail) fun hlast hhead => ?_
    obtain rfl := hf.eq_of_getLast hlast
    -- The next character would be a slash behind a bracket.
    cases cs with
    | nil => cases hhead
    | cons d cs =>
      rw [List.flatMap_cons, List.head?_append] at hhead
      rcases hf.head d with hd | hd
      · rw [hd] at hhead
        cases hhead
      · rw [hd] at hhead
        obtain rfl := Option.some.inj hhead
        exact (List.isChain_cons_cons.mp h).1 ⟨rfl, rfl⟩

/-- A text between two quotes. -/
theorem inert_quotes {q : Char} (hbracket : q ≠ '[') (hslash : q ≠ '/') {cs : List Char}
    (h : Untagged cs) : Inert (q :: cs.flatMap f ++ [q]) := by
  refine ⟨untagged_append (untagged_append (.singleton q) (untagged_flatMap hf h) ?_)
    (.singleton q) ?_, fun hhead => hslash (Option.some.inj hhead)⟩
  · exact fun hlast => absurd (Option.some.inj hlast) hbracket
  · exact fun _ hhead => hslash (Option.some.inj hhead)

end Escaping

theorem bracket_notMem_hexDigits (digits n : Nat) : '[' ∉ hexDigits digits n := by
  have hhex : ∀ k < 16, '[' ≠ Nat.digitChar k := by decide
  induction digits generalizing n with
  | zero => exact List.not_mem_nil
  | succ digits ih =>
    rw [hexDigits, List.mem_append, not_or, List.mem_singleton]
    exact ⟨ih _, hhex _ (Nat.mod_lt _ (by omega))⟩

/-- The escapes of `repr`. -/
theorem escaping_reprChar [CharTables] {quote : Char} (hquote : quote ≠ '[') :
    Escaping (reprChar quote) := by
  intro c
  have hhex : ∀ k digits n, k ≠ '[' →
      ∃ ds, '\\' :: k :: hexDigits digits n = '\\' :: ds ∧ '[' ∉ ds := by
    intro k digits n hk
    refine ⟨_, rfl, ?_⟩
    rw [List.mem_cons, not_or]
    exact ⟨Ne.symm hk, bracket_notMem_hexDigits digits n⟩
  unfold reprChar
  dsimp only
  split_ifs with hself
  · -- A quote or a backslash.
    refine .inr ⟨[c], rfl, fun hmem => ?_⟩
    obtain rfl := List.mem_singleton.mp hmem
    rcases hself with hself | hself
    · exact hquote hself.symm
    · cases hself
  · exact .inr ⟨_, rfl, by decide⟩
  · exact .inr ⟨_, rfl, by decide⟩
  · exact .inr ⟨_, rfl, by decide⟩
  · exact .inr (hhex 'x' 2 _ (by decide))
  · exact .inl rfl
  · exact .inr (hhex 'x' 2 _ (by decide))
  · exact .inr (hhex 'u' 4 _ (by decide))
  · exact .inr (hhex 'U' 8 _ (by decide))

/-- The escapes of `json.dumps`. -/
theorem escaping_escapeAscii : Escaping escapeAscii := by
  intro c
  have hunicode : ∀ n, '[' ∉ unicodeEscape n := by
    intro n
    simp [unicodeEscape, bracket_notMem_hexDigits]
  unfold escapeAscii
  -- The seven characters with an escape of their own.
  iterate 7
    refine iteInduction (motive := fun cs => cs = [c] ∨ ∃ ds, cs = '\\' :: ds ∧ '[' ∉ ds)
      (fun _ => .inr ⟨_, rfl, by decide⟩) fun _ => ?_
  split_ifs
  · exact .inl rfl
  · exact .inr ⟨_, rfl, fun hmem => hunicode _ (List.mem_cons_of_mem _ hmem)⟩
  · refine .inr ⟨_, List.cons_append .., fun hmem => ?_⟩
    rcases List.mem_append.mp hmem with hmem | hmem
    · exact hunicode _ (List.mem_cons_of_mem _ hmem)
    · exact hunicode _ hmem

/-- **`repr`** brings no closing tag into a text. -/
theorem untagged_quoted [CharTables] {s : String} (h : Untagged s.toList) :
    Untagged (quoted s).toList := by
  have hquote : ∀ b : Bool, (if b then Char.ofNat 0x22 else Char.ofNat 0x27) ≠ '[' ∧
      (if b then Char.ofNat 0x22 else Char.ofNat 0x27) ≠ '/' := by decide
  obtain ⟨hbracket, hslash⟩ := hquote
    (s.toList.contains (Char.ofNat 0x27) && !s.toList.contains (Char.ofNat 0x22))
  unfold quoted
  rw [String.toList_ofList]
  exact (inert_quotes (escaping_reprChar hbracket) hbracket hslash h).1

/-- **`json.dumps`** brings no closing tag into a text: what opens a list is no slash. -/
theorem inert_dumps {v : Json} (h : v.allStrings (fun s => decide (Untagged s.toList)) = true) :
    Inert (dumps v).toList := by
  have hclosed : ClosedText (fun s => decide (Untagged s.toList)) fun s => Inert s.toList := by
    refine ⟨fun hs ht => ?_, by decide, fun s hs => ?_, fun s hs => ?_⟩
    · rw [String.toList_append]
      exact hs.append ht
    · exact inert_of_notMem (fun hmem => absurd (hs _ hmem) (by decide))
        fun hmem => absurd (hs _ hmem) (by decide)
    · rw [encodeString, String.toList_ofList]
      exact inert_quotes escaping_escapeAscii (by decide) (by decide) (of_decide_eq_true hs)
  exact dumps_closed hclosed v h

/-! ## Rich -/

/-- What is printed of a malformed line goes behind this label. -/
def malformedLabel : String := "[red]Malformed audit record:[/red] "

/-- Rich, as far as the demo client relies on it. -/
class Console where
  /-- The message of the `MarkupError` that `console.print` raises on a text, if it does. -/
  markupError? : String → Option String
  /-- Behind a label whose tags match, only another closing tag is an error. -/
  markupError_untagged : ∀ text, Untagged text.toList →
    markupError? (malformedLabel ++ text) = none

export Console (markupError?)

/-- The text that is printed for a malformed line. -/
def malformedText [CharTables] (line : String) : String := malformedLabel ++ quoted line

/-- **A line without closing tags** is printed. -/
theorem printed_of_untagged [CharTables] [Console] {line : String}
    (h : Untagged line.toList) : markupError? (malformedText line) = none :=
  Console.markupError_untagged _ (untagged_quoted h)

/-- A console that takes every closing tag behind the label for an error. -/
@[reducible] def strictConsole : Console where
  markupError? text :=
    if Untagged (text.toList.drop malformedLabel.toList.length) then none
    else some "closing tag doesn't match any open tag"
  markupError_untagged text h := by
    rw [if_pos]
    rwa [String.toList_append, List.drop_left]

end AiK8sGateway.Audit
