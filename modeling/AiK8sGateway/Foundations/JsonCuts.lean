import AiK8sGateway.Foundations.JsonFragments

/-!
# Cut-off Texts

`int` refuses to convert too many digits, and `json.loads` then raises a `ValueError` that
is no `JSONDecodeError`.  Texts of values that were cut off anywhere and ran into one
another never make it do so: what the decoder takes for a value in them is followed by
nothing that lets it go on.

## Main results

- `harmless_of_cut`: a value that was cut off, in front of fragments.
- `loads_ne_valueError`: fragments are accepted, or refused with a `JSONDecodeError`.
-/

namespace AiK8sGateway.Foundations

open JsonStructure PythonText

attribute [local instance] decidableForallChars

/-! ## Where the decoder cannot go on -/

/-- A text that no list and no object goes on with. -/
def Stuck (rest : List Char) : Prop :=
  ∀ c ∈ (skipSpace rest).head?, c ∉ [',', ':', ']', '\x7d']

theorem stuck_of_head {rest : List Char} (h : ∀ c ∈ rest.head?, isFollower c = false) :
    Stuck rest := by
  intro c hc
  cases rest with
  | nil => cases hc
  | cons d rest =>
    have hd := h d rfl
    simp only [isFollower, Bool.or_eq_false_iff, decide_eq_false_iff_not] at hd
    have hskip : skipSpace (d :: rest) = d :: rest :=
      List.dropWhile_cons_of_neg (by simp [hd.1])
    rw [hskip] at hc
    cases hc
    exact hd.2

theorem stuck_of_space {ends : List Char} (h : ∀ c ∈ ends, isJsonSpace c = true) :
    Stuck ends := by
  have hskip : skipSpace ends = [] := List.dropWhile_eq_nil_iff.mpr h
  intro c hc
  rw [hskip] at hc
  cases hc

theorem Stuck.ne_cons {rest : List Char} (h : Stuck rest) {c : Char}
    (hc : c ∈ [',', ':', ']', '\x7d']) (tail : List Char) : skipSpace rest ≠ c :: tail := by
  intro heq
  exact h c (by rw [heq]; rfl) hc

/-- The quote of a first key ends a string, and what follows it does not follow strings. -/
theorem stuck_behind_firstKey {more taken rest : List Char}
    (hmore : ∀ c ∈ more.head?, isFollower c = false)
    (hsplit : '\x7b' :: '"' :: more = taken ++ rest) (hrun : Runs .quoted taken .closed) :
    Stuck rest := by
  cases taken with
  | nil => cases hrun
  | cons c taken =>
    obtain ⟨hc₁, hsplit₁⟩ := List.cons_eq_cons.mp hsplit
    subst hc₁
    cases taken with
    | nil => cases hrun
    | cons c taken =>
      obtain ⟨hc₂, hsplit₂⟩ := List.cons_eq_cons.mp hsplit₁
      subst hc₂
      cases taken with
      | nil =>
        -- The string ends at the first quote, and what is behind that does not follow strings.
        obtain rfl : more = rest := hsplit₂
        exact stuck_of_head hmore
      | cons c taken =>
        -- It would go on behind the quote, where the cursor has no step.
        have hc : isFollower c = false := hmore c (by rw [hsplit₂]; rfl)
        have hnone : step (0, .closed) c = none := if_neg (by simp [hc])
        have hquoted : step (0, .quoted) '\x7b' = some (0, .quoted) := rfl
        have hclosed : step (0, .quoted) '"' = some (0, .closed) := rfl
        unfold Runs at hrun
        rw [run_cons, hquoted, Option.bind_some, run_cons, hclosed, Option.bind_some, run_cons,
          hnone] at hrun
        cases hrun

/-! ## Inside a string -/

/-- The cursor goes from mode to mode without leaving the string. -/
inductive StaysQuoted : Mode → List Char → Mode → Prop where
  | nil (m : Mode) : StaysQuoted m [] m
  | cons {m m' m'' : Mode} {c : Char} {cs : List Char} (hstep : step (0, m) c = some (0, m'))
      (hplain : m' ≠ .plain) (hclosed : m' ≠ .closed) (h : StaysQuoted m' cs m'') :
      StaysQuoted m (c :: cs) m''

theorem StaysQuoted.append {m m' m'' : Mode} {cs ds : List Char} (h : StaysQuoted m cs m')
    (h' : StaysQuoted m' ds m'') : StaysQuoted m (cs ++ ds) m'' := by
  induction h with
  | nil => exact h'
  | cons hstep hplain hclosed _ ih => exact .cons hstep hplain hclosed (ih h')

theorem StaysQuoted.run_prefix {m m' : Mode} {cs p : List Char} (h : StaysQuoted m cs m')
    (hp : p <+: cs) (hplain : m ≠ .plain) (hclosed : m ≠ .closed) :
    ∃ m'', Runs m p m'' ∧ m'' ≠ .plain ∧ m'' ≠ .closed := by
  induction h generalizing p with
  | nil m =>
    rw [List.prefix_nil.mp hp]
    exact ⟨m, rfl, hplain, hclosed⟩
  | @cons m m' m'' c cs hstep hplain' hclosed' _ ih =>
    cases p with
    | nil => exact ⟨m, rfl, hplain, hclosed⟩
    | cons d p =>
      obtain ⟨rfl, hp'⟩ := List.cons_prefix_cons.mp hp
      obtain ⟨q, hrun, hq⟩ := ih hp' hplain' hclosed'
      refine ⟨q, ?_, hq⟩
      unfold Runs
      rw [run_cons, hstep]
      exact hrun

theorem staysQuoted_hexDigits (n : Nat) : StaysQuoted (.hex 4) (hexDigits 4 n) .quoted := by
  have hdigit : ∀ m : Nat, (hexValue? (Nat.digitChar (m % 16))).isSome = true := fun m => by
    rw [hexValue?_digitChar (Nat.mod_lt _ (by decide))]
    rfl
  have hstep : ∀ (left m : Nat), step (0, .hex left) (Nat.digitChar (m % 16)) =
      some (0, if left ≤ 1 then .quoted else .hex (left - 1)) := fun left m => if_pos (hdigit m)
  simp only [hexDigits, List.nil_append, List.cons_append]
  exact .cons (hstep 4 _) (by decide) (by decide) <| .cons (hstep 3 _) (by decide) (by decide) <|
    .cons (hstep 2 _) (by decide) (by decide) <| .cons (hstep 1 _) (by decide) (by decide) <| .nil _

theorem staysQuoted_unicodeEscape (n : Nat) : StaysQuoted .quoted (unicodeEscape n) .quoted :=
  .cons rfl (by decide) (by decide) <| .cons rfl (by decide) (by decide) <|
    staysQuoted_hexDigits n

theorem staysQuoted_escapeAscii (c : Char) : StaysQuoted .quoted (escapeAscii c) .quoted := by
  unfold escapeAscii
  split_ifs with hquote hback
  -- The seven characters with an escape of their own.
  iterate 7
    exact .cons rfl (by decide) (by decide) <| .cons rfl (by decide) (by decide) <| .nil _
  · -- Any other ASCII character stands for itself.
    have hstep : step (0, .quoted) c = some (0, .quoted) := by simp [step, hquote, hback]
    exact .cons hstep (by decide) (by decide) (.nil _)
  · -- The rest is escaped by number, as one or two groups of four digits.
    exact staysQuoted_unicodeEscape _
  · exact (staysQuoted_unicodeEscape _).append (staysQuoted_unicodeEscape _)

/-- No prefix of the escapes of a string ends it. -/
theorem staysQuoted_escapes (cs : List Char) :
    StaysQuoted .quoted (cs.flatMap escapeAscii) .quoted := by
  induction cs with
  | nil => exact .nil _
  | cons c cs ih =>
    rw [List.flatMap_cons]
    exact (staysQuoted_escapeAscii c).append ih

/-- A proper prefix of a text and its last character is one of the text. -/
theorem prefix_of_ne_concat {p cs : List Char} {c : Char} (h : p <+: cs ++ [c])
    (hne : p ≠ cs ++ [c]) : p <+: cs :=
  (List.prefix_concat_iff.mp h).resolve_left hne

/-! ## Names and numbers -/

/-- No name is another one's beginning. -/
theorem constants_prefix : ∀ e ∈ constants, ∀ f ∈ constants,
    e.1.toList <+: f.1.toList → e.1.toList = f.1.toList := by decide

theorem prefix_of_scanConstant {cs rest : List Char} {v : Json}
    (h : scanConstant cs = some (v, rest)) : ∃ e ∈ constants, e.1.toList <+: cs := by
  obtain ⟨e, hmem, hscan⟩ := List.exists_of_findSome?_eq_some h
  obtain ⟨rest', hdrop, -⟩ := Option.map_eq_some_iff.mp hscan
  obtain ⟨name, hcs, hname⟩ := List.dropPrefix?_eq_some_iff.mp hdrop
  obtain rfl : name = e.1.toList := by simpa using hname
  exact ⟨e, hmem, rest', hcs.symm⟩

/-- A name that was cut off is no name. -/
theorem scanConstant_of_cut {e : String × Json} (he : e ∈ constants) {u z : List Char}
    (hu : u <+: e.1.toList) (hne : u ≠ e.1.toList) (hz : ∀ c ∈ z.head?, c = '\x7b') :
    scanConstant (u ++ z) = none := by
  by_contra hsome
  obtain ⟨⟨v, rest⟩, hscan⟩ := Option.ne_none_iff_exists'.mp hsome
  obtain ⟨f, hf, hpre⟩ := prefix_of_scanConstant hscan
  have hnot : ¬ f.1.toList <+: u := by
    intro hshort
    have heq := constants_prefix f hf e he (hshort.trans hu)
    exact hne (hu.eq_of_length_le (heq ▸ hshort).length_le)
  rcases prefix_append_cases hpre with hshort | ⟨q, hq, hqz⟩
  · -- The name that is found lies within the cut.
    exact hnot hshort
  · cases q with
    -- It is all of the cut.
    | nil =>
      rw [List.append_nil] at hq
      exact hnot (hq ▸ List.prefix_rfl)
    | cons c q =>
      -- No name has a brace.
      have hbrace : ∀ f ∈ constants, '\x7b' ∉ f.1.toList := by decide
      refine hbrace f hf ?_
      cases z with
      | nil => exact absurd (List.prefix_nil.mp hqz) (List.cons_ne_nil _ _)
      | cons d z =>
        rw [hq, ← hz d rfl, ← (List.cons_prefix_cons.mp hqz).1]
        exact List.mem_append_right _ (List.mem_cons_self ..)

theorem scanNumber_eq_none {cs : List Char}
    (h : ∀ c ∈ (scanSign cs).2.head?, c.isDigit = false) : scanNumber cs = none := by
  have hinteger : scanInteger (scanSign cs).2 = none := by
    cases hrest : (scanSign cs).2 with
    | nil => rfl
    | cons c rest =>
      have hc := h c (by rw [hrest]; rfl)
      have hzero : c ≠ '0' := by
        rintro rfl
        exact absurd hc (by decide)
      rw [scanInteger, if_neg hzero, if_neg (by simp [hc])]
  unfold scanNumber
  simp [hinteger]

/-- A name that was cut off is no number either. -/
theorem scanNumber_of_cut {e : String × Json} (he : e ∈ constants) {u z : List Char}
    (hu : u <+: e.1.toList) (hne : u ≠ []) (hz : ∀ c ∈ z.head?, c = '\x7b') :
    scanNumber (u ++ z) = none := by
  have hletters : ∀ e ∈ constants, ∃ c rest, e.1.toList = c :: rest ∧ c.isDigit = false ∧
      ∀ d ∈ rest.head?, d.isDigit = false := by
    simp [constants]
  obtain ⟨c, rest, hname, hc, hrest⟩ := hletters e he
  rw [hname] at hu
  cases u with
  -- At least one character of the name is left, and it decides.
  | nil => exact absurd rfl hne
  | cons d u =>
    obtain ⟨rfl, hu'⟩ := List.cons_prefix_cons.mp hu
    refine scanNumber_eq_none fun x hx => ?_
    by_cases hminus : d = '-'
    · subst hminus
      have hrest' : x ∈ (u ++ z).head? := hx
      cases u with
      -- A sign at the end of the cut: a brace is behind it.
      | nil =>
        rw [hz x hrest']
        decide
      | cons y u =>
        -- A sign and a letter of the name.
        cases rest with
        | nil => exact absurd (List.prefix_nil.mp hu') (List.cons_ne_nil _ _)
        | cons w rest =>
          cases hrest'
          rw [(List.cons_prefix_cons.mp hu').1]
          exact hrest w rfl
    · -- No sign at all, and the letter is no digit.
      have hsign : scanSign (d :: u ++ z) = ([], d :: u ++ z) := by
        unfold scanSign
        split
        · rename_i heq
          cases heq
          exact absurd rfl hminus
        · rfl
      rw [hsign] at hx
      cases hx
      exact hc

/-- A text that begins as a number does begins with no name. -/
theorem scanConstant_of_numeric {c : Char} {cs : List Char}
    (h : c.isDigit = true ∨ c = '-' ∧ ∀ d ∈ cs.head?, d ≠ 'I') : scanConstant (c :: cs) = none := by
  have hletters : ∀ e ∈ constants, ∃ d rest, e.1.toList = d :: rest ∧ d.isDigit = false ∧
      (d = '-' → rest.head? = some 'I') := by
    simp [constants]
  by_contra hsome
  obtain ⟨⟨v, rest⟩, hscan⟩ := Option.ne_none_iff_exists'.mp hsome
  obtain ⟨e, he, hpre⟩ := prefix_of_scanConstant hscan
  obtain ⟨d, name, hname, hdigit, hinfinity⟩ := hletters e he
  rw [hname] at hpre
  obtain ⟨rfl, hpre'⟩ := List.cons_prefix_cons.mp hpre
  rcases h with hc | ⟨hc, hhead⟩
  · -- A digit begins no name.
    rw [hdigit] at hc
    cases hc
  · -- A sign begins a name only in front of an `I`.
    obtain ⟨more, rfl⟩ := List.head?_eq_some_iff.mp (hinfinity hc)
    cases cs with
    | nil => exact absurd (List.prefix_nil.mp hpre') (List.cons_ne_nil _ _)
    | cons x cs => exact hhead x rfl (List.cons_prefix_cons.mp hpre').1.symm

theorem isNumberChar_of_mem_token {t : NumberToken} (h : t.WellFormed) {c : Char}
    (hc : c ∈ t.text) : isNumberChar c = true := by
  have hscan := scanNumber_token h (show Delimited [] from nofun)
  obtain ⟨⟨-, hchars⟩, -⟩ := numberPart_scanNumber hscan
  exact hchars c hc

theorem isFollower_of_isNumberChar {c : Char} (h : isNumberChar c = true) :
    isFollower c = false := by
  have hnone : ∀ d ∈ [' ', '\t', '\n', '\r', ',', ':', ']', '\x7d'], isNumberChar d = false := by
    decide
  have hne : ∀ d ∈ [' ', '\t', '\n', '\r', ',', ':', ']', '\x7d'], c ≠ d := by
    rintro d hd rfl
    rw [hnone c hd] at h
    cases h
  simp only [List.forall_mem_cons] at hne
  simp [isFollower, isJsonSpace, hne]

theorem shape_of_scanNumber {cs rest : List Char} {t : NumberToken}
    (h : scanNumber cs = some (t, rest)) :
    (t.sign = [] ∨ t.sign = ['-']) ∧ IsDigits t.digits := by
  obtain ⟨⟨digits, rest'⟩, hint, heq⟩ := Option.bind_eq_some_iff.mp h
  cases heq
  obtain ⟨hne, hall⟩ := isDigit_of_scanInteger hint
  have hsign : (scanSign cs).1 = [] ∨ (scanSign cs).1 = ['-'] := by
    unfold scanSign
    split
    · exact .inr rfl
    · exact .inl rfl
  exact ⟨hsign, hne, hall⟩

/-- A prefix of a token begins as a number does, whatever is behind it. -/
theorem numeric_of_cut {t : NumberToken} (h : t.WellFormed) {c : Char} {u z : List Char}
    (hu : c :: u <+: t.text) (hz : ∀ d ∈ z.head?, d = '\x7b') :
    c.isDigit = true ∨ c = '-' ∧ ∀ d ∈ (u ++ z).head?, d ≠ 'I' := by
  obtain ⟨first, rest, hdigits, hfirst⟩ := h.digits.head
  simp only [NumberToken.text, hdigits, List.append_assoc, List.cons_append] at hu
  rcases h.sign with hsign | hsign
  · -- Without a sign the first character is the first digit.
    rw [hsign, List.nil_append] at hu
    exact .inl ((List.cons_prefix_cons.mp hu).1 ▸ hfirst)
  · -- With a sign, what is behind it is a brace or that digit.
    rw [hsign, List.singleton_append] at hu
    obtain ⟨hc, hu'⟩ := List.cons_prefix_cons.mp hu
    refine .inr ⟨hc, fun d hd => ?_⟩
    cases u with
    | nil =>
      rw [hz d hd]
      decide
    | cons x u =>
      cases hd
      rw [(List.cons_prefix_cons.mp hu').1]
      rintro rfl
      exact absurd hfirst (by decide)

/-- What is taken for a number is in the part that was cut off. -/
theorem cut_number {u z rest : List Char} {t : NumberToken}
    (hz : ∀ c ∈ z.head?, c = '\x7b') (h : scanNumber (u ++ z) = some (t, rest)) :
    ∃ r, u = t.text ++ r ∧ rest = r ++ z := by
  obtain ⟨⟨hsplit, hchars⟩, -⟩ := numberPart_scanNumber h
  have hpre : t.text <+: u ++ z := ⟨rest, hsplit.symm⟩
  rcases prefix_append_cases hpre with ⟨r, rfl⟩ | ⟨q, hq, hqz⟩
  · -- The token lies within the cut.
    rw [List.append_assoc] at hsplit
    exact ⟨r, rfl, (List.append_cancel_left hsplit).symm⟩
  · -- It would go on into the fragments, which begin with a brace.
    have hnil : q = [] := by
      cases q with
      | nil => rfl
      | cons c q =>
        cases z with
        | nil => exact List.prefix_nil.mp hqz
        | cons d z =>
          have hbrace : c = '\x7b' := (List.cons_prefix_cons.mp hqz).1.trans (hz d rfl)
          have hc := hchars c (by rw [hq]; exact List.mem_append_right _ (List.mem_cons_self ..))
          rw [hbrace] at hc
          exact absurd hc (by decide)
    rw [hnil, List.append_nil] at hq
    rw [hq] at hsplit
    exact ⟨[], by rw [List.append_nil, hq], (List.append_cancel_left hsplit).symm⟩

/-- A prefix of a token has no more digits before its point. -/
theorem length_digits_le {t t' : NumberToken} (h : t.WellFormed)
    (hsign : t'.sign = [] ∨ t'.sign = ['-']) (hdigits : IsDigits t'.digits)
    (hpre : t'.text <+: t.text) : t'.digits.length ≤ t.digits.length := by
  obtain ⟨c, rest, hhead, hc⟩ := h.digits.head
  obtain ⟨c', rest', hhead', hc'⟩ : ∃ c rest, t'.digits = c :: rest ∧ c.isDigit = true := by
    cases hds : t'.digits with
    | nil => exact absurd hds hdigits.ne_nil
    | cons c rest => exact ⟨c, rest, rfl, hdigits.digits c (by rw [hds]; exact List.mem_cons_self ..)⟩
  have hminus : ('-').isDigit = false := by decide
  -- The signs are the same, so that the digits begin together.
  have hbegin : t'.digits <+: t.digits ++ (t.frac ++ t.exp) := by
    have hdigits' : t'.digits <+: t'.digits ++ (t'.frac ++ t'.exp) := List.prefix_append _ _
    simp only [NumberToken.text, List.append_assoc] at hpre
    rcases h.sign with hs | hs <;> rcases hsign with hs' | hs' <;> rw [hs, hs'] at hpre
    · -- The case of no signs.
      exact hdigits'.trans hpre
    · -- A sign in the shorter token only: it would be a digit of the longer one.
      rw [List.nil_append, hhead] at hpre
      have heq := (List.cons_prefix_cons.mp hpre).1
      rw [← heq, hminus] at hc
      cases hc
    · -- A sign in the longer token only, in the same way.
      rw [List.nil_append, hhead'] at hpre
      have heq := (List.cons_prefix_cons.mp hpre).1
      rw [heq, hminus] at hc'
      cases hc'
    · -- The case of two signs.
      exact hdigits'.trans (List.cons_prefix_cons.mp hpre).2
  -- The digits of the prefix are among those of the token.
  rcases prefix_append_cases hbegin with hshort | ⟨q, hq, hmore⟩
  · exact hshort.length_le
  · -- They would go on into its fraction or its exponent.
    cases q with
    | nil => rw [hq, List.append_nil]
    | cons d q =>
      -- Behind the digits there is no digit.
      have hd : d.isDigit = true :=
        hdigits.digits d (by rw [hq]; exact List.mem_append_right _ (List.mem_cons_self ..))
      have hnone : ∀ x ∈ (t.frac ++ t.exp).head?, x.isDigit = false := by
        rcases h.frac with hfrac | ⟨ds, hfrac, -⟩
        · rcases h.exp with hexp | ⟨sign, ds, hexp, -⟩
          · simp [hfrac, hexp]
          · rw [hfrac, hexp]
            rintro x ⟨⟩
            decide
        · rw [hfrac]
          rintro x ⟨⟩
          decide
      cases hrest : t.frac ++ t.exp with
      | nil =>
        rw [hrest] at hmore
        exact absurd (List.prefix_nil.mp hmore) (List.cons_ne_nil _ _)
      | cons x more =>
        rw [hrest] at hmore
        have hx := hnone x (by rw [hrest]; rfl)
        rw [← (List.cons_prefix_cons.mp hmore).1, hd] at hx
        cases hx

/-! ## Fragments -/

section Values

variable [FloatReader]

/-- A value that is written as an object of the kind of `whole_of_loads`. -/
structure IsRecord (v : Json) : Prop where
  loadable : Loadable v
  text : ObjectText (dumps v).toList

/-- Prefixes of records that run into one another; whitespace may follow the last one, if
    it is whole. -/
inductive Fragments : List Char → Prop where
  | nil : Fragments []
  | ended {v : Json} {ends : List Char} (hv : IsRecord v)
      (hends : ∀ c ∈ ends, isJsonSpace c = true) : Fragments ((dumps v).toList ++ ends)
  | cons {v : Json} {p rest : List Char} (hv : IsRecord v) (hp : p <+: (dumps v).toList)
      (hne : p ≠ []) (h : Fragments rest) : Fragments (p ++ rest)

theorem Fragments.head {z : List Char} (h : Fragments z) : ∀ c ∈ z.head?, c = '\x7b' := by
  cases h with
  | nil => nofun
  | ended hv hends =>
    -- A whole record begins with a brace, and so does what is left of one.
    obtain ⟨c, rest, -, htext⟩ := hv.text.firstKey
    rw [htext]
    rintro c ⟨⟩
    rfl
  | @cons v p rest hv hp hne h =>
    obtain ⟨c, rest', -, htext⟩ := hv.text.firstKey
    rw [htext] at hp
    cases p with
    | nil => exact absurd rfl hne
    | cons d p =>
      rintro c ⟨⟩
      exact (List.cons_prefix_cons.mp hp).1

theorem Fragments.stuck {z : List Char} (h : Fragments z) : Stuck z := by
  refine stuck_of_head fun c hc => ?_
  rw [h.head c hc]
  decide

theorem Fragments.skipSpace_eq {z : List Char} (h : Fragments z) : skipSpace z = z := by
  cases z with
  | nil => rfl
  | cons c z =>
    rw [h.head c rfl]
    exact List.dropWhile_cons_of_neg (by decide)

theorem Fragments.delimited {z : List Char} (h : Fragments z) : Delimited z := by
  intro c hc
  rw [h.head c hc]
  decide

/-- Wherever a string that was cut off ends among fragments, the decoder is stuck. -/
theorem Fragments.stuck_behind_string {z taken rest : List Char} (h : Fragments z)
    (hsplit : z = taken ++ rest) (hrun : Runs .quoted taken .closed) : Stuck rest := by
  induction h generalizing taken with
  | nil =>
    -- There is nothing for the string to end in.
    obtain ⟨rfl, -⟩ := List.append_eq_nil_iff.mp hsplit.symm
    cases hrun
  | ended hv hends =>
    -- The whole record behind it ends the string at its first quote.
    obtain ⟨c, tail, hc, htext⟩ := hv.text.firstKey
    rw [htext] at hsplit
    refine stuck_behind_firstKey ?_ hsplit hrun
    rintro d ⟨⟩
    exact hc
  | @cons v p z hv hp hne h ih =>
    obtain ⟨c, tail, hc, htext⟩ := hv.text.firstKey
    rw [htext] at hp
    cases p with
    | nil => exact absurd rfl hne
    | cons d p =>
      obtain ⟨hd, hp₁⟩ := List.cons_prefix_cons.mp hp
      subst hd
      cases p with
      | nil =>
        -- The brace alone is another character of the string.
        cases taken with
        | nil => cases hrun
        | cons d taken =>
          obtain ⟨hd, hsplit₁⟩ := List.cons_eq_cons.mp hsplit
          subst hd
          exact ih hsplit₁ hrun
      | cons d p =>
        -- The brace and the quote: the string ends here, in front of a key or of the next
        -- fragment.
        obtain ⟨hd, hp₂⟩ := List.cons_prefix_cons.mp hp₁
        subst hd
        refine stuck_behind_firstKey ?_ hsplit hrun
        cases p with
        | nil =>
          -- The next fragment begins right behind the quote.
          intro e he
          rw [h.head e he]
          decide
        | cons d p =>
          -- The key begins there.
          obtain ⟨rfl, -⟩ := List.cons_prefix_cons.mp hp₂
          rintro e ⟨⟩
          exact hc

/-! ## Values that are cut off -/

/-- The decoder finds no number that is too long, and cannot go on behind a value. -/
def Harmless (cs : List Char) : Prop :=
  ∀ n, 2 * cs.length + 1 ≤ n → scanOnce n cs ≠ .error .valueError ∧
    ∀ v rest, scanOnce n cs = .ok (v, rest) → Stuck rest

/-- A value that was cut off, in front of fragments that are harmless themselves. -/
def CutsHarmless (v : Json) : Prop :=
  ∀ u z, u <+: (dumps v).toList → u ≠ (dumps v).toList → Fragments z → Harmless z →
    Harmless (u ++ z)

/-- A text that begins with no value at all. -/
theorem harmless_of_error {cs : List Char}
    (h : ∀ n, scanOnce (n + 1) cs = .error .jsonDecodeError) : Harmless cs := by
  intro n hn
  obtain ⟨n, rfl⟩ : ∃ k, n = k + 1 := ⟨n - 1, by omega⟩
  rw [h n]
  simp

theorem harmless_nil : Harmless [] := harmless_of_error fun _ => rfl

/-! ### Strings -/

/-- A string that was cut off ends among the fragments behind it, if anywhere. -/
theorem stuck_of_cut_string {cs part z s rest : List Char}
    (hpart : part <+: cs.flatMap escapeAscii) (hz : Fragments z)
    (h : scanString (part ++ z) = some (s, rest)) : Stuck rest := by
  have hquoted := staysQuoted_escapes cs
  obtain ⟨taken, -, hsplit, hrun⟩ := takes_scanString h
  have htaken : taken <+: part ++ z := ⟨rest, hsplit.symm⟩
  rcases prefix_append_cases htaken with hshort | ⟨q, rfl, hq⟩
  · -- Not in the part.
    obtain ⟨m, hm, -, hclosed⟩ := hquoted.run_prefix (hshort.trans hpart) nofun nofun
    unfold Runs at hrun hm
    rw [hrun] at hm
    cases hm
    exact absurd rfl hclosed
  · -- In the fragments: the part leaves the cursor inside the string, in some mode.
    obtain ⟨m, hm, hplain, hclosed⟩ := hquoted.run_prefix hpart nofun nofun
    unfold Runs at hrun hm
    rw [run_append, hm, Option.bind_some] at hrun
    rw [List.append_assoc] at hsplit
    have hzq := List.append_cancel_left hsplit
    cases q with
    -- It ends where the part does, which no mode allows.
    | nil =>
      cases hrun
      exact absurd rfl hclosed
    | cons c q =>
      cases m with
      | plain => exact absurd rfl hplain
      | closed => exact absurd rfl hclosed
      -- Between two characters the first quote of the fragments ends it.
      | quoted => exact hz.stuck_behind_string hzq hrun
      | escaped | hex _ =>
        -- The brace of a fragment does not continue an escape.
        have hc : c = '\x7b' := hz.head c (by rw [hzq]; rfl)
        subst hc
        cases hrun

theorem cutsHarmless_str (s : String) : CutsHarmless (.str s) := by
  have htext : (dumps (.str s)).toList = '"' :: (s.toList.flatMap escapeAscii ++ ['"']) := by
    rw [dumps, encodeString, String.toList_ofList, List.cons_append]
  intro u z hu hne hz hharmless
  rw [htext] at hu hne
  cases u with
  -- Nothing is left of the string, not even its quote.
  | nil => exact hharmless
  | cons c u =>
    -- The opening quote is left, and some of the characters.
    obtain ⟨rfl, hu'⟩ := List.cons_prefix_cons.mp hu
    have hpart := prefix_of_ne_concat hu' fun heq => hne (congrArg (_ :: ·) heq)
    intro n hn
    obtain ⟨n, rfl⟩ : ∃ k, n = k + 1 := ⟨n - 1, by omega⟩
    rw [List.cons_append, scanOnce, if_pos rfl]
    cases hscan : scanString (u ++ z) with
    -- No end of the string is found.
    | none => simp
    | some found =>
      -- One is found, and the decoder is stuck behind it.
      refine ⟨by simp, fun v rest heq => ?_⟩
      cases heq
      exact stuck_of_cut_string hpart hz hscan

/-! ### Names and numbers -/

theorem cutsHarmless_of_constant {name : String} {v : Json} (h : (name, v) ∈ constants)
    (htext : dumps v = name) : CutsHarmless v := by
  obtain ⟨first, rest, hname, -, hquote, hobject, harray⟩ := head_of_constant h
  intro u z hu hne hz hharmless
  rw [htext] at hu hne
  have hconstant := scanConstant_of_cut h hu hne hz.head
  cases u with
  -- Nothing is left of the name.
  | nil => exact hharmless
  | cons c u =>
    -- What is left is no name and no number, and nothing else begins like it.
    have hnumber := scanNumber_of_cut h hu (List.cons_ne_nil _ _) hz.head
    obtain ⟨tail, htail⟩ := hu
    obtain ⟨rfl, -⟩ : c = first ∧ u ++ tail = rest := List.cons.inj (htail.trans hname)
    refine harmless_of_error fun n => ?_
    rw [List.cons_append] at hconstant hnumber ⊢
    rw [scanOnce, if_neg hquote, if_neg hobject, if_neg harray, hconstant]
    dsimp only
    rw [hnumber]

theorem cutsHarmless_of_token {t : NumberToken} (h : t.WellFormed)
    (hshort : t.digits.length ≤ maxStrDigits) {v : Json} (htext : (dumps v).toList = t.text) :
    CutsHarmless v := by
  intro u z hu hne hz hharmless
  rw [htext] at hu hne
  cases u with
  -- Nothing is left of the number.
  | nil => exact hharmless
  | cons c u =>
    -- Step 1: what is left begins as a number does, so that the decoder looks for one.
    have hconstant := scanConstant_of_numeric (numeric_of_cut h hu hz.head)
    have hbrackets : c ≠ '"' ∧ c ≠ '\x7b' ∧ c ≠ '[' := by
      have hnumber : ∀ d ∈ ['"', '\x7b', '['], isNumberChar d = false := by decide
      have hc := isNumberChar_of_mem_token h (hu.subset (List.mem_cons_self ..))
      refine ⟨?_, ?_, ?_⟩ <;> rintro rfl <;> exact absurd hc (by decide)
    obtain ⟨hquote, hobject, harray⟩ := hbrackets
    intro n hn
    obtain ⟨n, rfl⟩ : ∃ k, n = k + 1 := ⟨n - 1, by omega⟩
    rw [List.cons_append, scanOnce, if_neg hquote, if_neg hobject, if_neg harray, hconstant]
    dsimp only
    cases hscan : scanNumber (c :: (u ++ z)) with
    -- A sign alone is no number.
    | none => simp
    | some found =>
      -- Step 2: the number that is found lies within the cut, and its digits are not too many.
      obtain ⟨t', rest⟩ := found
      obtain ⟨r, hr, rfl⟩ := cut_number (u := c :: u) hz.head hscan
      have hpre : t'.text <+: c :: u := ⟨r, hr.symm⟩
      -- Step 3: behind it is the rest of the token or a fragment.
      have hstuck : Stuck (r ++ z) := by
        cases r with
        | nil => exact hz.stuck
        | cons x r =>
          refine stuck_of_head ?_
          rintro y ⟨⟩
          refine isFollower_of_isNumberChar (isNumberChar_of_mem_token h (hu.subset ?_))
          rw [hr]
          exact List.mem_append_right _ (List.mem_cons_self ..)
      obtain ⟨hsign, hdigits⟩ := shape_of_scanNumber hscan
      have hle := (length_digits_le h hsign hdigits (hpre.trans hu)).trans hshort
      obtain ⟨w, hvalue⟩ : ∃ w, t'.value = .ok w := by
        unfold NumberToken.value
        rw [if_neg (not_lt.mpr hle)]
        split_ifs <;> exact ⟨_, rfl⟩
      dsimp only
      rw [hvalue]
      refine ⟨by simp, fun v rest heq => ?_⟩
      cases heq
      exact hstuck

theorem cutsHarmless_float (x : PyFloat) : CutsHarmless (.float x) := by
  have htoken : (x = .negZero ∨ ∃ q, x = .finite q) → CutsHarmless (.float x) := by
    intro hx
    obtain ⟨t, hwf, -, hshort, hdumps, -⟩ := float_token hx
    exact cutsHarmless_of_token hwf (hshort.trans (by decide)) hdumps
  cases x with
  -- The three names.
  | nan => exact cutsHarmless_of_constant (by simp [constants] : ("NaN", _) ∈ constants) rfl
  | inf neg =>
    cases neg with
    | false => exact cutsHarmless_of_constant (by simp [constants] : ("Infinity", _) ∈ constants) rfl
    | true => exact cutsHarmless_of_constant (by simp [constants] : ("-Infinity", _) ∈ constants) rfl
  -- The floats with a text of digits.
  | negZero => exact htoken (.inl rfl)
  | finite q => exact htoken (.inr ⟨q, rfl⟩)

theorem cutsHarmless_int {n : Int} (h : (natDigits n.natAbs).length ≤ maxStrDigits) :
    CutsHarmless (.int n) := by
  obtain ⟨t, hwf, htext, rfl⟩ := int_token n
  exact cutsHarmless_of_token hwf h htext

/-! ### Lists -/

omit [FloatReader] in
/-- An error that is a `JSONDecodeError`, or the bound of the recursion. -/
def Refused {α : Type} (r : Except LoadsError α) : Prop := ∃ e, r = .error e ∧ e ≠ .valueError

theorem scanItems_stuck {n : Nat} {cs rest : List Char} {v : Json}
    (hv : scanOnce n cs = .ok (v, rest)) (hstuck : Stuck rest) :
    Refused (scanItems (n + 1) cs) := by
  refine ⟨.jsonDecodeError, ?_, by simp⟩
  rw [scanItems, hv]
  dsimp only [bind, Except.bind]
  -- Behind the value neither a comma nor a bracket.
  split
  · rename_i rest' heq
    exact absurd heq (hstuck.ne_cons (by decide) rest')
  · rename_i rest' heq
    exact absurd heq (hstuck.ne_cons (by decide) rest')
  · rfl

theorem scanItems_of_harmless {cs : List Char} (h : Harmless cs) {n : Nat}
    (hn : 2 * cs.length + 2 ≤ n) : Refused (scanItems n cs) := by
  obtain ⟨n, rfl⟩ : ∃ k, n = k + 1 := ⟨n - 1, by omega⟩
  obtain ⟨hne, hstuck⟩ := h n (by omega)
  cases hscan : scanOnce n cs with
  | error e =>
    refine ⟨e, ?_, fun heq => hne (heq ▸ hscan)⟩
    rw [scanItems, hscan]
    rfl
  | ok found => exact scanItems_stuck hscan (hstuck _ _ hscan)

theorem scanItems_refused {n : Nat} {cs rest rest' : List Char} {v : Json}
    (hv : scanOnce n cs = .ok (v, rest)) (hcomma : skipSpace rest = ',' :: rest')
    (h : Refused (scanItems n (skipSpace rest'))) : Refused (scanItems (n + 1) cs) := by
  obtain ⟨e, hmore, hne⟩ := h
  refine ⟨e, ?_, hne⟩
  rw [scanItems, hv]
  dsimp only [bind, Except.bind]
  rw [hcomma]
  simp only [hmore]

omit [FloatReader] in
/-- A text that begins as values do, if it is not empty. -/
def Unclosed (cs : List Char) : Prop := ∀ c ∈ cs.head?, isValueHead c = true

omit [FloatReader] in
theorem Unclosed.skipSpace_eq {cs : List Char} (h : Unclosed cs) : skipSpace cs = cs := by
  cases cs with
  | nil => rfl
  | cons c cs => exact skipSpace_of_hasHead ⟨c, cs, rfl, h c rfl⟩

omit [FloatReader] in
theorem Unclosed.ne_close {cs : List Char} (h : Unclosed cs) {c : Char}
    (hc : c = ']' ∨ c = '\x7d') (rest : List Char) : cs ≠ c :: rest := by
  rintro rfl
  have hhead := h c rfl
  rcases hc with rfl | rfl <;> exact absurd hhead (by decide)

theorem Fragments.unclosed {z : List Char} (h : Fragments z) : Unclosed z := by
  intro c hc
  rw [h.head c hc]
  decide

/-- A part of a text that begins as values do, with fragments behind it. -/
theorem unclosed_of_cut {cs u z : List Char} (hcs : HasHead cs) (hu : u <+: cs)
    (hz : Fragments z) : Unclosed (u ++ z) := by
  cases u with
  | nil => exact hz.unclosed
  | cons c u =>
    obtain ⟨d, rest, rfl, hd⟩ := hcs
    rintro x ⟨⟩
    rw [(List.cons_prefix_cons.mp hu).1]
    exact hd

/-- What is known about the values of a container. -/
structure Cuttable (v : Json) : Prop where
  roundTrips : RoundTrips v
  cuts : CutsHarmless v

/-- The items of a list that was cut off. -/
theorem scanItems_of_cut {v : Json} {items : List Json} (h : ∀ w ∈ v :: items, Cuttable w)
    {u z : List Char} (hu : u <+: (dumps.dumpsItems (v :: items)).toList) (hz : Fragments z)
    (hharmless : Harmless z) {n : Nat} (hn : 2 * (u ++ z).length + 2 ≤ n) :
    Refused (scanItems n (u ++ z)) := by
  induction items generalizing v u n with
  | nil =>
    -- The last item.
    obtain ⟨⟨-, hv⟩, hcuts⟩ := h v (List.mem_cons_self ..)
    rw [dumps.dumpsItems] at hu
    by_cases hwhole : u = (dumps v).toList
    · -- It is whole: fragments follow where a comma or a bracket should.
      obtain ⟨n, rfl⟩ : ∃ k, n = k + 1 := ⟨n - 1, by omega⟩
      rw [hwhole] at hn ⊢
      exact scanItems_stuck (hv n z hz.delimited (by omega)) hz.stuck
    · -- It was cut off itself.
      exact scanItems_of_harmless (hcuts u z hu hwhole hz hharmless) hn
  | cons w items ih =>
    -- One item of several: what is left may end in it, or go on with the comma.
    obtain ⟨⟨-, hv⟩, hcuts⟩ := h v (List.mem_cons_self ..)
    have hw : ∀ x ∈ w :: items, Cuttable x := fun x hx => h x (List.mem_cons_of_mem _ hx)
    have htext : (dumps.dumpsItems (v :: w :: items)).toList =
        (dumps v).toList ++ ',' :: ' ' :: (dumps.dumpsItems (w :: items)).toList := by
      rw [dumps.dumpsItems]
      simp
    have hhead : HasHead (dumps.dumpsItems (w :: items)).toList :=
      hasHead_dumpsItems (hw w (List.mem_cons_self ..)).roundTrips
    rw [htext] at hu
    obtain ⟨n, rfl⟩ : ∃ k, n = k + 1 := ⟨n - 1, by omega⟩
    rcases prefix_append_cases hu with hshort | ⟨q, rfl, hq⟩
    · -- The cut is in the first item.
      by_cases hwhole : u = (dumps v).toList
      · rw [hwhole] at hn ⊢
        exact scanItems_stuck (hv n z hz.delimited (by omega)) hz.stuck
      · exact scanItems_of_harmless (hcuts u z hshort hwhole hz hharmless) hn
    · -- The first item is whole.
      rw [List.append_assoc] at hn ⊢
      simp only [List.length_append] at hn
      cases q with
      | nil =>
        -- The cut is in front of the comma.
        rw [List.nil_append]
        exact scanItems_stuck (hv n z hz.delimited (by simp; omega)) hz.stuck
      | cons c q =>
        -- The comma is left, and the rest is a list that was cut off.
        obtain ⟨rfl, hq₁⟩ := List.cons_prefix_cons.mp hq
        simp only [List.length_cons] at hn
        rw [List.cons_append]
        refine scanItems_refused (hv n _ (by simp [Delimited]) (by simp; omega)) rfl ?_
        cases q with
        | nil =>
          -- The cut is behind the comma: a fragment stands where an item should.
          rw [List.nil_append, hz.unclosed.skipSpace_eq]
          exact scanItems_of_harmless hharmless (by omega)
        | cons c q =>
          -- The cut is behind the blank, and the induction hypothesis takes over.
          obtain ⟨rfl, hq₂⟩ := List.cons_prefix_cons.mp hq₁
          have hskip : skipSpace (' ' :: q ++ z) = q ++ z :=
            (List.dropWhile_cons_of_pos (by decide)).trans
              (unclosed_of_cut hhead hq₂ hz).skipSpace_eq
          simp only [List.length_cons] at hn
          rw [hskip]
          exact ih hw hq₂ (by simp; omega)

theorem cutsHarmless_arr {items : List Json} (h : ∀ v ∈ items, Cuttable v) :
    CutsHarmless (.arr items) := by
  have htext : (dumps (.arr items)).toList = '[' :: ((dumps.dumpsItems items).toList ++ [']']) := by
    rw [dumps]
    simp
  intro u z hu hne hz hharmless
  rw [htext] at hu hne
  cases u with
  -- Nothing is left of the list.
  | nil => exact hharmless
  | cons c u =>
    -- The bracket is left.
    obtain ⟨rfl, hu₁⟩ := List.cons_prefix_cons.mp hu
    have hpart := prefix_of_ne_concat hu₁ fun heq => hne (congrArg (_ :: ·) heq)
    intro n hn
    obtain ⟨n, rfl⟩ : ∃ k, n = k + 1 := ⟨n - 1, by omega⟩
    rw [List.cons_append, List.length_cons] at hn
    -- What is behind the bracket begins like a value, and is refused as items.
    have hitems : Unclosed (u ++ z) ∧ Refused (scanItems n (u ++ z)) := by
      cases items with
      | nil =>
        -- The list has no items, and the fragments follow the bracket.
        rw [dumps.dumpsItems] at hpart
        obtain rfl : u = [] := List.prefix_nil.mp hpart
        rw [List.nil_append] at hn ⊢
        exact ⟨hz.unclosed, scanItems_of_harmless hharmless (by omega)⟩
      | cons v items =>
        -- Some of the items are left.
        have hhead : HasHead (dumps.dumpsItems (v :: items)).toList :=
          hasHead_dumpsItems (h v (List.mem_cons_self ..)).roundTrips
        exact ⟨unclosed_of_cut hhead hpart hz, scanItems_of_cut h hpart hz hharmless (by omega)⟩
    obtain ⟨hunclosed, e, herror, he⟩ := hitems
    rw [List.cons_append, scanOnce, if_neg (by decide), if_neg (by decide), if_pos rfl,
      hunclosed.skipSpace_eq]
    split
    · -- It is no end of the list.
      rename_i rest heq
      exact absurd heq (hunclosed.ne_close (.inl rfl) rest)
    · rw [herror]
      refine ⟨fun heq => he ?_, by simp⟩
      cases heq
      rfl

/-! ### Objects -/

omit [FloatReader] in
theorem toList_dumpsFields_cons (key : String) (v : Json) (fields : List (String × Json)) :
    (dumps.dumpsFields ((key, v) :: fields)).toList =
      fieldText key ((dumps v).toList ++ match fields with
        | [] => []
        | f :: more => ',' :: ' ' :: (dumps.dumpsFields (f :: more)).toList) := by
  cases fields with
  | nil =>
    rw [dumps.dumpsFields]
    simp [fieldText, encodeString]
  | cons f more =>
    rw [dumps.dumpsFields]
    simp [fieldText, encodeString]

/-- Where a field is expected, fragments are refused. -/
theorem scanFields_of_fragments {z : List Char} (hz : Fragments z) {n : Nat} (hn : 0 < n) :
    Refused (scanFields n z) := by
  obtain ⟨n, rfl⟩ : ∃ k, n = k + 1 := ⟨n - 1, by omega⟩
  refine ⟨.jsonDecodeError, ?_, by simp⟩
  unfold scanFields
  split
  · -- Nothing is left to begin a key.
    rename_i heq
    cases heq
  · -- A quote: fragments begin with a brace.
    rename_i tail heq
    have hquote : '"' = '\x7b' := hz.head _ rfl
    exact absurd hquote (by decide)
  · rfl

/-- A key that was cut off. -/
theorem scanFields_of_key {key : List Char} {u z : List Char}
    (hu : u <+: key.flatMap escapeAscii) (hz : Fragments z) (n : Nat) :
    Refused (scanFields (n + 1) ('"' :: (u ++ z))) := by
  refine ⟨.jsonDecodeError, ?_, by simp⟩
  rw [scanFields]
  split
  · -- The key has no end.
    rfl
  · -- It ends in the fragments, and no colon follows.
    rename_i s rest hscan
    have hstuck := stuck_of_cut_string hu hz hscan
    split
    · rename_i rest' heq
      exact absurd heq (hstuck.ne_cons (by decide) rest')
    · rfl

theorem scanFields_no_colon {key : List Char} {z : List Char} (hz : Stuck z) (n : Nat) :
    Refused (scanFields (n + 1) ('"' :: (key.flatMap escapeAscii ++ '"' :: z))) := by
  refine ⟨.jsonDecodeError, ?_, by simp⟩
  rw [scanFields, scanString_escapes]
  dsimp only
  split
  · rename_i rest' heq
    exact absurd heq (hz.ne_cons (by decide) rest')
  · rfl

/-- The value of a field, or what follows it, is refused. -/
theorem scanFields_of_value {key : List Char} {cs : List Char} {n : Nat}
    (h : scanOnce n (skipSpace cs) ≠ .error .valueError)
    (hmore : ∀ v rest, scanOnce n (skipSpace cs) = .ok (v, rest) → Stuck rest ∨
      ∃ rest', skipSpace rest = ',' :: rest' ∧ Refused (scanFields n (skipSpace rest'))) :
    Refused (scanFields (n + 1) ('"' :: (key.flatMap escapeAscii ++ '"' :: ':' :: cs))) := by
  have hcolon : skipSpace (':' :: cs) = ':' :: cs := rfl
  unfold Refused
  rw [scanFields, scanString_escapes]
  simp only [hcolon, bind, Except.bind]
  cases hscan : scanOnce n (skipSpace cs) with
  -- The value is refused.
  | error e => exact ⟨e, rfl, fun heq => h (heq ▸ hscan)⟩
  | ok found =>
    -- There is a value: what follows it is refused.
    dsimp only
    rcases hmore _ _ hscan with hstuck | ⟨rest', hcomma, e, hfields, he⟩
    · -- The decoder is stuck behind it.
      refine ⟨.jsonDecodeError, ?_, by simp⟩
      split
      · rename_i rest' heq
        exact absurd heq (hstuck.ne_cons (by decide) rest')
      · rename_i rest' heq
        exact absurd heq (hstuck.ne_cons (by decide) rest')
      · rfl
    · -- A comma follows, and the fields behind that are refused.
      refine ⟨e, ?_, he⟩
      rw [hcomma]
      simp only [hfields]

/-- A field that was cut off before its value. -/
theorem scanFields_before_value {key : String} {value u z : List Char}
    (hu : u <+: fieldText key value) (hz : Fragments z) (hharmless : Harmless z) {n : Nat}
    (hn : 2 * (u ++ z).length + 2 ≤ n) :
    Refused (scanFields n (u ++ z)) ∨ ∃ q, q <+: value ∧ u = fieldText key q := by
  obtain ⟨n, rfl⟩ : ∃ k, n = k + 1 := ⟨n - 1, by omega⟩
  cases u with
  -- The cut is in front of the key.
  | nil => exact .inl (scanFields_of_fragments hz (Nat.succ_pos n))
  | cons c u =>
    -- The quote is left.
    obtain ⟨rfl, hkey⟩ := List.cons_prefix_cons.mp hu
    rcases prefix_append_cases hkey with hshort | ⟨q, rfl, hquote⟩
    · -- The cut is in the key.
      exact .inl (scanFields_of_key hshort hz n)
    · -- The key is whole.
      rw [List.cons_append, List.append_assoc] at hn ⊢
      cases q with
      -- The cut is in front of its closing quote.
      | nil => exact .inl (scanFields_of_key List.prefix_rfl hz n)
      | cons c q =>
        -- The quote is left.
        obtain ⟨rfl, hcolon⟩ := List.cons_prefix_cons.mp hquote
        cases q with
        -- The cut is in front of the colon.
        | nil => exact .inl (scanFields_no_colon hz.stuck n)
        | cons c q =>
          -- The colon is left.
          obtain ⟨rfl, hblank⟩ := List.cons_prefix_cons.mp hcolon
          cases q with
          | nil =>
            -- The cut is in front of the blank: the fragments stand for the value.
            obtain ⟨hne, hstuck⟩ := hharmless n (by
              simp only [List.length_cons, List.length_append] at hn
              omega)
            rw [← hz.unclosed.skipSpace_eq] at hne hstuck
            exact .inl (scanFields_of_value hne fun v rest hv => .inl (hstuck v rest hv))
          | cons c q =>
            -- The blank is left, and the cut is in the value or behind it.
            obtain ⟨rfl, hvalue⟩ := List.cons_prefix_cons.mp hblank
            exact .inr ⟨q, hvalue, rfl⟩

/-- A field whose value was cut off, or what follows it. -/
theorem scanFields_of_cut_value {key : String} {v : Json} (hv : Cuttable v) {q z : List Char}
    (hq : q <+: (dumps v).toList) (hz : Fragments z) (hharmless : Harmless z) {n : Nat}
    (hn : 2 * (q ++ z).length + 1 ≤ n) :
    Refused (scanFields (n + 1) (fieldText key q ++ z)) := by
  obtain ⟨⟨hhead, htrip⟩, hcuts⟩ := hv
  have hskip : skipSpace (' ' :: (q ++ z)) = q ++ z :=
    (List.dropWhile_cons_of_pos (by decide)).trans (unclosed_of_cut hhead hq hz).skipSpace_eq
  have hvalue : scanOnce n (q ++ z) ≠ .error .valueError ∧
      ∀ w rest, scanOnce n (q ++ z) = .ok (w, rest) → Stuck rest := by
    -- The value is whole, with fragments behind it, or it was cut off.
    by_cases hwhole : q = (dumps v).toList
    · rw [hwhole] at hn ⊢
      rw [htrip n z hz.delimited hn]
      refine ⟨by simp, fun w rest heq => ?_⟩
      cases heq
      exact hz.stuck
    · exact hcuts q z hq hwhole hz hharmless n hn
  rw [← hskip] at hvalue
  have hrefused : Refused (scanFields (n + 1)
      ('"' :: (key.toList.flatMap escapeAscii ++ '"' :: ':' :: ' ' :: (q ++ z)))) :=
    scanFields_of_value hvalue.1 fun w rest hw => .inl (hvalue.2 w rest hw)
  simpa only [fieldText, List.cons_append, List.append_assoc] using hrefused

/-- The fields of an object that was cut off. -/
theorem scanFields_of_cut {f : String × Json} {fields : List (String × Json)}
    (h : ∀ g ∈ f :: fields, Cuttable g.2) {u z : List Char}
    (hu : u <+: (dumps.dumpsFields (f :: fields)).toList) (hz : Fragments z)
    (hharmless : Harmless z) {n : Nat} (hn : 2 * (u ++ z).length + 2 ≤ n) :
    Refused (scanFields n (u ++ z)) := by
  induction fields generalizing f u n with
  | nil =>
    -- The last field: the cut is before its value, in it, or right behind it.
    obtain ⟨key, v⟩ := f
    have hv := h (key, v) (List.mem_cons_self ..)
    rw [toList_dumpsFields_cons] at hu
    rcases scanFields_before_value hu hz hharmless hn with hrefused | ⟨q, hq, rfl⟩
    · exact hrefused
    · rw [List.append_nil] at hq
      obtain ⟨n, rfl⟩ : ∃ k, n = k + 1 := ⟨n - 1, by omega⟩
      refine scanFields_of_cut_value hv hq hz hharmless ?_
      simp only [fieldText, List.length_append, List.length_cons] at hn ⊢
      omega
  | cons g fields ih =>
    -- One field of several: the cut may also be behind the comma.
    obtain ⟨key, v⟩ := f
    have hv := h (key, v) (List.mem_cons_self ..)
    have hg : ∀ x ∈ g :: fields, Cuttable x.2 := fun x hx => h x (List.mem_cons_of_mem _ hx)
    rw [toList_dumpsFields_cons] at hu
    rcases scanFields_before_value hu hz hharmless hn with hrefused | ⟨q, hq, rfl⟩
    · -- The cut is before the value.
      exact hrefused
    obtain ⟨n, rfl⟩ : ∃ k, n = k + 1 := ⟨n - 1, by omega⟩
    simp only [fieldText, List.length_append, List.length_cons] at hn
    -- The cut is in the value.
    have hshort : q <+: (dumps v).toList → Refused (scanFields (n + 1) (fieldText key q ++ z)) := by
      intro hq
      refine scanFields_of_cut_value hv hq hz hharmless ?_
      simp only [List.length_append]
      omega
    rcases prefix_append_cases hq with hq | ⟨r, rfl, hr⟩
    · -- The cut is in the value, or at its end.
      exact hshort hq
    · cases r with
      -- The cut is in front of the comma.
      | nil =>
        rw [List.append_nil] at hshort ⊢
        exact hshort List.prefix_rfl
      | cons c r =>
        -- The cut is behind the comma.
        obtain ⟨rfl, hr₁⟩ := List.cons_prefix_cons.mp hr
        simp only [List.length_append, List.length_cons] at hn
        -- The value is whole; the next field was cut off.
        have hmore : Refused (scanFields n (skipSpace (r ++ z))) := by
          cases r with
          | nil =>
            -- Nothing is left of the next field: a fragment stands where its key should.
            rw [List.nil_append, hz.unclosed.skipSpace_eq]
            exact scanFields_of_fragments hz (by omega)
          | cons c r =>
            -- The blank is left, and the induction hypothesis takes over.
            obtain ⟨rfl, hr₂⟩ := List.cons_prefix_cons.mp hr₁
            have hhead : HasHead (dumps.dumpsFields (g :: fields)).toList := by
              obtain ⟨key', v'⟩ := g
              rw [toList_dumpsFields_cons]
              exact hasHead_fieldText _ _
            have hskip : skipSpace (' ' :: r ++ z) = r ++ z :=
              (List.dropWhile_cons_of_pos (by decide)).trans
                (unclosed_of_cut hhead hr₂ hz).skipSpace_eq
            simp only [List.length_cons] at hn
            rw [hskip]
            exact ih hg hr₂ (by simp; omega)
        -- The decoder reads the value, meets the comma, and is refused behind it.
        have hvalue : scanOnce n (skipSpace (' ' :: ((dumps v).toList ++ ',' :: (r ++ z)))) =
            .ok (v, ',' :: (r ++ z)) := by
          rw [skipSpace_blank (hv.roundTrips.1.append _)]
          refine hv.roundTrips.2 n _ (by simp [Delimited]) ?_
          simp only [List.length_append, List.length_cons]
          omega
        have hrefused : Refused (scanFields (n + 1) ('"' :: (key.toList.flatMap escapeAscii ++
            '"' :: ':' :: ' ' :: ((dumps v).toList ++ ',' :: (r ++ z))))) := by
          refine scanFields_of_value (by simp [hvalue]) fun w rest hw => ?_
          rw [hvalue] at hw
          cases hw
          exact .inr ⟨r ++ z, rfl, hmore⟩
        simpa only [fieldText, List.cons_append, List.append_assoc] using hrefused

theorem cutsHarmless_obj {fields : List (String × Json)} (h : ∀ f ∈ fields, Cuttable f.2) :
    CutsHarmless (.obj fields) := by
  have htext : (dumps (.obj fields)).toList =
      '\x7b' :: ((dumps.dumpsFields fields).toList ++ ['\x7d']) := by
    rw [dumps]
    simp
  intro u z hu hne hz hharmless
  rw [htext] at hu hne
  cases u with
  -- Nothing is left of the object.
  | nil => exact hharmless
  | cons c u =>
    -- The brace is left.
    obtain ⟨rfl, hu₁⟩ := List.cons_prefix_cons.mp hu
    have hpart := prefix_of_ne_concat hu₁ fun heq => hne (congrArg (_ :: ·) heq)
    intro n hn
    obtain ⟨n, rfl⟩ : ∃ k, n = k + 1 := ⟨n - 1, by omega⟩
    rw [List.cons_append, List.length_cons] at hn
    -- What is behind the brace begins like a key, and is refused as fields.
    have hfields : Unclosed (u ++ z) ∧ Refused (scanFields n (u ++ z)) := by
      cases fields with
      | nil =>
        -- The object has no fields, and the fragments follow the brace.
        rw [dumps.dumpsFields] at hpart
        obtain rfl : u = [] := List.prefix_nil.mp hpart
        rw [List.nil_append] at hn ⊢
        exact ⟨hz.unclosed, scanFields_of_fragments hz (by omega)⟩
      | cons f fields =>
        -- Some of the fields are left.
        have hhead : HasHead (dumps.dumpsFields (f :: fields)).toList := by
          obtain ⟨key, v⟩ := f
          rw [toList_dumpsFields_cons]
          exact hasHead_fieldText _ _
        exact ⟨unclosed_of_cut hhead hpart hz, scanFields_of_cut h hpart hz hharmless (by omega)⟩
    obtain ⟨hunclosed, e, herror, he⟩ := hfields
    rw [List.cons_append, scanOnce, if_neg (by decide), if_pos rfl, hunclosed.skipSpace_eq]
    split
    · -- It is no end of the object.
      rename_i rest heq
      exact absurd heq (hunclosed.ne_close (.inr rfl) rest)
    · rw [herror]
      refine ⟨fun heq => he ?_, by simp⟩
      cases heq
      rfl

/-! ### All values -/

/-- **Cuts**: a value that was cut off, in front of fragments, is harmless. -/
theorem harmless_of_cut {v : Json} (h : Loadable v) : CutsHarmless v := by
  induction h with
  | null => exact cutsHarmless_of_constant (by simp [constants] : ("null", _) ∈ constants) rfl
  | bool b =>
    cases b with
    | false => exact cutsHarmless_of_constant (by simp [constants] : ("false", _) ∈ constants) rfl
    | true => exact cutsHarmless_of_constant (by simp [constants] : ("true", _) ∈ constants) rfl
  | int h => exact cutsHarmless_int h
  | nan => exact cutsHarmless_float .nan
  | inf neg => exact cutsHarmless_float (.inf neg)
  | @float x _ => exact cutsHarmless_float x
  | str s => exact cutsHarmless_str s
  | arr h ih => exact cutsHarmless_arr fun v hv => ⟨roundTrips_of_loadable (h v hv), ih v hv⟩
  | obj _ h ih => exact cutsHarmless_obj fun f hf => ⟨roundTrips_of_loadable (h f hf), ih f hf⟩

theorem harmless_of_fragments {z : List Char} (h : Fragments z) : Harmless z := by
  -- A whole record is read to its end.
  have hwhole : ∀ {v : Json} {rest : List Char}, IsRecord v → Delimited rest → Stuck rest →
      Harmless ((dumps v).toList ++ rest) := by
    intro v rest hv hrest hstuck n hn
    rw [(roundTrips_of_loadable hv.loadable).2 n rest hrest hn]
    refine ⟨by simp, fun w rest' heq => ?_⟩
    cases heq
    exact hstuck
  induction h with
  -- There is nothing to read.
  | nil => exact harmless_nil
  | ended hv hends => exact hwhole hv (delimited_of_space hends) (stuck_of_space hends)
  | @cons v p rest hv hp hne h ih =>
    -- The first fragment is a whole record, or a part of one.
    by_cases heq : p = (dumps v).toList
    · rw [heq]
      exact hwhole hv h.delimited h.stuck
    · exact harmless_of_cut hv.loadable p rest hp heq h ih

/-- **No other error**: fragments are accepted, or refused with a `JSONDecodeError`. -/
theorem loads_ne_valueError {z : List Char} (h : Fragments z) :
    loads (String.ofList z) ≠ .error .valueError := by
  obtain ⟨hne, -⟩ := harmless_of_fragments h (2 * z.length + 2) (by omega)
  intro hload
  unfold loads at hload
  dsimp only at hload
  rw [String.toList_ofList, h.unclosed.skipSpace_eq] at hload
  cases hscan : scanOnce (2 * z.length + 2) z with
  -- The decoder refuses the fragments, but not with that error.
  | error e =>
    rw [hscan] at hload
    cases hload
    exact hne hscan
  | ok found =>
    -- It reads a value, and the only error left is that of extra data.
    rw [hscan] at hload
    dsimp only [bind, Except.bind] at hload
    split_ifs at hload <;> cases hload

end Values

end AiK8sGateway.Foundations
