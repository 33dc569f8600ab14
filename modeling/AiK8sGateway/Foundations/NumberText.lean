import AiK8sGateway.Foundations.JsonDecoder

/-!
# Numbers in JSON Text

The texts that `repr` gives to integers and to floats are what `NUMBER_RE` matches, with
nothing left over.

## Main results

- `scanNumber_token`: a token of the grammar is matched whole in front of a delimiter.
- `reprPositive_token`: the text of a positive float is such a token, and no integer.
-/

namespace AiK8sGateway.Foundations

attribute [local instance] decidableForallChars

/-! ## Digits -/

/-- The digits of a natural number that is not zero, the first of which is not zero. -/
theorem natDigits_eq_cons {n : Nat} (hn : 0 < n) :
    ∃ c rest, natDigits n = c :: rest ∧ c ≠ '0' := by
  induction n using Nat.strongRecOn with
  | _ n ih =>
    unfold natDigits at ih ⊢
    by_cases hsmall : n < 10
    · rw [Nat.toDigits_of_lt_base hsmall]
      refine ⟨_, _, rfl, ?_⟩
      have hdigit : ∀ k < 10, 0 < k → Nat.digitChar k ≠ '0' := by decide
      exact hdigit n hsmall hn
    · rw [Nat.toDigits_of_base_le (by decide) (not_lt.mp hsmall)]
      obtain ⟨c, rest, hdigits, hc⟩ := ih (n / 10) (by omega) (by omega)
      exact ⟨c, rest ++ [Nat.digitChar (n % 10)], by rw [hdigits, List.cons_append], hc⟩

theorem isDigit_of_mem_natDigits {n : Nat} {c : Char} (h : c ∈ natDigits n) :
    c.isDigit = true :=
  Nat.isDigit_of_mem_toDigits (by decide) (by decide) h

/-- A text of digits only, and not empty. -/
structure IsDigits (cs : List Char) : Prop where
  ne_nil : cs ≠ []
  digits : ∀ c ∈ cs, c.isDigit = true

theorem isDigits_natDigits (n : Nat) : IsDigits (natDigits n) :=
  ⟨List.ne_nil_of_length_pos Nat.length_toDigits_pos, fun _ => isDigit_of_mem_natDigits⟩

/-! ## Tokens -/

/-- `0|[1-9][0-9]*`. -/
inductive IsInteger : List Char → Prop where
  | zero : IsInteger ['0']
  | digits {c : Char} {rest : List Char} (hc : c ≠ '0') (h : IsDigits (c :: rest)) :
      IsInteger (c :: rest)

theorem isInteger_natDigits (n : Nat) : IsInteger (natDigits n) := by
  rcases Nat.eq_zero_or_pos n with rfl | hn
  · exact .zero
  · obtain ⟨c, rest, hdigits, hc⟩ := natDigits_eq_cons hn
    have hall := isDigits_natDigits n
    rw [hdigits] at hall ⊢
    exact .digits hc hall

/-- The first character of an integer is a digit. -/
theorem IsInteger.head {cs : List Char} (h : IsInteger cs) :
    ∃ c rest, cs = c :: rest ∧ c.isDigit = true := by
  cases h with
  | zero => exact ⟨'0', [], rfl, by decide⟩
  | @digits c rest _ h => exact ⟨c, rest, rfl, h.digits c (List.mem_cons_self ..)⟩

/-- A match of `NUMBER_RE`. -/
structure NumberToken.WellFormed (t : NumberToken) : Prop where
  sign : t.sign = [] ∨ t.sign = ['-']
  digits : IsInteger t.digits
  frac : t.frac = [] ∨ ∃ ds, t.frac = '.' :: ds ∧ IsDigits ds
  exp : t.exp = [] ∨ ∃ sign ds, t.exp = 'e' :: sign :: ds ∧ (sign = '-' ∨ sign = '+') ∧ IsDigits ds

/-- What does not continue a number: nothing, a bracket, a comma or whitespace. -/
def Delimited (rest : List Char) : Prop :=
  ∀ c ∈ rest.head?, c ∈ [',', ']', '\x7d', '\x7b', ' ', '\t', '\n', '\r']

/-- A text that does not go on with a character that satisfies `p`. -/
def StopsAt (p : Char → Bool) (rest : List Char) : Prop := ∀ c ∈ rest.head?, p c = false

theorem Delimited.stopsAt {rest : List Char} (h : Delimited rest) {p : Char → Bool}
    (hp : ∀ c ∈ [',', ']', '\x7d', '\x7b', ' ', '\t', '\n', '\r'], p c = false) : StopsAt p rest :=
  fun c hc => hp c (h c hc)

theorem stopsAt_append {p : Char → Bool} {cs rest : List Char} (h : StopsAt p rest)
    (hcs : StopsAt p cs) : StopsAt p (cs ++ rest) := by
  cases cs with
  | nil => exact h
  | cons c cs => exact hcs

/-- Digits are taken as far as they go. -/
theorem span_digits {ds rest : List Char} (hds : ∀ c ∈ ds, c.isDigit = true)
    (hrest : StopsAt Char.isDigit rest) : (ds ++ rest).span Char.isDigit = (ds, rest) := by
  have hstop : rest.takeWhile Char.isDigit = [] ∧ rest.dropWhile Char.isDigit = rest := by
    cases rest with
    | nil => exact ⟨rfl, rfl⟩
    | cons c rest =>
      have hc : ¬ c.isDigit = true := Bool.eq_false_iff.mp (hrest c rfl)
      exact ⟨List.takeWhile_cons_of_neg hc, List.dropWhile_cons_of_neg hc⟩
  rw [List.span_eq_takeWhile_dropWhile, List.takeWhile_append_of_pos hds,
    List.dropWhile_append_of_pos hds, hstop.1, hstop.2, List.append_nil]

theorem scanInteger_append {digits rest : List Char} (h : IsInteger digits)
    (hrest : StopsAt Char.isDigit rest) : scanInteger (digits ++ rest) = some (digits, rest) := by
  cases h with
  | zero => rfl
  | @digits c tail hc h =>
    have hspan := span_digits h.digits hrest
    rw [List.cons_append] at hspan ⊢
    rw [scanInteger, if_neg hc, if_pos (h.digits c (List.mem_cons_self ..)), hspan]

/-- The text does not go on as a fraction would. -/
def isPoint (c : Char) : Bool := c = '.'

/-- The text does not go on as an exponent would. -/
def isExpLetter (c : Char) : Bool := c = 'e' || c = 'E'

theorem scanFrac_append {frac rest : List Char}
    (h : frac = [] ∨ ∃ ds, frac = '.' :: ds ∧ IsDigits ds) (hpoint : StopsAt isPoint rest)
    (hrest : StopsAt Char.isDigit rest) : scanFrac (frac ++ rest) = (frac, rest) := by
  rcases h with rfl | ⟨ds, rfl, hds⟩
  · rw [List.nil_append]
    unfold scanFrac
    split
    · exact absurd (hpoint '.' rfl) (by decide)
    · rfl
  · have hspan := span_digits hds.digits hrest
    rw [List.cons_append, scanFrac]
    simp only [hspan, if_neg hds.ne_nil]

theorem scanExp_append {exp rest : List Char}
    (h : exp = [] ∨ ∃ sign ds, exp = 'e' :: sign :: ds ∧ (sign = '-' ∨ sign = '+') ∧ IsDigits ds)
    (hletter : StopsAt isExpLetter rest) (hrest : StopsAt Char.isDigit rest) :
    scanExp (exp ++ rest) = (exp, rest) := by
  rcases h with rfl | ⟨sign, ds, rfl, hsign, hds⟩
  · rw [List.nil_append]
    unfold scanExp
    split
    · rfl
    · rename_i c tail
      have hc : ¬ (c = 'e' ∨ c = 'E') := by simpa [isExpLetter] using hletter c rfl
      rw [if_neg hc]
  · have hspan := span_digits hds.digits hrest
    rw [List.cons_append, List.cons_append, scanExp, if_pos (.inl rfl), scanExpSign, if_pos hsign]
    simp only [hspan, if_neg hds.ne_nil]
    rfl

/-- **Tokens**: a token of the grammar is matched whole in front of a delimiter. -/
theorem scanNumber_token {t : NumberToken} (h : t.WellFormed) {rest : List Char}
    (hrest : Delimited rest) : scanNumber (t.text ++ rest) = some (t, rest) := by
  obtain ⟨sign, digits, frac, exp⟩ := t
  obtain ⟨hsign, hdigits, hfrac, hexp⟩ := h
  dsimp only at hsign hdigits hfrac hexp
  -- What a part is followed by does not continue it.
  have hexpStops : StopsAt Char.isDigit (exp ++ rest) ∧ StopsAt isPoint (exp ++ rest) := by
    constructor <;> refine stopsAt_append (hrest.stopsAt (by decide)) ?_ <;>
      rcases hexp with rfl | ⟨_, _, rfl, -⟩ <;> intro c hc <;> cases hc <;> rfl
  have hfracStops : StopsAt Char.isDigit (frac ++ (exp ++ rest)) := by
    refine stopsAt_append hexpStops.1 ?_
    rcases hfrac with rfl | ⟨_, rfl, -⟩ <;> intro c hc <;> cases hc
    rfl
  have hscanSign : scanSign (sign ++ (digits ++ (frac ++ (exp ++ rest)))) =
      (sign, digits ++ (frac ++ (exp ++ rest))) := by
    -- The sign is taken, and no other one is there.
    rcases hsign with rfl | rfl
    · obtain ⟨c, tail, rfl, hc⟩ := hdigits.head
      rw [List.nil_append, List.cons_append]
      unfold scanSign
      split
      · rename_i heq
        injection heq with hminus
        rw [hminus] at hc
        exact absurd hc (by decide)
      · rfl
    · rfl
  unfold scanNumber
  simp only [NumberToken.text, List.append_assoc, hscanSign, scanInteger_append hdigits hfracStops,
    scanFrac_append hfrac hexpStops.2 hexpStops.1,
    scanExp_append hexp (hrest.stopsAt (by decide)) (hrest.stopsAt (by decide)),
    Option.bind_eq_bind, Option.bind_some, Option.pure_def]

/-! ## The text of a float -/

theorem ratPow_natCast (b n : Nat) : ratPow b n = ((b ^ n : Nat) : ℚ) := by
  unfold ratPow
  rw [if_pos (Int.natCast_nonneg n), Int.toNat_natCast]

theorem ratPow_neg_natCast {b n : Nat} (hn : 0 < n) : ratPow b (-n) = 1 / ((b ^ n : Nat) : ℚ) := by
  unfold ratPow
  rw [if_neg (by omega)]
  simp

theorem ratPow_eq_zpow (b : Nat) (z : ℤ) : ratPow b z = (b : ℚ) ^ z := by
  cases z with
  | ofNat n =>
    rw [Int.ofNat_eq_natCast, ratPow_natCast]
    push_cast
    rw [zpow_natCast]
  | negSucc n =>
    rw [Int.negSucc_eq, show (-((n : ℤ) + 1)) = -((n + 1 : Nat) : ℤ) by push_cast; ring,
      ratPow_neg_natCast (Nat.succ_pos n), zpow_neg, zpow_natCast, one_div]
    push_cast
    rfl

/-- The decimal exponent of a float is not too large. -/
theorem ratPow_decimalExponent_le {a : ℚ} (ha : 0 < a) : ratPow 10 (decimalExponent a - 1) ≤ a := by
  unfold decimalExponent
  split_ifs with hone
  · -- The leading digit of the integer part is not zero.
    have hfloor : 1 ≤ a.floor := Int.le_floor.mpr (by exact_mod_cast hone)
    obtain ⟨m, hm⟩ := Int.eq_ofNat_of_zero_le (le_trans zero_le_one hfloor)
    have hle : (m : ℚ) ≤ a := by
      have hfl := Int.floor_le a
      rw [show ⌊a⌋ = (m : ℤ) from hm] at hfl
      exact_mod_cast hfl
    rw [hm, Int.toNat_natCast]
    have hlen : 0 < (natDigits m).length := Nat.length_toDigits_pos
    obtain ⟨k, hk⟩ := Nat.exists_eq_succ_of_ne_zero hlen.ne'
    -- A number of `k + 1` digits is at least `10 ^ k`.
    have hpow : 10 ^ k ≤ m := by
      by_contra hlt
      rcases Nat.eq_zero_or_pos k with rfl | hkpos
      · omega
      · have hshort := (Nat.length_toDigits_le_iff (by decide) hkpos).mpr (not_le.mp hlt)
        unfold natDigits at hk
        omega
    rw [hk, show ((k.succ : Nat) : ℤ) - 1 = (k : ℤ) by push_cast; ring, ratPow_natCast]
    exact le_trans (by exact_mod_cast hpow) hle
  · -- Below one the reciprocal has the digits: the exponent is read off its integer part.
    have hceil : 1 / a ≤ ((1 / a).ceil : ℚ) := Rat.le_ceil
    generalize (1 / a).ceil = m at hceil ⊢
    have hlen : 0 < (natDigits (m.toNat - 1)).length := Nat.length_toDigits_pos
    have hlt : m.toNat - 1 < 10 ^ (natDigits (m.toNat - 1)).length :=
      (Nat.length_toDigits_le_iff (by decide) hlen).mp le_rfl
    generalize (natDigits (m.toNat - 1)).length = k at hlen hlt ⊢
    -- What has `k` digits is below `10 ^ k`, and the float is above the reciprocal of that.
    have hbound : (m : ℚ) ≤ ((10 ^ k : Nat) : ℚ) := by
      have hint : m ≤ ((10 ^ k : Nat) : ℤ) := by omega
      exact_mod_cast hint
    rw [show (1 - (k : ℤ) - 1) = -(k : ℤ) by ring, ratPow_neg_natCast hlen]
    have hpow : (0 : ℚ) < ((10 ^ k : Nat) : ℚ) := by positivity
    rw [div_le_iff₀ hpow]
    have hmul := le_trans hceil hbound
    rw [div_le_iff₀ ha] at hmul
    linarith

/-- The shortest digits of a positive float are not zero. -/
theorem shortestDigits_pos {a : ℚ} (ha : 0 < a) {n : Nat} (hn : 1 ≤ n) (fuel : Nat) :
    0 < (shortestDigits a n fuel).1 := by
  -- A unit of the last digit is no larger than the float.
  have hdown : ∀ n : Nat, 1 ≤ n → 0 < (a / ratPow 10 (decimalExponent a - n)).floor.toNat := by
    intro n hn
    have hunit : ratPow 10 (decimalExponent a - n) ≤ a := by
      refine le_trans ?_ (ratPow_decimalExponent_le ha)
      rw [ratPow_eq_zpow, ratPow_eq_zpow]
      exact zpow_le_zpow_right₀ (by norm_num) (by omega)
    have hpos : 0 < ratPow 10 (decimalExponent a - n) := by
      rw [ratPow_eq_zpow]
      exact zpow_pos (by norm_num) _
    have hquot : (1 : ℚ) ≤ a / ratPow 10 (decimalExponent a - n) := (one_le_div hpos).mpr hunit
    have hfloor : 1 ≤ (a / ratPow 10 (decimalExponent a - n)).floor :=
      Int.le_floor.mpr (by exact_mod_cast hquot)
    omega
  induction fuel generalizing n with
  | zero =>
    -- Without fuel the rounding is downwards.
    have hpos := hdown n hn
    unfold shortestDigits
    dsimp only
    split
    · rename_i c heq
      split_ifs at heq <;> cases heq <;> omega
    · exact hpos
    · rename_i heq
      cases heq
  | succ fuel ih =>
    -- With fuel it may be the digits found, or one more digit is tried.
    have hpos := hdown n hn
    unfold shortestDigits
    dsimp only
    split
    · rename_i c heq
      split_ifs at heq <;> cases heq <;> omega
    · rename_i heq
      cases heq
    · rename_i fuel' _ heq
      cases heq
      exact ih (by omega)

theorem isDigits_append {cs ds : List Char} (hne : cs ≠ [] ∨ ds ≠ [])
    (hcs : ∀ c ∈ cs, c.isDigit = true) (hds : ∀ c ∈ ds, c.isDigit = true) :
    IsDigits (cs ++ ds) := by
  refine ⟨?_, fun c hc => (List.mem_append.mp hc).elim (hcs c) (hds c)⟩
  rw [Ne, List.append_eq_nil_iff, not_and_or]
  exact hne

theorem isDigits_cons {c : Char} {cs : List Char} (hc : c.isDigit = true)
    (hcs : ∀ d ∈ cs, d.isDigit = true) : IsDigits (c :: cs) :=
  ⟨List.cons_ne_nil _ _, List.forall_mem_cons.mpr ⟨hc, hcs⟩⟩

/-- A token that is no integer, with few digits before its point. -/
structure NumberToken.IsFloat (t : NumberToken) : Prop where
  wellFormed : t.WellFormed
  unsigned : t.sign = []
  notInt : ¬ (t.frac = [] ∧ t.exp = [])
  short : t.digits.length ≤ 16

/-- Without its trailing zeros a positive number begins with the same digit. -/
theorem significant_eq_cons {n : Nat} (hn : 0 < n) :
    ∃ c tail, (natDigits n).rdropWhile (· = '0') = c :: tail ∧ c ≠ '0' ∧
      ∀ d ∈ c :: tail, d.isDigit = true := by
  obtain ⟨c, rest, hdigits, hc⟩ := natDigits_eq_cons hn
  have hpre := List.rdropWhile_prefix (fun d => decide (d = '0')) (natDigits n)
  cases hdrop : (natDigits n).rdropWhile (· = '0') with
  | nil =>
    rw [List.rdropWhile_eq_nil_iff] at hdrop
    exact absurd (of_decide_eq_true (hdrop c (hdigits ▸ List.mem_cons_self ..))) hc
  | cons d tail =>
    rw [hdrop] at hpre
    have hall : ∀ e ∈ d :: tail, e.isDigit = true := fun e he =>
      isDigit_of_mem_natDigits (hpre.subset he)
    rw [hdigits] at hpre
    exact ⟨d, tail, rfl, by rwa [(List.cons_prefix_cons.mp hpre).1], hall⟩

theorem isDigit_of_mem_zeros {k : Nat} {d : Char} (h : d ∈ List.replicate k '0') :
    d.isDigit = true := by
  rw [List.eq_of_mem_replicate h]
  decide

/-! ### The layouts of a float -/

section Layouts

variable {c : Char} {tail : List Char}

/-- An exponent has a sign and at least two digits. -/
theorem exponent_text (e : ℤ) :
    ∃ sign ds, ['e', if e < 0 then '-' else '+'] ++
        (if (natDigits e.natAbs).length < 2 then '0' :: natDigits e.natAbs
          else natDigits e.natAbs) = 'e' :: sign :: ds ∧
      (sign = '-' ∨ sign = '+') ∧ IsDigits ds := by
  refine ⟨_, _, rfl, ?_, ?_⟩
  · split_ifs <;> simp
  · have hplain := isDigits_natDigits e.natAbs
    split_ifs
    · exact isDigits_cons (by decide) hplain.digits
    · exact hplain

/-- One digit before the point, if there is one, and an exponent. -/
theorem exponent_token (hc : c ≠ '0') (hsig : ∀ d ∈ c :: tail, d.isDigit = true) (e : ℤ) :
    ∃ t : NumberToken, t.IsFloat ∧
      (c :: tail).take 1 ++ (if (c :: tail).length = 1 then [] else '.' :: (c :: tail).drop 1) ++
        ['e', if e < 0 then '-' else '+'] ++
        (if (natDigits e.natAbs).length < 2 then '0' :: natDigits e.natAbs
          else natDigits e.natAbs) = t.text := by
  obtain ⟨sign, ds, htext, hsign, hds⟩ := exponent_text e
  have hfirst : IsDigits [c] := isDigits_cons (hsig c (List.mem_cons_self ..)) nofun
  have hfrac : (if (c :: tail).length = 1 then [] else '.' :: tail) = [] ∨
      ∃ ds, (if (c :: tail).length = 1 then [] else '.' :: tail) = '.' :: ds ∧ IsDigits ds := by
    split_ifs with hlen
    · exact .inl rfl
    · refine .inr ⟨tail, rfl, ?_, fun d hd => hsig d (List.mem_cons_of_mem _ hd)⟩
      rintro rfl
      exact hlen rfl
  refine ⟨⟨[], [c], if (c :: tail).length = 1 then [] else '.' :: tail, 'e' :: sign :: ds⟩,
    ⟨⟨.inl rfl, .digits hc hfirst, hfrac, .inr ⟨sign, ds, rfl, hsign, hds⟩⟩, rfl, by simp,
      by simp⟩, ?_⟩
  rw [List.append_assoc, htext]
  rfl

/-- All of the digits behind the point, after some zeros. -/
theorem fraction_token (hsig : ∀ d ∈ c :: tail, d.isDigit = true) (k : Nat) :
    ∃ t : NumberToken, t.IsFloat ∧
      '0' :: '.' :: List.replicate k '0' ++ c :: tail = t.text := by
  have hfrac : IsDigits (List.replicate k '0' ++ c :: tail) :=
    isDigits_append (.inr (List.cons_ne_nil _ _)) (fun _ => isDigit_of_mem_zeros) hsig
  exact ⟨⟨[], ['0'], '.' :: (List.replicate k '0' ++ c :: tail), []⟩,
    ⟨⟨.inl rfl, .zero, .inr ⟨_, rfl, hfrac⟩, .inl rfl⟩, rfl, by simp, by simp⟩,
    by simp [NumberToken.text]⟩

/-- All of the digits before the point, with some zeros. -/
theorem integral_token (hc : c ≠ '0') (hsig : ∀ d ∈ c :: tail, d.isDigit = true) {k : Nat}
    (hlen : (c :: tail).length + k ≤ 16) :
    ∃ t : NumberToken, t.IsFloat ∧
      c :: tail ++ List.replicate k '0' ++ ['.', '0'] = t.text := by
  have hdigits : IsDigits (c :: tail ++ List.replicate k '0') :=
    isDigits_append (.inl (List.cons_ne_nil _ _)) hsig fun _ => isDigit_of_mem_zeros
  have hzero : IsDigits ['0'] := isDigits_cons (by decide) nofun
  have hshort : (c :: (tail ++ List.replicate k '0')).length ≤ 16 := by
    simp only [List.length_cons, List.length_append, List.length_replicate] at hlen ⊢
    omega
  exact ⟨⟨[], c :: (tail ++ List.replicate k '0'), ['.', '0'], []⟩,
    ⟨⟨.inl rfl, .digits hc hdigits, .inr ⟨['0'], rfl, hzero⟩, .inl rfl⟩, rfl, by simp,
      hshort⟩, by simp [NumberToken.text]⟩

/-- The point among the digits. -/
theorem mixed_token (hc : c ≠ '0') (hsig : ∀ d ∈ c :: tail, d.isDigit = true) {k : Nat}
    (hk : 0 < k) (hle : k ≤ 16) (hlen : k < (c :: tail).length) :
    ∃ t : NumberToken, t.IsFloat ∧ (c :: tail).take k ++ '.' :: (c :: tail).drop k = t.text := by
  obtain ⟨k, rfl⟩ : ∃ m, k = m + 1 := ⟨k - 1, by omega⟩
  have hdigits : IsDigits (c :: tail.take k) :=
    isDigits_cons (hsig c (List.mem_cons_self ..)) fun d hd =>
      hsig d (List.mem_cons_of_mem _ (List.mem_of_mem_take hd))
  have hfrac : IsDigits (tail.drop k) := by
    refine ⟨?_, fun d hd => hsig d (List.mem_cons_of_mem _ (List.mem_of_mem_drop hd))⟩
    rw [List.length_cons] at hlen
    rw [Ne, List.drop_eq_nil_iff]
    omega
  have hshort : (c :: tail.take k).length ≤ 16 := by
    rw [List.length_cons, List.length_take]
    omega
  exact ⟨⟨[], c :: tail.take k, '.' :: tail.drop k, []⟩,
    ⟨⟨.inl rfl, .digits hc hdigits, .inr ⟨_, rfl, hfrac⟩, .inl rfl⟩, rfl, by simp, hshort⟩,
    by simp [NumberToken.text]⟩

end Layouts

/-- **Floats**: the text of a positive float is a token, and no integer. -/
theorem reprPositive_token {a : ℚ} (ha : 0 < a) :
    ∃ t : NumberToken, t.IsFloat ∧ (reprPositive a).toList = t.text := by
  have hpos := shortestDigits_pos ha (le_refl 1) 16
  unfold reprPositive
  generalize shortestDigits a 1 16 = shortest at hpos ⊢
  obtain ⟨n, point⟩ := shortest
  dsimp only at hpos ⊢
  obtain ⟨c, tail, htail, hc, hsig⟩ := significant_eq_cons hpos
  rw [htail]
  -- An exponent, for very small and for very large floats.
  by_cases hexp : point ≤ -4 ∨ 16 < point
  · rw [if_pos hexp, String.toList_ofList]
    exact exponent_token hc hsig (point - 1)
  rw [if_neg hexp]
  -- A point in front of all digits.
  by_cases hsmall : point ≤ 0
  · rw [if_pos hsmall, String.toList_ofList]
    exact fraction_token hsig _
  rw [if_neg hsmall]
  -- A point behind all digits, or among them.
  by_cases hlong : (c :: tail).length ≤ point.toNat
  · rw [if_pos hlong, String.toList_ofList]
    exact integral_token hc hsig (by omega)
  · rw [if_neg hlong, String.toList_ofList]
    exact mixed_token hc hsig (by omega) (by omega) (not_le.mp hlong)

end AiK8sGateway.Foundations
