import AiK8sGateway.Foundations.PythonValue

/-!
# How the Text of a Value Begins

`str` of anything but a string is never blank: it is a number, a name or a bracketed
text, and its first character says which.

## Main results

- `reprPositive_textOf`: the text of a finite number has the characters of a number only.
- `toStr_begins`: the first character of the text of a value that is no string.
- `strip_toStr_begins`: stripping the text does not remove it.
-/

namespace AiK8sGateway.Foundations

open PythonText

/-! ## Numbers -/

/-- A character of the text of a finite number. -/
def isNumeric (c : Char) : Bool := c.isDigit || c ∈ ['.', 'e', '+', '-']

/-- A text of characters that satisfy `p`, at least one of them. -/
def TextOf (p : Char → Bool) (cs : List Char) : Prop := cs ≠ [] ∧ cs.all p = true

theorem natDigits_textOf (n : Nat) : TextOf isNumeric (natDigits n) := by
  refine ⟨List.ne_nil_of_length_pos Nat.length_toDigits_pos, ?_⟩
  rw [List.all_eq_true]
  intro c hc
  have hdigit : c.isDigit = true := Nat.isDigit_of_mem_toDigits (by decide) (by decide) hc
  simp [isNumeric, hdigit]

/-- Every part of a list of such characters consists of them. -/
theorem all_of_subset {p : Char → Bool} {cs ds : List Char} (h : cs.all p = true)
    (hsub : ds ⊆ cs) : ds.all p = true := by
  rw [List.all_eq_true] at h ⊢
  exact fun d hd => h d (hsub hd)

/-- The text of a positive float is numeric. -/
theorem reprPositive_textOf (a : ℚ) : TextOf isNumeric (reprPositive a).toList := by
  unfold reprPositive
  generalize shortestDigits a 1 16 = shortest
  obtain ⟨c, point⟩ := shortest
  dsimp only
  -- The significant digits, without trailing zeros.
  have hdigits : ((natDigits c).rdropWhile (· = '0')).all isNumeric = true :=
    all_of_subset (natDigits_textOf c).2 (List.rdropWhile_prefix _ _).subset
  generalize (natDigits c).rdropWhile (· = '0') = digits at hdigits
  -- Parts of the digits, zeros, and the digits of the exponent.
  have htake : ∀ n, (digits.take n).all isNumeric = true :=
    fun n => all_of_subset hdigits (List.take_subset n digits)
  have hdrop : ∀ n, (digits.drop n).all isNumeric = true :=
    fun n => all_of_subset hdigits (List.drop_subset n digits)
  have hzeros : ∀ n, (List.replicate n '0').all isNumeric = true := by
    intro n
    rw [List.all_eq_true]
    intro d hd
    rw [List.eq_of_mem_replicate hd]
    decide
  have hexponent : ∀ n, (natDigits n).all isNumeric = true := fun n => (natDigits_textOf n).2
  have hchars : isNumeric '.' = true ∧ isNumeric 'e' = true ∧ isNumeric '+' = true ∧
      isNumeric '-' = true ∧ isNumeric '0' = true := by decide
  -- One layout has an exponent; the other three differ in where the point falls.
  split_ifs <;> rw [String.toList_ofList] <;> refine ⟨by simp, ?_⟩ <;>
    simp only [List.all_append, List.all_cons, List.all_nil, hdigits, htake, hdrop, hzeros,
      hexponent, hchars, Bool.and_self]

/-! ## First characters -/

/-- A text whose first character satisfies `p`. -/
def BeginsWith (p : Char → Bool) (cs : List Char) : Prop := ∃ c rest, cs = c :: rest ∧ p c = true

theorem TextOf.begins {p q : Char → Bool} {cs : List Char} (h : TextOf p cs)
    (hpq : ∀ c, p c = true → q c = true) : BeginsWith q cs := by
  obtain ⟨hne, hall⟩ := h
  cases cs with
  | nil => exact absurd rfl hne
  | cons c rest =>
    rw [List.all_cons, Bool.and_eq_true] at hall
    exact ⟨c, rest, rfl, hpq c hall.1⟩

/-- The first character of `None`, of a boolean, of a number but NaN, or of a container. -/
def isValueStart (c : Char) : Bool := isNumeric c || c ∈ ['N', 'T', 'F', 'i', '[', '\x7b']

theorem isValueStart_of_isNumeric (c : Char) (h : isNumeric c = true) : isValueStart c = true := by
  simp [isValueStart, h]

theorem begins_toString_int (n : Int) : BeginsWith isValueStart (toString n).toList := by
  cases n with
  | ofNat n =>
    have htext : (toString (Int.ofNat n)).toList = natDigits n := by
      show (Nat.repr n).toList = _
      simp [Nat.repr, natDigits]
    rw [htext]
    exact (natDigits_textOf n).begins isValueStart_of_isNumeric
  | negSucc n =>
    refine ⟨'-', (Nat.repr (n + 1)).toList, ?_, by decide⟩
    show ("-" ++ Nat.repr (n + 1)).toList = _
    simp

theorem begins_repr_float {x : PyFloat} (hx : x ≠ .nan) :
    BeginsWith isValueStart x.repr.toList := by
  cases x with
  | nan => exact absurd rfl hx
  | negZero => exact ⟨'-', ['0', '.', '0'], by decide, by decide⟩
  | inf neg =>
    cases neg with
    | false => exact ⟨'i', ['n', 'f'], by decide, by decide⟩
    | true => exact ⟨'-', ['i', 'n', 'f'], by decide, by decide⟩
  | finite q =>
    unfold PyFloat.repr
    dsimp only
    split_ifs
    · exact ⟨'0', ['.', '0'], by decide, by decide⟩
    · exact ⟨'-', (reprPositive (-q)).toList, by simp, by decide⟩
    · exact (reprPositive_textOf q).begins isValueStart_of_isNumeric

/-- **Beginnings**: the text of a value that is neither a string nor NaN begins with one
    of a few characters. -/
theorem toStr_begins [CharTables] {v : Json} (hstr : ∀ s, v ≠ .str s) (hnan : v ≠ .float .nan) :
    BeginsWith isValueStart v.toStr.toList := by
  cases v with
  | null => exact ⟨'N', ['o', 'n', 'e'], by simp [Json.toStr, Json.repr], by decide⟩
  | bool b =>
    cases b with
    | false => exact ⟨'F', ['a', 'l', 's', 'e'], by simp [Json.toStr, Json.repr], by decide⟩
    | true => exact ⟨'T', ['r', 'u', 'e'], by simp [Json.toStr, Json.repr], by decide⟩
  | int n => exact begins_toString_int n
  | float x => exact begins_repr_float fun hx => hnan (by rw [hx])
  | str s => exact absurd rfl (hstr s)
  | arr items =>
    refine ⟨'[', (", ".intercalate (Json.repr.reprItems items) ++ "]").toList, ?_, by decide⟩
    simp [Json.toStr, Json.repr]
  | obj fields =>
    refine ⟨'\x7b', (", ".intercalate (Json.repr.reprFields fields) ++ "\x7d").toList, ?_,
      by decide⟩
    simp [Json.toStr, Json.repr]

/-- None of these characters is whitespace. -/
theorem isSpace_of_isValueStart {c : Char} (h : isValueStart c = true) : isSpace c = false := by
  have hall : ['.', 'e', '+', '-', 'N', 'T', 'F', 'i', '[', '\x7b'].all (!isSpace ·) = true := by
    decide
  have hlisted : ∀ d ∈ ['.', 'e', '+', '-', 'N', 'T', 'F', 'i', '[', '\x7b'], isSpace d = false := by
    intro d hd
    simpa using List.all_eq_true.mp hall d hd
  simp only [isValueStart, isNumeric, Bool.or_eq_true, decide_eq_true_eq] at h
  rcases h with (hdigit | hmem) | hmem
  · simp only [Char.isDigit, Bool.and_eq_true, decide_eq_true_eq, UInt32.le_iff_toNat_le] at hdigit
    have hlow : 48 ≤ c.toNat := hdigit.1
    have hhigh : c.toNat ≤ 57 := hdigit.2
    simp only [isSpace, Bool.or_eq_false_iff, Bool.and_eq_false_iff, decide_eq_false_iff_not,
      beq_eq_false_iff_ne]
    omega
  · exact hlisted c (List.mem_append_left ['N', 'T', 'F', 'i', '[', '\x7b'] hmem)
  · exact hlisted c (List.mem_append_right ['.', 'e', '+', '-'] hmem)

/-- Stripping keeps a beginning that is not whitespace. -/
theorem strip_toStr_begins [CharTables] {v : Json} (hstr : ∀ s, v ≠ .str s)
    (hnan : v ≠ .float .nan) : BeginsWith isValueStart (strip v.toStr).toList := by
  obtain ⟨c, rest, htext, hstart⟩ := toStr_begins hstr hnan
  have htrimmed : Trimmed [c] := by simp [Trimmed, isSpace_of_isValueStart hstart]
  refine ⟨c, rest.rdropWhile isSpace, ?_, hstart⟩
  rw [strip_toList, htext]
  exact stripChars_append htrimmed (List.cons_ne_nil c []) rest

end AiK8sGateway.Foundations
