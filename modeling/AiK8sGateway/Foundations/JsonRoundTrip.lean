import AiK8sGateway.Foundations.JsonText
import AiK8sGateway.Foundations.NumberText

/-!
# Reading JSON Text Back

`json.loads` inverts `json.dumps` on every value that it could have returned itself: its
objects have distinct keys, its integers are not too long to be converted, and its floats
are read back from their own text.

## Main results

- `scanString_escapes`: a string is read back from its escapes.
- `roundTrips_of_loadable`: a value is read back from its text in front of a delimiter.
- `loads_dumps`: `json.loads` inverts `json.dumps`.
- `loadable_iff`: the values of the round trip are those that `json.loads` returns.
-/

namespace AiK8sGateway.Foundations

open PythonText

attribute [local instance] decidableForallChars

/-! ## Strings -/

theorem hexValue?_digitChar {k : Nat} (hk : k < 16) : hexValue? (Nat.digitChar k) = some k := by
  have hall : ∀ k < 16, hexValue? (Nat.digitChar k) = some k := by decide
  exact hall k hk

/-- Four hexadecimal digits are read back. -/
theorem scanHex_hexDigits {n : Nat} (hn : n < 0x10000) (rest : List Char) :
    scanHex (hexDigits 4 n ++ rest) = some (n, rest) := by
  have hdigit : ∀ m : Nat, hexValue? (Nat.digitChar (m % 16)) = some (m % 16) := fun m =>
    hexValue?_digitChar (Nat.mod_lt _ (by decide))
  simp only [hexDigits, List.nil_append, List.cons_append, scanHex, hdigit,
    Option.bind_eq_bind, Option.bind_some, Option.pure_def, Option.some.injEq, Prod.mk.injEq,
    and_true]
  omega

/-- An escape is read as its character. -/
theorem scanString_escape {cs rest : List Char} {c : Char} (h : scanEscape cs = some (c, rest)) :
    scanString ('\\' :: cs) = (scanString rest).map fun (s, rest) => (c :: s, rest) := by
  rw [scanString, if_neg (by decide), if_pos rfl]
  split
  · rename_i d rest' hescape
    rw [h] at hescape
    cases hescape
    rfl
  · rename_i hescape
    rw [h] at hescape
    cases hescape

/-- A Unicode escape is read as the character that its digits stand for. -/
theorem scanEscape_unicode {n : Nat} (hn : n < 0x10000) (rest : List Char) :
    scanEscape ('u' :: (hexDigits 4 n ++ rest)) = some (surrogate n rest) := by
  rw [scanEscape, if_pos rfl, scanHex_hexDigits hn, Option.map_some]

/-- A character is valid, and so no half of a surrogate pair. -/
theorem not_surrogate (c : Char) : ¬ (0xd800 ≤ c.toNat ∧ c.toNat ≤ 0xdfff) := by
  rintro ⟨hlow, hhigh⟩
  rcases c.valid with hvalid | ⟨hvalid, -⟩
  · have hlt : c.toNat < 0xd800 := hvalid
    omega
  · have hlt : 0xdfff < c.toNat := hvalid
    omega

theorem toNat_lt (c : Char) : c.toNat < 0x110000 := by
  rcases c.valid with hvalid | ⟨-, hvalid⟩
  · have hlt : c.toNat < 0xd800 := hvalid
    omega
  · exact hvalid

/-- A character of the basic plane is read back from its escape. -/
theorem surrogate_of_char (c : Char) (rest : List Char) :
    surrogate c.toNat rest = (c, rest) := by
  have hnot := not_surrogate c
  unfold surrogate
  rw [if_neg (by omega), if_neg (by omega), Char.ofNat_toNat]

/-- Any other character is read back from its surrogate pair. -/
theorem surrogate_of_pair {c : Char} (hc : 0x10000 ≤ c.toNat) (rest : List Char) :
    surrogate (0xd800 + (c.toNat - 0x10000) / 0x400 % 0x400)
        ('\\' :: 'u' :: (hexDigits 4 (0xdc00 + (c.toNat - 0x10000) % 0x400) ++ rest)) =
      (c, rest) := by
  have hlt := toNat_lt c
  have hlow : scanLowSurrogate
      ('\\' :: 'u' :: (hexDigits 4 (0xdc00 + (c.toNat - 0x10000) % 0x400) ++ rest)) =
      some (0xdc00 + (c.toNat - 0x10000) % 0x400, rest) := by
    rw [scanLowSurrogate, scanHex_hexDigits (by omega), Option.filter_some, if_pos]
    simp only [Bool.and_eq_true, decide_eq_true_eq]
    omega
  unfold surrogate
  rw [if_pos (by omega), hlow]
  simp only [Prod.mk.injEq, and_true]
  rw [show 0x10000 + ((0xd800 + (c.toNat - 0x10000) / 0x400 % 0x400 - 0xd800) * 0x400 +
    (0xdc00 + (c.toNat - 0x10000) % 0x400 - 0xdc00)) = c.toNat by omega, Char.ofNat_toNat]

/-- A character is read back from its escape. -/
theorem scanString_escapeAscii (c : Char) (rest : List Char) :
    scanString (escapeAscii c ++ rest) =
      (scanString rest).map fun (s, rest) => (c :: s, rest) := by
  unfold escapeAscii
  split_ifs with h₁ h₂ h₃ h₄ h₅ h₆ h₇ hprintable hbmp
  -- The seven characters with an escape of their own.
  iterate 7
    subst c
    exact scanString_escape rfl
  · simp only [isPrintableAscii, Bool.and_eq_true, decide_eq_true_eq] at hprintable
    rw [List.singleton_append, scanString, if_neg h₁, if_neg h₂, if_neg (by omega)]
  · have hescape : scanEscape ('u' :: (hexDigits 4 c.toNat ++ rest)) = some (c, rest) := by
      rw [scanEscape_unicode hbmp, surrogate_of_char]
    exact scanString_escape hescape
  · have hlt := toNat_lt c
    have hescape : scanEscape ('u' :: (hexDigits 4 (0xd800 + (c.toNat - 0x10000) / 0x400 % 0x400) ++
        '\\' :: 'u' :: (hexDigits 4 (0xdc00 + (c.toNat - 0x10000) % 0x400) ++ rest))) =
        some (c, rest) := by
      rw [scanEscape_unicode (by omega), surrogate_of_pair (not_lt.mp hbmp)]
    rw [← scanString_escape hescape]
    simp only [unicodeEscape, List.cons_append, List.append_assoc]

/-- **Strings** are read back up to the closing quote. -/
theorem scanString_escapes (cs rest : List Char) :
    scanString (cs.flatMap escapeAscii ++ '"' :: rest) = some (cs, rest) := by
  induction cs with
  | nil => rw [List.flatMap_nil, List.nil_append, scanString, if_pos rfl]
  | cons c cs ih =>
    rw [List.flatMap_cons, List.append_assoc, scanString_escapeAscii, ih, Option.map_some]

/-! ## Beginnings -/

/-- The first character of a value is neither whitespace nor a closing bracket. -/
def isValueHead (c : Char) : Bool := !isJsonSpace c && c ≠ ']' && c ≠ '\x7d'

/-- A text that begins with such a character. -/
def HasHead (cs : List Char) : Prop := ∃ c rest, cs = c :: rest ∧ isValueHead c = true

theorem HasHead.append {cs : List Char} (h : HasHead cs) (ds : List Char) : HasHead (cs ++ ds) := by
  obtain ⟨c, rest, rfl, hc⟩ := h
  exact ⟨c, rest ++ ds, rfl, hc⟩

/-- No whitespace is skipped before a value. -/
theorem skipSpace_of_hasHead {cs : List Char} (h : HasHead cs) : skipSpace cs = cs := by
  obtain ⟨c, rest, rfl, hc⟩ := h
  refine List.dropWhile_cons_of_neg ?_
  simp only [isValueHead, Bool.and_eq_true, Bool.not_eq_true'] at hc
  simp [hc.1.1]

theorem isValueHead_of_isDigit {c : Char} (h : c.isDigit = true) : isValueHead c = true := by
  have hnone : ∀ d ∈ [' ', '\t', '\n', '\r', ']', '\x7d'], d.isDigit = false := by decide
  have hne : ∀ d ∈ [' ', '\t', '\n', '\r', ']', '\x7d'], c ≠ d := by
    rintro d hd rfl
    rw [hnone c hd] at h
    cases h
  simp only [List.forall_mem_cons] at hne
  simp [isValueHead, isJsonSpace, hne]

/-- A number begins with a digit or a minus. -/
theorem token_head {t : NumberToken} (h : t.WellFormed) :
    ∃ c rest, t.text = c :: rest ∧ (c.isDigit = true ∨ c = '-') := by
  obtain ⟨c, rest, hdigits, hc⟩ := h.digits.head
  unfold NumberToken.text
  rcases h.sign with hsign | hsign
  · exact ⟨c, rest ++ t.frac ++ t.exp, by simp [hsign, hdigits], .inl hc⟩
  · exact ⟨'-', t.digits ++ t.frac ++ t.exp, by simp [hsign], .inr rfl⟩

/-! ## Values -/

section Values

variable [FloatReader]

/-- A value that `json.loads` could have returned. -/
inductive Loadable : Json → Prop where
  | null : Loadable .null
  | bool (b : Bool) : Loadable (.bool b)
  | int {n : Int} (h : (natDigits n.natAbs).length ≤ maxStrDigits) : Loadable (.int n)
  | nan : Loadable (.float .nan)
  | inf (neg : Bool) : Loadable (.float (.inf neg))
  /-- `float(repr(x)) == x`. -/
  | float {x : PyFloat} (h : FloatReader.read x.repr = x) : Loadable (.float x)
  | str (s : String) : Loadable (.str s)
  | arr {items : List Json} (h : ∀ v ∈ items, Loadable v) : Loadable (.arr items)
  | obj {fields : List (String × Json)} (hkeys : (fields.map Prod.fst).Nodup)
      (h : ∀ f ∈ fields, Loadable f.2) : Loadable (.obj fields)

/-- The value is read back from its text. -/
def RoundTrips (v : Json) : Prop :=
  HasHead (dumps v).toList ∧ ∀ n rest, Delimited rest →
    2 * ((dumps v).toList ++ rest).length + 1 ≤ n →
      scanOnce n ((dumps v).toList ++ rest) = .ok (v, rest)

omit [FloatReader] in
/-- No name begins another one. -/
theorem scanConstant_append (rest : List Char) :
    ∀ e ∈ constants, scanConstant (e.1.toList ++ rest) = some (e.2, rest) := by
  simp [scanConstant, constants, List.dropPrefix?]

omit [FloatReader] in
/-- A name begins with a letter or a sign. -/
theorem head_of_constant {e : String × Json} (he : e ∈ constants) :
    ∃ c tail, e.1.toList = c :: tail ∧ isValueHead c = true ∧ c ≠ '"' ∧ c ≠ '\x7b' ∧ c ≠ '[' := by
  simp only [constants, List.mem_cons, List.not_mem_nil, or_false] at he
  rcases he with rfl | rfl | rfl | rfl | rfl | rfl <;> exact ⟨_, _, rfl, by decide⟩

/-- A name is read back. -/
theorem roundTrips_of_constant {name : String} {v : Json} (h : (name, v) ∈ constants)
    (htext : dumps v = name) : RoundTrips v := by
  obtain ⟨c, tail, htail, hvalue, hquote, hobject, harray⟩ := head_of_constant h
  dsimp only at htail
  rw [RoundTrips, htext]
  refine ⟨⟨c, tail, htail, hvalue⟩, fun n rest _ hn => ?_⟩
  obtain ⟨n, rfl⟩ : ∃ k, n = k + 1 := ⟨n - 1, by omega⟩
  have hname := scanConstant_append rest _ h
  dsimp only at hname
  rw [htail, List.cons_append] at hname ⊢
  rw [scanOnce, if_neg hquote, if_neg hobject, if_neg harray, hname]

omit [FloatReader] in
/-- No name begins as a number does. -/
theorem scanConstant_token {t : NumberToken} (h : t.WellFormed) (rest : List Char) :
    scanConstant (t.text ++ rest) = none := by
  obtain ⟨c, tail, hdigits, hc⟩ := h.digits.head
  have hletters : ∀ d ∈ ['n', 't', 'f', 'N', 'I', '-'], d ≠ c := by
    have hnone : ∀ d ∈ ['n', 't', 'f', 'N', 'I', '-'], d.isDigit = false := by decide
    rintro d hd rfl
    rw [hnone d hd] at hc
    cases hc
  simp only [List.forall_mem_cons] at hletters
  obtain ⟨hn, ht, hf, hN, hI, hminus, -⟩ := hletters
  unfold NumberToken.text
  rcases h.sign with hsign | hsign
  · simp [hsign, hdigits, scanConstant, constants, List.dropPrefix?, Ne.symm hn, Ne.symm ht,
      Ne.symm hf, Ne.symm hN, Ne.symm hI, Ne.symm hminus]
  · simp [hsign, hdigits, scanConstant, constants, List.dropPrefix?, Ne.symm hI]

/-- A number is read back. -/
theorem roundTrips_of_token {t : NumberToken} (h : t.WellFormed) {v : Json}
    (htext : (dumps v).toList = t.text) (hvalue : t.value = .ok v) : RoundTrips v := by
  obtain ⟨c, tail, hhead, hc⟩ := token_head h
  refine ⟨⟨c, tail, htext.trans hhead, ?_⟩, fun n rest hrest hn => ?_⟩
  · -- The text begins as values do.
    rcases hc with hc | rfl
    · exact isValueHead_of_isDigit hc
    · decide
  · -- It is no string, no container and no name, so that the decoder looks for a number.
    obtain ⟨n, rfl⟩ : ∃ k, n = k + 1 := ⟨n - 1, by omega⟩
    have hconstant := scanConstant_token h rest
    have hnumber := scanNumber_token h hrest
    have hbrackets : ∀ d ∈ ['"', '\x7b', '['], c ≠ d := by
      have hnone : ∀ d ∈ ['"', '\x7b', '['], d.isDigit = false ∧ d ≠ '-' := by decide
      rintro d hd rfl
      obtain ⟨hdigit, hminus⟩ := hnone c hd
      rcases hc with hc | hc
      · rw [hdigit] at hc
        cases hc
      · exact hminus hc
    simp only [List.forall_mem_cons] at hbrackets
    obtain ⟨hquote, hobject, harray, -⟩ := hbrackets
    rw [htext]
    rw [hhead, List.cons_append] at hconstant hnumber ⊢
    rw [scanOnce, if_neg hquote, if_neg hobject, if_neg harray, hconstant]
    dsimp only
    rw [hnumber]
    dsimp only
    rw [hvalue]
    rfl

omit [FloatReader] in
/-- An integer is written as a token. -/
theorem int_token (n : Int) :
    ∃ t : NumberToken, t.WellFormed ∧ (dumps (.int n)).toList = t.text ∧
      t = ⟨if n < 0 then ['-'] else [], natDigits n.natAbs, [], []⟩ := by
  refine ⟨_, ⟨?_, isInteger_natDigits n.natAbs, .inl rfl, .inl rfl⟩, ?_, rfl⟩
  · dsimp only
    split_ifs
    · exact .inr rfl
    · exact .inl rfl
  · cases n with
    | ofNat m =>
      show (Nat.repr m).toList = _
      simp [NumberToken.text, natDigits]
    | negSucc m =>
      show ("-" ++ Nat.repr (m + 1)).toList = _
      simp [NumberToken.text, natDigits]

theorem roundTrips_int {n : Int} (h : (natDigits n.natAbs).length ≤ maxStrDigits) :
    RoundTrips (.int n) := by
  obtain ⟨t, hwf, htext, rfl⟩ := int_token n
  refine roundTrips_of_token hwf htext ?_
  unfold NumberToken.value
  rw [if_pos ⟨rfl, rfl⟩, if_neg (not_lt.mpr h)]
  simp only [natDigits, Nat.ofDigitChars_ten_toDigits]
  split_ifs with hneg hsign hsign
  · cases hsign
  · simp only [Except.ok.injEq, Json.int.injEq]
    omega
  · simp only [Except.ok.injEq, Json.int.injEq]
    omega
  · exact absurd rfl hsign

omit [FloatReader] in
/-- A float that is a number is written as a token that is no integer. -/
theorem float_token {x : PyFloat} (hx : x = .negZero ∨ ∃ q, x = .finite q) :
    ∃ t : NumberToken, t.WellFormed ∧ ¬ (t.frac = [] ∧ t.exp = []) ∧ t.digits.length ≤ 16 ∧
      (dumps (.float x)).toList = t.text ∧ x.repr.toList = t.text := by
  have hzero : IsDigits ['0'] := isDigits_cons (by decide) nofun
  have hfrac : ['.', '0'] = [] ∨ ∃ ds, ['.', '0'] = '.' :: ds ∧ IsDigits ds := .inr ⟨_, rfl, hzero⟩
  rcases hx with rfl | ⟨q, rfl⟩
  · -- The negative zero.
    exact ⟨⟨['-'], ['0'], ['.', '0'], []⟩, ⟨.inr rfl, .zero, hfrac, .inl rfl⟩, by decide, by decide,
      rfl, rfl⟩
  · rcases lt_trichotomy q 0 with hneg | rfl | hpos
    · -- A minus before the text of the absolute value.
      obtain ⟨t, ⟨hwf, hunsigned, hnotInt, hshort⟩, htext⟩ := reprPositive_token (neg_pos.mpr hneg)
      have hrepr : (PyFloat.finite q).repr.toList = NumberToken.text { t with sign := ['-'] } := by
        rw [PyFloat.repr, if_neg hneg.ne, if_pos hneg, String.toList_append, htext]
        simp [NumberToken.text, hunsigned]
      exact ⟨{ t with sign := ['-'] }, ⟨.inr rfl, hwf.digits, hwf.frac, hwf.exp⟩, hnotInt, hshort,
        hrepr, hrepr⟩
    · -- Zero.
      exact ⟨⟨[], ['0'], ['.', '0'], []⟩, ⟨.inl rfl, .zero, hfrac, .inl rfl⟩, by decide, by decide,
        rfl, rfl⟩
    · -- A text of the kind of `reprPositive_token`.
      obtain ⟨t, ⟨hwf, hunsigned, hnotInt, hshort⟩, htext⟩ := reprPositive_token hpos
      have hrepr : (PyFloat.finite q).repr.toList = t.text := by
        rw [← htext, PyFloat.repr, if_neg hpos.ne', if_neg (not_lt.mpr hpos.le)]
      exact ⟨t, hwf, hnotInt, hshort, hrepr, hrepr⟩

theorem roundTrips_float {x : PyFloat} (hread : FloatReader.read x.repr = x) :
    RoundTrips (.float x) := by
  have htoken : (x = .negZero ∨ ∃ q, x = .finite q) → RoundTrips (.float x) := by
    intro hx
    obtain ⟨t, hwf, hnotInt, -, hdumps, hrepr⟩ := float_token hx
    refine roundTrips_of_token hwf hdumps ?_
    rw [NumberToken.value, if_neg hnotInt, ← hrepr, String.ofList_toList, hread]
  cases x with
  | nan => exact roundTrips_of_constant (by simp [constants] : ("NaN", _) ∈ constants) rfl
  | inf neg =>
    cases neg with
    | false => exact roundTrips_of_constant (by simp [constants] : ("Infinity", _) ∈ constants) rfl
    | true => exact roundTrips_of_constant (by simp [constants] : ("-Infinity", _) ∈ constants) rfl
  | negZero => exact htoken (.inl rfl)
  | finite q => exact htoken (.inr ⟨q, rfl⟩)

theorem roundTrips_str (s : String) : RoundTrips (.str s) := by
  have htext : (dumps (.str s)).toList = '"' :: (s.toList.flatMap escapeAscii ++ ['"']) := by
    rw [dumps, encodeString, String.toList_ofList, List.cons_append]
  rw [RoundTrips, htext]
  refine ⟨⟨'"', _, rfl, by decide⟩, fun n rest _ hn => ?_⟩
  obtain ⟨n, rfl⟩ : ∃ k, n = k + 1 := ⟨n - 1, by omega⟩
  have hscan := scanString_escapes s.toList rest
  rw [List.cons_append, List.append_assoc, List.singleton_append, scanOnce, if_pos rfl, hscan]
  dsimp only
  rw [String.ofList_toList]

/-! ### Branches of the decoder -/

theorem scanItems_last {n : Nat} {cs rest rest' : List Char} {v : Json}
    (hv : scanOnce n cs = .ok (v, rest)) (hclose : skipSpace rest = ']' :: rest') :
    scanItems (n + 1) cs = .ok ([v], rest') := by
  rw [scanItems, hv]
  dsimp only [bind, Except.bind]
  rw [hclose]
  rfl

theorem scanItems_comma {n : Nat} {cs rest rest' rest'' : List Char} {v : Json}
    {items : List Json} (hv : scanOnce n cs = .ok (v, rest))
    (hcomma : skipSpace rest = ',' :: rest')
    (hitems : scanItems n (skipSpace rest') = .ok (items, rest'')) :
    scanItems (n + 1) cs = .ok (v :: items, rest'') := by
  rw [scanItems, hv]
  dsimp only [bind, Except.bind]
  rw [hcomma]
  simp only [hitems]
  rfl

theorem scanFields_last {n : Nat} {cs rest rest' rest'' rest₃ key : List Char} {v : Json}
    (hkey : scanString cs = some (key, rest)) (hcolon : skipSpace rest = ':' :: rest')
    (hv : scanOnce n (skipSpace rest') = .ok (v, rest''))
    (hclose : skipSpace rest'' = '\x7d' :: rest₃) :
    scanFields (n + 1) ('"' :: cs) = .ok ([(String.ofList key, v)], rest₃) := by
  rw [scanFields, hkey]
  simp only [hcolon, hv, bind, Except.bind, hclose]
  rfl

theorem scanFields_comma {n : Nat} {cs rest rest' rest'' rest₃ rest₄ key : List Char} {v : Json}
    {fields : List (String × Json)}
    (hkey : scanString cs = some (key, rest)) (hcolon : skipSpace rest = ':' :: rest')
    (hv : scanOnce n (skipSpace rest') = .ok (v, rest''))
    (hcomma : skipSpace rest'' = ',' :: rest₃)
    (hfields : scanFields n (skipSpace rest₃) = .ok (fields, rest₄)) :
    scanFields (n + 1) ('"' :: cs) = .ok ((String.ofList key, v) :: fields, rest₄) := by
  rw [scanFields, hkey]
  simp only [hcolon, hv, bind, Except.bind, hcomma, hfields]
  rfl

omit [FloatReader] in
/-- What begins as a value is not the end of an empty container. -/
theorem skipSpace_ne_close {cs : List Char} (h : HasHead cs) {c : Char}
    (hc : c = ']' ∨ c = '\x7d') (rest : List Char) : skipSpace cs ≠ c :: rest := by
  rw [skipSpace_of_hasHead h]
  obtain ⟨d, tail, rfl, hd⟩ := h
  intro heq
  injection heq with heq
  subst heq
  rcases hc with rfl | rfl <;> exact absurd hd (by decide)

theorem scanOnce_array {n : Nat} {cs rest : List Char} {items : List Json} (h : HasHead cs)
    (hitems : scanItems n cs = .ok (items, rest)) :
    scanOnce (n + 1) ('[' :: cs) = .ok (.arr items, rest) := by
  rw [scanOnce, if_neg (by decide), if_neg (by decide), if_pos rfl]
  split
  · rename_i rest' heq
    exact absurd heq (skipSpace_ne_close h (.inl rfl) rest')
  · rw [skipSpace_of_hasHead h, hitems]
    rfl

theorem scanOnce_object {n : Nat} {cs rest : List Char} {fields : List (String × Json)}
    (h : HasHead cs) (hfields : scanFields n cs = .ok (fields, rest)) :
    scanOnce (n + 1) ('\x7b' :: cs) =
      .ok (.obj (OrderedDict.ofEntries fields).entries, rest) := by
  rw [scanOnce, if_neg (by decide), if_pos rfl]
  split
  · rename_i rest' heq
    exact absurd heq (skipSpace_ne_close h (.inr rfl) rest')
  · rw [skipSpace_of_hasHead h, hfields]
    rfl

/-! ### Containers -/

omit [FloatReader] in
/-- The blank behind a separator is skipped. -/
theorem skipSpace_blank {cs : List Char} (h : HasHead cs) : skipSpace (' ' :: cs) = cs :=
  (List.dropWhile_cons_of_pos (by decide)).trans (skipSpace_of_hasHead h)

theorem hasHead_dumpsItems {v : Json} {items : List Json} (h : RoundTrips v) :
    HasHead (dumps.dumpsItems (v :: items)).toList := by
  cases items with
  | nil =>
    rw [dumps.dumpsItems]
    exact h.1
  | cons w items =>
    rw [dumps.dumpsItems, String.toList_append, String.toList_append]
    exact (h.1.append _).append _

/-- The items of a list are read back up to its bracket. -/
theorem scanItems_dumpsItems {v : Json} {items : List Json}
    (h : ∀ w ∈ v :: items, RoundTrips w) (n : Nat) (rest : List Char)
    (hn : 2 * ((dumps.dumpsItems (v :: items)).toList ++ ']' :: rest).length + 2 ≤ n) :
    scanItems n ((dumps.dumpsItems (v :: items)).toList ++ ']' :: rest) =
      .ok (v :: items, rest) := by
  obtain ⟨n, rfl⟩ : ∃ k, n = k + 1 := ⟨n - 1, by omega⟩
  obtain ⟨-, hv⟩ := h v (List.mem_cons_self ..)
  induction items generalizing v n with
  | nil =>
    -- The last item: the bracket follows.
    rw [dumps.dumpsItems] at hn ⊢
    exact scanItems_last (hv n _ (by simp [Delimited]) (by omega)) rfl
  | cons w items ih =>
    -- A comma and a blank follow, and the induction hypothesis takes over behind them.
    have hw : ∀ x ∈ w :: items, RoundTrips x := fun x hx => h x (List.mem_cons_of_mem _ hx)
    have hhead : HasHead ((dumps.dumpsItems (w :: items)).toList ++ ']' :: rest) :=
      (hasHead_dumpsItems (hw w (List.mem_cons_self ..))).append _
    have htext : (dumps.dumpsItems (v :: w :: items)).toList ++ ']' :: rest =
        (dumps v).toList ++ ',' :: ' ' :: ((dumps.dumpsItems (w :: items)).toList ++ ']' :: rest) := by
      rw [dumps.dumpsItems]
      simp
    rw [htext] at hn ⊢
    obtain ⟨k, rfl⟩ : ∃ k, n = k + 1 := ⟨n - 1, by
      simp only [List.length_append, List.length_cons] at hn
      omega⟩
    have hmore := ih hw k (by simp only [List.length_append, List.length_cons] at hn ⊢; omega)
      (hw w (List.mem_cons_self ..)).2
    refine scanItems_comma (hv (k + 1) _ (by simp [Delimited]) (by omega)) rfl ?_
    rw [skipSpace_blank hhead]
    exact hmore

theorem roundTrips_arr {items : List Json} (h : ∀ v ∈ items, RoundTrips v) :
    RoundTrips (.arr items) := by
  have htext : (dumps (.arr items)).toList = '[' :: ((dumps.dumpsItems items).toList ++ [']']) := by
    rw [dumps]
    simp
  rw [RoundTrips, htext]
  refine ⟨⟨'[', _, rfl, by decide⟩, fun n rest _ hn => ?_⟩
  obtain ⟨n, rfl⟩ : ∃ k, n = k + 1 := ⟨n - 1, by omega⟩
  rw [List.cons_append, List.append_assoc, List.singleton_append] at hn ⊢
  cases items with
  | nil =>
    rw [dumps.dumpsItems]
    rfl
  | cons v items =>
    have hhead : HasHead (dumps.dumpsItems (v :: items)).toList :=
      hasHead_dumpsItems (h v (List.mem_cons_self ..))
    refine scanOnce_array (hhead.append _) (scanItems_dumpsItems h n rest ?_)
    simp only [List.length_append, List.length_cons] at hn ⊢
    omega

/-- A key and its colon before a text. -/
def fieldText (key : String) (cs : List Char) : List Char :=
  '"' :: (key.toList.flatMap escapeAscii ++ '"' :: ':' :: ' ' :: cs)

omit [FloatReader] in
theorem toList_dumpsFields (key : String) (v : Json) (fields : List (String × Json))
    (rest : List Char) :
    (dumps.dumpsFields ((key, v) :: fields)).toList ++ '\x7d' :: rest =
      fieldText key ((dumps v).toList ++ match fields with
        | [] => '\x7d' :: rest
        | f :: more => ',' :: ' ' :: ((dumps.dumpsFields (f :: more)).toList ++ '\x7d' :: rest)) := by
  cases fields with
  | nil =>
    rw [dumps.dumpsFields]
    simp [fieldText, encodeString]
  | cons f more =>
    rw [dumps.dumpsFields]
    simp [fieldText, encodeString]

omit [FloatReader] in
theorem hasHead_fieldText (key : String) (cs : List Char) : HasHead (fieldText key cs) :=
  ⟨'"', _, rfl, by decide⟩

omit [FloatReader] in
theorem hasHead_dumpsFields (f : String × Json) (fields : List (String × Json))
    (rest : List Char) : HasHead ((dumps.dumpsFields (f :: fields)).toList ++ '\x7d' :: rest) := by
  rw [toList_dumpsFields]
  exact hasHead_fieldText _ _

/-- The fields of an object are read back up to its bracket. -/
theorem scanFields_dumpsFields {f : String × Json} {fields : List (String × Json)}
    (h : ∀ g ∈ f :: fields, RoundTrips g.2) (n : Nat) (rest : List Char)
    (hn : 2 * ((dumps.dumpsFields (f :: fields)).toList ++ '\x7d' :: rest).length + 2 ≤ n) :
    scanFields n ((dumps.dumpsFields (f :: fields)).toList ++ '\x7d' :: rest) =
      .ok (f :: fields, rest) := by
  obtain ⟨n, rfl⟩ : ∃ k, n = k + 1 := ⟨n - 1, by omega⟩
  obtain ⟨key, v⟩ := f
  obtain ⟨hhead, hv⟩ := h (key, v) (List.mem_cons_self ..)
  dsimp only at hhead hv
  have hkey := scanString_escapes key.toList
  induction fields generalizing key v n with
  | nil =>
    -- The last field: the brace follows.
    rw [toList_dumpsFields] at hn ⊢
    have hvalue : scanOnce n (skipSpace (' ' :: ((dumps v).toList ++ '\x7d' :: rest))) =
        .ok (v, '\x7d' :: rest) := by
      rw [skipSpace_blank (hhead.append _)]
      refine hv n ('\x7d' :: rest) (by simp [Delimited]) ?_
      simp only [fieldText, List.length_append, List.length_cons] at hn ⊢
      omega
    have hclose : skipSpace ('\x7d' :: rest) = '\x7d' :: rest := rfl
    have hlast := scanFields_last (hkey (':' :: ' ' :: ((dumps v).toList ++ '\x7d' :: rest))) rfl
      hvalue hclose
    rwa [String.ofList_toList] at hlast
  | cons g fields ih =>
    -- A comma and a blank follow, and the induction hypothesis takes over behind them.
    obtain ⟨key', v'⟩ := g
    have hg : ∀ x ∈ (key', v') :: fields, RoundTrips x.2 :=
      fun x hx => h x (List.mem_cons_of_mem _ hx)
    obtain ⟨hhead', hv'⟩ := hg (key', v') (List.mem_cons_self ..)
    rw [toList_dumpsFields] at hn ⊢
    simp only [fieldText, List.length_append, List.length_cons] at hn
    obtain ⟨k, rfl⟩ : ∃ k, n = k + 1 := ⟨n - 1, by omega⟩
    have hmore := ih k key' v' hg (by
      simp only [List.length_append, List.length_cons]
      omega) hhead' hv' (scanString_escapes key'.toList)
    have hcomma := scanFields_comma (hkey (':' :: ' ' :: ((dumps v).toList ++
        ',' :: ' ' :: ((dumps.dumpsFields ((key', v') :: fields)).toList ++ '\x7d' :: rest)))) rfl
      (by
        rw [skipSpace_blank (hhead.append _)]
        refine hv (k + 1) _ (by simp [Delimited]) ?_
        simp only [List.length_append, List.length_cons]
        omega)
      rfl
      (by
        rw [skipSpace_blank (hasHead_dumpsFields _ _ _)]
        exact hmore)
    rwa [String.ofList_toList] at hcomma

theorem roundTrips_obj {fields : List (String × Json)} (hkeys : (fields.map Prod.fst).Nodup)
    (h : ∀ f ∈ fields, RoundTrips f.2) : RoundTrips (.obj fields) := by
  have htext : (dumps (.obj fields)).toList =
      '\x7b' :: ((dumps.dumpsFields fields).toList ++ ['\x7d']) := by
    rw [dumps]
    simp
  rw [RoundTrips, htext]
  refine ⟨⟨'\x7b', _, rfl, by decide⟩, fun n rest _ hn => ?_⟩
  obtain ⟨n, rfl⟩ : ∃ k, n = k + 1 := ⟨n - 1, by omega⟩
  rw [List.cons_append, List.append_assoc, List.singleton_append] at hn ⊢
  cases fields with
  | nil =>
    rw [dumps.dumpsFields]
    rfl
  | cons f fields =>
    have hfields := scanFields_dumpsFields h n rest (by
      simp only [List.length_append, List.length_cons] at hn ⊢
      omega)
    have hdict : (OrderedDict.ofEntries (f :: fields)).entries = f :: fields :=
      congrArg OrderedDict.entries (OrderedDict.ofEntries_entries ⟨f :: fields, hkeys⟩)
    rw [scanOnce_object (hasHead_dumpsFields f fields rest) hfields, hdict]

/-! ### The round trip -/

/-- **Round trip of a value** in front of a delimiter. -/
theorem roundTrips_of_loadable {v : Json} (h : Loadable v) : RoundTrips v := by
  induction h with
  | null => exact roundTrips_of_constant (by simp [constants] : ("null", _) ∈ constants) rfl
  | bool b =>
    cases b with
    | false => exact roundTrips_of_constant (by simp [constants] : ("false", _) ∈ constants) rfl
    | true => exact roundTrips_of_constant (by simp [constants] : ("true", _) ∈ constants) rfl
  | int h => exact roundTrips_int h
  | nan => exact roundTrips_of_constant (by simp [constants] : ("NaN", _) ∈ constants) rfl
  | inf neg =>
    cases neg with
    | false => exact roundTrips_of_constant (by simp [constants] : ("Infinity", _) ∈ constants) rfl
    | true => exact roundTrips_of_constant (by simp [constants] : ("-Infinity", _) ∈ constants) rfl
  | float h => exact roundTrips_float h
  | str s => exact roundTrips_str s
  | arr _ ih => exact roundTrips_arr ih
  | obj hkeys _ ih => exact roundTrips_obj hkeys ih

omit [FloatReader] in
theorem delimited_of_space {ends : List Char} (h : ∀ c ∈ ends, isJsonSpace c = true) :
    Delimited ends := by
  intro c hc
  have hspace := h c (List.mem_of_mem_head? hc)
  simp only [isJsonSpace, List.mem_cons, List.not_mem_nil, or_false, decide_eq_true_eq] at hspace
  simp only [List.mem_cons, List.not_mem_nil, or_false]
  tauto

/-- Whitespace behind a value is ignored. -/
theorem loads_dumps_append {v : Json} (h : Loadable v) {ends : List Char}
    (hends : ∀ c ∈ ends, isJsonSpace c = true) :
    loads (dumps v ++ String.ofList ends) = .ok v := by
  obtain ⟨hhead, hscan⟩ := roundTrips_of_loadable h
  have hvalue := hscan (2 * ((dumps v).toList ++ ends).length + 2) ends (delimited_of_space hends)
    (by omega)
  have hskip : skipSpace ends = [] := List.dropWhile_eq_nil_iff.mpr hends
  unfold loads
  dsimp only
  rw [String.toList_append, String.toList_ofList, skipSpace_of_hasHead (hhead.append ends), hvalue]
  dsimp only [bind, Except.bind]
  rw [if_pos hskip]
  rfl

/-- **Round trip**: `json.loads` inverts `json.dumps`. -/
theorem loads_dumps {v : Json} (h : Loadable v) : loads (dumps v) = .ok v := by
  have happend : loads (dumps v ++ String.ofList []) = .ok v := loads_dumps_append h nofun
  rwa [String.ofList_nil, String.append_empty] at happend

/-! ### The range of `json.loads` -/

omit [FloatReader] in
theorem isDigit_of_scanInteger {cs digits rest : List Char}
    (h : scanInteger cs = some (digits, rest)) :
    digits ≠ [] ∧ ∀ c ∈ digits, c.isDigit = true := by
  unfold scanInteger at h
  split at h
  · cases h
  · rename_i c tail
    split_ifs at h with hzero hdigit
    · cases h
      exact ⟨List.cons_ne_nil _ _, by decide⟩
    · rw [List.span_eq_takeWhile_dropWhile] at h
      cases h
      refine ⟨?_, fun d hd => List.mem_takeWhile_imp hd⟩
      rw [List.takeWhile_cons_of_pos hdigit]
      exact List.cons_ne_nil _ _

omit [FloatReader] in
theorem ofDigitChars_lt {digits : List Char} (h : ∀ c ∈ digits, c.isDigit = true) (init : Nat) :
    Nat.ofDigitChars 10 digits init < (init + 1) * 10 ^ digits.length := by
  induction digits generalizing init with
  | nil => simp
  | cons c digits ih =>
    have hdigit : c.toNat - '0'.toNat ≤ 9 := by
      have hc := h c (List.mem_cons_self ..)
      simp only [Char.isDigit, Bool.and_eq_true, decide_eq_true_eq, UInt32.le_iff_toNat_le] at hc
      have hhigh : c.toNat ≤ 57 := hc.2
      have hzero : '0'.toNat = 48 := rfl
      omega
    have hrest := ih (fun d hd => h d (List.mem_cons_of_mem _ hd))
      (10 * init + (c.toNat - '0'.toNat))
    rw [Nat.ofDigitChars_cons, List.length_cons, pow_succ]
    refine lt_of_lt_of_le hrest ?_
    calc (10 * init + (c.toNat - '0'.toNat) + 1) * 10 ^ digits.length
        ≤ (10 * (init + 1)) * 10 ^ digits.length := Nat.mul_le_mul_right _ (by omega)
      _ = (init + 1) * (10 ^ digits.length * 10) := by ring

/-- Reading a float's text gives the float again. -/
class LawfulFloatReader : Prop where
  read_repr (s : String) : FloatReader.read (FloatReader.read s).repr = FloatReader.read s

variable [LawfulFloatReader]

theorem loadable_of_token {cs rest : List Char} {t : NumberToken} {v : Json}
    (h : scanNumber cs = some (t, rest)) (hvalue : t.value = .ok v) : Loadable v := by
  unfold scanNumber at h
  simp only [Option.bind_eq_bind, Option.bind_eq_some_iff, Option.pure_def,
    Option.some.injEq, Prod.mk.injEq] at h
  obtain ⟨⟨digits, rest'⟩, hdigits, rfl, -⟩ := h
  obtain ⟨hne, hall⟩ := isDigit_of_scanInteger hdigits
  unfold NumberToken.value at hvalue
  dsimp only at hvalue
  have hlt := ofDigitChars_lt hall 0
  rw [Nat.zero_add, Nat.one_mul] at hlt
  have hlen : (natDigits (Nat.ofDigitChars 10 digits 0)).length ≤ digits.length :=
    (Nat.length_toDigits_le_iff (by decide) (List.length_pos_of_ne_nil hne)).mpr hlt
  split_ifs at hvalue with hint hlong hsign
  · cases hvalue
    exact .int (le_trans (by simpa using hlen) (not_lt.mp hlong))
  · cases hvalue
    exact .int (le_trans (by simpa using hlen) (not_lt.mp hlong))
  · cases hvalue
    exact .float (LawfulFloatReader.read_repr _)

/-- What the decoder returns with a bound of `n` for its recursion. -/
structure ReturnsLoadable (n : Nat) : Prop where
  once : ∀ cs v rest, scanOnce n cs = .ok (v, rest) → Loadable v
  items : ∀ cs items rest, scanItems n cs = .ok (items, rest) → ∀ v ∈ items, Loadable v
  fields : ∀ cs fields rest, scanFields n cs = .ok (fields, rest) → ∀ f ∈ fields, Loadable f.2

theorem loadable_of_scanOnce {n : Nat} (ih : ReturnsLoadable n) {cs rest : List Char} {v : Json}
    (h : scanOnce (n + 1) cs = .ok (v, rest)) : Loadable v := by
  cases cs with
  | nil => cases h
  | cons c cs =>
    unfold scanOnce at h
    split_ifs at h
    · -- Strings.
      split at h
      · cases h
        exact .str _
      · cases h
    · -- Objects: the later of two fields of a name wins, so that the names are distinct.
      split at h
      · cases h
        exact .obj List.nodup_nil nofun
      · cases hfields : scanFields n (skipSpace cs) with
        | error e =>
          rw [hfields] at h
          cases h
        | ok found =>
          rw [hfields] at h
          cases h
          have hall := ih.fields _ _ _ hfields
          exact .obj (OrderedDict.ofEntries found.1).nodup fun f hf =>
            hall f (OrderedDict.mem_of_mem_ofEntries hf)
    · -- Lists.
      split at h
      · cases h
        exact .arr nofun
      · cases hitems : scanItems n (skipSpace cs) with
        | error e =>
          rw [hitems] at h
          cases h
        | ok found =>
          rw [hitems] at h
          cases h
          exact .arr (ih.items _ _ _ hitems)
    · -- Names.
      split at h
      · rename_i v' rest' hscan
        cases h
        obtain ⟨e, hmem, hname⟩ := List.exists_of_findSome?_eq_some hscan
        obtain ⟨_, -, heq⟩ := Option.map_eq_some_iff.mp hname
        cases heq
        have hconstants : ∀ e ∈ constants, Loadable e.2 := by
          simp only [constants, List.forall_mem_cons]
          exact ⟨.null, .bool true, .bool false, .nan, .inf false, .inf true, nofun⟩
        exact hconstants e hmem
      · -- Numbers.
        split at h
        · rename_i t rest' hscan
          cases hvalue : t.value with
          | error e =>
            rw [hvalue] at h
            cases h
          | ok v' =>
            rw [hvalue] at h
            cases h
            exact loadable_of_token hscan hvalue
        · cases h

omit [LawfulFloatReader] in
theorem loadable_of_scanItems {n : Nat} (ih : ReturnsLoadable n) {cs rest : List Char}
    {items : List Json} (h : scanItems (n + 1) cs = .ok (items, rest)) :
    ∀ v ∈ items, Loadable v := by
  unfold scanItems at h
  cases hitem : scanOnce n cs with
  | error e =>
    rw [hitem] at h
    cases h
  | ok found =>
    have hvalue := ih.once _ _ _ hitem
    rw [hitem] at h
    dsimp only [bind, Except.bind] at h
    split at h
    · -- The bracket: this was the last item.
      cases h
      simpa using hvalue
    · -- A comma: more items follow.
      rename_i rest' hskip
      cases hmore : scanItems n (skipSpace rest') with
      | error e =>
        rw [hmore] at h
        cases h
      | ok more =>
        rw [hmore] at h
        cases h
        exact List.forall_mem_cons.mpr ⟨hvalue, ih.items _ _ _ hmore⟩
    · cases h

omit [LawfulFloatReader] in
theorem loadable_of_scanFields {n : Nat} (ih : ReturnsLoadable n) {cs rest : List Char}
    {fields : List (String × Json)} (h : scanFields (n + 1) cs = .ok (fields, rest)) :
    ∀ f ∈ fields, Loadable f.2 := by
  unfold scanFields at h
  split at h
  · -- A key has to begin with a quote.
    cases h
  · -- Then the key, the colon and the value.
    rename_i n' tail hn
    cases hn
    split at h
    · cases h
    · rename_i key rest' hkey
      split at h
      · rename_i rest'' hcolon
        cases hscan : scanOnce n (skipSpace rest'') with
        | error e =>
          rw [hscan] at h
          cases h
        | ok found =>
          have hvalue := ih.once _ _ _ hscan
          rw [hscan] at h
          dsimp only [bind, Except.bind] at h
          split at h
          · -- The brace: this was the last field.
            cases h
            simpa using hvalue
          · -- A comma: more fields follow.
            rename_i rest₃ hskip
            cases hmore : scanFields n (skipSpace rest₃) with
            | error e =>
              rw [hmore] at h
              cases h
            | ok more =>
              rw [hmore] at h
              cases h
              exact List.forall_mem_cons.mpr ⟨hvalue, ih.fields _ _ _ hmore⟩
          · cases h
      · cases h
  · cases h

omit [LawfulFloatReader] in
theorem returnsLoadable_zero : ReturnsLoadable 0 where
  once _ _ _ h := by cases h
  items _ _ _ h := by cases h
  fields _ _ _ h := by cases h

theorem returnsLoadable (n : Nat) : ReturnsLoadable n := by
  induction n with
  | zero => exact returnsLoadable_zero
  | succ n ih =>
    exact ⟨fun _ _ _ => loadable_of_scanOnce ih, fun _ _ _ => loadable_of_scanItems ih,
      fun _ _ _ => loadable_of_scanFields ih⟩

/-- **Range**: the loadable values are what `json.loads` returns. -/
theorem loadable_iff {v : Json} : Loadable v ↔ ∃ s, loads s = .ok v := by
  refine ⟨fun h => ⟨dumps v, loads_dumps h⟩, ?_⟩
  rintro ⟨s, h⟩
  unfold loads at h
  dsimp only at h
  cases hscan : scanOnce (2 * (skipSpace s.toList).length + 2) (skipSpace s.toList) with
  | error e =>
    rw [hscan] at h
    cases h
  | ok found =>
    rw [hscan] at h
    dsimp only [bind, Except.bind] at h
    split_ifs at h
    cases h
    exact (returnsLoadable _).once _ _ _ hscan

end Values

end AiK8sGateway.Foundations
