import Mathlib.Data.List.DropRight
import Mathlib.Data.String.Basic

/-!
# Python Text: `str.isspace`, `str.strip`, `str.lower`, `str.startswith`, `repr`

Python strings are Lean strings, so a string with a lone surrogate in it is outside
the model.  The algorithms are CPython's.  The rows of the Unicode character database
that they consult are generated tables, different in every Python release, so they are
a parameter: `CharTables` holds the tables together with the facts that are true of
every edition of the database.

## Main results

- `strip_lower_eq_lower_iff`: lower-casing neither adds nor removes surrounding
  whitespace.
- `lower_of_ascii`: on ASCII text `str.lower` is `Char.toLower` on every character.
-/

namespace AiK8sGateway.Foundations.PythonText

/-! ## Character tables -/

/-- `str.isspace` for one character: bidirectional class `WS`, `B` or `S`, or
    category `Zs`.  The 29 code points have not changed since Unicode 6.3. -/
def isSpace (c : Char) : Bool :=
  let n := c.toNat
  (0x09 ≤ n && n ≤ 0x0d) || (0x1c ≤ n && n ≤ 0x20) || n == 0x85 || n == 0xa0 ||
    n == 0x1680 || (0x2000 ≤ n && n ≤ 0x200a) || n == 0x2028 || n == 0x2029 ||
    n == 0x202f || n == 0x205f || n == 0x3000

/-- ASCII membership. -/
def isAscii (c : Char) : Bool := c.toNat < 128

/-- The generated tables of CPython's `unicodedata` that the string methods read. -/
class CharTables where
  /-- Full lower-case mapping of one character (without the final-sigma context). -/
  toLower : Char → List Char
  /-- Property `Cased`. -/
  isCased : Char → Bool
  /-- Property `Case_Ignorable`. -/
  isCaseIgnorable : Char → Bool
  /-- `str.isprintable` for one character. -/
  isPrintable : Char → Bool
  /-- Value of a decimal digit (category `Nd`). -/
  toDecimal : Char → Option Nat
  toLower_ascii : ∀ c, isAscii c = true → toLower c = [c.toLower]
  toLower_space : ∀ c, isSpace c = true → toLower c = [c]
  toLower_ne_nil : ∀ c, toLower c ≠ []
  toLower_noSpace : ∀ c, isSpace c = false → ∀ d ∈ toLower c, isSpace d = false
  toDecimal_ascii : ∀ c, isAscii c = true →
    toDecimal c = if c.isDigit then some (c.toNat - '0'.toNat) else none
  toDecimal_lt : ∀ c d, toDecimal c = some d → d < 10

/-! ## `str.strip` -/

/-- `str.strip()` on the characters. -/
def stripChars (cs : List Char) : List Char :=
  (cs.dropWhile isSpace).rdropWhile isSpace

/-- `str.strip()`. -/
def strip (s : String) : String := String.ofList (stripChars s.toList)

@[simp] theorem strip_toList (s : String) : (strip s).toList = stripChars s.toList := by
  simp [strip]

/-- No whitespace at either end. -/
def Trimmed (cs : List Char) : Prop :=
  (∀ c ∈ cs.head?, isSpace c = false) ∧ (∀ c ∈ cs.getLast?, isSpace c = false)

theorem dropWhile_eq_self_iff_head? (p : Char → Bool) (cs : List Char) :
    cs.dropWhile p = cs ↔ ∀ c ∈ cs.head?, p c = false := by
  cases cs with
  | nil => simp
  | cons c cs =>
    rw [List.dropWhile_eq_self_iff]
    simp

theorem rdropWhile_eq_self_iff_getLast? (p : Char → Bool) (cs : List Char) :
    cs.rdropWhile p = cs ↔ ∀ c ∈ cs.getLast?, p c = false := by
  rw [List.rdropWhile_eq_self_iff]
  cases cs with
  | nil => simp
  | cons c cs =>
    rw [List.getLast?_eq_getLast_of_ne_nil (List.cons_ne_nil c cs)]
    simp

/-- `strip` leaves a text alone exactly when it is trimmed. -/
theorem stripChars_eq_self_iff (cs : List Char) : stripChars cs = cs ↔ Trimmed cs := by
  unfold stripChars Trimmed
  constructor
  · intro h
    -- Both passes only remove, so if nothing is gone then neither removed anything.
    have hlen : cs.length ≤ (cs.dropWhile isSpace).length := by
      calc cs.length = ((cs.dropWhile isSpace).rdropWhile isSpace).length := by rw [h]
        _ ≤ (cs.dropWhile isSpace).length := (List.rdropWhile_prefix isSpace _).length_le
    have hdrop : cs.dropWhile isSpace = cs :=
      (List.dropWhile_suffix isSpace).eq_of_length_le hlen
    rw [hdrop] at h
    exact ⟨(dropWhile_eq_self_iff_head? _ _).mp hdrop, (rdropWhile_eq_self_iff_getLast? _ _).mp h⟩
  · rintro ⟨hhead, hlast⟩
    rw [(dropWhile_eq_self_iff_head? _ _).mpr hhead]
    exact (rdropWhile_eq_self_iff_getLast? _ _).mpr hlast

theorem strip_eq_self_iff (s : String) : strip s = s ↔ Trimmed s.toList := by
  rw [← stripChars_eq_self_iff, ← String.toList_inj, strip_toList]

/-- What is left after dropping a prefix of a list that starts well starts well. -/
theorem head?_dropWhile_not (p : Char → Bool) (cs : List Char) :
    ∀ c ∈ (cs.dropWhile p).head?, p c = false := by
  rw [← dropWhile_eq_self_iff_head?]
  exact List.dropWhile_idempotent p cs

/-- `strip` returns a trimmed text. -/
theorem stripChars_trimmed (cs : List Char) : Trimmed (stripChars cs) := by
  have hlast : ∀ c ∈ (stripChars cs).getLast?, isSpace c = false := by
    rw [← rdropWhile_eq_self_iff_getLast?]
    exact List.rdropWhile_idempotent isSpace _
  refine ⟨?_, hlast⟩
  intro c hc
  -- The first character survives the pass from the right, so it is the one the left pass left.
  have hpre : stripChars cs <+: cs.dropWhile isSpace := List.rdropWhile_prefix isSpace _
  obtain ⟨rest, hrest⟩ := hpre
  apply head?_dropWhile_not isSpace cs c
  rw [← hrest, List.head?_append]
  cases hs : stripChars cs with
  | nil => rw [hs] at hc; simp at hc
  | cons d ds => rw [hs] at hc; simpa using hc

@[simp] theorem strip_strip (s : String) : strip (strip s) = strip s := by
  rw [strip_eq_self_iff, strip_toList]
  exact stripChars_trimmed _

/-- A trimmed beginning is kept, and only what follows it is stripped. -/
theorem stripChars_append {pre : List Char} (hpre : Trimmed pre) (hne : pre ≠ [])
    (cs : List Char) : stripChars (pre ++ cs) = pre ++ cs.rdropWhile isSpace := by
  have hdrop : (pre ++ cs).dropWhile isSpace = pre ++ cs := by
    rw [dropWhile_eq_self_iff_head?, List.head?_append_of_ne_nil _ hne]
    exact hpre.1
  have hlast : pre.reverse.dropWhile isSpace = pre.reverse := by
    rw [dropWhile_eq_self_iff_head?, List.head?_reverse]
    exact hpre.2
  unfold stripChars
  rw [hdrop, List.rdropWhile, List.rdropWhile, List.reverse_append, List.dropWhile_append]
  split
  · rename_i hspaces
    rw [hlast, List.isEmpty_iff.mp hspaces]
    simp
  · simp

/-! ## `str.lower` -/

section Lower

variable [CharTables]

open CharTables

/-- CPython's `handle_capital_sigma`: is `Σ` in the final position of a word, given
    the characters before it (nearest first) and after it? -/
def finalSigma (before after : List Char) : Bool :=
  (match before.dropWhile isCaseIgnorable with
    | [] => false
    | c :: _ => isCased c) &&
  (match after.dropWhile isCaseIgnorable with
    | [] => true
    | c :: _ => !isCased c)

/-- The lower-case image of `c` between `before` (nearest first) and `after`. -/
def lowerAt (before : List Char) (c : Char) (after : List Char) : List Char :=
  -- The only character whose image depends on its neighbours.
  if c = 'Σ' then [if finalSigma before after then 'ς' else 'σ'] else toLower c

/-- The loop of `str.lower` over the characters. -/
def lowerFrom (before : List Char) : List Char → List Char
  | [] => []
  | c :: after => lowerAt before c after ++ lowerFrom (c :: before) after

/-- `str.lower()`. -/
def lower (s : String) : String := String.ofList (lowerFrom [] s.toList)

@[simp] theorem lower_toList (s : String) : (lower s).toList = lowerFrom [] s.toList := by
  simp [lower]

theorem lowerAt_ne_nil (before : List Char) (c : Char) (after : List Char) :
    lowerAt before c after ≠ [] := by
  unfold lowerAt
  split
  · simp
  · exact toLower_ne_nil c

theorem lowerAt_space (before : List Char) {c : Char} (after : List Char)
    (hc : isSpace c = true) : lowerAt before c after = [c] := by
  unfold lowerAt
  have hne : c ≠ 'Σ' := by
    rintro rfl
    exact absurd hc (by decide)
  rw [if_neg hne]
  exact toLower_space c hc

theorem lowerAt_noSpace (before : List Char) {c : Char} (after : List Char)
    (hc : isSpace c = false) : ∀ d ∈ lowerAt before c after, isSpace d = false := by
  intro d hd
  unfold lowerAt at hd
  split at hd
  · simp only [List.mem_singleton] at hd
    subst hd
    split <;> decide
  · exact toLower_noSpace c hc d hd

/-- The characters of an image are all whitespace or all not, as the character was. -/
theorem isSpace_of_mem_lowerAt {before after : List Char} {c d : Char}
    (hd : d ∈ lowerAt before c after) : isSpace d = isSpace c := by
  cases hc : isSpace c with
  | true =>
    rw [lowerAt_space before after hc, List.mem_singleton] at hd
    rw [hd, hc]
  | false => exact lowerAt_noSpace before after hc d hd

theorem lowerFrom_ne_nil (before : List Char) {cs : List Char} (h : cs ≠ []) :
    lowerFrom before cs ≠ [] := by
  cases cs with
  | nil => exact absurd rfl h
  | cons c cs => simp [lowerFrom, lowerAt_ne_nil]

/-- The first character of the lower-cased text is whitespace iff the first one was. -/
theorem lowerFrom_head? (before cs : List Char) :
    (lowerFrom before cs).head?.map isSpace = cs.head?.map isSpace := by
  cases cs with
  | nil => rfl
  | cons c cs =>
    simp only [lowerFrom, List.head?_append_of_ne_nil _ (lowerAt_ne_nil before c cs),
      List.head?_cons, Option.map_some]
    rw [List.head?_eq_some_head (lowerAt_ne_nil before c cs), Option.map_some,
      isSpace_of_mem_lowerAt (List.head_mem (lowerAt_ne_nil before c cs))]

/-- The last character of the lower-cased text is whitespace iff the last one was. -/
theorem lowerFrom_getLast? (before cs : List Char) :
    (lowerFrom before cs).getLast?.map isSpace = cs.getLast?.map isSpace := by
  -- The image of the last character ends the text, whatever stands before it.
  induction cs generalizing before with
  | nil => rfl
  | cons c cs ih =>
    cases cs with
    | nil =>
      have hne := lowerAt_ne_nil before c []
      simp only [lowerFrom, List.append_nil, List.getLast?_singleton, Option.map_some]
      rw [List.getLast?_eq_getLast_of_ne_nil hne, Option.map_some,
        isSpace_of_mem_lowerAt (List.getLast_mem hne)]
    | cons d ds =>
      have hne : lowerFrom (c :: before) (d :: ds) ≠ [] := lowerFrom_ne_nil _ (by simp)
      calc (lowerFrom before (c :: d :: ds)).getLast?.map isSpace
          = (lowerFrom (c :: before) (d :: ds)).getLast?.map isSpace := by
            rw [lowerFrom, List.getLast?_append_of_ne_nil _ hne]
        _ = (d :: ds).getLast?.map isSpace := ih _
        _ = (c :: d :: ds).getLast?.map isSpace := by rw [List.getLast?_cons_cons]

omit [CharTables] in
theorem forall_mem_option_iff_map {o : Option Char} :
    (∀ c ∈ o, isSpace c = false) ↔ o.map isSpace ≠ some true := by
  cases o with
  | none => simp
  | some c => simp

/-- Lower-casing neither adds nor removes surrounding whitespace. -/
theorem trimmed_lowerFrom_iff (before cs : List Char) :
    Trimmed (lowerFrom before cs) ↔ Trimmed cs := by
  unfold Trimmed
  rw [forall_mem_option_iff_map, forall_mem_option_iff_map, forall_mem_option_iff_map,
    forall_mem_option_iff_map, lowerFrom_head?, lowerFrom_getLast?]

/-- The lower-cased text is trimmed iff the text was. -/
theorem strip_lower_eq_lower_iff (s : String) : strip (lower s) = lower s ↔ strip s = s := by
  rw [strip_eq_self_iff, strip_eq_self_iff, lower_toList, trimmed_lowerFrom_iff]

theorem lowerFrom_of_ascii (before cs : List Char) (h : ∀ c ∈ cs, isAscii c = true) :
    lowerFrom before cs = cs.map Char.toLower := by
  induction cs generalizing before with
  | nil => rfl
  | cons c cs ih =>
    have hc := h c (List.mem_cons_self ..)
    have hne : c ≠ 'Σ' := by
      rintro rfl
      exact absurd hc (by decide)
    rw [lowerFrom, lowerAt, if_neg hne, toLower_ascii c hc,
      ih (c :: before) (fun d hd => h d (List.mem_cons_of_mem _ hd))]
    rfl

/-- On ASCII text `str.lower` maps every character by `Char.toLower`. -/
theorem lower_of_ascii (s : String) (h : s.toList.all isAscii = true) :
    lower s = String.ofList (s.toList.map Char.toLower) := by
  unfold lower
  rw [lowerFrom_of_ascii [] s.toList (by simpa using h)]

end Lower

/-! ## `str.startswith` and `repr` -/

/-- `s.startswith(prefix)`. -/
def startsWith (s pre : String) : Bool := pre.toList.isPrefixOf s.toList

theorem startsWith_iff {s pre : String} :
    startsWith s pre = true ↔ ∃ rest, s.toList = pre.toList ++ rest := by
  rw [startsWith, List.isPrefixOf_iff_prefix]
  constructor
  · rintro ⟨rest, hrest⟩
    exact ⟨rest, hrest.symm⟩
  · rintro ⟨rest, hrest⟩
    exact ⟨rest, hrest.symm⟩

/-- Stripping keeps a trimmed prefix. -/
theorem startsWith_strip {s pre : String} (hpre : Trimmed pre.toList) (hne : pre.toList ≠ [])
    (h : startsWith s pre = true) : startsWith (strip s) pre = true := by
  obtain ⟨rest, hrest⟩ := startsWith_iff.mp h
  apply startsWith_iff.mpr
  exact ⟨rest.rdropWhile isSpace, by rw [strip_toList, hrest, stripChars_append hpre hne]⟩

/-- `digits` lower-case hexadecimal digits of `n`, most significant first. -/
def hexDigits : Nat → Nat → List Char
  | 0, _ => []
  | digits + 1, n => hexDigits digits (n / 16) ++ [Nat.digitChar (n % 16)]

section Repr

variable [CharTables]

/-- One character inside the quotes of `repr`. -/
def reprChar (quote c : Char) : List Char :=
  let n := c.toNat
  if c = quote ∨ c = '\\' then ['\\', c]
  else if c = '\t' then ['\\', 't']
  else if c = '\n' then ['\\', 'n']
  else if c = '\r' then ['\\', 'r']
  else if n < 0x20 ∨ n = 0x7f then '\\' :: 'x' :: hexDigits 2 n
  else if n < 0x7f ∨ CharTables.isPrintable c then [c]
  else if n ≤ 0xff then '\\' :: 'x' :: hexDigits 2 n
  else if n ≤ 0xffff then '\\' :: 'u' :: hexDigits 4 n
  else '\\' :: 'U' :: hexDigits 8 n

/-- `repr` of a string: single quotes, unless it holds a single and no double quote. -/
def quoted (s : String) : String :=
  let single := Char.ofNat 0x27
  let double := Char.ofNat 0x22
  -- Single quotes are preferred.
  let quote := if s.toList.contains single && !s.toList.contains double then double else single
  String.ofList (quote :: s.toList.flatMap (reprChar quote) ++ [quote])

end Repr

/-! ## ASCII-only tables

The smallest tables that satisfy the laws: every non-ASCII character is uncased
and maps to itself.  They agree with every edition of the database on ASCII text. -/

/-- `Char.toLower` moves the ASCII capitals up by 32 and nothing else. -/
theorem toLower_toNat (c : Char) :
    c.toLower.toNat = if 65 ≤ c.toNat ∧ c.toNat ≤ 90 then c.toNat + 32 else c.toNat := by
  unfold Char.toLower
  simp only [ge_iff_le, UInt32.le_iff_toNat_le, Char.toNat_val, Char.reduceVal, UInt32.reduceToNat]
  split
  · rename_i h
    simp only [Char.toNat, UInt32.toNat_add]
    have hval : c.val.toNat = c.toNat := rfl
    rw [hval]
    have hoff : ((97 : UInt32) - 65).toNat = 32 := rfl
    omega
  · rfl

theorem isSpace_eq_of_toNat_eq {c d : Char} (h : c.toNat = d.toNat) : isSpace c = isSpace d := by
  rw [Char.toNat_inj.mp h]

/-- A whitespace character is its own lower case. -/
theorem toLower_of_isSpace {c : Char} (h : isSpace c = true) : c.toLower = c := by
  apply Char.toNat_inj.mp
  rw [toLower_toNat, if_neg]
  simp only [isSpace, Bool.or_eq_true, Bool.and_eq_true, decide_eq_true_eq, beq_iff_eq] at h
  omega

/-- The lower case of a character that is not whitespace is not whitespace. -/
theorem isSpace_toLower {c : Char} (h : isSpace c = false) : isSpace c.toLower = false := by
  by_cases hup : 65 ≤ c.toNat ∧ c.toNat ≤ 90
  · have hnat := toLower_toNat c
    rw [if_pos hup] at hnat
    simp only [isSpace, Bool.or_eq_false_iff, Bool.and_eq_false_iff, decide_eq_false_iff_not,
      beq_eq_false_iff_ne]
    omega
  · rw [isSpace_eq_of_toNat_eq (d := c), h]
    rw [toLower_toNat, if_neg hup]

/-- The ASCII-only character tables. -/
@[reducible] def asciiTables : CharTables where
  toLower c := if isAscii c then [c.toLower] else [c]
  isCased c := isAscii c && c.isAlpha
  isCaseIgnorable c := isAscii c && ([0x27, 0x2e, 0x3a, 0x5e, 0x60].contains c.toNat)
  isPrintable c := isAscii c && decide (0x20 ≤ c.toNat) && decide (c.toNat < 0x7f)
  toDecimal c := if isAscii c && c.isDigit then some (c.toNat - '0'.toNat) else none
  toLower_ascii c hc := if_pos hc
  toLower_space c hc := by split <;> simp [toLower_of_isSpace hc]
  toLower_ne_nil c := by split <;> simp
  toLower_noSpace c hc := by
    intro d hd
    split at hd <;> rw [List.mem_singleton] at hd <;> subst hd
    · exact isSpace_toLower hc
    · exact hc
  toDecimal_ascii c hc := by simp [hc]
  toDecimal_lt c d h := by
    split at h
    · rename_i hdigit
      simp only [Bool.and_eq_true, Char.isDigit, decide_eq_true_eq, UInt32.le_iff_toNat_le] at hdigit
      have hle : c.toNat ≤ 57 := hdigit.2.2
      have hd : c.toNat - '0'.toNat = d := Option.some.inj h
      have hzero : '0'.toNat = 48 := rfl
      omega
    · exact absurd h (by simp)

end AiK8sGateway.Foundations.PythonText
