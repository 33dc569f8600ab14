import AiK8sGateway.Foundations.PythonRepr

/-!
# JSON Text

`json.dumps` with its defaults.  Everything outside printable ASCII is escaped, so the
text has no newline and is one byte for each character.

## Main results

- `dumps_closed`: what the text of a value inherits from the texts of its strings.
- `printable_dumps`: the text of a value is printable ASCII.
- `newline_notMem_utf8`: printable text has no newline byte.
-/

namespace AiK8sGateway.Foundations

open PythonText

/-! ## Encoding -/

/-- `\uXXXX`. -/
def unicodeEscape (n : Nat) : List Char := '\\' :: 'u' :: hexDigits 4 n

/-- A character that `ensure_ascii` leaves as it is, apart from the quote and the
    backslash. -/
def isPrintableAscii (c : Char) : Bool := 0x20 ≤ c.toNat && c.toNat ≤ 0x7e

/-- One character under `ensure_ascii`. -/
def escapeAscii (c : Char) : List Char :=
  if c = '"' then ['\\', '"']
  else if c = '\\' then ['\\', '\\']
  else if c = '\n' then ['\\', 'n']
  else if c = '\r' then ['\\', 'r']
  else if c = '\t' then ['\\', 't']
  else if c = '\x08' then ['\\', 'b']
  else if c = '\x0c' then ['\\', 'f']
  else if isPrintableAscii c then [c]
  else if c.toNat < 0x10000 then unicodeEscape c.toNat
  else
    -- A surrogate pair.
    unicodeEscape (0xd800 + (c.toNat - 0x10000) / 0x400 % 0x400) ++
      unicodeEscape (0xdc00 + (c.toNat - 0x10000) % 0x400)

/-- `encode_basestring_ascii`. -/
def encodeString (s : String) : String :=
  String.ofList ('"' :: s.toList.flatMap escapeAscii ++ ['"'])

/-- `floatstr`. -/
def floatText : PyFloat → String
  | .nan => "NaN"
  | .inf neg => if neg then "-Infinity" else "Infinity"
  | x => x.repr

/-- `json.dumps`. -/
def dumps : Json → String
  | .null => "null"
  | .bool b => if b then "true" else "false"
  | .int n => toString n
  | .float x => floatText x
  | .str s => encodeString s
  | .arr items => "[" ++ dumpsItems items ++ "]"
  | .obj fields => "\x7b" ++ dumpsFields fields ++ "\x7d"
where
  dumpsItems : List Json → String
    | [] => ""
    | [v] => dumps v
    | v :: w :: rest => dumps v ++ ", " ++ dumpsItems (w :: rest)
  dumpsFields : List (String × Json) → String
    | [] => ""
    | [(k, v)] => encodeString k ++ ": " ++ dumps v
    | (k, v) :: f :: rest =>
      encodeString k ++ ": " ++ dumps v ++ ", " ++ dumpsFields (f :: rest)

example : dumps (.obj [("a\n", .arr [.int 1, .null]), ("é", .str "\"")]) =
    "\x7b\"a\\n\": [1, null], \"\\u00e9\": \"\\\"\"\x7d" := by decide

/-- The bytes of a text in UTF-8. -/
def utf8 (s : String) : List UInt8 := s.toList.flatMap String.utf8EncodeChar

/-- `b"\n"`. -/
def newline : UInt8 := 0x0a

/-! ## Inherited properties -/

/-- The texts that `dumps` writes of its own, numbers apart. -/
def literalTexts : List String :=
  ["", ", ", ": ", "[", "]", "\x7b", "\x7d", "null", "true", "false", "NaN", "Infinity",
    "-Infinity"]

/-- All strings and keys in a value satisfy `p`. -/
def Json.allStrings (p : String → Bool) : Json → Bool
  | .str s => p s
  | .arr items => allItems items
  | .obj fields => allFields fields
  | _ => true
where
  allItems : List Json → Bool
    | [] => true
    | v :: rest => v.allStrings p && allItems rest
  allFields : List (String × Json) → Bool
    | [] => true
    | (k, v) :: rest => p k && v.allStrings p && allFields rest

mutual

theorem allStrings_true : (v : Json) → v.allStrings (fun _ => true) = true
  | .null | .bool _ | .int _ | .float _ | .str _ => rfl
  | .arr items => allItems_true items
  | .obj fields => allFields_true fields

theorem allItems_true : (items : List Json) →
    Json.allStrings.allItems (fun _ => true) items = true
  | [] => rfl
  | v :: rest => by
    rw [Json.allStrings.allItems, allStrings_true v, allItems_true rest]
    rfl

theorem allFields_true : (fields : List (String × Json)) →
    Json.allStrings.allFields (fun _ => true) fields = true
  | [] => rfl
  | (k, v) :: rest => by
    rw [Json.allStrings.allFields, allStrings_true v, allFields_true rest]
    rfl

end

/-- A property of texts that appending keeps, and that literals, numbers and encoded strings
    with `p` have. -/
structure ClosedText (p : String → Bool) (P : String → Prop) : Prop where
  append : ∀ {s t}, P s → P t → P (s ++ t)
  literal : ∀ s ∈ literalTexts, P s
  number : ∀ s : String, (∀ c ∈ s.toList, isNumeric c = true) → P s
  string : ∀ s, p s = true → P (encodeString s)

theorem numeric_natDigits (n : Nat) : ∀ c ∈ natDigits n, isNumeric c = true :=
  List.all_eq_true.mp (natDigits_textOf n).2

theorem numeric_reprPositive (q : ℚ) : ∀ c ∈ (reprPositive q).toList, isNumeric c = true :=
  List.all_eq_true.mp (reprPositive_textOf q).2

section Closed

variable {p : String → Bool} {P : String → Prop} (h : ClosedText p P)
include h

theorem ClosedText.int (n : Int) : P (toString n) := by
  have hnat : ∀ m : Nat, P (Nat.repr m) := by
    intro m
    refine h.number _ ?_
    have hdigits : (Nat.repr m).toList = natDigits m := by simp [Nat.repr, natDigits]
    rw [hdigits]
    exact numeric_natDigits m
  cases n with
  | ofNat m => exact hnat m
  | negSucc m => exact h.append (h.number "-" (List.all_eq_true.mp (by decide))) (hnat (m + 1))

theorem ClosedText.float (x : PyFloat) : P (floatText x) := by
  cases x with
  | nan => exact h.literal _ (by decide)
  | negZero => exact h.number _ (List.all_eq_true.mp (by decide))
  | inf neg => cases neg <;> exact h.literal _ (by decide)
  | finite q =>
    unfold floatText PyFloat.repr
    dsimp only
    split_ifs
    · exact h.number _ (List.all_eq_true.mp (by decide))
    · exact h.append (h.number "-" (List.all_eq_true.mp (by decide)))
        (h.number _ (numeric_reprPositive (-q)))
    · exact h.number _ (numeric_reprPositive q)

mutual

/-- **Inherited properties**: what appending keeps, and literals, numbers and the encoded
    strings have, the text of the value has. -/
theorem dumps_closed : (v : Json) → v.allStrings p = true → P (dumps v)
  | .null, _ => by
    rw [dumps]
    exact h.literal _ (by decide)
  | .bool b, _ => by
    rw [dumps]
    cases b <;> exact h.literal _ (by decide)
  | .int n, _ => by
    rw [dumps]
    exact h.int n
  | .float x, _ => by
    rw [dumps]
    exact h.float x
  | .str s, hs => by
    rw [dumps]
    exact h.string s hs
  | .arr items, hitems => by
    rw [dumps]
    exact h.append (h.append (h.literal _ (by decide)) (dumpsItems_closed items hitems))
      (h.literal _ (by decide))
  | .obj fields, hfields => by
    rw [dumps]
    exact h.append (h.append (h.literal _ (by decide)) (dumpsFields_closed fields hfields))
      (h.literal _ (by decide))

theorem dumpsItems_closed : (items : List Json) → Json.allStrings.allItems p items = true →
    P (dumps.dumpsItems items)
  | [], _ => by
    rw [dumps.dumpsItems]
    exact h.literal _ (by decide)
  | [v], hv => by
    simp only [Json.allStrings.allItems, Bool.and_true] at hv
    rw [dumps.dumpsItems]
    exact dumps_closed v hv
  | v :: w :: rest, hitems => by
    rw [Json.allStrings.allItems, Bool.and_eq_true] at hitems
    rw [dumps.dumpsItems]
    exact h.append (h.append (dumps_closed v hitems.1) (h.literal _ (by decide)))
      (dumpsItems_closed (w :: rest) hitems.2)

theorem dumpsFields_closed : (fields : List (String × Json)) →
    Json.allStrings.allFields p fields = true → P (dumps.dumpsFields fields)
  | [], _ => by
    rw [dumps.dumpsFields]
    exact h.literal _ (by decide)
  | [(k, v)], hv => by
    simp only [Json.allStrings.allFields, Bool.and_true, Bool.and_eq_true] at hv
    rw [dumps.dumpsFields]
    exact h.append (h.append (h.string k hv.1) (h.literal _ (by decide))) (dumps_closed v hv.2)
  | (k, v) :: f :: rest, hfields => by
    rw [Json.allStrings.allFields, Bool.and_eq_true, Bool.and_eq_true] at hfields
    rw [dumps.dumpsFields]
    exact h.append (h.append (h.append (h.append (h.string k hfields.1.1) (h.literal _ (by decide)))
      (dumps_closed v hfields.1.2)) (h.literal _ (by decide)))
      (dumpsFields_closed (f :: rest) hfields.2)

end

end Closed

/-! ## Printable text -/

/-- The text is printable ASCII. -/
def Printable (s : String) : Prop := ∀ c ∈ s.toList, isPrintableAscii c = true

theorem Printable.append {s t : String} (hs : Printable s) (ht : Printable t) :
    Printable (s ++ t) := by
  intro c hc
  rw [String.toList_append, List.mem_append] at hc
  exact hc.elim (hs c) (ht c)

instance (s : String) : Decidable (Printable s) :=
  decidable_of_iff (s.toList.all isPrintableAscii = true) List.all_eq_true

theorem isPrintableAscii_of_isNumeric {c : Char} (h : isNumeric c = true) :
    isPrintableAscii c = true := by
  simp only [isNumeric, Char.isDigit, Bool.or_eq_true, Bool.and_eq_true, decide_eq_true_eq,
    List.mem_cons, List.not_mem_nil, or_false, UInt32.le_iff_toNat_le] at h
  rcases h with ⟨hlow, hhigh⟩ | rfl | rfl | rfl | rfl
  · have hdigit : 48 ≤ c.toNat ∧ c.toNat ≤ 57 := ⟨hlow, hhigh⟩
    simp only [isPrintableAscii, Bool.and_eq_true, decide_eq_true_eq]
    omega
  all_goals decide

theorem printable_hexDigits (digits n : Nat) :
    ∀ c ∈ hexDigits digits n, isPrintableAscii c = true := by
  have hhex : ∀ k < 16, isPrintableAscii (Nat.digitChar k) = true := by decide
  induction digits generalizing n with
  | zero => exact nofun
  | succ digits ih =>
    intro c hc
    rcases List.mem_append.mp hc with hc | hc
    · exact ih (n / 16) c hc
    · rw [List.mem_singleton.mp hc]
      exact hhex _ (Nat.mod_lt _ (by omega))

theorem printable_unicodeEscape (n : Nat) : ∀ c ∈ unicodeEscape n, isPrintableAscii c = true := by
  intro c hc
  simp only [unicodeEscape, List.mem_cons] at hc
  rcases hc with rfl | rfl | hc
  · decide
  · decide
  · exact printable_hexDigits 4 n c hc

/-- Whatever a character is, its escape is printable. -/
theorem printable_escapeAscii (c : Char) : ∀ d ∈ escapeAscii c, isPrintableAscii d = true := by
  unfold escapeAscii
  -- The seven characters with an escape of their own.
  iterate 7
    refine iteInduction (motive := fun cs => ∀ d ∈ cs, isPrintableAscii d = true)
      (fun _ => List.all_eq_true.mp (by decide)) fun _ => ?_
  split_ifs with hprintable
  · intro d hd
    rwa [List.mem_singleton.mp hd]
  · exact printable_unicodeEscape _
  · intro d hd
    rcases List.mem_append.mp hd with hd | hd
    · exact printable_unicodeEscape _ d hd
    · exact printable_unicodeEscape _ d hd

theorem printable_encodeString (s : String) : Printable (encodeString s) := by
  intro c hc
  rw [encodeString, String.toList_ofList] at hc
  simp only [List.cons_append, List.mem_cons, List.mem_append, List.mem_flatMap,
    List.not_mem_nil, or_false] at hc
  rcases hc with rfl | ⟨d, -, hd⟩ | rfl
  · decide
  · exact printable_escapeAscii d c hd
  · decide

/-- **Printable text**: `json.dumps` emits printable ASCII only. -/
theorem printable_dumps (v : Json) : Printable (dumps v) := by
  refine dumps_closed ⟨Printable.append, by decide, ?_, fun s _ => printable_encodeString s⟩ v
    (allStrings_true v)
  exact fun s hs c hc => isPrintableAscii_of_isNumeric (hs c hc)

/-! ## Bytes -/

/-- One byte for each character of ASCII text. -/
theorem flatMap_utf8EncodeChar {cs : List Char} (h : ∀ c ∈ cs, c.toNat < 0x80) :
    cs.flatMap String.utf8EncodeChar = cs.map fun c => UInt8.ofNat c.toNat := by
  rw [List.map_eq_flatMap]
  refine List.flatMap_congr fun c hc => ?_
  have hlt := h c hc
  have hval : c.val.toNat = c.toNat := rfl
  unfold String.utf8EncodeChar
  rw [hval, if_pos (by omega)]

theorem toNat_lt_of_printable {c : Char} (h : isPrintableAscii c = true) : c.toNat < 0x80 := by
  simp only [isPrintableAscii, Bool.and_eq_true, decide_eq_true_eq] at h
  omega

/-- Printable text has no newline byte. -/
theorem newline_notMem_utf8 {s : String} (h : Printable s) : newline ∉ utf8 s := by
  intro hmem
  obtain ⟨c, hc, hbyte⟩ := List.mem_flatMap.mp hmem
  have hprintable := h c hc
  simp only [isPrintableAscii, Bool.and_eq_true, decide_eq_true_eq] at hprintable
  have hval : c.val.toNat = c.toNat := rfl
  -- One byte, the code of the character.
  have hbytes : String.utf8EncodeChar c = [UInt8.ofNat c.toNat] := by
    unfold String.utf8EncodeChar
    rw [hval, if_pos (by omega)]
  rw [hbytes, List.mem_singleton] at hbyte
  have hcode : newline.toNat = c.toNat % 256 := by
    rw [hbyte]
    exact UInt8.toNat_ofNat'
  have hten : newline.toNat = 10 := rfl
  omega

end AiK8sGateway.Foundations
