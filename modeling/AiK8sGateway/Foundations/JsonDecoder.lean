import AiK8sGateway.Foundations.PythonValue

/-!
# Decoding JSON Text

`json.loads` on a text: the scanner of `json.scanner` and the decoders of `json.decoder`
with their defaults.  They accept `NaN` and the two infinities, refuse control characters
in strings, and keep the last of several values under one key.

The recursion is bounded by a number that the length of the text never reaches.
-/

namespace AiK8sGateway.Foundations

/-! ## Results -/

/-- How `json.loads` fails. -/
inductive LoadsError where
  | jsonDecodeError
  /-- An integer with more digits than `int` converts. -/
  | valueError
  /-- The bound of the recursion. -/
  | bounded
  deriving DecidableEq

/-- `float` of a number of JSON. -/
class FloatReader where
  read : String → PyFloat

/-! ## Strings -/

/-- A quantifier over a list of characters is decided on the list. -/
@[reducible] def decidableForallChars (p : Char → Prop) [DecidablePred p] (cs : List Char) :
    Decidable (∀ c ∈ cs, p c) := List.decidableBAll p cs

/-- `WHITESPACE`: blanks, tabs and line breaks. -/
def isJsonSpace (c : Char) : Bool := c ∈ [' ', '\t', '\n', '\r']

/-- The text after whitespace. -/
def skipSpace (cs : List Char) : List Char := cs.dropWhile isJsonSpace

/-- The value of a hexadecimal digit. -/
def hexValue? (c : Char) : Option Nat :=
  if c.isDigit then some (c.toNat - '0'.toNat)
  else if 'a' ≤ c ∧ c ≤ 'f' then some (c.toNat - 'a'.toNat + 10)
  else if 'A' ≤ c ∧ c ≤ 'F' then some (c.toNat - 'A'.toNat + 10)
  else none

/-- `_decode_uXXXX`: four hexadecimal digits. -/
def scanHex : List Char → Option (Nat × List Char)
  | a :: b :: c :: d :: rest => do
    let a ← hexValue? a
    let b ← hexValue? b
    let c ← hexValue? c
    let d ← hexValue? d
    return (((a * 16 + b) * 16 + c) * 16 + d, rest)
  | _ => none

/-- `BACKSLASH`. -/
def backslash : List (Char × Char) :=
  [('"', '"'), ('\\', '\\'), ('/', '/'), ('b', '\x08'), ('f', '\x0c'), ('n', '\n'), ('r', '\r'),
    ('t', '\t')]

/-- The second half of a surrogate pair, if it comes next. -/
def scanLowSurrogate : List Char → Option (Nat × List Char)
  | '\\' :: 'u' :: rest =>
    (scanHex rest).filter fun (low, _) => 0xdc00 ≤ low && low ≤ 0xdfff
  | _ => none

/-- The character that four hexadecimal digits stand for, with the escape that may belong
    to them.  Half of a surrogate pair is no character of Lean's, and becomes `U+FFFD`. -/
def surrogate (n : Nat) (rest : List Char) : Char × List Char :=
  if 0xd800 ≤ n ∧ n ≤ 0xdbff then
    match scanLowSurrogate rest with
    | some (low, rest) => (Char.ofNat (0x10000 + ((n - 0xd800) * 0x400 + (low - 0xdc00))), rest)
    | none => ('\ufffd', rest)
  else if 0xdc00 ≤ n ∧ n ≤ 0xdfff then ('\ufffd', rest)
  else (Char.ofNat n, rest)

/-- One escape, after its backslash. -/
def scanEscape : List Char → Option (Char × List Char)
  | [] => none
  | c :: rest =>
    if c = 'u' then (scanHex rest).map fun x => surrogate x.1 x.2
    else (backslash.lookup c).map (·, rest)

theorem length_of_scanHex {cs rest : List Char} {n : Nat} (h : scanHex cs = some (n, rest)) :
    rest.length < cs.length := by
  unfold scanHex at h
  split at h
  · simp only [Option.bind_eq_bind, Option.bind_eq_some_iff, Option.pure_def,
      Option.some.injEq, Prod.mk.injEq] at h
    obtain ⟨_, _, _, _, _, _, _, _, _, rfl⟩ := h
    simp only [List.length_cons]
    omega
  · cases h

theorem length_of_surrogate (n : Nat) (cs : List Char) :
    (surrogate n cs).2.length ≤ cs.length := by
  unfold surrogate
  split_ifs
  · split
    · rename_i low rest hlow
      unfold scanLowSurrogate at hlow
      split at hlow
      · have hhex := length_of_scanHex (Option.filter_eq_some_iff.mp hlow).1
        simp only [List.length_cons]
        omega
      · cases hlow
    · exact le_refl _
  · exact le_refl _
  · exact le_refl _

theorem length_of_scanEscape {cs rest : List Char} {c : Char}
    (h : scanEscape cs = some (c, rest)) : rest.length < cs.length := by
  unfold scanEscape at h
  split at h
  · cases h
  · split_ifs at h
    · obtain ⟨⟨n, rest'⟩, hhex, heq⟩ := Option.map_eq_some_iff.mp h
      have hlen := length_of_scanHex hhex
      have hle : (surrogate n rest').2.length ≤ rest'.length := length_of_surrogate n rest'
      rw [show surrogate n rest' = (c, rest) from heq] at hle
      simp only [List.length_cons] at hle ⊢
      omega
    · obtain ⟨_, -, heq⟩ := Option.map_eq_some_iff.mp h
      cases heq
      exact Nat.lt_succ_self _

/-- `py_scanstring`, from the opening quote on. -/
def scanString : List Char → Option (List Char × List Char)
  | [] => none
  | c :: rest =>
    if c = '"' then some ([], rest)
    else if c = '\\' then
      match _h : scanEscape rest with
      | some (d, rest') => (scanString rest').map fun (cs, rest) => (d :: cs, rest)
      | none => none
    -- The strict mode refuses control characters.
    else if c.toNat < 0x20 then none
    else (scanString rest).map fun (cs, rest) => (c :: cs, rest)
termination_by cs => cs.length
decreasing_by
  · have hlen := length_of_scanEscape _h
    simp only [List.length_cons]
    omega
  · exact Nat.lt_succ_self _

/-! ## Constants and numbers -/

/-- The names of `_scan_once`, with their values. -/
def constants : List (String × Json) :=
  [("null", .null), ("true", .bool true), ("false", .bool false), ("NaN", .float .nan),
    ("Infinity", .float (.inf false)), ("-Infinity", .float (.inf true))]

/-- One of the names. -/
def scanConstant (cs : List Char) : Option (Json × List Char) :=
  constants.findSome? fun e => (cs.dropPrefix? e.1.toList).map (e.2, ·)

/-- What `NUMBER_RE` matches: its three groups, the sign apart. -/
structure NumberToken where
  sign : List Char
  digits : List Char
  frac : List Char
  exp : List Char

/-- The text of the match. -/
def NumberToken.text (t : NumberToken) : List Char := t.sign ++ t.digits ++ t.frac ++ t.exp

/-- `-?`. -/
def scanSign : List Char → List Char × List Char
  | '-' :: rest => (['-'], rest)
  | cs => ([], cs)

/-- `0|[1-9][0-9]*`. -/
def scanInteger : List Char → Option (List Char × List Char)
  | [] => none
  | c :: rest =>
    if c = '0' then some (['0'], rest)
    else if c.isDigit then some ((c :: rest).span Char.isDigit)
    else none

/-- `(\.[0-9]+)?`. -/
def scanFrac : List Char → List Char × List Char
  | '.' :: rest =>
    let (digits, rest') := rest.span Char.isDigit
    if digits = [] then ([], '.' :: rest) else ('.' :: digits, rest')
  | cs => ([], cs)

/-- `[-+]?`. -/
def scanExpSign : List Char → List Char × List Char
  | c :: rest => if c = '-' ∨ c = '+' then ([c], rest) else ([], c :: rest)
  | [] => ([], [])

/-- `([eE][-+]?[0-9]+)?`. -/
def scanExp : List Char → List Char × List Char
  | [] => ([], [])
  | c :: rest =>
    if c = 'e' ∨ c = 'E' then
      let (sign, rest') := scanExpSign rest
      let (digits, rest'') := rest'.span Char.isDigit
      if digits = [] then ([], c :: rest) else (c :: sign ++ digits, rest'')
    else ([], c :: rest)

/-- `NUMBER_RE`. -/
def scanNumber (cs : List Char) : Option (NumberToken × List Char) := do
  let (sign, rest) := scanSign cs
  let (digits, rest) ← scanInteger rest
  let (frac, rest) := scanFrac rest
  let (exp, rest) := scanExp rest
  return (⟨sign, digits, frac, exp⟩, rest)

/-- The number that a match stands for: an integer, unless it has a fraction or an
    exponent. -/
def NumberToken.value [FloatReader] (t : NumberToken) : Except LoadsError Json :=
  if t.frac = [] ∧ t.exp = [] then
    if maxStrDigits < t.digits.length then .error .valueError
    else
      let n := Nat.ofDigitChars 10 t.digits 0
      .ok (.int (if t.sign = [] then n else -n))
  else .ok (.float (FloatReader.read (String.ofList t.text)))

/-! ## Values -/

section Values

variable [FloatReader]

mutual

/-- `_scan_once`. -/
def scanOnce : Nat → List Char → Except LoadsError (Json × List Char)
  | 0, _ => .error .bounded
  | _ + 1, [] => .error .jsonDecodeError
  | n + 1, c :: cs =>
    if c = '"' then
      match scanString cs with
      | some (s, rest) => .ok (.str (String.ofList s), rest)
      | none => .error .jsonDecodeError
    else if c = '\x7b' then
      match skipSpace cs with
      | '\x7d' :: rest => .ok (.obj [], rest)
      | cs => do
        let (fields, rest) ← scanFields n cs
        -- `dict(pairs)`.
        return (.obj (OrderedDict.ofEntries fields).entries, rest)
    else if c = '[' then
      match skipSpace cs with
      | ']' :: rest => .ok (.arr [], rest)
      | cs => do
        let (items, rest) ← scanItems n cs
        return (.arr items, rest)
    else
      match scanConstant (c :: cs) with
      | some (v, rest) => .ok (v, rest)
      | none =>
        match scanNumber (c :: cs) with
        | some (t, rest) => do return (← t.value, rest)
        | none => .error .jsonDecodeError

/-- The loop of `JSONArray`. -/
def scanItems : Nat → List Char → Except LoadsError (List Json × List Char)
  | 0, _ => .error .bounded
  | n + 1, cs => do
    let (v, rest) ← scanOnce n cs
    match skipSpace rest with
    | ']' :: rest => return ([v], rest)
    | ',' :: rest => do
      let (items, rest) ← scanItems n (skipSpace rest)
      return (v :: items, rest)
    | _ => .error .jsonDecodeError

/-- The loop of `JSONObject`. -/
def scanFields : Nat → List Char → Except LoadsError (List (String × Json) × List Char)
  | 0, _ => .error .bounded
  | n + 1, '"' :: cs =>
    match scanString cs with
    | none => .error .jsonDecodeError
    | some (key, rest) =>
      match skipSpace rest with
      | ':' :: rest => do
        let (v, rest) ← scanOnce n (skipSpace rest)
        match skipSpace rest with
        | '\x7d' :: rest => return ([(String.ofList key, v)], rest)
        | ',' :: rest => do
          let (fields, rest) ← scanFields n (skipSpace rest)
          return ((String.ofList key, v) :: fields, rest)
        | _ => .error .jsonDecodeError
      | _ => .error .jsonDecodeError
  | _ + 1, _ => .error .jsonDecodeError

end

/-- `json.loads`. -/
def loads (s : String) : Except LoadsError Json := do
  let cs := skipSpace s.toList
  let (v, rest) ← scanOnce (2 * cs.length + 2) cs
  if skipSpace rest = [] then return v else .error .jsonDecodeError

end Values

end AiK8sGateway.Foundations
