import AiK8sGateway.Foundations.PythonText
import AiK8sGateway.Foundations.OrderedDict
import Mathlib.Data.Rat.Floor

/-!
# Python Values Decoded From JSON

What `json.loads` can return, with the built-in operations that are total or
fail in documented ways on it: truthiness, `str`, `repr`, `int`, and attribute
access.  A finite `float` is modelled by the rational it denotes, so the two
zeros, the infinities and NaN are constructors of their own.
Every failing branch names the exception class CPython raises and its message.
-/

namespace AiK8sGateway.Foundations

open PythonText

/-! ## Values -/

/-- A Python `float`.  A nonzero finite double is the rational it denotes. -/
inductive PyFloat where
  | finite (q : ℚ)
  | negZero
  | inf (neg : Bool)
  | nan
  deriving DecidableEq

/-- A value `json.loads` can return.  An object keeps its keys in order. -/
inductive Json where
  | null
  | bool (b : Bool)
  | int (n : Int)
  | float (x : PyFloat)
  | str (s : String)
  | arr (items : List Json)
  | obj (fields : List (String × Json))

/-- The exceptions the built-in operations below raise, with their messages. -/
inductive BuiltinError where
  | typeError (msg : String)
  | valueError (msg : String)
  | overflowError (msg : String)
  | attributeError (msg : String)
  | indexError (msg : String)
  deriving DecidableEq

/-- A `dict[str, Any]` of decoded values. -/
abbrev JsonDict := OrderedDict String Json

/-- The dictionary as a JSON object. -/
def OrderedDict.toJson (d : JsonDict) : Json := .obj d.entries

namespace Json

/-- `type(v).__name__`. -/
def typeName : Json → String
  | null => "NoneType"
  | bool _ => "bool"
  | int _ => "int"
  | float _ => "float"
  | str _ => "str"
  | arr _ => "list"
  | obj _ => "dict"

/-- `v is None`. -/
def isNull : Json → Bool
  | null => true
  | _ => false

theorem isNull_iff {v : Json} : v.isNull = true ↔ v = null := by
  cases v <;> simp [isNull]

/-- `bool(v)`. -/
def truthy : Json → Bool
  | null => false
  | bool b => b
  | int n => n ≠ 0
  | float (.finite q) => q ≠ 0
  | float .negZero => false
  | float (.inf _) => true
  | float .nan => true
  | str s => s ≠ ""
  | arr items => !items.isEmpty
  | obj fields => !fields.isEmpty

/-- `v.get(key, default)`.  Only a `dict` has the method. -/
def getD (v : Json) (key : String) (default : Json) : Except BuiltinError Json :=
  match v with
  | obj fields => .ok ((fields.lookup key).getD default)
  | v => .error (.attributeError ("'" ++ v.typeName ++ "' object has no attribute 'get'"))

/-- Member access without a default; anything but an object has no members. -/
def field? (v : Json) (key : String) : Option Json :=
  match v with
  | obj fields => fields.lookup key
  | _ => none

/-- Every number in the value is finite, so the value has a JSON text. -/
def isFinite : Json → Bool
  | float (.inf _) => false
  | float .nan => false
  | arr items => allFinite items
  | obj fields => allFieldsFinite fields
  | _ => true
where
  allFinite : List Json → Bool
    | [] => true
    | v :: rest => isFinite v && allFinite rest
  allFieldsFinite : List (String × Json) → Bool
    | [] => true
    | (_, v) :: rest => isFinite v && allFieldsFinite rest

@[simp] theorem isFinite_null : null.isFinite = true := rfl

@[simp] theorem isFinite_bool (b : Bool) : (bool b).isFinite = true := rfl

@[simp] theorem isFinite_int (n : Int) : (int n).isFinite = true := rfl

@[simp] theorem isFinite_str (s : String) : (str s).isFinite = true := rfl

@[simp] theorem isFinite_obj_cons (k : String) (v : Json) (rest : List (String × Json)) :
    (obj ((k, v) :: rest)).isFinite = (v.isFinite && (obj rest).isFinite) := rfl

@[simp] theorem isFinite_obj_nil : (obj []).isFinite = true := rfl

/-- The value with something else in the place of each float. -/
def mapFloat (f : PyFloat → Json) : Json → Json
  | float x => f x
  | arr items => arr (mapItems items)
  | obj fields => obj (mapFields fields)
  | v => v
where
  mapItems : List Json → List Json
    | [] => []
    | v :: rest => mapFloat f v :: mapItems rest
  mapFields : List (String × Json) → List (String × Json)
    | [] => []
    | (k, v) :: rest => (k, mapFloat f v) :: mapFields rest

/-- A value that any JSON writer writes: no more than `depth` containers around a scalar,
    all floats finite, and integers of 64 bits at most. -/
def isPlain : Nat → Json → Bool
  | _, int n => n.natAbs < 2 ^ 64
  | _, float (.inf _) => false
  | _, float .nan => false
  | depth + 1, arr items => items.all (isPlain depth)
  | depth + 1, obj fields => fields.all fun field => isPlain depth field.2
  | 0, arr _ => false
  | 0, obj _ => false
  | _, _ => true

/-- The finite floats stand for themselves. -/
def KeepsFinite (f : PyFloat → Json) : Prop := ∀ x, (float x).isFinite = true → f x = float x

mutual

/-- A finite value is kept. -/
theorem mapFloat_of_isFinite {f : PyFloat → Json} (hf : KeepsFinite f) :
    ∀ v : Json, v.isFinite = true → v.mapFloat f = v
  | null, _ | bool _, _ | int _, _ | str _, _ => rfl
  | float x, h => hf x h
  | arr items, h => congrArg arr (mapItems_of_allFinite hf items h)
  | obj fields, h => congrArg obj (mapFields_of_allFinite hf fields h)

theorem mapItems_of_allFinite {f : PyFloat → Json} (hf : KeepsFinite f) :
    ∀ items : List Json, isFinite.allFinite items = true → mapFloat.mapItems f items = items
  | [], _ => rfl
  | v :: rest, h => by
    obtain ⟨hv, hrest⟩ := Bool.and_eq_true_iff.mp h
    rw [mapFloat.mapItems, mapFloat_of_isFinite hf v hv, mapItems_of_allFinite hf rest hrest]

theorem mapFields_of_allFinite {f : PyFloat → Json} (hf : KeepsFinite f) :
    ∀ fields : List (String × Json), isFinite.allFieldsFinite fields = true →
      mapFloat.mapFields f fields = fields
  | [], _ => rfl
  | (k, v) :: rest, h => by
    obtain ⟨hv, hrest⟩ := Bool.and_eq_true_iff.mp h
    rw [mapFloat.mapFields, mapFloat_of_isFinite hf v hv, mapFields_of_allFinite hf rest hrest]

end

/-- The fields keep their places. -/
theorem field?_mapFloat (f : PyFloat → Json) (fields : List (String × Json)) (key : String) :
    ((obj fields).mapFloat f).field? key = ((obj fields).field? key).map (mapFloat f) := by
  show (mapFloat.mapFields f fields).lookup key = (fields.lookup key).map (mapFloat f)
  induction fields with
  | nil => rfl
  | cons field rest ih =>
    obtain ⟨k, v⟩ := field
    rw [mapFloat.mapFields, List.lookup_cons, List.lookup_cons, ih]
    cases key == k <;> rfl

@[simp] theorem isPlain_null (depth : Nat) : null.isPlain depth = true := by
  cases depth <;> rfl

@[simp] theorem isPlain_bool (depth : Nat) (b : Bool) : (bool b).isPlain depth = true := by
  cases depth <;> rfl

@[simp] theorem isPlain_str (depth : Nat) (s : String) : (str s).isPlain depth = true := by
  cases depth <;> rfl

theorem isPlain_int {n : Int} (depth : Nat) (h : n.natAbs < 2 ^ 64) :
    (int n).isPlain depth = true := by
  cases depth <;> exact decide_eq_true h

@[simp] theorem isPlain_obj_nil (depth : Nat) : (obj []).isPlain (depth + 1) = true := rfl

@[simp] theorem isPlain_obj_cons (depth : Nat) (k : String) (v : Json)
    (rest : List (String × Json)) : (obj ((k, v) :: rest)).isPlain (depth + 1) =
      (v.isPlain depth && (obj rest).isPlain (depth + 1)) := rfl

/-- A plain value is plain at any greater depth. -/
theorem isPlain_mono {depth depth' : Nat} {v : Json} (h : v.isPlain depth = true)
    (hle : depth ≤ depth') : v.isPlain depth' = true := by
  induction depth generalizing v depth' with
  | zero =>
    cases v with
    | float x => cases x <;> cases depth' <;> first | rfl | cases h
    | arr items | obj fields => cases h
    | null | bool b | str s => simp
    | int n => exact isPlain_int depth' (of_decide_eq_true h)
  | succ depth ih =>
    cases depth' with
    | zero => omega
    | succ depth' =>
      have hrest : depth ≤ depth' := Nat.le_of_succ_le_succ hle
      cases v with
      | float x => cases x <;> first | rfl | cases h
      | null | bool b | int n | str s => exact h
      | arr items => exact List.all_eq_true.mpr fun v hv => ih (List.all_eq_true.mp h v hv) hrest
      | obj fields =>
        exact List.all_eq_true.mpr fun field hfield =>
          ih (List.all_eq_true.mp h field hfield) hrest

/-- What is plain is finite. -/
theorem isFinite_of_isPlain {depth : Nat} {v : Json} (h : v.isPlain depth = true) :
    v.isFinite = true := by
  induction depth generalizing v with
  -- At depth zero there is no container.
  | zero =>
    cases v with
    | float x => cases x <;> first | rfl | cases h
    | arr items | obj fields => cases h
    | null | bool b | int n | str s => rfl
  | succ depth ih =>
    -- One level deeper: containers are finite if their values are.
    cases v with
    | float x => cases x <;> first | rfl | cases h
    | null | bool b | int n | str s => rfl
    | arr items =>
      have hall : ∀ v ∈ items, v.isPlain depth = true := List.all_eq_true.mp h
      show isFinite.allFinite items = true
      clear h
      induction items with
      | nil => rfl
      | cons v rest ihrest =>
        rw [isFinite.allFinite, ih (hall v (List.mem_cons_self ..)),
          ihrest fun w hw => hall w (List.mem_cons_of_mem _ hw)]
        rfl
    | obj fields =>
      have hall : ∀ field ∈ fields, field.2.isPlain depth = true := List.all_eq_true.mp h
      show isFinite.allFieldsFinite fields = true
      clear h
      induction fields with
      | nil => rfl
      | cons field rest ihrest =>
        rw [isFinite.allFieldsFinite, ih (hall field (List.mem_cons_self ..)),
          ihrest fun w hw => hall w (List.mem_cons_of_mem _ hw)]
        rfl

end Json

/-! ## `repr` of a float

CPython prints the shortest decimal that reads back as the same double, and
among the shortest ones the nearest to it. -/

/-- `b ^ z` for an integer exponent. -/
def ratPow (b : Nat) (z : Int) : ℚ :=
  if 0 ≤ z then (b ^ z.toNat : Nat) else 1 / (b ^ (-z).toNat : Nat)

/-- Decimal digits of a natural number. -/
def natDigits (n : Nat) : List Char := Nat.toDigits 10 n

/-- `⌊log₂ a⌋` for a positive `a`. -/
def binaryExponent (a : ℚ) : Int :=
  -- The quotient of the leading powers is at most one too large.
  let e : Int := (Nat.log2 a.num.toNat : Int) - (Nat.log2 a.den : Int)
  if a < ratPow 2 e then e - 1 else e

/-- The `k` with `10^(k-1) ≤ a < 10^k`, for a positive `a`. -/
def decimalExponent (a : ℚ) : Int :=
  if 1 ≤ a then (natDigits a.floor.toNat).length
  else 1 - (natDigits ((1 / a).ceil.toNat - 1)).length

/-- The shortest digits that read back as the double `a`, starting with `n` digits,
    and the position of the decimal point before them. -/
def shortestDigits (a : ℚ) (n fuel : Nat) : Nat × Int :=
  let ulpExp := max (binaryExponent a - 52) (-1074)
  let ulp := ratPow 2 ulpExp
  let mantissa := (a / ulp).floor.toNat
  -- Below a power of two the neighbouring doubles are twice as dense.
  let below := if mantissa = 2 ^ 52 ∧ -1074 < ulpExp then ulp / 4 else ulp / 2
  let k := decimalExponent a
  let unit := ratPow 10 (k - n)
  let down := (a / unit).floor.toNat
  let readsBack (c : Nat) : Bool :=
    let x := c * unit
    if mantissa % 2 = 0 then a - below ≤ x ∧ x ≤ a + ulp / 2
    else a - below < x ∧ x < a + ulp / 2
  let err (c : Nat) : ℚ := |c * unit - a|
  let best :=
    if readsBack down && (!readsBack (down + 1) || err down < err (down + 1) ||
        (err down = err (down + 1) && down % 2 = 0)) then some down
    else if readsBack (down + 1) then some (down + 1)
    else none
  match best, fuel with
  | some c, _ => (c, k + ((natDigits c).length - n : Int))
  | none, 0 => (down, k)
  | none, fuel + 1 => shortestDigits a (n + 1) fuel

/-- `repr` of a positive finite double. -/
def reprPositive (a : ℚ) : String :=
  let (c, point) := shortestDigits a 1 16
  let digits := (natDigits c).rdropWhile (· = '0')
  let len := digits.length
  if point ≤ -4 ∨ 16 < point then
    -- Exponent notation, with at least two exponent digits.
    let e := point - 1
    let mant := digits.take 1 ++ (if len = 1 then [] else '.' :: digits.drop 1)
    let expDigits := natDigits e.natAbs
    String.ofList (mant ++ ['e', if e < 0 then '-' else '+'] ++
      (if expDigits.length < 2 then '0' :: expDigits else expDigits))
  else if point ≤ 0 then
    String.ofList ('0' :: '.' :: List.replicate (-point).toNat '0' ++ digits)
  else if len ≤ point.toNat then
    String.ofList (digits ++ List.replicate (point.toNat - len) '0' ++ ['.', '0'])
  else
    String.ofList (digits.take point.toNat ++ '.' :: digits.drop point.toNat)

/-- `repr` of a `float`. -/
def PyFloat.repr : PyFloat → String
  | .nan => "nan"
  | .inf neg => if neg then "-inf" else "inf"
  | .negZero => "-0.0"
  | .finite q =>
    if q = 0 then "0.0" else if q < 0 then "-" ++ reprPositive (-q) else reprPositive q

/-! ## `str` and `repr` -/

section Text

variable [CharTables]

/-- `repr(v)`. -/
def Json.repr : Json → String
  | .null => "None"
  | .bool b => if b then "True" else "False"
  | .int n => toString n
  | .float x => x.repr
  | .str s => quoted s
  | .arr items => "[" ++ ", ".intercalate (reprItems items) ++ "]"
  | .obj fields => "\x7b" ++ ", ".intercalate (reprFields fields) ++ "\x7d"
where
  reprItems : List Json → List String
    | [] => []
    | v :: rest => Json.repr v :: reprItems rest
  reprFields : List (String × Json) → List String
    | [] => []
    | (k, v) :: rest => (quoted k ++ ": " ++ Json.repr v) :: reprFields rest

/-- `str(v)`: the text itself for a string, `repr` otherwise. -/
def Json.toStr : Json → String
  | .str s => s
  | v => v.repr

/-- `repr` of a list of strings. -/
def reprStrings (ss : List String) : String := (Json.arr (ss.map Json.str)).repr

/-! ## `int` -/

/-- Digits after the sign: groups of decimal digits joined by single underscores. -/
def digitsValue? (acc : Option Nat) : List Char → Option Nat
  | [] => acc
  | '_' :: c :: rest =>
    -- An underscore stands between two digits.
    match acc, CharTables.toDecimal c with
    | some n, some d => digitsValue? (some (10 * n + d)) rest
    | _, _ => none
  | c :: rest =>
    match CharTables.toDecimal c with
    | some d => digitsValue? (some (10 * acc.getD 0 + d)) rest
    | none => none

/-- Whitespace that `int` skips: an ASCII character is compared as C `isspace` does,
    any other one as `str.isspace` does. -/
def isIntSpace (c : Char) : Bool :=
  if c.toNat < 127 then (0x09 ≤ c.toNat && c.toNat ≤ 0x0d) || c == ' ' else isSpace c

/-- `sys.int_info.default_max_str_digits`. -/
def maxStrDigits : Nat := 4300

/-- `int(s)` for a string. -/
def intOfStr (s : String) : Except BuiltinError Int :=
  let body := (s.toList.dropWhile isIntSpace).rdropWhile isIntSpace
  -- At most one sign.
  let (neg, digits) : Bool × List Char :=
    match body with
    | '-' :: rest => (true, rest)
    | '+' :: rest => (false, rest)
    | rest => (false, rest)
  -- The number ends before the first character that is no digit and no underscore.
  let run := digits.takeWhile fun c => c == '_' || (CharTables.toDecimal c).isSome
  let count := (run.filter (fun c => (CharTables.toDecimal c).isSome)).length
  let invalid := BuiltinError.valueError ("invalid literal for int() with base 10: "
    ++ String.ofList ((quoted s).toList.take 200))
  match digitsValue? none run with
  | some n =>
    -- The limit is checked before what follows the number.
    if maxStrDigits < count then
      .error (.valueError ("Exceeds the limit (4300 digits) for integer string conversion: value has "
        ++ toString count ++ " digits; use sys.set_int_max_str_digits() to increase the limit"))
    else if run.length < digits.length then .error invalid
    else .ok (if neg then -n else n)
  | none => .error invalid

/-- `int(v)`. -/
def pyInt : Json → Except BuiltinError Int
  | .bool b => .ok (if b then 1 else 0)
  | .int n => .ok n
  -- Toward zero.
  | .float (.finite q) => .ok (q.num.tdiv q.den)
  | .float .negZero => .ok 0
  | .float (.inf _) => .error (.overflowError "cannot convert float infinity to integer")
  | .float .nan => .error (.valueError "cannot convert float NaN to integer")
  | .str s => intOfStr s
  | v => .error (.typeError ("int() argument must be a string, a bytes-like object or a real number, not '"
      ++ v.typeName ++ "'"))

/-! ### How `int` fails -/

/-- `int` of a text fails with a `ValueError` only. -/
theorem intOfStr_error {s : String} {e : BuiltinError} (h : intOfStr s = .error e) :
    ∃ msg, e = .valueError msg := by
  unfold intOfStr at h
  dsimp only at h
  split at h
  · -- Too many digits, or something else behind them.
    split_ifs at h <;> cases h <;> exact ⟨_, rfl⟩
  · cases h
    exact ⟨_, rfl⟩

/-- The failures of `int`: a `ValueError`, a `TypeError`, and an `OverflowError` for an
    infinity only. -/
theorem pyInt_error {v : Json} {e : BuiltinError} (h : pyInt v = .error e) :
    (∃ msg, e = .valueError msg) ∨ (∃ msg, e = .typeError msg) ∨
      ((∃ neg, v = .float (.inf neg)) ∧ ∃ msg, e = .overflowError msg) := by
  cases v with
  | null | arr items | obj fields =>
    -- `int` takes a string or a number.
    cases h
    exact .inr (.inl ⟨_, rfl⟩)
  | bool b => cases h
  | int n => cases h
  | str s => exact .inl (intOfStr_error h)
  | float x =>
    cases x with
    | finite q => cases h
    | negZero => cases h
    | inf neg =>
      cases h
      exact .inr (.inr ⟨⟨neg, rfl⟩, _, rfl⟩)
    | nan =>
      cases h
      exact .inl ⟨_, rfl⟩

end Text

end AiK8sGateway.Foundations
