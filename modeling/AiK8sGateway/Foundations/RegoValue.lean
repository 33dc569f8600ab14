import AiK8sGateway.Foundations.PythonValue

/-!
# Rego Values

The part of Rego's semantics that a rule body over JSON needs: references that
may be undefined, iteration over collections, membership in a set of strings, equality
with a scalar, and the comparison operators, which order values of different types by
their type.

A rule body is a conjunction of expressions; an undefined reference or a builtin
applied to a wrong type makes its expression undefined, which fails the body and
makes a negated expression succeed.  `Option` carries the references, `Bool` the
expressions.
-/

namespace AiK8sGateway.Foundations.Rego

/-- How `sprintf` prints a value under the verb `%v`.  The text comes from the
    policy engine and no rule reads it back. -/
class SprintfFormat where
  v : Json → String

/-- `input.a.b` for a reference of two keys below a document. -/
def ref₂ (doc : Json) (a b : String) : Option Json := (doc.field? a).bind (·.field? b)

/-- A reference of string keys below a document. -/
def refPath (doc : Json) : List String → Option Json
  | [] => some doc
  | key :: keys => (doc.field? key).bind fun v => refPath v keys

/-- The values of `x[_]`: the items of an array, the members of an object. -/
def elements : Option Json → List Json
  | some (.arr items) => items
  | some (.obj fields) => fields.map Prod.snd
  | _ => []

/-- `not x` for a reference: it succeeds when the reference is undefined or false. -/
def negated : Option Json → Bool
  | none => true
  | some (.bool false) => true
  | _ => false

theorem negated_eq_false_iff {x : Option Json} :
    negated x = false ↔ x ≠ none ∧ x ≠ some (.bool false) := by
  unfold negated
  split <;> simp_all

/-- `x in {…}` for a set of strings. -/
def inStrings (x : Option Json) (set : List String) : Bool :=
  match x with
  | some (.str s) => set.contains s
  | _ => false

/-- `x == "…"`. -/
def eqString (x : Option Json) (t : String) : Bool :=
  match x with
  | some (.str s) => s == t
  | _ => false

/-- `x == true`. -/
def eqTrue (x : Option Json) : Bool :=
  match x with
  | some (.bool true) => true
  | _ => false

theorem eqTrue_iff {x : Option Json} : eqTrue x = true ↔ x = some (.bool true) := by
  unfold eqTrue
  split <;> simp_all

theorem inStrings_iff {x : Option Json} {set : List String} :
    inStrings x set = true ↔ ∃ s ∈ set, x = some (.str s) := by
  unfold inStrings
  split
  · simp
  · rename_i hne
    constructor
    · intro h
      exact absurd h (by simp)
    · rintro ⟨s, -, rfl⟩
      exact absurd rfl (hne s)

@[simp] theorem inStrings_some_str (s : String) (set : List String) :
    inStrings (some (.str s)) set = set.contains s := rfl

/-- Position of a type in the order null < boolean < number < string < array < object. -/
def typeRank : Json → Nat
  | .null => 0
  | .bool _ => 1
  | .int _ => 2
  | .float _ => 2
  | .str _ => 3
  | .arr _ => 4
  | .obj _ => 5

/-- The number a JSON number denotes. -/
def number? : Json → Option ℚ
  | .int n => some n
  | .float (.finite q) => some q
  | .float .negZero => some 0
  | _ => none

/-- `x > limit` for a numeric `limit`: numerically for numbers, by type otherwise. -/
def exceeds (x : Json) (limit : ℚ) : Bool :=
  match number? x with
  | some q => limit < q
  -- A value of another type is before or after every number.
  | none => typeRank (.int 0) < typeRank x

/-- `startswith(x, pre)`; undefined, and so not true, when `x` is no string. -/
def startsWithString (x : Json) (pre : String) : Bool :=
  match x with
  | .str s => PythonText.startsWith s pre
  | _ => false

/-- `concat(sep, set)`: a set lists its elements in order. -/
def concatSet (sep : String) (set : List String) : String :=
  sep.intercalate (set.dedup.mergeSort (fun a b => decide (a ≤ b)))

end AiK8sGateway.Foundations.Rego
