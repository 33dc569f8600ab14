import AiK8sGateway.Foundations.EffectProgram

/-!
# Programs against Fixed Replies

A program whose operations always get the same replies has one result, which is computed
part by part.  Which exceptions it raises, out of those that satisfy a predicate, is
then followed through sequencing and handlers.

## Main results

- `run_eq_eval`: a sequential run against a server without state returns this result.
- `result_bind`, `result_tryCatch`: the result of a program that may raise, part by part.
- `raises_bind_iff`: where an exception of a sequence comes from.
-/

namespace AiK8sGateway.Foundations.EffectProgram

namespace Prog

variable {S : Signature} {α β σ ε : Type} (reply : (op : S.Op) → S.Reply op)

/-! ## Results -/

/-- The result of a program whose operations get these replies. -/
def eval : Prog S α → α
  | done a => a
  | perform op next => eval (next (reply op))

@[simp] theorem eval_done (a : α) : (done a).eval reply = a := rfl

@[simp] theorem eval_call (op : S.Op) : (call op).eval reply = reply op := rfl

/-- A server that answers so, whatever its state, makes the program return this result. -/
theorem run_eq_eval {answer : σ → (op : S.Op) → S.Reply op × σ}
    (h : ∀ s op, (answer s op).1 = reply op) (p : Prog S α) (s : σ) :
    (run answer p s).1 = p.eval reply := by
  induction p generalizing s with
  | done a => rfl
  | perform op next ih => rw [run_perform, ih, h, eval]

theorem eval_seq (p : Prog S α) (f : α → Prog S β) :
    (p >>= f).eval reply = (f (p.eval reply)).eval reply := by
  induction p with
  | done a => rfl
  | perform op next ih => exact ih (reply op)

/-- The result of a program that may raise. -/
def result (x : ExceptT ε (Prog S) α) : Except ε α := x.run.eval reply

@[simp] theorem result_pure (a : α) : result reply (pure a : ExceptT ε (Prog S) α) = .ok a := rfl

@[simp] theorem result_throw (e : ε) :
    result reply (throw e : ExceptT ε (Prog S) α) = .error e := rfl

/-- A sequence goes on with the result of its first part. -/
theorem result_bind (x : ExceptT ε (Prog S) α) (f : α → ExceptT ε (Prog S) β) :
    result reply (x >>= f) = result reply x >>= fun a => result reply (f a) := by
  show (x.run >>= ExceptT.bindCont f).eval reply = x.run.eval reply >>= _
  rw [eval_seq]
  cases x.run.eval reply <;> rfl

/-- A first part that returns is followed by the second at its result. -/
theorem result_bind_of_ok {x : ExceptT ε (Prog S) α} {a : α} (h : result reply x = .ok a)
    (f : α → ExceptT ε (Prog S) β) : result reply (x >>= f) = result reply (f a) := by
  rw [result_bind, h]
  rfl

/-- A first part that raises is the end of it. -/
theorem result_bind_of_error {x : ExceptT ε (Prog S) α} {e : ε} (h : result reply x = .error e)
    (f : α → ExceptT ε (Prog S) β) : result reply (x >>= f) = .error e := by
  rw [result_bind, h]
  rfl

/-- A handler gets the exception. -/
theorem result_tryCatch (x : ExceptT ε (Prog S) α) (f : ε → ExceptT ε (Prog S) α) :
    result reply (tryCatch x f) = tryCatch (result reply x) fun e => result reply (f e) := by
  show (x.run >>= _).eval reply = tryCatch (x.run.eval reply) _
  rw [eval_seq]
  cases x.run.eval reply <;> rfl

/-- A guarded part that returns does not need its handler. -/
theorem result_tryCatch_of_ok {x : ExceptT ε (Prog S) α} {a : α} (h : result reply x = .ok a)
    (f : ε → ExceptT ε (Prog S) α) : result reply (tryCatch x f) = .ok a := by
  rw [result_tryCatch, h]
  rfl

/-- A guarded part that raises ends as its handler does. -/
theorem result_tryCatch_of_error {x : ExceptT ε (Prog S) α} {e : ε}
    (h : result reply x = .error e) (f : ε → ExceptT ε (Prog S) α) :
    result reply (tryCatch x f) = result reply (f e) := by
  rw [result_tryCatch, h]
  rfl

end Prog

/-! ## Exceptions -/

section Raises

variable {α β ε ε' : Type} {P : ε → Prop}

/-- The computation ends with an exception that satisfies `P`. -/
def Raises (P : ε → Prop) (x : Except ε α) : Prop := ∃ e, x = .error e ∧ P e

@[simp] theorem not_raises_ok (a : α) : ¬ Raises P (.ok a) := nofun

@[simp] theorem raises_error_iff (e : ε) : Raises P (.error e : Except ε α) ↔ P e := by
  simp [Raises]

/-- An exception of a sequence comes from its first part, or from the second part at the
    result of the first. -/
theorem raises_bind_iff (x : Except ε α) (f : α → Except ε β) :
    Raises P (x >>= f) ↔ Raises P x ∨ ∃ a, x = .ok a ∧ Raises P (f a) := by
  cases x with
  | error e =>
    show Raises P (.error e) ↔ _
    simp
  | ok a =>
    show Raises P (f a) ↔ _
    simp

/-- What raises nothing of the kind passes an exception on to the rest. -/
theorem raises_bind_of_not {x : Except ε α} (hx : ¬ Raises P x) (f : α → Except ε β) :
    Raises P (x >>= f) ↔ ∃ a, x = .ok a ∧ Raises P (f a) := by
  rw [raises_bind_iff]
  exact or_iff_right hx

theorem raises_mapError_iff {P : ε' → Prop} (g : ε → ε') (x : Except ε α) :
    Raises P (x.mapError g) ↔ Raises (fun e => P (g e)) x := by
  cases x with
  | error e =>
    show Raises P (.error (g e)) ↔ _
    simp
  | ok a =>
    show Raises P (.ok a) ↔ _
    simp

/-- A handler that raises something of the kind exactly for exceptions that satisfy `Q`. -/
theorem raises_tryCatch_iff {Q : ε → Prop} {handler : ε → Except ε α}
    (h : ∀ e, Raises P (handler e) ↔ Q e) (x : Except ε α) :
    Raises P (tryCatch x handler) ↔ Raises Q x := by
  cases x with
  | error e =>
    show Raises P (handler e) ↔ _
    rw [h, raises_error_iff]
  | ok a =>
    show Raises P (.ok a) ↔ _
    simp

end Raises

end AiK8sGateway.Foundations.EffectProgram
