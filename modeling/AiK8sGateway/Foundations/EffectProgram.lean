import Mathlib.Control.Basic

/-!
# Effect Programs

A program that talks to the outside world only through operations of a
signature: a finite tree of operations, each with a continuation for every
reply.  It fixes no meaning for the operations.

Three readings are developed here:

- `Path`: the operations and replies along one way through the tree;
- `run`: the sequential run against a server that answers every operation;
- (in `Interleaving`) many programs taking turns on one shared state.

## Main results

- `path_perform_iff`, `path_done_iff`: inversion of a path at the root.
- `path_bind_done`: a path through a sequence, cut where its first part ends.
- `Returns.of_path`, `returnsOk_bind`: what a program may return, part by part.
- `run_path`: a sequential run follows a path to its end.
-/

namespace AiK8sGateway.Foundations.EffectProgram

/-- Operations, and the type of reply each of them gets. -/
structure Signature where
  Op : Type
  Reply : Op → Type

/-- One operation with the reply it got. -/
abbrev Action (S : Signature) : Type := (op : S.Op) × S.Reply op

/-- A program over the operations of `S` with results in `α`. -/
inductive Prog (S : Signature) (α : Type) : Type where
  | done (a : α)
  | perform (op : S.Op) (next : S.Reply op → Prog S α)

namespace Prog

variable {S : Signature} {α β γ σ : Type}

/-- Sequencing: graft `f` onto every result. -/
def bind : Prog S α → (α → Prog S β) → Prog S β
  | done a, f => f a
  | perform op next, f => perform op (fun r => (next r).bind f)

instance : Monad (Prog S) where
  pure := done
  bind := bind

@[simp] theorem pure_eq (a : α) : (pure a : Prog S α) = done a := rfl

@[simp] theorem done_bind (a : α) (f : α → Prog S β) : done a >>= f = f a := rfl

@[simp] theorem perform_bind (op : S.Op) (next : S.Reply op → Prog S α) (f : α → Prog S β) :
    perform op next >>= f = perform op (fun r => next r >>= f) := rfl

@[simp] theorem map_done (f : α → β) (a : α) : f <$> (done a : Prog S α) = done (f a) := rfl

@[simp] theorem map_perform (f : α → β) (op : S.Op) (next : S.Reply op → Prog S α) :
    f <$> perform op next = perform op (fun r => f <$> next r) := rfl

/-- The program that performs one operation and returns its reply. -/
def call (op : S.Op) : Prog S (S.Reply op) := perform op done

/-! ## Paths -/

/-- `Path p acts q`: performing `acts` one after the other leads from `p` to `q`. -/
inductive Path : Prog S α → List (Action S) → Prog S α → Prop where
  | nil {p : Prog S α} : Path p [] p
  | cons {op : S.Op} {next : S.Reply op → Prog S α} {r : S.Reply op}
      {acts : List (Action S)} {q : Prog S α} :
      Path (next r) acts q → Path (perform op next) (⟨op, r⟩ :: acts) q

/-- A finished program has only the empty path. -/
@[simp] theorem path_done_iff {a : α} {acts : List (Action S)} {q : Prog S α} :
    Path (done a) acts q ↔ acts = [] ∧ q = done a := by
  constructor
  · intro h
    cases h
    exact ⟨rfl, rfl⟩
  · rintro ⟨rfl, rfl⟩
    exact .nil

/-- A path from an operation is empty or starts with it. -/
theorem path_perform_iff {op : S.Op} {next : S.Reply op → Prog S α}
    {acts : List (Action S)} {q : Prog S α} :
    Path (perform op next) acts q ↔
      (acts = [] ∧ q = perform op next) ∨
        ∃ r rest, acts = ⟨op, r⟩ :: rest ∧ Path (next r) rest q := by
  constructor
  · intro h
    cases h with
    | nil => exact .inl ⟨rfl, rfl⟩
    | cons h => exact .inr ⟨_, _, rfl, h⟩
  · rintro (⟨rfl, rfl⟩ | ⟨r, rest, rfl, h⟩)
    · exact .nil
    · exact .cons h

/-- A path can be prolonged by the operation it leads to. -/
theorem Path.snoc {p : Prog S α} {acts : List (Action S)} {op : S.Op}
    {next : S.Reply op → Prog S α} (h : Path p acts (perform op next)) (r : S.Reply op) :
    Path p (acts ++ [⟨op, r⟩]) (next r) := by
  generalize hq : perform op next = q at h
  induction h with
  | nil =>
    subst hq
    exact .cons .nil
  | cons _ ih => exact .cons (ih hq)

/-- Paths can be put end to end. -/
theorem Path.trans {p q q' : Prog S α} {acts acts' : List (Action S)} (h : Path p acts q)
    (h' : Path q acts' q') : Path p (acts ++ acts') q' := by
  induction h with
  | nil => exact h'
  | cons _ ih => exact .cons (ih h')

/-- The result of a program that has ended. -/
def outcome : Prog S α → Option α
  | done a => some a
  | perform _ _ => none

@[simp] theorem outcome_done (a : α) : (done a : Prog S α).outcome = some a := rfl

@[simp] theorem outcome_perform (op : S.Op) (next : S.Reply op → Prog S α) :
    (perform op next).outcome = none := rfl

@[simp] theorem outcome_map (f : α → β) (p : Prog S α) :
    (f <$> p).outcome = p.outcome.map f := by
  cases p <;> rfl

/-- The paths of a mapped program are those of the program. -/
theorem path_map_iff {f : α → β} {p : Prog S α} {acts : List (Action S)} {q : Prog S β} :
    Path (f <$> p) acts q ↔ ∃ q', Path p acts q' ∧ q = f <$> q' := by
  constructor
  · intro h
    -- Mapping touches results only, so the operations are those of `p`.
    induction p generalizing acts with
    | done a =>
      rw [map_done, path_done_iff] at h
      obtain ⟨rfl, rfl⟩ := h
      exact ⟨done a, .nil, rfl⟩
    | perform op next ih =>
      rw [map_perform, path_perform_iff] at h
      rcases h with ⟨rfl, rfl⟩ | ⟨r, rest, rfl, h⟩
      · exact ⟨perform op next, .nil, rfl⟩
      · obtain ⟨q', hq', rfl⟩ := ih r h
        exact ⟨q', .cons hq', rfl⟩
  · rintro ⟨q', h, rfl⟩
    induction h with
    | nil => exact .nil
    | cons _ ih => exact .cons ih

/-- A path through a sequence to its end goes through the first part, and then through the
    second one at its result. -/
theorem path_bind_done {p : Prog S α} {f : α → Prog S β} {acts : List (Action S)} {b : β}
    (h : Path (p >>= f) acts (done b)) :
    ∃ first rest a, acts = first ++ rest ∧ Path p first (done a) ∧ Path (f a) rest (done b) := by
  induction p generalizing acts with
  | done a => exact ⟨[], acts, a, rfl, .nil, h⟩
  | perform op next ih =>
    rw [perform_bind] at h
    cases h with
    | cons h =>
      obtain ⟨first, rest, a, rfl, hfirst, hrest⟩ := ih _ h
      exact ⟨_ :: first, rest, a, rfl, .cons hfirst, hrest⟩

/-! ## Operations a program may perform -/

/-- `op` is performed somewhere in the program, for some replies. -/
inductive MayPerform : Prog S α → S.Op → Prop where
  | here {op : S.Op} {next : S.Reply op → Prog S α} : MayPerform (perform op next) op
  | there {op op' : S.Op} {next : S.Reply op → Prog S α} (r : S.Reply op) :
      MayPerform (next r) op' → MayPerform (perform op next) op'

@[simp] theorem not_mayPerform_done (a : α) (op : S.Op) :
    ¬ MayPerform (done a : Prog S α) op := nofun

theorem mayPerform_perform_iff {op op' : S.Op} {next : S.Reply op → Prog S α} :
    MayPerform (perform op next) op' ↔ op = op' ∨ ∃ r, MayPerform (next r) op' := by
  constructor
  · intro h
    cases h with
    | here => exact .inl rfl
    | there r h => exact .inr ⟨r, h⟩
  · rintro (rfl | ⟨r, h⟩)
    · exact .here
    · exact .there r h

/-- A sequence performs what its parts perform. -/
theorem mayPerform_bind {p : Prog S α} {f : α → Prog S β} {op : S.Op}
    (h : MayPerform (p >>= f) op) : MayPerform p op ∨ ∃ a, MayPerform (f a) op := by
  -- The operations of `p` come first, and those of `f` at one of its results.
  induction p with
  | done a => exact .inr ⟨a, h⟩
  | perform op' next ih =>
    rw [perform_bind, mayPerform_perform_iff] at h
    rcases h with rfl | ⟨r, h⟩
    · exact .inl .here
    · exact (ih r h).imp_left (.there r)

/-! ### Programs that may raise -/

section Raising

variable {ε : Type}

/-- A sequence stops at an exception, and otherwise goes on with the result. -/
theorem mayPerform_exceptBind {x : ExceptT ε (Prog S) α} {f : α → ExceptT ε (Prog S) β}
    {op : S.Op} (h : MayPerform (x >>= f).run op) :
    MayPerform x.run op ∨ ∃ a, MayPerform (f a).run op := by
  rcases mayPerform_bind h with h | ⟨r, h⟩
  · exact .inl h
  · cases r with
    | ok a => exact .inr ⟨a, h⟩
    | error e => exact absurd h (not_mayPerform_done _ _)

/-- A guarded program performs what it does itself or what its handler does. -/
theorem mayPerform_tryCatch {x : ExceptT ε (Prog S) α} {f : ε → ExceptT ε (Prog S) α}
    {op : S.Op} (h : MayPerform (tryCatch x f).run op) :
    MayPerform x.run op ∨ ∃ e, MayPerform (f e).run op := by
  rcases mayPerform_bind h with h | ⟨r, h⟩
  · exact .inl h
  · cases r with
    | ok a => exact absurd h (not_mayPerform_done _ _)
    | error e => exact .inr ⟨e, h⟩

/-- A sequence that ends was ended by an exception of its first part, or by its second. -/
theorem path_exceptBind_done {x : ExceptT ε (Prog S) α} {f : α → ExceptT ε (Prog S) β}
    {acts : List (Action S)} {r : Except ε β} (h : Path (x >>= f).run acts (done r)) :
    (∃ e, r = .error e ∧ Path x.run acts (done (.error e))) ∨
      ∃ first rest a, acts = first ++ rest ∧ Path x.run first (done (.ok a)) ∧
        Path (f a).run rest (done r) := by
  obtain ⟨first, rest, a, rfl, hfirst, hrest⟩ := path_bind_done h
  cases a with
  | ok a => exact .inr ⟨first, rest, a, rfl, hfirst, hrest⟩
  | error e =>
    obtain ⟨rfl, hr⟩ := path_done_iff.mp hrest
    cases hr
    exact .inl ⟨e, rfl, by rwa [List.append_nil]⟩

/-- A guarded program that ends returned by itself, or was ended by its handler. -/
theorem path_tryCatch_done {x : ExceptT ε (Prog S) α} {f : ε → ExceptT ε (Prog S) α}
    {acts : List (Action S)} {r : Except ε α} (h : Path (tryCatch x f).run acts (done r)) :
    (∃ a, r = .ok a ∧ Path x.run acts (done (.ok a))) ∨
      ∃ first rest e, acts = first ++ rest ∧ Path x.run first (done (.error e)) ∧
        Path (f e).run rest (done r) := by
  obtain ⟨first, rest, a, rfl, hfirst, hrest⟩ := path_bind_done h
  cases a with
  | ok a =>
    obtain ⟨rfl, hr⟩ := path_done_iff.mp hrest
    cases hr
    exact .inl ⟨a, rfl, by rwa [List.append_nil]⟩
  | error e => exact .inr ⟨first, rest, e, rfl, hfirst, hrest⟩

end Raising

/-- The operations along a path are among those the program may perform. -/
theorem Path.mayPerform {p q : Prog S α} {acts : List (Action S)} (h : Path p acts q)
    {a : Action S} (ha : a ∈ acts) : MayPerform p a.1 := by
  induction h with
  | nil => exact absurd ha (by simp)
  | cons _ ih =>
    rcases List.mem_cons.mp ha with rfl | ha
    · exact .here
    · exact .there _ (ih ha)

/-! ## What a program may return -/

/-- Everything that the program returns, whatever the replies, satisfies `P`. -/
inductive Returns (P : α → Prop) : Prog S α → Prop where
  | done {a : α} (h : P a) : Returns P (done a)
  | perform {op : S.Op} {next : S.Reply op → Prog S α} (h : ∀ r, Returns P (next r)) :
      Returns P (perform op next)

/-- What a path ends with is returned. -/
theorem Returns.of_path {P : α → Prop} {p : Prog S α} {acts : List (Action S)} {a : α}
    (h : p.Returns P) (hpath : Path p acts (.done a)) : P a := by
  generalize hq : Prog.done a = q at hpath
  induction hpath with
  | nil =>
    subst hq
    cases h with
    | done h => exact h
  | cons _ ih =>
    cases h with
    | perform h => exact ih (h _) hq

/-- A sequence returns what its second part does, given what the first may return. -/
theorem Returns.bind {P : α → Prop} {Q : β → Prop} {p : Prog S α} {f : α → Prog S β}
    (h : p.Returns P) (hf : ∀ a, P a → (f a).Returns Q) : (p >>= f).Returns Q := by
  induction h with
  | done h => exact hf _ h
  | perform _ ih => exact .perform ih

section Raising

variable {ε : Type}

/-- Every result satisfies `P`; about exceptions nothing is said. -/
def ReturnsOk (P : α → Prop) (x : ExceptT ε (Prog S) α) : Prop :=
  x.run.Returns fun r => ∀ a, r = .ok a → P a

theorem returnsOk_pure {P : α → Prop} {a : α} (h : P a) :
    ReturnsOk P (pure a : ExceptT ε (Prog S) α) :=
  .done fun a' heq => by
    cases heq
    exact h

theorem returnsOk_throw {P : α → Prop} (e : ε) :
    ReturnsOk P (throw e : ExceptT ε (Prog S) α) :=
  .done nofun

/-- Nothing is known about a program's results. -/
theorem returnsOk_true (x : ExceptT ε (Prog S) α) : ReturnsOk (fun _ => True) x := by
  unfold ReturnsOk
  generalize x.run = p
  induction p with
  | done r => exact .done fun _ _ => trivial
  | perform op next ih => exact .perform ih

/-- A sequence that gets through returns what its second part does. -/
theorem returnsOk_bind {P : α → Prop} {Q : β → Prop} {x : ExceptT ε (Prog S) α}
    {f : α → ExceptT ε (Prog S) β} (h : ReturnsOk P x) (hf : ∀ a, P a → ReturnsOk Q (f a)) :
    ReturnsOk Q (x >>= f) := by
  refine Returns.bind h fun r hr => ?_
  cases r with
  | ok a => exact hf a (hr a rfl)
  | error e => exact returnsOk_throw e

/-- The same where nothing need be known about the first part. -/
theorem returnsOk_seq {Q : β → Prop} {x : ExceptT ε (Prog S) α} {f : α → ExceptT ε (Prog S) β}
    (hf : ∀ a, ReturnsOk Q (f a)) : ReturnsOk Q (x >>= f) :=
  returnsOk_bind (returnsOk_true x) fun a _ => hf a

/-- A guarded program returns what it does itself or what its handler does. -/
theorem returnsOk_tryCatch {P : α → Prop} {x : ExceptT ε (Prog S) α}
    {f : ε → ExceptT ε (Prog S) α} (h : ReturnsOk P x) (hf : ∀ e, ReturnsOk P (f e)) :
    ReturnsOk P (tryCatch x f) := by
  refine Returns.bind h fun r hr => ?_
  cases r with
  | ok a => exact returnsOk_pure (hr a rfl)
  | error e => exact hf e

end Raising

/-! ## Sequential runs -/

/-- Run a program alone: `answer` replies to every operation and updates the state.
    The result, the actions in order, and the final state. -/
def run (answer : σ → (op : S.Op) → S.Reply op × σ) : Prog S α → σ → α × List (Action S) × σ
  | done a, s => (a, [], s)
  | perform op next, s =>
    let reply := answer s op
    let rest := run answer (next reply.1) reply.2
    (rest.1, ⟨op, reply.1⟩ :: rest.2.1, rest.2.2)

variable {answer : σ → (op : S.Op) → S.Reply op × σ}

@[simp] theorem run_done (a : α) (s : σ) : run answer (done a) s = (a, [], s) := rfl

theorem run_perform (op : S.Op) (next : S.Reply op → Prog S α) (s : σ) :
    run answer (perform op next) s =
      ((run answer (next (answer s op).1) (answer s op).2).1,
        ⟨op, (answer s op).1⟩ :: (run answer (next (answer s op).1) (answer s op).2).2.1,
        (run answer (next (answer s op).1) (answer s op).2).2.2) := rfl

/-- Every reply in a sequential run is one that the server gave. -/
theorem run_reply {p : Prog S α} {s : σ} {a : Action S} (ha : a ∈ (run answer p s).2.1) :
    ∃ s', a.2 = (answer s' a.1).1 := by
  induction p generalizing s with
  | done a' => exact absurd ha List.not_mem_nil
  | perform op next ih =>
    rcases List.mem_cons.mp ha with rfl | ha
    · exact ⟨s, rfl⟩
    · exact ih _ ha

/-- A sequential run follows a path to its result. -/
theorem run_path (p : Prog S α) (s : σ) :
    Path p (run answer p s).2.1 (done (run answer p s).1) := by
  induction p generalizing s with
  | done a => exact .nil
  | perform op next ih => exact .cons (ih _ _)

end Prog

end AiK8sGateway.Foundations.EffectProgram
