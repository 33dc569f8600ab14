import AiK8sGateway.Foundations.Interleaving

/-!
# Cooperative Scheduling

The programs of `Interleaving` under an event loop: a program keeps the shared state to
itself until it ends or its next operation suspends, and only then may another one move.
A reply to a suspended operation makes its program go on.

## Main results

- `CoopReachable.reachable`: a cooperative run is one of the interleaved runs.
- `RunsOn.path`, `RunsOn.served`: what a turn of a program does.
- `CoopReachable.coopArrive`, `CoopReachable.coopResume`: turns that can be computed.
-/

namespace AiK8sGateway.Foundations.EffectProgram

open Relation

variable {S : Signature} {ι α σ : Type}

/-! ## Turns -/

/-- The program has ended, or its next operation suspends. -/
def Prog.Parked (suspends : S.Op → Bool) : Prog S α → Prop
  | .done _ => True
  | .perform op _ => suspends op = true

/-- A sequence of operations and replies that the shared state serves. -/
inductive Served (serves : σ → (op : S.Op) → S.Reply op → σ → Prop) :
    σ → List (Action S) → σ → Prop where
  | nil {s : σ} : Served serves s [] s
  | cons {s s' s'' : σ} {a : Action S} {acts : List (Action S)} :
      serves s a.1 a.2 s' → Served serves s' acts s'' → Served serves s (a :: acts) s''

theorem served_nil_iff {serves : σ → (op : S.Op) → S.Reply op → σ → Prop} {s s' : σ} :
    Served serves s [] s' ↔ s' = s := by
  constructor
  · intro h
    cases h
    rfl
  · rintro rfl
    exact .nil

theorem served_cons_iff {serves : σ → (op : S.Op) → S.Reply op → σ → Prop} {s s'' : σ}
    {a : Action S} {acts : List (Action S)} :
    Served serves s (a :: acts) s'' ↔ ∃ s', serves s a.1 a.2 s' ∧ Served serves s' acts s'' := by
  constructor
  · intro h
    cases h with
    | cons hserve h => exact ⟨_, hserve, h⟩
  · rintro ⟨s', hserve, h⟩
    exact .cons hserve h

/-- The program runs on to where it is parked, without suspending on the way. -/
inductive RunsOn (serves : σ → (op : S.Op) → S.Reply op → σ → Prop) (suspends : S.Op → Bool) :
    σ → Prog S α → List (Action S) → σ → Prog S α → Prop where
  | parked {s : σ} {p : Prog S α} (h : p.Parked suspends) : RunsOn serves suspends s p [] s p
  | step {s s' s'' : σ} {op : S.Op} {next : S.Reply op → Prog S α} {r : S.Reply op}
      {acts : List (Action S)} {q : Prog S α} (hop : suspends op = false)
      (hserve : serves s op r s') (h : RunsOn serves suspends s' (next r) acts s'' q) :
      RunsOn serves suspends s (.perform op next) (⟨op, r⟩ :: acts) s'' q

namespace RunsOn

variable {serves : σ → (op : S.Op) → S.Reply op → σ → Prop} {suspends : S.Op → Bool} {s s' : σ}
  {p q : Prog S α} {acts : List (Action S)}

/-- A turn follows a path of the program. -/
theorem path (h : RunsOn serves suspends s p acts s' q) : Prog.Path p acts q := by
  induction h with
  | parked _ => exact .nil
  | step _ _ _ ih => exact .cons ih

theorem served (h : RunsOn serves suspends s p acts s' q) : Served serves s acts s' := by
  induction h with
  | parked _ => exact .nil
  | step _ hserve _ ih => exact .cons hserve ih

/-- Nothing that suspends is performed on the way. -/
theorem quiet (h : RunsOn serves suspends s p acts s' q) {a : Action S} (ha : a ∈ acts) :
    suspends a.1 = false := by
  induction h with
  | parked _ => cases ha
  | step hop _ _ ih =>
    rcases List.mem_cons.mp ha with rfl | ha
    · exact hop
    · exact ih ha

/-- It ends where the program is parked. -/
theorem parked_end (h : RunsOn serves suspends s p acts s' q) : q.Parked suspends := by
  induction h with
  | parked h => exact h
  | step _ _ _ ih => exact ih

end RunsOn

/-! ## Cooperative steps -/

namespace System

variable (M : System S ι α σ) (suspends : S.Op → Bool)

/-- One turn: a call arrives and its program runs on, or a suspended program gets its
    reply and runs on. -/
inductive CoopStep : Config S ι α σ → Config S ι α σ → Prop where
  | arrive {c : Config S ι α σ} {acts : List (Action S)} {s' : σ} {q : Prog S α} (call : ι)
      (hnew : M.admits c.history call)
      (hrun : RunsOn M.serves suspends c.shared (M.body call) acts s' q) :
      CoopStep c ⟨c.threads ++ [(call, q)], s',
        c.history ++ .arrive c.threads.length call :: acts.map (.act c.threads.length call)⟩
  | resume {c : Config S ι α σ} {acts : List (Action S)} {s₁ s' : σ} {q : Prog S α} (t : Nat)
      (call : ι) (op : S.Op) (next : S.Reply op → Prog S α) (r : S.Reply op)
      (hget : c.threads[t]? = some (call, .perform op next)) (hop : suspends op = true)
      (hserve : M.serves c.shared op r s₁)
      (hrun : RunsOn M.serves suspends s₁ (next r) acts s' q) :
      CoopStep c ⟨c.threads.set t (call, q), s',
        c.history ++ ((⟨op, r⟩ : Action S) :: acts).map (.act t call)⟩

/-- The configurations of all cooperative runs. -/
def CoopReachable (c : Config S ι α σ) : Prop := ReflTransGen (M.CoopStep suspends) M.start c

end System

variable {M : System S ι α σ} {suspends : S.Op → Bool} {c : Config S ι α σ}

/-- The operations of a turn are steps of its thread. -/
theorem RunsOn.reachable {s s' : σ} {p q : Prog S α} {acts : List (Action S)}
    (h : RunsOn M.serves suspends s p acts s' q) (hc : M.Reachable c) (hs : c.shared = s)
    {t : Nat} {call : ι} (hget : c.threads[t]? = some (call, p)) :
    M.Reachable ⟨c.threads.set t (call, q), s', c.history ++ acts.map (.act t call)⟩ := by
  induction h generalizing c with
  | @parked s p _ =>
    -- Nothing was done, and the thread is put back as it was.
    obtain ⟨hlt, heq⟩ := List.getElem?_eq_some_iff.mp hget
    have hset : c.threads.set t (call, p) = c.threads := by
      rw [← heq]
      exact List.set_getElem_self hlt
    simpa [hset, ← hs] using hc
  | @step s s₁ s₂ op next r acts q _ hserve _ ih =>
    have hlt : t < c.threads.length := (List.getElem?_eq_some_iff.mp hget).1
    have hstep := System.Step.act (M := M) t call op next r s₁ hget (hs ▸ hserve)
    have hrest := ih (ReflTransGen.tail hc hstep) rfl (List.getElem?_set_self hlt)
    simpa [List.set_set] using hrest

namespace CoopReachable

/-- **Cooperative runs are runs**: the event loop only restricts who moves when. -/
theorem reachable (h : M.CoopReachable suspends c) : M.Reachable c := by
  induction h with
  | refl => exact .refl
  | @tail b c _ hstep ih =>
    cases hstep with
    | @arrive acts s' q call hnew hrun =>
      -- The arrival is a step of its own, and the operations of the turn follow it.
      have harrive : M.Reachable ⟨b.threads ++ [(call, M.body call)], b.shared,
          b.history ++ [.arrive b.threads.length call]⟩ := .tail ih (.arrive call hnew)
      have hget : (b.threads ++ [(call, M.body call)])[b.threads.length]? =
          some (call, M.body call) := by simp
      simpa using RunsOn.reachable hrun harrive rfl hget
    | @resume acts s₁ s' q t call op next r hget hop hserve hrun =>
      have hlt : t < b.threads.length := (List.getElem?_eq_some_iff.mp hget).1
      -- So is the reply that the suspended thread gets.
      have hreply : M.Reachable ⟨b.threads.set t (call, next r), s₁,
          b.history ++ [.act t call ⟨op, r⟩]⟩ :=
        .tail ih (.act t call op next r s₁ hget hserve)
      simpa [List.set_set] using RunsOn.reachable hrun hreply rfl (List.getElem?_set_self hlt)

end CoopReachable

/-! ## Computed turns -/

/-- The turn of a program against a server that answers every operation. -/
def Prog.runOn (answer : σ → (op : S.Op) → S.Reply op × σ) (suspends : S.Op → Bool) :
    Prog S α → σ → List (Action S) × σ × Prog S α
  | .done a, s => ([], s, .done a)
  | .perform op next, s =>
    if suspends op then ([], s, .perform op next)
    else
      let reply := answer s op
      let rest := (next reply.1).runOn answer suspends reply.2
      (⟨op, reply.1⟩ :: rest.1, rest.2.1, rest.2.2)

namespace System

variable (M : System S ι α σ) (answer : σ → (op : S.Op) → S.Reply op × σ)
  (suspends : S.Op → Bool)

/-- The turn of a call that arrives. -/
def coopArrive (c : Config S ι α σ) (call : ι) : Config S ι α σ :=
  let turn := (M.body call).runOn answer suspends c.shared
  ⟨c.threads ++ [(call, turn.2.2)], turn.2.1,
    c.history ++ .arrive c.threads.length call :: turn.1.map (.act c.threads.length call)⟩

/-- The turn of a suspended thread that gets its reply; any other thread stays. -/
def coopResume (c : Config S ι α σ) (t : Nat) : Config S ι α σ :=
  match c.threads[t]? with
  | some (call, .perform op next) =>
    if suspends op then
      let reply := answer c.shared op
      let turn := (next reply.1).runOn answer suspends reply.2
      ⟨c.threads.set t (call, turn.2.2), turn.2.1,
        c.history ++ ((⟨op, reply.1⟩ : Action S) :: turn.1).map (.act t call)⟩
    else c
  | _ => c

end System

section Computed

variable {serves : σ → (op : S.Op) → S.Reply op → σ → Prop}
  {answer : σ → (op : S.Op) → S.Reply op × σ}

theorem RunsOn.of_runOn (hserve : ∀ s op, serves s op (answer s op).1 (answer s op).2)
    (suspends : S.Op → Bool) (p : Prog S α) (s : σ) :
    RunsOn serves suspends s p (p.runOn answer suspends s).1 (p.runOn answer suspends s).2.1
      (p.runOn answer suspends s).2.2 := by
  induction p generalizing s with
  | done a => exact .parked trivial
  | perform op next ih =>
    unfold Prog.runOn
    split_ifs with hop
    · exact .parked hop
    · exact .step (by simpa using hop) (hserve s op) (ih _ _)

theorem CoopReachable.coopArrive (h : M.CoopReachable suspends c)
    (hserve : ∀ s op, M.serves s op (answer s op).1 (answer s op).2) {call : ι}
    (hnew : M.admits c.history call) :
    M.CoopReachable suspends (M.coopArrive answer suspends c call) :=
  .tail h (.arrive call hnew (.of_runOn hserve suspends _ _))

theorem CoopReachable.coopResume (h : M.CoopReachable suspends c)
    (hserve : ∀ s op, M.serves s op (answer s op).1 (answer s op).2) (t : Nat) :
    M.CoopReachable suspends (System.coopResume answer suspends c t) := by
  unfold System.coopResume
  split
  · rename_i call op next hget
    split_ifs with hop
    · exact .tail h (.resume t call op next _ hget hop (hserve _ _)
        (.of_runOn hserve suspends _ _))
    · exact h
  · exact h

end Computed

end AiK8sGateway.Foundations.EffectProgram
