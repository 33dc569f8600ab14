import Mathlib.Algebra.GroupWithZero.Nat
import AiK8sGateway.Foundations.Interleaving

/-!
# Fleets of Processes

Many processes of one system, each with a shared state of its own.  A process starts
afresh at any time, works like any other run of the system, and may die at any time
with its state.  What joins the processes is only which calls may arrive: that depends on
the events of all of them.

## Main results

- `FleetReachable.process`: a process of a fleet is in a reachable configuration.
- `FleetReachable.continues`: what becomes of a process later on.
- `FleetReachable.weight_le`: an inequality between event weights that holds of every
  single run holds of the fleet.
- `FleetReachable.runCall`: a call that may arrive can be run to its end in one process.
-/

namespace AiK8sGateway.Foundations.EffectProgram

open Relation

/-- A process: its configuration, and whether it still lives. -/
structure Process (S : Signature) (ι α σ : Type) where
  config : Config S ι α σ
  alive : Bool

variable {S : Signature} {ι α σ : Type}

/-- The events of a fleet, process by process. -/
def fleetEvents (f : List (Process S ι α σ)) : List (Event S ι) := f.flatMap (·.config.history)

namespace System

variable (M : System S ι α σ)

/-- The system with other calls that may arrive. -/
def admitting (admits : ι → Prop) : System S ι α σ := { M with admits := fun _ => admits }

/-- One step of a fleet: a process starts, works or dies. -/
inductive FleetStep : List (Process S ι α σ) → List (Process S ι α σ) → Prop where
  | boot {f : List (Process S ι α σ)} : FleetStep f (f ++ [⟨M.start, true⟩])
  | work {f : List (Process S ι α σ)} (k : Nat) {c c' : Config S ι α σ}
      (hget : f[k]? = some ⟨c, true⟩)
      (hstep : (M.admitting (M.admits (fleetEvents f))).Step c c') :
      FleetStep f (f.set k ⟨c', true⟩)
  | crash {f : List (Process S ι α σ)} (k : Nat) {c : Config S ι α σ}
      (hget : f[k]? = some ⟨c, true⟩) : FleetStep f (f.set k ⟨c, false⟩)

/-- The fleets of all runs. -/
def FleetReachable (f : List (Process S ι α σ)) : Prop := ReflTransGen M.FleetStep [] f

/-- A call that may arrive after some events may arrive after fewer of them. -/
def AdmitsAntitone : Prop :=
  ∀ h h' call, (∀ e ∈ h, e ∈ h') → M.admits h' call → M.admits h call

end System

variable {M : System S ι α σ} {f f' : List (Process S ι α σ)}

/-! ## Events of a fleet -/

/-- The events of a process are events of the fleet. -/
theorem mem_fleetEvents {k : Nat} {p : Process S ι α σ} (hget : f[k]? = some p) {e : Event S ι}
    (he : e ∈ p.config.history) : e ∈ fleetEvents f :=
  List.mem_flatMap.mpr ⟨p, List.mem_of_getElem? hget, he⟩

/-- The weight of a fleet is that of its processes together. -/
theorem weight_fleetEvents (w : Event S ι → Nat) (f : List (Process S ι α σ)) :
    Reachable.weight w (fleetEvents f) = (f.map fun p => Reachable.weight w p.config.history).sum := by
  induction f with
  | nil => rfl
  | cons p f ih =>
    rw [fleetEvents, List.flatMap_cons, Reachable.weight_append, List.map_cons, List.sum_cons, ← ih]
    rfl

/-- What a process adds to its history, the fleet weighs more. -/
theorem weight_set (w : Event S ι → Nat) {k : Nat} {p : Process S ι α σ} (p' : Process S ι α σ)
    (new : List (Event S ι)) (hget : f[k]? = some p) (hnew : p'.config.history = p.config.history ++ new) :
    Reachable.weight w (fleetEvents (f.set k p')) =
      Reachable.weight w (fleetEvents f) + Reachable.weight w new := by
  rw [weight_fleetEvents, weight_fleetEvents]
  induction f generalizing k with
  | nil => cases hget
  | cons q f ih =>
    cases k with
    | zero =>
      cases hget
      simp only [List.set_cons_zero, List.map_cons, List.sum_cons, hnew, Reachable.weight_append]
      omega
    | succ k =>
      have hrest := ih hget
      simp only [List.set_cons_succ, List.map_cons, List.sum_cons]
      omega

/-- Two processes weigh at most as much as the fleet. -/
theorem add_weight_le (w : Event S ι → Nat) {k j : Nat} {p q : Process S ι α σ} (hne : k ≠ j)
    (hk : f[k]? = some p) (hj : f[j]? = some q) :
    Reachable.weight w p.config.history + Reachable.weight w q.config.history ≤
      Reachable.weight w (fleetEvents f) := by
  rw [weight_fleetEvents]
  induction f generalizing k j with
  | nil => cases hk
  | cons x f ih =>
    -- Each process is one summand of the fleet's weight.
    have hmem : ∀ {i : Nat} {y : Process S ι α σ}, f[i]? = some y →
        Reachable.weight w y.config.history ≤
          (f.map fun p => Reachable.weight w p.config.history).sum := fun hi =>
      List.single_le_sum (fun _ _ => Nat.zero_le _) _
        (List.mem_map.mpr ⟨_, List.mem_of_getElem? hi, rfl⟩)
    rw [List.map_cons, List.sum_cons]
    cases k with
    -- One of the two is the first process.
    | zero =>
      cases j with
      | zero => exact absurd rfl hne
      | succ j =>
        cases hk
        exact Nat.add_le_add_left (hmem hj) _
    | succ k =>
      cases j with
      | zero =>
        cases hj
        have hle := hmem hk
        omega
      -- Both come later.
      | succ j =>
        have hle := ih (fun heq => hne (congrArg Nat.succ heq)) hk hj
        omega

/-! ## Steps of a fleet -/

/-- What becomes of a process in one step: it works, dies or stays. -/
theorem process_of_step (hmono : M.AdmitsAntitone) (hstep : M.FleetStep f f') {k : Nat}
    {p : Process S ι α σ} (hget : f[k]? = some p) :
    ∃ p', f'[k]? = some p' ∧ ReflTransGen M.Step p.config p'.config ∧
      (p.alive = false → p' = p) := by
  cases hstep with
  -- A new process stands behind all the others.
  | boot =>
    refine ⟨p, ?_, .refl, fun _ => rfl⟩
    rw [List.getElem?_append_left (List.getElem?_eq_some_iff.mp hget).1, hget]
  | @work j c c' hj hstep =>
    by_cases hjk : j = k
    · subst hjk
      cases hj.symm.trans hget
      have hlt : j < f.length := (List.getElem?_eq_some_iff.mp hj).1
      refine ⟨_, List.getElem?_set_self hlt, .single ?_, nofun⟩
      -- What may arrive in the fleet may arrive in the process.
      cases hstep with
      | arrive call hnew =>
        exact .arrive call (hmono _ _ call (fun e he => mem_fleetEvents hj he) hnew)
      | act t call op next r s' hthread hserve => exact .act t call op next r s' hthread hserve
    · -- Another process works.
      exact ⟨p, by rw [List.getElem?_set_ne hjk, hget], .refl, fun _ => rfl⟩
  | @crash j c hj =>
    by_cases hjk : j = k
    · -- The process itself dies, with its configuration as it is.
      subst hjk
      cases hj.symm.trans hget
      have hlt : j < f.length := (List.getElem?_eq_some_iff.mp hj).1
      exact ⟨_, List.getElem?_set_self hlt, .refl, nofun⟩
    · exact ⟨p, by rw [List.getElem?_set_ne hjk, hget], .refl, fun _ => rfl⟩

namespace FleetReachable

/-- **Continuations**: a process stays in the fleet, it only takes steps of the system,
    and once it is dead it does not change. -/
theorem continues (hmono : M.AdmitsAntitone) (h : ReflTransGen M.FleetStep f f') {k : Nat}
    {p : Process S ι α σ} (hget : f[k]? = some p) :
    ∃ p', f'[k]? = some p' ∧ ReflTransGen M.Step p.config p'.config ∧
      (p.alive = false → p' = p) := by
  induction h with
  | refl => exact ⟨p, hget, .refl, fun _ => rfl⟩
  | tail _ hstep ih =>
    obtain ⟨p', hget', hsteps, hdead⟩ := ih
    obtain ⟨p'', hget'', hsteps', hdead'⟩ := process_of_step hmono hstep hget'
    refine ⟨p'', hget'', hsteps.trans hsteps', fun hp => ?_⟩
    have hsame := hdead hp
    rw [hsame] at hdead'
    exact hdead' hp

/-- **Processes are runs**: every process of a reachable fleet is in a reachable
    configuration. -/
theorem process (hmono : M.AdmitsAntitone) (h : M.FleetReachable f) {k : Nat}
    {p : Process S ι α σ} (hget : f[k]? = some p) : M.Reachable p.config := by
  induction h generalizing k p with
  | refl => cases hget
  | @tail g f' _ hstep ih =>
    -- The process was there already, and makes the step of its system.
    by_cases hold : k < g.length
    · obtain ⟨q, hq⟩ : ∃ q, g[k]? = some q := ⟨_, List.getElem?_eq_getElem hold⟩
      obtain ⟨p', hp', hsteps, -⟩ := process_of_step hmono hstep hq
      cases hp'.symm.trans hget
      exact ReflTransGen.trans (ih hq) hsteps
    · -- The process has just started.
      cases hstep with
      | boot =>
        obtain rfl : k = g.length := by
          have hlt := (List.getElem?_eq_some_iff.mp hget).1
          simp only [List.length_append, List.length_singleton] at hlt
          omega
        rw [List.getElem?_concat_length] at hget
        cases hget
        exact .refl
      -- No other step adds a process.
      | work _ _ _ | crash _ _ =>
        have hlt := (List.getElem?_eq_some_iff.mp hget).1
        rw [List.length_set] at hlt
        exact absurd hlt hold

/-- **Local to global**: an inequality that holds of the histories of all runs holds of
    the events of a fleet. -/
theorem weight_le (hmono : M.AdmitsAntitone) (h : M.FleetReachable f) (w w' : Event S ι → Nat)
    (hlocal : ∀ c, M.Reachable c → Reachable.weight w c.history ≤ Reachable.weight w' c.history) :
    Reachable.weight w (fleetEvents f) ≤ Reachable.weight w' (fleetEvents f) := by
  rw [weight_fleetEvents, weight_fleetEvents]
  refine List.sum_le_sum fun p hp => ?_
  obtain ⟨k, hk⟩ := List.getElem?_of_mem hp
  exact hlocal p.config (process hmono h hk)

/-- A step adds one event at most, and a call that arrives is admitted by the whole fleet. -/
theorem weight_of_step (w : Event S ι → Nat) (hstep : M.FleetStep f f') :
    Reachable.weight w (fleetEvents f') = Reachable.weight w (fleetEvents f) ∨
      ∃ e, Reachable.weight w (fleetEvents f') = Reachable.weight w (fleetEvents f) + w e ∧
        ∀ t call, e = .arrive t call → M.admits (fleetEvents f) call := by
  cases hstep with
  -- A new process has no events.
  | boot =>
    left
    simp [fleetEvents, System.start]
  | @work k c c' hget hstep =>
    right
    cases hstep with
    -- The process and its step add one event, an arrival or an operation.
    | arrive call hnew =>
      refine ⟨.arrive c.threads.length call, ?_, ?_⟩
      · exact weight_set w _ [_] hget rfl
      · rintro t call' heq
        cases heq
        exact hnew
    | act t call op next r s' _ _ =>
      refine ⟨.act t call ⟨op, r⟩, ?_, by simp⟩
      exact weight_set w _ [_] hget rfl
  -- A process that dies keeps its events.
  | @crash k c hget =>
    left
    have hset := weight_set w ⟨c, false⟩ [] hget (List.append_nil _).symm
    simpa using hset

/-! ## Running a call in one process -/

/-- A living process can run one of its threads to its end. -/
theorem runThread {answer : σ → (op : S.Op) → S.Reply op × σ}
    (hserve : ∀ s op, M.serves s op (answer s op).1 (answer s op).2) (p : Prog S α) :
    ∀ (f : List (Process S ι α σ)) (k : Nat) (c : Config S ι α σ) (t : Nat) (call : ι),
      M.FleetReachable f → f[k]? = some ⟨c, true⟩ → c.threads[t]? = some (call, p) →
      M.FleetReachable (f.set k ⟨⟨c.threads.set t (call, .done (p.run answer c.shared).1),
        (p.run answer c.shared).2.2,
        c.history ++ (p.run answer c.shared).2.1.map (.act t call)⟩, true⟩) := by
  induction p with
  | done a =>
    -- Nothing is left to run, and nothing changes.
    intro f k c t call hf hget hthread
    obtain ⟨hlt, heq⟩ := List.getElem?_eq_some_iff.mp hthread
    have hthreads : c.threads.set t (call, .done a) = c.threads := by
      rw [← heq]
      exact List.set_getElem_self hlt
    obtain ⟨hk, hprocess⟩ := List.getElem?_eq_some_iff.mp hget
    have hset : f.set k ⟨c, true⟩ = f := by
      rw [← hprocess]
      exact List.set_getElem_self hk
    simpa [hthreads, hset] using hf
  | perform op next ih =>
    intro f k c t call hf hget hthread
    have hlt : t < c.threads.length := (List.getElem?_eq_some_iff.mp hthread).1
    have hk : k < f.length := (List.getElem?_eq_some_iff.mp hget).1
    -- One step of the thread, and then the rest of its program.
    have hstep := System.FleetStep.work (M := M) k hget
      (.act t call op next _ _ hthread (hserve c.shared op))
    have hrest := ih _ _ k _ t call (ReflTransGen.tail hf hstep) (List.getElem?_set_self hk)
      (List.getElem?_set_self hlt)
    simpa [Prog.run_perform, List.set_set] using hrest

/-- A call that may arrive can be run to its end in a living process. -/
theorem runCall {answer : σ → (op : S.Op) → S.Reply op × σ}
    (hserve : ∀ s op, M.serves s op (answer s op).1 (answer s op).2) {k : Nat}
    {c : Config S ι α σ} {call : ι} (hf : M.FleetReachable f) (hget : f[k]? = some ⟨c, true⟩)
    (hnew : M.admits (fleetEvents f) call) :
    M.FleetReachable (f.set k
      ⟨⟨c.threads ++ [(call, .done ((M.body call).run answer c.shared).1)],
        ((M.body call).run answer c.shared).2.2,
        c.history ++ .arrive c.threads.length call ::
          ((M.body call).run answer c.shared).2.1.map (.act c.threads.length call)⟩, true⟩) := by
  have hk : k < f.length := (List.getElem?_eq_some_iff.mp hget).1
  have harrive := ReflTransGen.tail hf (System.FleetStep.work (M := M) k hget (.arrive call hnew))
  have hrun := runThread hserve (M.body call) _ k _ c.threads.length call harrive
    (List.getElem?_set_self hk) (by simp [System.admitting])
  simpa [List.set_set] using hrun

end FleetReachable

end AiK8sGateway.Foundations.EffectProgram
