import AiK8sGateway.Foundations.Cooperative

/-!
# Atomicity of Cooperative Runs

Programs that suspend at their first operation or not at all.  On an event loop all that
such a program does falls into one turn, so a cooperative run is a serial one: its
finished calls ran one after the other, each alone on the shared state, in the order in
which they ended.  A call that ended before another one arrived comes before it, because
a longer run only adds to the order of a shorter one.

## Main results

- `Linearized.step`: a turn adds one finished call to the serial run, or none.
- `linearized`: every cooperative run is linearized, and its continuations extend that.
- `Linearized.before`: the serial order is compatible with real time.
-/

namespace AiK8sGateway.Foundations.EffectProgram

open Relation

variable {S : Signature} {ι α σ : Type}

/-! ## Serial runs -/

/-- A call that was run to its end: its thread, what it performed and what it returned. -/
structure Completed (S : Signature) (ι α : Type) where
  thread : Nat
  call : ι
  acts : List (Action S)
  result : α

/-- The operations of a finished call, as events. -/
def Completed.events (x : Completed S ι α) : List (Event S ι) :=
  x.acts.map (.act x.thread x.call)

/-- The calls ran one after the other from the initial state, each alone on the shared
    state from its first operation to its result. -/
inductive Serial (M : System S ι α σ) : List (Completed S ι α) → σ → Prop where
  | start : Serial M [] M.init
  | snoc {runs : List (Completed S ι α)} {s s' : σ} {x : Completed S ι α}
      (h : Serial M runs s) (hpath : Prog.Path (M.body x.call) x.acts (.done x.result))
      (hserved : Served M.serves s x.acts s') : Serial M (runs ++ [x]) s'

/-- Nothing is performed before the operation that suspends. -/
def Prog.SuspendsFirst (suspends : S.Op → Bool) (p : Prog S α) : Prop :=
  ∀ acts op next, Prog.Path p acts (.perform op next) → suspends op = true → acts = []

/-- Where it is parked, such a program has ended or has not done anything yet. -/
theorem Prog.SuspendsFirst.ended_or_idle {suspends : S.Op → Bool} {p q : Prog S α}
    {acts : List (Action S)} (hfirst : p.SuspendsFirst suspends) (h : Prog.Path p acts q)
    (hparked : q.Parked suspends) : (∃ a, q = .done a) ∨ acts = [] := by
  cases q with
  | done a => exact .inl ⟨a, rfl⟩
  | perform op next => exact .inr (hfirst acts op next h hparked)

/-! ## Linearizations -/

/-- The event is an operation. -/
def Event.isAct : Event S ι → Bool
  | .arrive _ _ => false
  | .act _ _ _ => true

/-- The operations of a turn. -/
theorem filter_isAct_acts (t : Nat) (call : ι) (acts : List (Action S)) :
    (acts.map (Event.act t call)).filter Event.isAct = acts.map (.act t call) := by
  refine List.filter_eq_self.mpr fun e he => ?_
  obtain ⟨a, -, rfl⟩ := List.mem_map.mp he
  rfl

/-- A serial run of the finished calls of a configuration, with the same operations in
    the same order, the same results and the same shared state. -/
structure Linearized (M : System S ι α σ) (c : Config S ι α σ) (runs : List (Completed S ι α)) :
    Prop where
  serial : Serial M runs c.shared
  /-- Its calls are those that have ended, each once. -/
  ended : ∀ t call a, c.threads[t]? = some (call, .done a) ↔ ∃ acts, ⟨t, call, acts, a⟩ ∈ runs
  distinct : (runs.map (·.thread)).Nodup
  history : c.history.filter Event.isAct = runs.flatMap Completed.events

section Steps

variable {M : System S ι α σ} {suspends : S.Op → Bool} {c c' : Config S ι α σ}
  {runs : List (Completed S ι α)}

theorem linearized_start : Linearized M M.start [] where
  serial := .start
  ended t call a := by simp [System.start]
  distinct := List.nodup_nil
  history := rfl

/-- A thread that has not ended is none of the finished calls. -/
theorem Linearized.fresh (h : Linearized M c runs) {t : Nat}
    (hrunning : ∀ call a, c.threads[t]? ≠ some (call, .done a)) : ∀ x ∈ runs, x.thread ≠ t := by
  rintro ⟨t', call, acts, a⟩ hx rfl
  exact hrunning call a ((h.ended _ _ _).mpr ⟨acts, hx⟩)

/-- Another finished call at the end of the order. -/
theorem Linearized.snoc (h : Linearized M c runs) {x : Completed S ι α}
    {threads : List (ι × Prog S α)} {s' : σ} (arrivals : List (Event S ι))
    (hpath : Prog.Path (M.body x.call) x.acts (.done x.result))
    (hserved : Served M.serves c.shared x.acts s')
    (hrunning : ∀ call a, c.threads[x.thread]? ≠ some (call, .done a))
    (hself : threads[x.thread]? = some (x.call, .done x.result))
    (hother : ∀ t call a, t ≠ x.thread →
      (threads[t]? = some (call, .done a) ↔ c.threads[t]? = some (call, .done a)))
    (harrivals : arrivals.filter Event.isAct = []) :
    Linearized M ⟨threads, s', c.history ++ (arrivals ++ x.events)⟩ (runs ++ [x]) where
  serial := .snoc h.serial hpath hserved
  ended t call a := by
    by_cases ht : t = x.thread
    · -- The thread was not finished before, and now it is finished as `x`.
      obtain ⟨t', call', acts', a'⟩ := x
      obtain rfl : t = t' := ht
      constructor
      · intro hget
        rw [hself] at hget
        cases hget
        exact ⟨acts', by simp⟩
      · rintro ⟨acts, hmem⟩
        rcases List.mem_append.mp hmem with hmem | hmem
        · exact absurd rfl (h.fresh hrunning ⟨t, call, acts, a⟩ hmem)
        · cases List.mem_singleton.mp hmem
          exact hself
    · -- Any other thread is as finished as it was.
      rw [hother t call a ht, h.ended]
      constructor
      · rintro ⟨acts, hmem⟩
        exact ⟨acts, List.mem_append_left _ hmem⟩
      · rintro ⟨acts, hmem⟩
        rcases List.mem_append.mp hmem with hmem | hmem
        · exact ⟨acts, hmem⟩
        · cases List.mem_singleton.mp hmem
          exact absurd rfl ht
  distinct := by
    rw [List.map_append, List.nodup_append]
    refine ⟨h.distinct, List.nodup_singleton _, ?_⟩
    intro t ht t' ht'
    obtain ⟨y, hy, rfl⟩ := List.mem_map.mp ht
    cases List.mem_singleton.mp ht'
    exact h.fresh hrunning y hy
  history := by
    rw [List.filter_append, List.filter_append, h.history, harrivals, List.nil_append,
      Completed.events, filter_isAct_acts]
    simp [Completed.events]

/-- **Turns are atomic**: a turn adds one finished call to the serial run, or none. -/
theorem Linearized.step (h : Linearized M c runs) (hc : M.Reachable c)
    (hfirst : ∀ call, (M.body call).SuspendsFirst suspends) (hstep : M.CoopStep suspends c c') :
    ∃ new, new.length ≤ 1 ∧ Linearized M c' (runs ++ new) := by
  cases hstep with
  | @arrive acts s' q call hnew hrun =>
    -- The other threads are where they were.
    have hold : ∀ t, t ≠ c.threads.length →
        (c.threads ++ [(call, q)])[t]? = c.threads[t]? := by
      intro t ht
      rcases Nat.lt_or_gt_of_ne ht with hlt | hgt
      · exact List.getElem?_append_left hlt
      · rw [List.getElem?_eq_none (by simp; omega), List.getElem?_eq_none (by omega)]
    cases q with
    | done a =>
      -- The call did not give way: its arrival and its end are one turn.
      refine ⟨[⟨c.threads.length, call, acts, a⟩], Nat.le_refl _, ?_⟩
      exact h.snoc (x := ⟨c.threads.length, call, acts, a⟩) [.arrive c.threads.length call]
        hrun.path hrun.served
        (by simp) (by simp) (fun t _ _ ht => by rw [hold t ht]) rfl
    | perform op next =>
      -- It waits at its first operation, so nothing has happened yet.
      obtain rfl : acts = [] := hfirst call acts op next hrun.path hrun.parked_end
      obtain rfl := served_nil_iff.mp hrun.served
      refine ⟨[], Nat.zero_le _, ?_⟩
      rw [List.append_nil]
      refine ⟨h.serial, fun t call' a => ?_, h.distinct, ?_⟩
      · rw [← h.ended]
        by_cases ht : t = c.threads.length
        · simp [ht]
        · rw [hold t ht]
      · simp [h.history, Event.isAct]
  | @resume acts s₁ s' q t call op next r hget hop hserve hrun =>
    have hlt : t < c.threads.length := (List.getElem?_eq_some_iff.mp hget).1
    -- The thread waited at its first operation, so this turn is all that it does.
    have hpath := Reachable.path hc hget
    rw [hfirst call _ op next hpath hop] at hpath
    have hwhole : Prog.Path (M.body call) (⟨op, r⟩ :: acts) q := hpath.trans (.cons hrun.path)
    rcases (hfirst call).ended_or_idle hwhole hrun.parked_end with ⟨a, rfl⟩ | hnil
    · -- It ran to its end.
      refine ⟨[⟨t, call, ⟨op, r⟩ :: acts, a⟩], Nat.le_refl _, ?_⟩
      refine h.snoc (x := ⟨t, call, ⟨op, r⟩ :: acts, a⟩) [] hwhole
        (.cons hserve hrun.served) ?_ (List.getElem?_set_self hlt) ?_ rfl
      · intro call' a' hdone
        cases hget.symm.trans hdone
      · intro t' call' a' ht'
        rw [List.getElem?_set_ne (Ne.symm ht')]
    · -- A thread that waits once more would have done nothing at all.
      cases hnil

/-- **Linearizability**: a cooperative run is linearized, and every continuation of it
    adds to the order. -/
theorem linearized (hfirst : ∀ call, (M.body call).SuspendsFirst suspends)
    (hc : M.CoopReachable suspends c) (hc' : ReflTransGen (M.CoopStep suspends) c c') :
    ∃ runs new, Linearized M c runs ∧ Linearized M c' (runs ++ new) := by
  have hextend : ∀ {b b' : Config S ι α σ} {runs : List (Completed S ι α)},
      M.CoopReachable suspends b → Linearized M b runs →
        ReflTransGen (M.CoopStep suspends) b b' → ∃ new, Linearized M b' (runs ++ new) := by
    intro b b' runs hb hruns hrest
    induction hrest with
    | refl => exact ⟨[], by rwa [List.append_nil]⟩
    | @tail d d' hd hstep ih =>
      obtain ⟨new, hnew⟩ := ih
      obtain ⟨last, -, hlast⟩ :=
        hnew.step (CoopReachable.reachable (hb.trans hd)) hfirst hstep
      exact ⟨new ++ last, by rwa [← List.append_assoc]⟩
  obtain ⟨runs, hruns⟩ := hextend .refl linearized_start hc
  obtain ⟨new, hnew⟩ := hextend hc hruns hc'
  exact ⟨runs, new, hruns, hnew⟩

/-- **Real time**: a call that had ended comes before one that had not arrived. -/
theorem Linearized.before {new : List (Completed S ι α)} (h : Linearized M c runs)
    (h' : Linearized M c' (runs ++ new)) {x y : Completed S ι α} (hx : x ∈ runs ++ new)
    (hy : y ∈ runs ++ new) {call : ι} {a : α}
    (hended : c.threads[x.thread]? = some (call, .done a)) (harrived : c.threads.length ≤ y.thread) :
    x ∈ runs ∧ y ∈ new := by
  constructor
  · obtain ⟨acts, hmem⟩ := (h.ended _ _ _).mp hended
    -- Threads occur once, so the call of this thread is `x`.
    have hsame := List.inj_on_of_nodup_map h'.distinct hx (List.mem_append_left new hmem) rfl
    rwa [hsame]
  · rcases List.mem_append.mp hy with hy | hy
    · refine absurd rfl (h.fresh ?_ y hy)
      intro call' a' hget
      rw [List.getElem?_eq_none harrived] at hget
      cases hget
    · exact hy

end Steps

end AiK8sGateway.Foundations.EffectProgram
