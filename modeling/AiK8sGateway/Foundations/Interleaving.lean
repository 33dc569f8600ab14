import AiK8sGateway.Foundations.EffectProgram
import Mathlib.Algebra.BigOperators.Group.Finset.Piecewise
import Mathlib.Algebra.Order.BigOperators.Group.Finset
import Mathlib.Logic.Relation

/-!
# Interleaved Effect Programs

Any number of effect programs on one shared state.  A call arrives and starts
its program; at every step one program performs its next operation, the shared
state replies, and the event goes to the end of the history.  Nothing restricts
which program moves next.

## Main results

- `Reachable.path`: what a thread has done is a path of its program.
- `Reachable.split`, `Reachable.act_of_split`: every event of a history was a step,
  taken from a reachable configuration whose history is what comes before it.
- `Reachable.weight_le`: an inequality between event weights that every single
  program satisfies along its paths holds of every history.
- `Reachable.runCall`: a call that may arrive can be run to its end alone.
-/

namespace AiK8sGateway.Foundations.EffectProgram

open Relation

/-! ## Systems and their steps -/

/-- An event: a call arrives as thread `t`, or thread `t` performs an operation. -/
inductive Event (S : Signature) (ι : Type) where
  | arrive (t : Nat) (call : ι)
  | act (t : Nat) (call : ι) (a : Action S)

namespace Event

variable {S : Signature} {ι : Type}

/-- The thread of an event. -/
def thread : Event S ι → Nat
  | arrive t _ => t
  | act t _ _ => t

/-- The call the thread of an event serves. -/
def call : Event S ι → ι
  | arrive _ call => call
  | act _ call _ => call

@[simp] theorem thread_arrive (t : Nat) (c : ι) : (arrive t c : Event S ι).thread = t := rfl
@[simp] theorem thread_act (t : Nat) (c : ι) (a : Action S) : (act t c a).thread = t := rfl
@[simp] theorem call_arrive (t : Nat) (c : ι) : (arrive t c : Event S ι).call = c := rfl
@[simp] theorem call_act (t : Nat) (c : ι) (a : Action S) : (act t c a).call = c := rfl

end Event

/-- Programs for calls, and a shared state that answers their operations.  `admits`
    says which calls may arrive after a history, `serves` which replies are possible. -/
structure System (S : Signature) (ι α σ : Type) where
  body : ι → Prog S α
  init : σ
  admits : List (Event S ι) → ι → Prop
  serves : σ → (op : S.Op) → S.Reply op → σ → Prop

/-- The threads with their calls and remaining programs, the shared state, and the
    events so far, oldest first. -/
structure Config (S : Signature) (ι α σ : Type) where
  threads : List (ι × Prog S α)
  shared : σ
  history : List (Event S ι)

variable {S : Signature} {ι α σ : Type}

/-- The actions of thread `t`, in order. -/
def localActions (t : Nat) : List (Event S ι) → List (Action S)
  | [] => []
  | .arrive _ _ :: rest => localActions t rest
  | .act t' _ a :: rest => if t' = t then a :: localActions t rest else localActions t rest

theorem localActions_append (t : Nat) (h h' : List (Event S ι)) :
    localActions t (h ++ h') = localActions t h ++ localActions t h' := by
  induction h with
  | nil => rfl
  | cons e h ih =>
    cases e with
    | arrive t' c => exact ih
    | act t' c a =>
      simp only [List.cons_append, localActions, ih]
      split <;> rfl

namespace System

variable (M : System S ι α σ)

/-- The configuration before the first call. -/
def start : Config S ι α σ := ⟨[], M.init, []⟩

/-- One step: a call arrives, or a thread performs its next operation. -/
inductive Step : Config S ι α σ → Config S ι α σ → Prop where
  | arrive {c : Config S ι α σ} (call : ι) (hnew : M.admits c.history call) :
      Step c ⟨c.threads ++ [(call, M.body call)], c.shared,
        c.history ++ [.arrive c.threads.length call]⟩
  | act {c : Config S ι α σ} (t : Nat) (call : ι) (op : S.Op)
      (next : S.Reply op → Prog S α) (r : S.Reply op) (s' : σ)
      (hget : c.threads[t]? = some (call, .perform op next))
      (hserve : M.serves c.shared op r s') :
      Step c ⟨c.threads.set t (call, next r), s', c.history ++ [.act t call ⟨op, r⟩]⟩

/-- A step adds one event. -/
theorem Step.history {M : System S ι α σ} {b c : Config S ι α σ} (h : M.Step b c) :
    ∃ e, c.history = b.history ++ [e] := by
  cases h with
  | arrive call _ => exact ⟨_, rfl⟩
  | act t call op next r s' _ _ => exact ⟨_, rfl⟩

/-- The configurations of all runs. -/
def Reachable (c : Config S ι α σ) : Prop := ReflTransGen M.Step M.start c

end System

namespace Reachable

variable {M : System S ι α σ} {c : Config S ι α σ}

/-! ## Threads and their histories -/

/-- What ties the threads of a configuration to its history. -/
structure Coherent (M : System S ι α σ) (c : Config S ι α σ) : Prop where
  /-- The history of a thread is its arrival and then a path of its program. -/
  events : ∀ t call p, c.threads[t]? = some (call, p) →
    c.history.filter (fun e => e.thread = t) =
      .arrive t call :: (localActions t c.history).map (.act t call)
  path : ∀ t call p, c.threads[t]? = some (call, p) →
    Prog.Path (M.body call) (localActions t c.history) p
  /-- Every event belongs to a thread. -/
  known : ∀ e ∈ c.history, ∃ p, c.threads[e.thread]? = some (e.call, p)

theorem coherent_start : Coherent M M.start where
  events t call p h := by simp [System.start] at h
  path t call p h := by simp [System.start] at h
  known e h := by simp [System.start] at h

/-- A thread that does not exist yet has no events. -/
theorem Coherent.filter_eq_nil (hc : Coherent M c) {t : Nat} (ht : c.threads.length ≤ t) :
    c.history.filter (fun e => e.thread = t) = [] := by
  rw [List.filter_eq_nil_iff]
  intro e he heq
  obtain ⟨p, hp⟩ := hc.known e he
  rw [of_decide_eq_true heq, List.getElem?_eq_none ht] at hp
  exact absurd hp (by simp)

theorem localActions_eq_nil {t : Nat} {h : List (Event S ι)}
    (hnil : h.filter (fun e => e.thread = t) = []) : localActions t h = [] := by
  induction h with
  | nil => rfl
  | cons e h ih =>
    rw [List.filter_cons] at hnil
    split at hnil
    · exact absurd hnil (by simp)
    · rename_i hne
      cases e with
      | arrive t' c => exact ih hnil
      | act t' c a =>
        have hne' : t' ≠ t := fun heq => hne (decide_eq_true heq)
        simp only [localActions, if_neg hne']
        exact ih hnil

theorem Coherent.arrive (hc : Coherent M c) (call : ι) :
    Coherent M ⟨c.threads ++ [(call, M.body call)], c.shared,
      c.history ++ [.arrive c.threads.length call]⟩ := by
  -- The new thread is the next one, and no event belongs to it yet.
  have hnew := hc.filter_eq_nil (le_refl c.threads.length)
  have hlocal : ∀ t, localActions t (c.history ++ [.arrive c.threads.length call]) =
      localActions t c.history := by
    intro t
    rw [localActions_append]
    exact List.append_nil _
  refine ⟨?_, ?_, ?_⟩
  · -- Events: the old threads have theirs, and the new one has none.
    intro t call' p hget
    rw [List.filter_append, hlocal]
    rcases lt_trichotomy t c.threads.length with hlt | rfl | hgt
    · rw [List.getElem?_append_left hlt] at hget
      have hne : c.threads.length ≠ t := by omega
      simpa [hne] using hc.events t call' p hget
    · simp only [List.getElem?_concat_length, Option.some.injEq, Prod.mk.injEq] at hget
      obtain ⟨rfl, rfl⟩ := hget
      simp [hnew, localActions_eq_nil hnew]
    · rw [List.getElem?_eq_none (by simp; omega)] at hget
      exact absurd hget (by simp)
  · -- Paths: the new thread stands at the beginning of its program.
    intro t call' p hget
    rw [hlocal]
    rcases lt_trichotomy t c.threads.length with hlt | rfl | hgt
    · rw [List.getElem?_append_left hlt] at hget
      exact hc.path t call' p hget
    · simp only [List.getElem?_concat_length, Option.some.injEq, Prod.mk.injEq] at hget
      obtain ⟨rfl, rfl⟩ := hget
      rw [localActions_eq_nil hnew]
      exact .nil
    · rw [List.getElem?_eq_none (by simp; omega)] at hget
      exact absurd hget (by simp)
  · -- Known threads: the new event belongs to the new thread.
    intro e he
    rw [List.mem_append, List.mem_singleton] at he
    rcases he with he | rfl
    · obtain ⟨p, hp⟩ := hc.known e he
      refine ⟨p, ?_⟩
      rw [List.getElem?_append_left ((List.getElem?_eq_some_iff.mp hp).1)]
      exact hp
    · exact ⟨M.body call, by simp⟩

theorem Coherent.act (hc : Coherent M c) {t : Nat} {call : ι} {op : S.Op}
    {next : S.Reply op → Prog S α} (r : S.Reply op) (s' : σ)
    (hget : c.threads[t]? = some (call, .perform op next)) :
    Coherent M ⟨c.threads.set t (call, next r), s', c.history ++ [.act t call ⟨op, r⟩]⟩ := by
  have hlt : t < c.threads.length := (List.getElem?_eq_some_iff.mp hget).1
  -- Only the thread that moves gets an event, and its path is prolonged by it.
  have hself : localActions t (c.history ++ [.act t call ⟨op, r⟩]) =
      localActions t c.history ++ [⟨op, r⟩] := by
    simp [localActions_append, localActions]
  have hother : ∀ t', t ≠ t' → localActions t' (c.history ++ [.act t call ⟨op, r⟩]) =
      localActions t' c.history := by
    intro t' hne
    simp [localActions_append, localActions, hne]
  refine ⟨?_, ?_, ?_⟩
  · -- Events: the new one is a local event of the thread that moves.
    intro t' call' p hget'
    by_cases hne : t = t'
    · subst hne
      rw [List.getElem?_set_self hlt, Option.some.injEq, Prod.mk.injEq] at hget'
      obtain ⟨rfl, -⟩ := hget'
      rw [hself, List.filter_append, hc.events t call _ hget]
      simp
    · rw [List.getElem?_set_ne hne] at hget'
      rw [hother t' hne, List.filter_append, hc.events t' call' p hget']
      simp [hne]
  · -- Paths: the thread takes the step of its program.
    intro t' call' p hget'
    by_cases hne : t = t'
    · subst hne
      rw [List.getElem?_set_self hlt, Option.some.injEq, Prod.mk.injEq] at hget'
      obtain ⟨rfl, rfl⟩ := hget'
      rw [hself]
      exact (hc.path t call _ hget).snoc r
    · rw [List.getElem?_set_ne hne] at hget'
      rw [hother t' hne]
      exact hc.path t' call' p hget'
  · -- Known threads: no thread disappears.
    intro e he
    rw [List.mem_append, List.mem_singleton] at he
    have hknown : ∀ (t' : Nat) (call' : ι) (p : Prog S α), c.threads[t']? = some (call', p) →
        ∃ p', (c.threads.set t (call, next r))[t']? = some (call', p') := by
      intro t' call' p hp
      by_cases hne : t = t'
      · subst hne
        rw [hget, Option.some.injEq, Prod.mk.injEq] at hp
        exact ⟨next r, by rw [List.getElem?_set_self hlt, hp.1]⟩
      · exact ⟨p, by rw [List.getElem?_set_ne hne]; exact hp⟩
    rcases he with he | rfl
    · obtain ⟨p, hp⟩ := hc.known e he
      exact hknown _ _ p hp
    · exact hknown t call _ hget

/-- Threads and history agree in every reachable configuration. -/
theorem coherent (h : M.Reachable c) : Coherent M c := by
  induction h with
  | refl => exact coherent_start
  | tail _ hstep ih =>
    cases hstep with
    | arrive call _ => exact ih.arrive call
    | act t call op next r s' hget _ => exact ih.act r s' hget

/-- What a thread has done is a path of its program. -/
theorem path (h : M.Reachable c) {t : Nat} {call : ι} {p : Prog S α}
    (hget : c.threads[t]? = some (call, p)) :
    Prog.Path (M.body call) (localActions t c.history) p :=
  (coherent h).path t call p hget

/-- A thread has arrived. -/
theorem arrive_mem (h : M.Reachable c) {t : Nat} {call : ι} {p : Prog S α}
    (hget : c.threads[t]? = some (call, p)) : .arrive t call ∈ c.history := by
  have hmem : Event.arrive t call ∈ c.history.filter (fun e => e.thread = t) := by
    rw [(coherent h).events _ _ _ hget]
    exact List.mem_cons_self ..
  exact (List.mem_filter.mp hmem).1

/-- A thread that acted has arrived, for the same call. -/
theorem arrived (h : M.Reachable c) {e : Event S ι} (he : e ∈ c.history) :
    .arrive e.thread e.call ∈ c.history := by
  obtain ⟨p, hp⟩ := (coherent h).known e he
  exact arrive_mem h hp

/-- The actions of a thread are those its events record. -/
theorem mem_localActions_iff (h : M.Reachable c) {t : Nat} {call : ι} {a : Action S}
    (harr : .arrive t call ∈ c.history) :
    a ∈ localActions t c.history ↔ .act t call a ∈ c.history := by
  obtain ⟨p, hp⟩ := (coherent h).known _ harr
  have hev := (coherent h).events t call p hp
  constructor
  · intro ha
    have hmem : Event.act t call a ∈ c.history.filter (fun e => e.thread = t) := by
      rw [hev]
      exact List.mem_cons_of_mem _ (List.mem_map_of_mem ha)
    exact (List.mem_filter.mp hmem).1
  · intro ha
    have hmem : Event.act t call a ∈ c.history.filter (fun e => e.thread = t) :=
      List.mem_filter.mpr ⟨ha, by simp⟩
    rw [hev, List.mem_cons] at hmem
    rcases hmem with hmem | hmem
    · exact absurd hmem (by simp)
    · obtain ⟨a', ha', heq⟩ := List.mem_map.mp hmem
      cases heq
      exact ha'

/-- The thread behind an operation of the history, with its program along the whole
    history. -/
theorem thread_of_act (h : M.Reachable c) {t : Nat} {call : ι} {a : Action S}
    (hact : .act t call a ∈ c.history) :
    ∃ p, c.threads[t]? = some (call, p) ∧
      Prog.Path (M.body call) (localActions t c.history) p ∧ a ∈ localActions t c.history := by
  obtain ⟨p, hp⟩ := (coherent h).known _ hact
  refine ⟨p, hp, path h hp, ?_⟩
  exact (mem_localActions_iff h (arrived h hact)).mpr hact

/-! ## Every event was a step -/

/-- An event of a history was a step from a configuration whose history is what
    comes before it. -/
theorem split (h : M.Reachable c) {pre post : List (Event S ι)} {e : Event S ι}
    (hs : c.history = pre ++ e :: post) :
    ∃ c₁ c₂, M.Reachable c₁ ∧ c₁.history = pre ∧ M.Step c₁ c₂ ∧ c₂.history = pre ++ [e] := by
  induction h generalizing post with
  | refl => exact absurd hs (by simp [System.start])
  | @tail b c hb hstep ih =>
    obtain ⟨e', he'⟩ := hstep.history
    rcases List.eq_nil_or_concat post with rfl | ⟨post', e'', rfl⟩
    · -- The event is the last one: the step just taken is the one looked for.
      have hsplit : b.history ++ [e'] = pre ++ [e] := he'.symm.trans hs
      obtain ⟨hpre, hlast⟩ := List.append_inj' hsplit rfl
      refine ⟨b, c, hb, hpre, hstep, ?_⟩
      rw [he', hpre, hlast]
    · have hsplit : b.history ++ [e'] = (pre ++ e :: post') ++ [e''] := by
        rw [← he', hs]
        simp
      exact ih (List.append_inj' hsplit rfl).1

/-- An operation in a history was performed by a thread along a path of its program,
    and the shared state of that moment gave the reply. -/
theorem act_of_split (h : M.Reachable c) {pre post : List (Event S ι)} {t : Nat} {call : ι}
    {a : Action S} (hs : c.history = pre ++ .act t call a :: post) :
    ∃ c₁ q s', M.Reachable c₁ ∧ c₁.history = pre ∧ .arrive t call ∈ pre ∧
      Prog.Path (M.body call) (localActions t pre ++ [a]) q ∧ M.serves c₁.shared a.1 a.2 s' := by
  obtain ⟨c₁, c₂, hc₁, rfl, hstep, hlast⟩ := split h hs
  cases hstep with
  | arrive call' _ =>
    have hlast' := List.append_cancel_left hlast
    simp at hlast'
  | act t' call' op next r s' hget hserve =>
    have hlast' := List.append_cancel_left hlast
    simp only [List.cons.injEq, Event.act.injEq, and_true] at hlast'
    obtain ⟨rfl, rfl, rfl⟩ := hlast'
    exact ⟨c₁, next r, s', hc₁, rfl, arrive_mem hc₁ hget, (path hc₁ hget).snoc r, hserve⟩

/-- **Induction on histories**: what holds at the start and survives every admitted
    arrival and every served operation holds of every reachable configuration. -/
theorem history_induction {P : List (Event S ι) → σ → Prop} (hstart : P [] M.init)
    (harrive : ∀ h s t call, P h s → M.admits h call → P (h ++ [.arrive t call]) s)
    (hact : ∀ h s t call (a : Action S) s', P h s → M.serves s a.1 a.2 s' →
      P (h ++ [.act t call a]) s') (hr : M.Reachable c) : P c.history c.shared := by
  induction hr with
  | refl => exact hstart
  | tail _ hstep ih =>
    cases hstep with
    | arrive call hnew => exact harrive _ _ _ call ih hnew
    | act t call op next r s' _ hserve => exact hact _ _ t call ⟨op, r⟩ s' ih hserve

/-! ## Weighing histories -/

/-- The total weight of a history. -/
def weight (w : Event S ι → Nat) : List (Event S ι) → Nat
  | [] => 0
  | e :: h => w e + weight w h

@[simp] theorem weight_nil (w : Event S ι → Nat) : weight w [] = 0 := rfl

@[simp] theorem weight_cons (w : Event S ι → Nat) (e : Event S ι) (h : List (Event S ι)) :
    weight w (e :: h) = w e + weight w h := rfl

@[simp] theorem weight_append (w : Event S ι → Nat) (h h' : List (Event S ι)) :
    weight w (h ++ h') = weight w h + weight w h' := by
  induction h with
  | nil => exact (Nat.zero_add _).symm
  | cons e h ih =>
    rw [List.cons_append, weight_cons, weight_cons, ih, Nat.add_assoc]

theorem weight_add (w w' : Event S ι → Nat) (h : List (Event S ι)) :
    weight (fun e => w e + w' e) h = weight w h + weight w' h := by
  induction h with
  | nil => rfl
  | cons e h ih =>
    simp only [weight_cons, ih]
    omega

/-- An event weighs at most as much as the history it is in. -/
theorem le_weight_of_mem (w : Event S ι → Nat) {e : Event S ι} {h : List (Event S ι)}
    (he : e ∈ h) : w e ≤ weight w h := by
  obtain ⟨pre, post, rfl⟩ := List.append_of_mem he
  rw [weight_append, weight_cons]
  omega

/-- Events without weight weigh nothing together. -/
theorem weight_eq_zero {w : Event S ι → Nat} {h : List (Event S ι)}
    (hzero : ∀ e ∈ h, w e = 0) : weight w h = 0 := by
  induction h with
  | nil => rfl
  | cons e h ih =>
    rw [weight_cons, hzero e (List.mem_cons_self ..),
      ih fun e' he' => hzero e' (List.mem_cons_of_mem _ he')]

/-- The weight of a history is the sum of the weights of its threads. -/
theorem weight_eq_sum (w : Event S ι → Nat) (n : Nat) (h : List (Event S ι))
    (hn : ∀ e ∈ h, e.thread < n) :
    weight w h = ∑ t ∈ Finset.range n, weight w (h.filter (fun e => e.thread = t)) := by
  induction h with
  | nil => simp
  | cons e h ih =>
    -- An event counts for its own thread and for no other.
    have ih := ih (fun e' he' => hn e' (List.mem_cons_of_mem _ he'))
    have hcons : ∀ t, weight w ((e :: h).filter (fun e => e.thread = t)) =
        (if e.thread = t then w e else 0) + weight w (h.filter (fun e => e.thread = t)) := by
      intro t
      by_cases ht : e.thread = t
      · rw [List.filter_cons_of_pos (by simpa using ht), weight_cons, if_pos ht]
      · rw [List.filter_cons_of_neg (by simpa using ht), if_neg ht, Nat.zero_add]
    simp only [hcons, Finset.sum_add_distrib]
    rw [Finset.sum_ite_eq, if_pos (Finset.mem_range.mpr (hn e (List.mem_cons_self ..))),
      weight_cons, ih]

/-- **Local to global**: if the arrival and the actions of every thread weigh at most
    as much under `w` as under `w'`, so does the history. -/
theorem weight_le_of_threads (h : M.Reachable c) (w w' : Event S ι → Nat)
    (hlocal : ∀ t call p, c.threads[t]? = some (call, p) →
      weight w (.arrive t call :: (localActions t c.history).map (.act t call)) ≤
        weight w' (.arrive t call :: (localActions t c.history).map (.act t call))) :
    weight w c.history ≤ weight w' c.history := by
  have hn : ∀ e ∈ c.history, e.thread < c.threads.length := by
    intro e he
    obtain ⟨p, hp⟩ := (coherent h).known e he
    exact (List.getElem?_eq_some_iff.mp hp).1
  -- Compare thread by thread.
  rw [weight_eq_sum w _ _ hn, weight_eq_sum w' _ _ hn]
  apply Finset.sum_le_sum
  intro t ht
  have hlt : t < c.threads.length := Finset.mem_range.mp ht
  obtain ⟨call, p, hget⟩ : ∃ call p, c.threads[t]? = some (call, p) :=
    ⟨_, _, List.getElem?_eq_getElem hlt⟩
  rw [(coherent h).events t call p hget]
  exact hlocal t call p hget

/-- The same for an inequality that every program satisfies along all its paths. -/
theorem weight_le (h : M.Reachable c) (w w' : Event S ι → Nat)
    (hlocal : ∀ t call acts p, Prog.Path (M.body call) acts p →
      weight w (.arrive t call :: acts.map (.act t call)) ≤
        weight w' (.arrive t call :: acts.map (.act t call))) :
    weight w c.history ≤ weight w' c.history :=
  weight_le_of_threads h w w' fun t call p hget => hlocal t call _ p (path h hget)

/-! ## Running a call alone -/

/-- From a reachable configuration, a thread whose program is `p` can run to its end
    while no other thread moves. -/
theorem runThread {answer : σ → (op : S.Op) → S.Reply op × σ}
    (hserve : ∀ s op, M.serves s op (answer s op).1 (answer s op).2) (p : Prog S α) :
    ∀ (c : Config S ι α σ) (t : Nat) (call : ι), M.Reachable c →
      c.threads[t]? = some (call, p) →
      M.Reachable ⟨c.threads.set t (call, .done (p.run answer c.shared).1),
        (p.run answer c.shared).2.2,
        c.history ++ (p.run answer c.shared).2.1.map (.act t call)⟩ := by
  induction p with
  | done a =>
    -- Nothing is left to run.
    intro c t call hc hget
    have hset : c.threads.set t (call, .done a) = c.threads := by
      obtain ⟨hlt, heq⟩ := List.getElem?_eq_some_iff.mp hget
      rw [← heq]
      exact List.set_getElem_self hlt
    simpa [hset] using hc
  | perform op next ih =>
    intro c t call hc hget
    have hlt : t < c.threads.length := (List.getElem?_eq_some_iff.mp hget).1
    -- One step of the thread, and then the rest of its program.
    have hstep := System.Step.act (M := M) t call op next _ _ hget (hserve c.shared op)
    have hrest := ih _ _ t call (ReflTransGen.tail hc hstep) (List.getElem?_set_self hlt)
    simpa [Prog.run_perform, List.set_set] using hrest

/-- A call that may arrive can be run to its end alone. -/
theorem runCall {answer : σ → (op : S.Op) → S.Reply op × σ}
    (hserve : ∀ s op, M.serves s op (answer s op).1 (answer s op).2)
    (hc : M.Reachable c) (call : ι) (hnew : M.admits c.history call) :
    M.Reachable ⟨c.threads ++ [(call, .done ((M.body call).run answer c.shared).1)],
      ((M.body call).run answer c.shared).2.2,
      c.history ++ .arrive c.threads.length call ::
        ((M.body call).run answer c.shared).2.1.map (.act c.threads.length call)⟩ := by
  have harrive := ReflTransGen.tail hc (System.Step.arrive call hnew)
  have hrun := runThread hserve (M.body call) _ c.threads.length call harrive (by simp)
  simpa using hrun

end Reachable

end AiK8sGateway.Foundations.EffectProgram
