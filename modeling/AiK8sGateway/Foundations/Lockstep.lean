import AiK8sGateway.Foundations.Interleaving
import Mathlib.Data.List.Forall2

/-!
# Programs in Lockstep

Two runs that get related replies.  Programs in lockstep perform the same operations as
long as the replies are related, and end with related results.  From that follows what
two whole systems have in common whose runs get the same inputs.

## Main results

- `Lockstep.bind`, `lockstepM_bind`, `lockstepM_tryCatch`: programs part by part.
- `Lockstep.run`: sequential runs against two servers.
- `Coupled.inLockstep`, `Coupled.follow`: two systems on the same inputs.
-/

namespace AiK8sGateway.Foundations.EffectProgram

open Relation

variable {S : Signature} {ι α β σ σ' : Type}

/-- A relation between replies, for each operation. -/
abbrev ReplyRel (S : Signature) : Type := (op : S.Op) → S.Reply op → S.Reply op → Prop

namespace Prog

/-- The programs perform the same operations as long as the replies to them are related
    by `R`, and end with results related by `Q`. -/
inductive Lockstep (R : ReplyRel S) (Q : α → α → Prop) : Prog S α → Prog S α → Prop where
  | done {a a' : α} (h : Q a a') : Lockstep R Q (done a) (done a')
  | perform {op : S.Op} {next next' : S.Reply op → Prog S α}
      (h : ∀ r r', R op r r' → Lockstep R Q (next r) (next' r')) :
      Lockstep R Q (perform op next) (perform op next')

variable {R : ReplyRel S} {Q : α → α → Prop} {Q' : β → β → Prop} {p p' : Prog S α}

/-- A sequence is in lockstep if its parts are. -/
theorem Lockstep.bind {f f' : α → Prog S β} (h : Lockstep R Q p p')
    (hf : ∀ a a', Q a a' → Lockstep R Q' (f a) (f' a')) :
    Lockstep R Q' (p >>= f) (p' >>= f') := by
  induction h with
  | done h => exact hf _ _ h
  | perform _ ih => exact .perform ih

theorem Lockstep.map {f f' : α → β} (h : Lockstep R Q p p')
    (hf : ∀ a a', Q a a' → Q' (f a) (f' a')) : Lockstep R Q' (f <$> p) (f' <$> p') := by
  induction h with
  | done h => exact .done (hf _ _ h)
  | perform _ ih => exact .perform ih

/-- Weaker relations between results are kept too. -/
theorem Lockstep.imp {Q₁ : α → α → Prop} (h : Lockstep R Q p p')
    (himp : ∀ a a', Q a a' → Q₁ a a') : Lockstep R Q₁ p p' := by
  induction h with
  | done h => exact .done (himp _ _ h)
  | perform _ ih => exact .perform ih

/-- A program is in lockstep with itself if related replies to what it performs are equal. -/
theorem Lockstep.refl (p : Prog S α)
    (heq : ∀ op, MayPerform p op → ∀ r r', R op r r' → r = r') : Lockstep R Eq p p := by
  induction p with
  | done a => exact .done rfl
  | perform op next ih =>
    refine .perform fun r r' hr => ?_
    obtain rfl := heq op .here r r' hr
    exact ih r fun op' h => heq op' (.there r h)

/-- Programs in lockstep with equal results have the same outcome so far. -/
theorem Lockstep.outcome_eq (h : Lockstep R Eq p p') : p.outcome = p'.outcome := by
  cases h with
  | done h => exact congrArg some h
  | perform _ => rfl

/-- Against servers whose replies stay related, the results are related. -/
theorem Lockstep.run {answer : σ → (op : S.Op) → S.Reply op × σ}
    {answer' : σ' → (op : S.Op) → S.Reply op × σ'} {T : σ → σ' → Prop}
    (hanswer : ∀ s s', T s s' → ∀ op, R op (answer s op).1 (answer' s' op).1 ∧
      T (answer s op).2 (answer' s' op).2)
    (h : Lockstep R Q p p') {s : σ} {s' : σ'} (hs : T s s') :
    Q (p.run answer s).1 (p'.run answer' s').1 ∧
      T (p.run answer s).2.2 (p'.run answer' s').2.2 := by
  induction h generalizing s s' with
  | done h => exact ⟨h, hs⟩
  | @perform op _ _ _ ih =>
    obtain ⟨hreply, hnext⟩ := hanswer s s' hs op
    exact ih _ _ hreply hnext

/-! ## Programs that may raise -/

section Raising

variable {ε : Type} {E E' : ε → ε → Prop}

/-- Both return related results, or both raise related exceptions. -/
inductive ExceptRel (E : ε → ε → Prop) (Q : α → α → Prop) : Except ε α → Except ε α → Prop where
  | ok {a a' : α} (h : Q a a') : ExceptRel E Q (.ok a) (.ok a')
  | error {e e' : ε} (h : E e e') : ExceptRel E Q (.error e) (.error e')

theorem ExceptRel.eq {x x' : Except ε α} (h : ExceptRel Eq Eq x x') : x = x' := by
  cases h with
  | ok h => rw [h]
  | error h => rw [h]

/-- Lockstep of programs that may raise. -/
def LockstepM (R : ReplyRel S) (E : ε → ε → Prop) (Q : α → α → Prop)
    (x x' : ExceptT ε (Prog S) α) : Prop :=
  Lockstep R (ExceptRel E Q) x.run x'.run

theorem lockstepM_pure {a a' : α} (h : Q a a') :
    LockstepM R E Q (pure a : ExceptT ε (Prog S) α) (pure a') :=
  .done (.ok h)

theorem lockstepM_throw {e e' : ε} (h : E e e') :
    LockstepM R E Q (throw e : ExceptT ε (Prog S) α) (throw e') :=
  .done (.error h)

theorem lockstepM_bind {x x' : ExceptT ε (Prog S) α} {f f' : α → ExceptT ε (Prog S) β}
    (h : LockstepM R E Q x x') (hf : ∀ a a', Q a a' → LockstepM R E Q' (f a) (f' a')) :
    LockstepM R E Q' (x >>= f) (x' >>= f') := by
  refine Lockstep.bind h fun r r' hr => ?_
  cases hr with
  | ok h => exact hf _ _ h
  | error h => exact lockstepM_throw h

theorem lockstepM_tryCatch {x x' : ExceptT ε (Prog S) α} {f f' : ε → ExceptT ε (Prog S) α}
    (h : LockstepM R E Q x x') (hf : ∀ e e', E e e' → LockstepM R E' Q (f e) (f' e')) :
    LockstepM R E' Q (tryCatch x f) (tryCatch x' f') := by
  refine Lockstep.bind h fun r r' hr => ?_
  cases hr with
  | ok h => exact lockstepM_pure h
  | error h => exact hf _ _ h

end Raising

end Prog

/-! ## Related histories -/

/-- Where both actions are the same operation, the replies are related. -/
def RepliesRelated (R : ReplyRel S) (a a' : Action S) : Prop :=
  ∀ op r r', a = ⟨op, r⟩ → a' = ⟨op, r'⟩ → R op r r'

/-- The same operation with related replies. -/
inductive SameOperation (R : ReplyRel S) : Action S → Action S → Prop where
  | mk {op : S.Op} {r r' : S.Reply op} (h : R op r r') : SameOperation R ⟨op, r⟩ ⟨op, r'⟩

/-- The same call arrives, or the same thread acts, with actions related by `A`. -/
inductive EventRel (A : Action S → Action S → Prop) : Event S ι → Event S ι → Prop where
  | arrive (t : Nat) (call : ι) : EventRel A (.arrive t call) (.arrive t call)
  | act (t : Nat) (call : ι) {a a' : Action S} (h : A a a') :
      EventRel A (.act t call a) (.act t call a')

/-- The same calls arrive in related histories. -/
theorem arrive_mem_of_related {A : Action S → Action S → Prop} {h h' : List (Event S ι)}
    (hrel : List.Forall₂ (EventRel A) h h') {t : Nat} {call : ι} (hmem : .arrive t call ∈ h') :
    .arrive t call ∈ h := by
  induction hrel with
  | nil => cases hmem
  | cons hevent _ ih =>
    rcases List.mem_cons.mp hmem with rfl | hmem
    · cases hevent
      exact List.mem_cons_self ..
    · exact List.mem_cons_of_mem _ (ih hmem)

section Pointwise

variable {γ δ : Type} {P : γ → δ → Prop} {l : List γ} {l' : List δ} {a : γ} {b : δ}

theorem forall₂_concat_iff :
    List.Forall₂ P (l ++ [a]) (l' ++ [b]) ↔ List.Forall₂ P l l' ∧ P a b := by
  rw [← List.forall₂_reverse_iff, List.reverse_concat, List.reverse_concat, List.forall₂_cons,
    List.forall₂_reverse_iff, and_comm]

theorem forall₂_getElem? (h : List.Forall₂ P l l') {i : Nat} (ha : l[i]? = some a)
    (hb : l'[i]? = some b) : P a b := by
  induction h generalizing i with
  | nil => cases ha
  | cons hhead _ ih =>
    cases i with
    | zero =>
      cases ha
      cases hb
      exact hhead
    | succ i => exact ih ha hb

theorem forall₂_set (h : List.Forall₂ P l l') (hab : P a b) (i : Nat) :
    List.Forall₂ P (l.set i a) (l'.set i b) := by
  induction h generalizing i with
  | nil => exact .nil
  | cons hhead htail ih =>
    cases i with
    | zero => exact .cons hab htail
    | succ i => exact .cons hhead (ih i)

end Pointwise

/-! ## Two systems -/

/-- The configurations look the same but for replies related by `R` and shared states
    related by `T`. -/
structure InLockstep (R : ReplyRel S) (T : σ → σ' → Prop) (c : Config S ι α σ)
    (c' : Config S ι α σ') : Prop where
  shared : T c.shared c'.shared
  history : List.Forall₂ (EventRel (SameOperation R)) c.history c'.history
  threads : List.Forall₂ (fun th th' => th.1 = th'.1 ∧ Prog.Lockstep R Eq th.2 th'.2)
    c.threads c'.threads

/-- Two systems whose programs are in lockstep and whose replies stay related by `R`, as
    long as the replies that come from outside are related by `given`. -/
structure Coupled (M : System S ι α σ) (M' : System S ι α σ') (given R : ReplyRel S)
    (T : σ → σ' → Prop) : Prop where
  init : T M.init M'.init
  body : ∀ call, Prog.Lockstep R Eq (M.body call) (M'.body call)
  /-- Replies to one operation stay related. -/
  serves : ∀ {s s' op r r' s₁ s₁'}, T s s' → M.serves s op r s₁ → M'.serves s' op r' s₁' →
    given op r r' → R op r r' ∧ T s₁ s₁'
  /-- What the first system replies to, the second one can. -/
  follows : ∀ {s s' op r s₁}, T s s' → M.serves s op r s₁ →
    ∃ r' s₁', M'.serves s' op r' s₁' ∧ given op r r'
  admits : ∀ {h h' call}, List.Forall₂ (EventRel (SameOperation R)) h h' → M.admits h call →
    M'.admits h' call

namespace Coupled

variable {M : System S ι α σ} {M' : System S ι α σ'} {given R : ReplyRel S} {T : σ → σ' → Prop}
  {c b : Config S ι α σ} {c' b' : Config S ι α σ'}

theorem start (hM : Coupled M M' given R T) : InLockstep R T M.start M'.start :=
  ⟨hM.init, .nil, .nil⟩

/-- The same call arrives in both. -/
theorem arrive (hM : Coupled M M' given R T) (h : InLockstep R T c c') (call : ι) :
    InLockstep R T
      ⟨c.threads ++ [(call, M.body call)], c.shared,
        c.history ++ [.arrive c.threads.length call]⟩
      ⟨c'.threads ++ [(call, M'.body call)], c'.shared,
        c'.history ++ [.arrive c'.threads.length call]⟩ := by
  refine ⟨h.shared, ?_, ?_⟩
  · rw [h.threads.length_eq]
    exact forall₂_concat_iff.mpr ⟨h.history, .arrive _ _⟩
  · exact forall₂_concat_iff.mpr ⟨h.threads, rfl, hM.body call⟩

/-- The thread that acts in one of them can act in the other. -/
theorem thread (h : InLockstep R T c c') {t : Nat} {call : ι} {op : S.Op}
    {next : S.Reply op → Prog S α} (hget : c.threads[t]? = some (call, .perform op next)) :
    ∃ next', c'.threads[t]? = some (call, .perform op next') ∧
      ∀ r r', R op r r' → Prog.Lockstep R Eq (next r) (next' r') := by
  have hlt : t < c'.threads.length := by
    rw [← h.threads.length_eq]
    exact (List.getElem?_eq_some_iff.mp hget).1
  obtain ⟨⟨call', p'⟩, hget'⟩ : ∃ th', c'.threads[t]? = some th' :=
    ⟨_, List.getElem?_eq_getElem hlt⟩
  obtain ⟨rfl, hlockstep⟩ := forall₂_getElem? h.threads hget hget'
  cases hlockstep with
  | perform hnext => exact ⟨_, hget', hnext⟩

/-- The same thread performs the same operation in both. -/
theorem act (h : InLockstep R T c c') (t : Nat) (call : ι) {op : S.Op}
    {next next' : S.Reply op → Prog S α} {r r' : S.Reply op} {s₁ : σ} {s₁' : σ'}
    (hnext : ∀ r r', R op r r' → Prog.Lockstep R Eq (next r) (next' r')) (hr : R op r r')
    (hs : T s₁ s₁') :
    InLockstep R T
      ⟨c.threads.set t (call, next r), s₁, c.history ++ [.act t call ⟨op, r⟩]⟩
      ⟨c'.threads.set t (call, next' r'), s₁', c'.history ++ [.act t call ⟨op, r'⟩]⟩ where
  shared := hs
  history := forall₂_concat_iff.mpr ⟨h.history, .act t call (.mk hr)⟩
  threads := by
    refine forall₂_set h.threads ?_ t
    exact ⟨rfl, hnext r r' hr⟩

/-- **Two runs on the same inputs** stay in lockstep. -/
theorem inLockstep (hM : Coupled M M' given R T) (h : M.Reachable c) (h' : M'.Reachable c')
    (hinputs : List.Forall₂ (EventRel (RepliesRelated given)) c.history c'.history) :
    InLockstep R T c c' := by
  induction h generalizing c' with
  | refl =>
    rcases ReflTransGen.cases_tail h' with rfl | ⟨b', -, hstep'⟩
    · exact hM.start
    · -- A run with a step has an event, and the other one has none.
      obtain ⟨e', he'⟩ := hstep'.history
      rw [he'] at hinputs
      exact absurd hinputs.length_eq (by simp [System.start])
  | @tail b c _ hstep ih =>
    rcases ReflTransGen.cases_tail h' with rfl | ⟨b', hb', hstep'⟩
    · -- One run has a step more than the other, which the inputs exclude.
      obtain ⟨e, he⟩ := hstep.history
      rw [he] at hinputs
      exact absurd hinputs.length_eq (by simp [System.start])
    · -- Both runs end with a step, and the inputs say that it is the same one.
      cases hstep with
      | arrive call hnew =>
        cases hstep' with
        | arrive call' hnew' =>
          -- Both have an arrival.
          obtain ⟨hbefore, hlast⟩ := forall₂_concat_iff.mp hinputs
          have hb := ih hb' hbefore
          rw [hb.threads.length_eq] at hlast
          cases hlast
          exact hM.arrive hb call
        | act _ _ _ _ _ _ _ _ => cases (forall₂_concat_iff.mp hinputs).2
      | act t call op next r s₁ hget hserve =>
        cases hstep' with
        | arrive _ _ => cases (forall₂_concat_iff.mp hinputs).2
        | act t' call' op' next'' r' s₁' hget' hserve' =>
          -- Both have an operation, of the same thread and with related replies.
          obtain ⟨hbefore, hlast⟩ := forall₂_concat_iff.mp hinputs
          have hb := ih hb' hbefore
          cases hlast with
          | act _ _ hreplies =>
            obtain ⟨next', hthread, hnext⟩ := thread hb hget
            cases hthread.symm.trans hget'
            obtain ⟨hr, hs⟩ := hM.serves hb.shared hserve hserve' (hreplies op r r' rfl rfl)
            exact act hb t call hnext hr hs

/-- **A run can be followed**: the other system has a run on the same inputs. -/
theorem follow (hM : Coupled M M' given R T) (h : M.Reachable c) :
    ∃ c', M'.Reachable c' ∧
      List.Forall₂ (EventRel (RepliesRelated given)) c.history c'.history := by
  -- The induction needs that the two runs are in lockstep so far.
  suffices hfollow : ∃ c', M'.Reachable c' ∧ InLockstep R T c c' ∧
      List.Forall₂ (EventRel (RepliesRelated given)) c.history c'.history by
    obtain ⟨c', hc', -, hinputs⟩ := hfollow
    exact ⟨c', hc', hinputs⟩
  induction h with
  | refl => exact ⟨M'.start, .refl, hM.start, .nil⟩
  | @tail b c _ hstep ih =>
    obtain ⟨b', hb', hlock, hinputs⟩ := ih
    cases hstep with
    | arrive call hnew =>
      -- The same call arrives.
      refine ⟨_, .tail hb' (.arrive call (hM.admits hlock.history hnew)), hM.arrive hlock call, ?_⟩
      rw [hlock.threads.length_eq]
      exact forall₂_concat_iff.mpr ⟨hinputs, .arrive _ _⟩
    | act t call op next r s₁ hget hserve =>
      obtain ⟨next', hget', hnext⟩ := thread hlock hget
      -- Whatever the first system was replied, the second one gets a reply that is related.
      obtain ⟨r', s₁', hserve', hgiven⟩ := hM.follows hlock.shared hserve
      obtain ⟨hr, hs⟩ := hM.serves hlock.shared hserve hserve' hgiven
      refine ⟨_, .tail hb' (.act t call op next' r' s₁' hget' hserve'),
        act hlock t call hnext hr hs, forall₂_concat_iff.mpr ⟨hinputs, .act t call ?_⟩⟩
      rintro op₁ r₁ r₁' heq heq'
      cases heq
      cases heq'
      exact hgiven

end Coupled

end AiK8sGateway.Foundations.EffectProgram
