import AiK8sGateway.Foundations.JsonRoundTrip
import AiK8sGateway.Foundations.JsonStructure

/-!
# Fragments of Objects

When the texts of objects are cut off and run into one another, `json.loads` accepts what
comes of it only if it is the text of one object, whole and alone.  A fragment opens a
bracket that nothing behind it closes, and the quote of the first key in the next one ends
whatever string the fragment was cut in.

## Main results

- `whole_of_loads`: fragments that are accepted are one object.
- `objectText_dumps`: the text of an object is of the kind that this holds for.
-/

namespace AiK8sGateway.Foundations

open JsonStructure

namespace JsonStructure

/-! ## Objects -/

/-- A text in braces, well bracketed inside. -/
def Braced (cs : List Char) : Prop :=
  ∃ inner m, m.AfterValue ∧ Runs .plain inner m ∧ cs = '\x7b' :: (inner ++ ['\x7d'])

/-- The text of an object whose first key could not continue behind a string. -/
structure ObjectText (cs : List Char) : Prop where
  braced : Braced cs
  firstKey : ∃ c rest, isFollower c = false ∧ cs = '\x7b' :: '"' :: c :: rest

theorem Braced.ne_nil {cs : List Char} (h : Braced cs) : cs ≠ [] := by
  obtain ⟨inner, m, -, -, rfl⟩ := h
  exact List.cons_ne_nil _ _

/-- The closing brace is the end. -/
theorem Braced.at_depth {cs : List Char} (h : Braced cs) (depth : Nat) :
    run (depth, .plain) cs = some (depth, .plain) := by
  obtain ⟨inner, m, hm, hrun, rfl⟩ := h
  have hopen : step (depth, .plain) '\x7b' = some (depth + 1, .plain) := rfl
  have hclose : step (depth + 1, m) '\x7d' = some (depth, .plain) := by
    rw [step_follower hm (depth + 1) (by decide)]
    rfl
  rw [run_cons, hopen, Option.bind_some, run_append, hrun.at_depth]
  simp [hclose]

/-- Before it, the brace is open. -/
theorem Braced.run_prefix {cs p : List Char} (h : Braced cs) (hp : p <+: cs) (hne : p ≠ [])
    (hproper : p ≠ cs) : ∃ depth m, run (0, .plain) p = some (depth + 1, m) := by
  obtain ⟨inner, m, -, hrun, rfl⟩ := h
  cases p with
  | nil => exact absurd rfl hne
  | cons c p =>
    obtain ⟨rfl, hp'⟩ := List.cons_prefix_cons.mp hp
    have hinner : p <+: inner := by
      rcases List.prefix_concat_iff.mp hp' with rfl | hp'
      · exact absurd rfl hproper
      · exact hp'
    obtain ⟨more, rfl⟩ := hinner
    unfold Runs at hrun
    rw [run_append] at hrun
    obtain ⟨⟨depth, m'⟩, hleft, -⟩ := Option.bind_eq_some_iff.mp hrun
    have hadd := run_add hleft 1
    exact ⟨depth, m', by simpa [step, plainStep] using hadd⟩

/-- Of two texts in braces that begin a text, neither goes on after the other. -/
theorem Braced.eq_of_prefix {cs ds text : List Char} (hcs : Braced cs) (hds : Braced ds)
    (hcs' : cs <+: text) (hds' : ds <+: text) : cs = ds := by
  have hnot : ∀ {cs ds : List Char}, Braced cs → Braced ds → cs <+: ds → cs = ds := by
    intro cs ds hcs hds hpre
    by_contra hne
    obtain ⟨depth, m, hrun⟩ := hds.run_prefix hpre hcs.ne_nil hne
    rw [hcs.at_depth 0] at hrun
    cases hrun
  rcases List.prefix_or_prefix_of_prefix hcs' hds' with h | h
  · exact hnot hcs hds h
  · exact (hnot hds hcs h).symm

/-! ## Behind a fragment -/

theorem prefix_append_cases {p cs ds : List Char} (h : p <+: cs ++ ds) :
    p <+: cs ∨ ∃ q, p = cs ++ q ∧ q <+: ds := by
  rcases List.prefix_or_prefix_of_prefix h (List.prefix_append cs ds) with hp | ⟨q, rfl⟩
  · exact .inl hp
  · exact .inr ⟨q, rfl, (List.prefix_append_right_inj cs).mp h⟩

/-- Inside brackets, the text opens and closes brackets of its own only. -/
def StaysInside (cs : List Char) : Prop :=
  ∀ p, p <+: cs → ∀ (depth : Nat) (m : Mode) (q : Cursor),
    run (depth + 1, m) p = some q → 0 < q.1

theorem staysInside_nil : StaysInside [] := by
  intro p hp depth m q h
  rw [List.prefix_nil.mp hp] at h
  cases h
  exact Nat.succ_pos depth

theorem StaysInside.of_prefix {cs ds : List Char} (h : StaysInside ds) (hcs : cs <+: ds) :
    StaysInside cs := fun p hp => h p (hp.trans hcs)

theorem StaysInside.append {cs ds : List Char} (hcs : StaysInside cs) (hds : StaysInside ds) :
    StaysInside (cs ++ ds) := by
  intro p hp depth m q h
  rcases prefix_append_cases hp with hp | ⟨r, rfl, hr⟩
  · exact hcs p hp depth m q h
  · rw [run_append] at h
    obtain ⟨⟨depth', m'⟩, hleft, hright⟩ := Option.bind_eq_some_iff.mp h
    have hpos := hcs cs List.prefix_rfl depth m _ hleft
    obtain ⟨k, rfl⟩ : ∃ k, depth' = k + 1 := ⟨depth' - 1, by dsimp only at hpos; omega⟩
    exact hds r hr k m' q hright

theorem staysInside_flatten {ps : List (List Char)} (h : ∀ p ∈ ps, StaysInside p) :
    StaysInside ps.flatten := by
  induction ps with
  | nil => exact staysInside_nil
  | cons p ps ih =>
    rw [List.flatten_cons]
    exact (h p (List.mem_cons_self ..)).append (ih fun q hq => h q (List.mem_cons_of_mem _ hq))

/-- Whitespace closes nothing. -/
theorem staysInside_space {ends : List Char} (h : ∀ c ∈ ends, isJsonSpace c = true) :
    StaysInside ends := by
  intro p hp
  induction p generalizing ends with
  | nil => exact fun depth m q hrun => staysInside_nil [] List.prefix_rfl depth m q hrun
  | cons c p ih =>
    intro depth m q hrun
    cases ends with
    | nil => exact absurd (List.prefix_nil.mp hp) (List.cons_ne_nil _ _)
    | cons d ends =>
      obtain ⟨rfl, hp'⟩ := List.cons_prefix_cons.mp hp
      have hends : ∀ e ∈ ends, isJsonSpace e = true := fun e he => h e (List.mem_cons_of_mem _ he)
      obtain ⟨⟨depth', m'⟩, hstep, hrest⟩ := Option.bind_eq_some_iff.mp hrun
      -- One step on whitespace keeps the depth, whatever mode it is taken in.
      have hdepth : depth' = depth + 1 := by
        have hspace := plainStep_space (depth + 1) (h c (List.mem_cons_self ..))
        cases m with
        | plain =>
          rw [show step (depth + 1, Mode.plain) c = _ from hspace] at hstep
          cases hstep
          rfl
        | quoted =>
          cases hstep
          rfl
        -- Behind a backslash no whitespace is allowed.
        | escaped =>
          unfold step at hstep
          dsimp only at hstep
          split_ifs at hstep <;> cases hstep <;> rfl
        -- It is no hexadecimal digit either.
        | hex left =>
          unfold step at hstep
          dsimp only at hstep
          split_ifs at hstep <;> cases hstep <;> rfl
        | closed =>
          unfold step at hstep
          dsimp only at hstep
          split_ifs at hstep
          rw [hspace] at hstep
          cases hstep
          rfl
      -- The induction hypothesis takes over behind it.
      subst hdepth
      exact ih hends hp' depth m' q hrest

/-- **Resynchronisation**: wherever a text was cut off inside brackets, an object behind
    it closes none of them. -/
theorem ObjectText.staysInside {cs : List Char} (h : ObjectText cs) : StaysInside cs := by
  intro p hp depth m q hrun
  obtain ⟨first, rest, hfirst, hcs⟩ := h.firstKey
  cases p with
  | nil => exact staysInside_nil [] List.prefix_rfl depth m q hrun
  | cons c p =>
    cases m with
    -- Outside of strings the object opens and closes its own brackets.
    | plain =>
      -- All of it was taken, and the depth is what it was.
      by_cases hwhole : c :: p = cs
      · rw [hwhole, h.braced.at_depth] at hrun
        cases hrun
        exact Nat.succ_pos depth
      · -- A part of it was taken, and brackets of its own are open.
        obtain ⟨depth', m', hinside⟩ := h.braced.run_prefix hp (List.cons_ne_nil _ _) hwhole
        have hadd := run_add hinside (depth + 1)
        rw [Nat.zero_add, hrun] at hadd
        cases hadd
        exact Nat.succ_pos _
    | quoted =>
      -- The brace is in the string, which the quote of the first key ends.
      rw [hcs] at hp
      obtain ⟨rfl, hp₁⟩ := List.cons_prefix_cons.mp hp
      cases p with
      -- The brace alone.
      | nil =>
        cases hrun
        exact Nat.succ_pos depth
      | cons c p =>
        obtain ⟨rfl, hp₂⟩ := List.cons_prefix_cons.mp hp₁
        cases p with
        -- The brace and the quote.
        | nil =>
          cases hrun
          exact Nat.succ_pos depth
        -- The first character of the key has no step behind a closed string.
        | cons c p =>
          obtain ⟨rfl, -⟩ := List.cons_prefix_cons.mp hp₂
          have hquoted : step (depth + 1, .quoted) '\x7b' = some (depth + 1, .quoted) := rfl
          have hclosed : step (depth + 1, .quoted) '"' = some (depth + 1, .closed) := rfl
          have hnone : step (depth + 1, .closed) c = none := if_neg (by simp [hfirst])
          rw [run_cons, hquoted, Option.bind_some, run_cons, hclosed, Option.bind_some, run_cons,
            hnone] at hrun
          cases hrun
    | escaped | hex _ | closed =>
      -- The brace is refused.
      rw [hcs] at hp
      obtain ⟨rfl, -⟩ := List.cons_prefix_cons.mp hp
      cases hrun

/-! ## Acceptance -/

section Decoder

variable [FloatReader]

/-- What `json.loads` takes for an object is a text in braces, and whitespace behind it. -/
theorem braced_of_loads {cs : List Char} {v : Json}
    (h : loads (String.ofList ('\x7b' :: cs)) = .ok v) :
    ∃ taken ends, Braced taken ∧ (∀ c ∈ ends, isJsonSpace c = true) ∧
      '\x7b' :: cs = taken ++ ends := by
  unfold loads at h
  have hskip : skipSpace ('\x7b' :: cs) = '\x7b' :: cs := List.dropWhile_cons_of_neg (by decide)
  dsimp only at h
  rw [String.toList_ofList, hskip] at h
  -- The decoder reads a value, and it is an object from this brace to its own.
  cases hscan : scanOnce (2 * ('\x7b' :: cs).length + 2) ('\x7b' :: cs) with
  | error e =>
    rw [hscan] at h
    cases h
  | ok found =>
    obtain ⟨w, ends⟩ := found
    obtain ⟨body, m, hsplit, hm, hrun⟩ := (balanced _).object _ _ _ hscan
    rw [hscan] at h
    dsimp only [bind, Except.bind] at h
    split_ifs at h with hends
    refine ⟨'\x7b' :: (body ++ ['\x7d']), ends, ⟨body, m, hm, hrun, rfl⟩,
      List.dropWhile_eq_nil_iff.mp hends, ?_⟩
    rw [hsplit]
    simp

/-- **Fragments**: prefixes of objects that run into one another are accepted only if there
    is one, and it is whole. -/
theorem whole_of_loads {p cs ends : List Char} {ps : List (List Char)} {v : Json}
    (hcs : ObjectText cs) (hp : p <+: cs) (hne : p ≠ [])
    (hps : ∀ q ∈ ps, q ≠ [] ∧ ∃ ds, ObjectText ds ∧ q <+: ds)
    (hends : ∀ c ∈ ends, isJsonSpace c = true)
    (h : loads (String.ofList (p ++ (ps.flatten ++ ends))) = .ok v) : p = cs ∧ ps = [] := by
  -- Step 1: what follows the first fragment closes nothing.
  have hinside : StaysInside (ps.flatten ++ ends) := by
    refine (staysInside_flatten fun q hq => ?_).append (staysInside_space hends)
    obtain ⟨-, ds, hds, hpre⟩ := hps q hq
    exact hds.staysInside.of_prefix hpre
  -- Step 2: the fragment begins with a brace, so that the decoder reads an object.
  have hbrace : ∀ {q ds : List Char}, ObjectText ds → q <+: ds → q ≠ [] →
      ∃ q', q = '\x7b' :: q' := by
    intro q ds hds hq hne
    obtain ⟨_, _, -, rfl⟩ := hds.firstKey
    cases q with
    | nil => exact absurd rfl hne
    | cons c q => exact ⟨q, by rw [(List.cons_prefix_cons.mp hq).1]⟩
  obtain ⟨p', hp'⟩ := hbrace hcs hp hne
  have htext : p ++ (ps.flatten ++ ends) = '\x7b' :: (p' ++ (ps.flatten ++ ends)) := by
    rw [hp', List.cons_append]
  rw [htext] at h
  obtain ⟨taken, blank, htaken, hblank, hsplit⟩ := braced_of_loads h
  rw [← htext] at hsplit
  have hpre : taken <+: p ++ (ps.flatten ++ ends) := ⟨blank, hsplit.symm⟩
  -- Step 3: the fragment is whole, because neither end of that object is possible.
  have hwhole : p = cs := by
    by_contra hproper
    obtain ⟨depth, m, hrun⟩ := hcs.braced.run_prefix hp hne hproper
    rcases prefix_append_cases hpre with hshort | ⟨q, rfl, hq⟩
    · -- The decoder stopped inside the fragment.
      have htaken' : taken ≠ cs := by
        rintro rfl
        exact hproper (hp.eq_of_length_le hshort.length_le)
      obtain ⟨depth', m', hrun'⟩ :=
        hcs.braced.run_prefix (hshort.trans hp) htaken.ne_nil htaken'
      rw [htaken.at_depth 0] at hrun'
      cases hrun'
    · -- The decoder went on behind it.
      have hclosed := htaken.at_depth 0
      rw [run_append, hrun, Option.bind_some] at hclosed
      exact absurd (hinside q hq depth m _ hclosed) (lt_irrefl 0)
  -- Step 4: the object is the fragment, and only whitespace may follow.
  subst hwhole
  refine ⟨rfl, ?_⟩
  obtain rfl := hcs.braced.eq_of_prefix htaken (List.prefix_append _ _) hpre
  cases ps with
  | nil => rfl
  | cons q ps =>
    obtain ⟨hne', ds, hds, hq⟩ := hps q (List.mem_cons_self ..)
    obtain ⟨q', rfl⟩ := hbrace hds hq hne'
    have hrest := List.append_cancel_left hsplit
    have hspace := hblank '\x7b' (hrest ▸ by simp)
    exact absurd hspace (by decide)

/-- **Objects** have texts of this kind. -/
theorem objectText_dumps {key : String} {v : Json} {fields : List (String × Json)}
    (h : Loadable (.obj ((key, v) :: fields))) {c : Char} {rest : List Char}
    (hkey : key.toList.flatMap escapeAscii = c :: rest) (hc : isFollower c = false) :
    ObjectText (dumps (.obj ((key, v) :: fields))).toList := by
  have htext : (dumps (.obj ((key, v) :: fields))).toList =
      '\x7b' :: ((dumps.dumpsFields ((key, v) :: fields)).toList ++ ['\x7d']) := by
    rw [dumps]
    simp
  refine ⟨?_, ?_⟩
  · obtain ⟨-, hscan⟩ := roundTrips_of_loadable h
    have hwhole := hscan _ [] (by simp [Delimited]) le_rfl
    rw [List.append_nil, htext] at hwhole
    obtain ⟨body, m, hsplit, hm, hrun⟩ := (balanced _).object _ _ _ hwhole
    exact ⟨body, m, hm, hrun, by rw [htext, hsplit]⟩
  · rw [htext, toList_dumpsFields, fieldText, hkey]
    exact ⟨c, _, hc, rfl⟩

end Decoder

end JsonStructure

end AiK8sGateway.Foundations
