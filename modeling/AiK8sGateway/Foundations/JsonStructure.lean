import AiK8sGateway.Foundations.JsonDecoder

/-!
# The Structure of Decoded Text

What the decoder accepts is well bracketed outside its strings, and after a string there
stands a separator, a bracket or whitespace.  A cursor that knows the depth and whether it
is inside a string keeps account of that, character by character, so that texts can be
refused without decoding them.

## Main results

- `balanced`: what the decoder takes for a value leaves the cursor where it was.
- `loads_ne_bounded`: the bound of the decoder's recursion is never met.
-/

namespace AiK8sGateway.Foundations.JsonStructure

attribute [local instance] decidableForallChars

/-! ## The cursor -/

/-- Where a cursor is. -/
inductive Mode where
  /-- Outside a string. -/
  | plain
  | quoted
  | escaped
  /-- In an escape that still needs so many hexadecimal digits. -/
  | hex (left : Nat)
  /-- Behind the closing quote of a string. -/
  | closed
  deriving DecidableEq

/-- The number of open brackets, and the mode. -/
abbrev Cursor := Nat × Mode

/-- A character outside a string. -/
def plainStep (depth : Nat) (c : Char) : Option Cursor :=
  if c = '"' then some (depth, .quoted)
  else if c = '\x7b' ∨ c = '[' then some (depth + 1, .plain)
  else if c = '\x7d' ∨ c = ']' then if depth = 0 then none else some (depth - 1, .plain)
  else some (depth, .plain)

/-- What may stand behind a string. -/
def isFollower (c : Char) : Bool := isJsonSpace c || c ∈ [',', ':', ']', '\x7d']

/-- One character. -/
def step : Cursor → Char → Option Cursor
  | (depth, .plain), c => plainStep depth c
  | (depth, .quoted), c =>
    some (depth, if c = '"' then .closed else if c = '\\' then .escaped else .quoted)
  | (depth, .escaped), c =>
    if c = 'u' then some (depth, .hex 4)
    else if (backslash.lookup c).isSome then some (depth, .quoted) else none
  | (depth, .hex left), c =>
    if (hexValue? c).isSome then some (depth, if left ≤ 1 then .quoted else .hex (left - 1))
    else none
  | (depth, .closed), c => if isFollower c then plainStep depth c else none

/-- A text, from a cursor on. -/
def run (p : Cursor) (cs : List Char) : Option Cursor := cs.foldlM step p

@[simp] theorem run_nil (p : Cursor) : run p [] = some p := rfl

@[simp] theorem run_cons (p : Cursor) (c : Char) (cs : List Char) :
    run p (c :: cs) = (step p c).bind (run · cs) := rfl

theorem run_append (p : Cursor) (cs ds : List Char) :
    run p (cs ++ ds) = (run p cs).bind (run · ds) := List.foldlM_append

/-- The cursor goes through a text from mode to mode, at the depth where it starts. -/
def Runs (m : Mode) (cs : List Char) (m' : Mode) : Prop := run (0, m) cs = some (0, m')

/-! ### Depth -/

theorem plainStep_add {depth : Nat} {c : Char} {q : Cursor} (h : plainStep depth c = some q)
    (more : Nat) : plainStep (depth + more) c = some (q.1 + more, q.2) := by
  unfold plainStep at h ⊢
  split_ifs at h ⊢ with hquote hopen hclose hzero hzero'
  · cases h; rfl
  · cases h
    simp only [Option.some.injEq, Prod.mk.injEq, and_true]
    omega
  · omega
  · cases h
    simp only [Option.some.injEq, Prod.mk.injEq, and_true]
    omega
  · cases h; rfl

theorem step_add {p q : Cursor} {c : Char} (h : step p c = some q) (more : Nat) :
    step (p.1 + more, p.2) c = some (q.1 + more, q.2) := by
  obtain ⟨depth, m⟩ := p
  cases m with
  | plain => exact plainStep_add h more
  | quoted =>
    cases h
    rfl
  | escaped =>
    unfold step at h ⊢
    dsimp only at h ⊢
    split_ifs at h ⊢ <;> cases h <;> rfl
  | hex left =>
    unfold step at h ⊢
    dsimp only at h ⊢
    split_ifs at h ⊢ <;> cases h <;> rfl
  | closed =>
    unfold step at h ⊢
    dsimp only at h ⊢
    split_ifs at h ⊢
    exact plainStep_add h more

/-- Further brackets around a text change nothing but the depth. -/
theorem run_add {p q : Cursor} {cs : List Char} (h : run p cs = some q) (more : Nat) :
    run (p.1 + more, p.2) cs = some (q.1 + more, q.2) := by
  induction cs generalizing p with
  | nil =>
    cases h
    rfl
  | cons c cs ih =>
    obtain ⟨r, hstep, hrun⟩ := Option.bind_eq_some_iff.mp h
    rw [run_cons, step_add hstep more]
    exact ih hrun

theorem Runs.at_depth {m m' : Mode} {cs : List Char} (h : Runs m cs m') (depth : Nat) :
    run (depth, m) cs = some (depth, m') := by
  have hadd := run_add h depth
  simpa using hadd

theorem Runs.append {m m' m'' : Mode} {cs ds : List Char} (h : Runs m cs m')
    (h' : Runs m' ds m'') : Runs m (cs ++ ds) m'' := by
  unfold Runs at *
  rw [run_append, h]
  exact h'

/-! ### Behind a value -/

/-- The modes behind a value. -/
def Mode.AfterValue (m : Mode) : Prop := m = .plain ∨ m = .closed

/-- A follower is read alike behind all values. -/
theorem step_follower {m : Mode} (hm : m.AfterValue) (depth : Nat) {c : Char}
    (hc : isFollower c = true) : step (depth, m) c = plainStep depth c := by
  rcases hm with rfl | rfl
  · rfl
  · exact if_pos hc

theorem plainStep_space (depth : Nat) {c : Char} (hc : isJsonSpace c = true) :
    plainStep depth c = some (depth, .plain) := by
  have hspace : ∀ d ∈ [' ', '\t', '\n', '\r'], d ≠ '"' ∧ ¬ (d = '\x7b' ∨ d = '[') ∧
      ¬ (d = '\x7d' ∨ d = ']') := by decide
  obtain ⟨hquote, hopen, hclose⟩ := hspace c (of_decide_eq_true hc)
  rw [plainStep, if_neg hquote, if_neg hopen, if_neg hclose]

/-- Whitespace leads to a mode behind a value again. -/
theorem runs_space {m : Mode} (hm : m.AfterValue) {cs : List Char}
    (hcs : ∀ c ∈ cs, isJsonSpace c = true) : ∃ m', m'.AfterValue ∧ Runs m cs m' := by
  induction cs generalizing m with
  | nil => exact ⟨m, hm, rfl⟩
  | cons c cs ih =>
    obtain ⟨m', hm', hrun⟩ := ih (.inl rfl) fun d hd => hcs d (List.mem_cons_of_mem _ hd)
    have hc := hcs c (List.mem_cons_self ..)
    refine ⟨m', hm', ?_⟩
    unfold Runs
    rw [run_cons, step_follower hm 0 (by simp [isFollower, hc]), plainStep_space 0 hc]
    exact hrun

/-- Every text is whitespace and the text after it. -/
theorem exists_space (cs : List Char) :
    ∃ ws, cs = ws ++ skipSpace cs ∧ ∀ c ∈ ws, isJsonSpace c = true :=
  ⟨cs.takeWhile isJsonSpace, (List.takeWhile_append_dropWhile).symm,
    fun _ hc => List.mem_takeWhile_imp hc⟩

/-- A text in which nothing opens or closes anything. -/
theorem runs_of_inert {cs : List Char}
    (h : ∀ c ∈ cs, plainStep 0 c = some (0, .plain)) : Runs .plain cs .plain := by
  induction cs with
  | nil => rfl
  | cons c cs ih =>
    unfold Runs
    rw [run_cons, show step (0, Mode.plain) c = _ from h c (List.mem_cons_self ..)]
    exact ih fun d hd => h d (List.mem_cons_of_mem _ hd)

/-! ## Strings -/

/-- A text is what was taken and what is left, and what was taken leads from mode to mode. -/
def Takes (m : Mode) (cs rest : List Char) (m' : Mode) : Prop :=
  ∃ taken, taken ≠ [] ∧ cs = taken ++ rest ∧ Runs m taken m'

/-- What is left is shorter. -/
theorem Takes.length_lt {m m' : Mode} {cs rest : List Char} (h : Takes m cs rest m') :
    rest.length < cs.length := by
  obtain ⟨taken, hne, rfl, -⟩ := h
  have hpos := List.length_pos_of_ne_nil hne
  rw [List.length_append]
  omega

/-- A character and what is taken behind it. -/
theorem Takes.cons {m m' m'' : Mode} {c : Char} {cs rest : List Char}
    (hc : step (0, m) c = some (0, m')) (h : Takes m' cs rest m'') :
    Takes m (c :: cs) rest m'' := by
  obtain ⟨taken, -, rfl, hrun⟩ := h
  refine ⟨c :: taken, List.cons_ne_nil _ _, rfl, ?_⟩
  unfold Runs
  rw [run_cons, hc]
  exact hrun

theorem Takes.trans {m m' m'' : Mode} {cs rest rest' : List Char} (h : Takes m cs rest m')
    (h' : Takes m' rest rest' m'') : Takes m cs rest' m'' := by
  obtain ⟨taken, hne, rfl, hrun⟩ := h
  obtain ⟨taken', -, rfl, hrun'⟩ := h'
  refine ⟨taken ++ taken', ?_, (List.append_assoc ..).symm, hrun.append hrun'⟩
  simp [hne]

/-- Four hexadecimal digits. -/
theorem takes_scanHex {cs rest : List Char} {n : Nat} (h : scanHex cs = some (n, rest)) :
    Takes (.hex 4) cs rest .quoted := by
  unfold scanHex at h
  split at h
  · rename_i a b c d rest'
    simp only [Option.bind_eq_bind, Option.bind_eq_some_iff, Option.pure_def,
      Option.some.injEq, Prod.mk.injEq] at h
    obtain ⟨_, ha, _, hb, _, hc, _, hd, -, rfl⟩ := h
    refine ⟨[a, b, c, d], List.cons_ne_nil _ _, rfl, ?_⟩
    simp [Runs, step, ha, hb, hc, hd]
  · cases h

/-- The second half of a surrogate pair is an escape of its own. -/
theorem surrogate_rest (n : Nat) (cs : List Char) :
    (surrogate n cs).2 = cs ∨ Takes .quoted cs (surrogate n cs).2 .quoted := by
  unfold surrogate
  split_ifs
  · split
    · rename_i low rest hlow
      right
      unfold scanLowSurrogate at hlow
      split at hlow
      · have hhex := takes_scanHex (Option.filter_eq_some_iff.mp hlow).1
        have hunicode : Takes .escaped ('u' :: _) rest .quoted := .cons rfl hhex
        exact .cons rfl hunicode
      · cases hlow
    · exact .inl rfl
  · exact .inl rfl
  · exact .inl rfl

/-- One escape. -/
theorem takes_scanEscape {cs rest : List Char} {c : Char} (h : scanEscape cs = some (c, rest)) :
    Takes .escaped cs rest .quoted := by
  unfold scanEscape at h
  split at h
  · cases h
  · rename_i d cs
    split_ifs at h with hu
    · obtain ⟨⟨n, rest'⟩, hhex, heq⟩ := Option.map_eq_some_iff.mp h
      have hrest : (surrogate n rest').2 = rest := congrArg Prod.snd heq
      have htakes : Takes .escaped (d :: cs) rest' .quoted :=
        .cons (by simp [step, hu]) (takes_scanHex hhex)
      rcases surrogate_rest n rest' with hnone | hlow
      · rw [← hrest, hnone]
        exact htakes
      · rw [hrest] at hlow
        exact htakes.trans hlow
    · obtain ⟨e, hlookup, heq⟩ := Option.map_eq_some_iff.mp h
      cases heq
      exact ⟨[d], List.cons_ne_nil _ _, rfl, by simp [Runs, step, hu, hlookup]⟩

/-- The rest of a string, up to its closing quote. -/
theorem takes_scanString {cs rest s : List Char} (h : scanString cs = some (s, rest)) :
    Takes .quoted cs rest .closed := by
  fun_induction scanString cs generalizing s rest with
  | case1 => cases h
  | case2 tail =>
    cases h
    exact ⟨['"'], List.cons_ne_nil _ _, rfl, rfl⟩
  | case3 tail d tail' hescape hquote ih =>
    obtain ⟨⟨s', rest'⟩, hscan, heq⟩ := Option.map_eq_some_iff.mp h
    cases heq
    exact .cons rfl ((takes_scanEscape hescape).trans (ih hscan))
  | case4 => cases h
  | case5 => cases h
  | case6 c tail hquote hback hcontrol ih =>
    obtain ⟨⟨s', rest'⟩, hscan, heq⟩ := Option.map_eq_some_iff.mp h
    cases heq
    exact .cons (by simp [step, hquote, hback]) (ih hscan)

/-! ## Numbers and names -/

/-- A character that is no quote and no bracket. -/
theorem plainStep_of_inert {c : Char} (h : c ∉ ['"', '\x7b', '[', '\x7d', ']']) :
    plainStep 0 c = some (0, .plain) := by
  simp only [List.mem_cons, List.not_mem_nil, or_false, not_or] at h
  obtain ⟨hquote, hopen, hopen', hclose, hclose'⟩ := h
  rw [plainStep, if_neg hquote, if_neg (not_or.mpr ⟨hopen, hopen'⟩),
    if_neg (not_or.mpr ⟨hclose, hclose'⟩)]

theorem takes_scanConstant {cs rest : List Char} {v : Json}
    (h : scanConstant cs = some (v, rest)) : Takes .plain cs rest .plain := by
  obtain ⟨e, hmem, hscan⟩ := List.exists_of_findSome?_eq_some h
  obtain ⟨rest', hdrop, heq⟩ := Option.map_eq_some_iff.mp hscan
  cases heq
  obtain ⟨name, hcs, hname⟩ := List.dropPrefix?_eq_some_iff.mp hdrop
  have hinert : ∀ e ∈ constants, e.1.toList ≠ [] ∧ Runs .plain e.1.toList .plain := by
    unfold Runs
    decide
  obtain ⟨hne, hrun⟩ := hinert e hmem
  obtain rfl : name = e.1.toList := by simpa using hname
  exact ⟨_, hne, hcs, hrun⟩

/-- A character of a number. -/
def isNumberChar (c : Char) : Bool := c.isDigit || c ∈ ['-', '+', '.', 'e', 'E']

theorem isNumberChar_of_isDigit {c : Char} (h : c.isDigit = true) : isNumberChar c = true := by
  simp [isNumberChar, h]

/-- No quote and no bracket is in a number. -/
theorem plainStep_number {c : Char} (h : isNumberChar c = true) :
    plainStep 0 c = some (0, .plain) := by
  apply plainStep_of_inert
  intro hmem
  have hnone : ∀ d ∈ ['"', '\x7b', '[', '\x7d', ']'], isNumberChar d = false := by decide
  rw [hnone c hmem] at h
  cases h

/-- A part of a number: what was taken, and what is left. -/
structure NumberPart (cs taken rest : List Char) : Prop where
  split : cs = taken ++ rest
  chars : ∀ c ∈ taken, isNumberChar c = true

theorem numberPart_nil (cs : List Char) : NumberPart cs [] cs := ⟨rfl, nofun⟩

/-- The leading digits. -/
theorem numberPart_span (cs : List Char) :
    NumberPart cs (cs.span Char.isDigit).1 (cs.span Char.isDigit).2 := by
  rw [List.span_eq_takeWhile_dropWhile]
  exact ⟨(List.takeWhile_append_dropWhile).symm,
    fun _ hc => isNumberChar_of_isDigit (List.mem_takeWhile_imp hc)⟩

theorem NumberPart.cons {c : Char} {cs taken rest : List Char} (hc : isNumberChar c = true)
    (h : NumberPart cs taken rest) : NumberPart (c :: cs) (c :: taken) rest := by
  refine ⟨congrArg (c :: ·) h.split, fun d hd => ?_⟩
  rcases List.mem_cons.mp hd with rfl | hd
  · exact hc
  · exact h.chars d hd

theorem NumberPart.append {cs taken taken' rest rest' : List Char} (h : NumberPart cs taken rest)
    (h' : NumberPart rest taken' rest') : NumberPart cs (taken ++ taken') rest' := by
  refine ⟨by rw [h.split, h'.split, List.append_assoc], fun c hc => ?_⟩
  exact (List.mem_append.mp hc).elim (h.chars c) (h'.chars c)

theorem numberPart_scanSign (cs : List Char) : NumberPart cs (scanSign cs).1 (scanSign cs).2 := by
  unfold scanSign
  split
  · exact (numberPart_nil _).cons (by decide)
  · exact numberPart_nil _

theorem numberPart_scanInteger {cs digits rest : List Char}
    (h : scanInteger cs = some (digits, rest)) : NumberPart cs digits rest ∧ digits ≠ [] := by
  unfold scanInteger at h
  split at h
  · cases h
  · rename_i c tail
    split_ifs at h with hzero hdigit
    · cases h
      rw [hzero]
      exact ⟨(numberPart_nil _).cons (by decide), List.cons_ne_nil _ _⟩
    · have hpart := numberPart_span (c :: tail)
      rw [Option.some.inj h] at hpart
      refine ⟨hpart, ?_⟩
      have hfirst : digits = ((c :: tail).span Char.isDigit).1 := by rw [Option.some.inj h]
      rw [hfirst, List.span_eq_takeWhile_dropWhile, List.takeWhile_cons_of_pos hdigit]
      exact List.cons_ne_nil _ _

theorem numberPart_scanFrac (cs : List Char) : NumberPart cs (scanFrac cs).1 (scanFrac cs).2 := by
  unfold scanFrac
  split
  · dsimp only
    split_ifs
    · exact numberPart_nil _
    · exact (numberPart_span _).cons (by decide)
  · exact numberPart_nil _

theorem numberPart_scanExpSign (cs : List Char) :
    NumberPart cs (scanExpSign cs).1 (scanExpSign cs).2 := by
  unfold scanExpSign
  split
  · split_ifs with hsign
    · refine (numberPart_nil _).cons ?_
      rcases hsign with rfl | rfl <;> decide
    · exact numberPart_nil _
  · exact numberPart_nil _

theorem numberPart_scanExp (cs : List Char) : NumberPart cs (scanExp cs).1 (scanExp cs).2 := by
  unfold scanExp
  split
  · exact numberPart_nil _
  · dsimp only
    split_ifs with hletter
    · exact numberPart_nil _
    · refine ((numberPart_scanExpSign _).append (numberPart_span _)).cons ?_
      rcases hletter with rfl | rfl <;> decide
    · exact numberPart_nil _

/-- A number is its text. -/
theorem numberPart_scanNumber {cs rest : List Char} {t : NumberToken}
    (h : scanNumber cs = some (t, rest)) : NumberPart cs t.text rest ∧ t.text ≠ [] := by
  obtain ⟨⟨digits, rest'⟩, hint, heq⟩ := Option.bind_eq_some_iff.mp h
  cases heq
  obtain ⟨hdigits, hne⟩ := numberPart_scanInteger hint
  refine ⟨((numberPart_scanSign cs).append hdigits).append (numberPart_scanFrac rest')
    |>.append (numberPart_scanExp _), ?_⟩
  simp [NumberToken.text, hne]

theorem takes_scanNumber {cs rest : List Char} {t : NumberToken}
    (h : scanNumber cs = some (t, rest)) : Takes .plain cs rest .plain := by
  obtain ⟨⟨hsplit, hchars⟩, hne⟩ := numberPart_scanNumber h
  exact ⟨t.text, hne, hsplit, runs_of_inert fun c hc => plainStep_number (hchars c hc)⟩

/-! ## Values -/

/-- What stands between two brackets, the closing one and what follows it left over. -/
def Encloses (cs : List Char) (close : Char) (rest : List Char) : Prop :=
  ∃ body m, cs = body ++ close :: rest ∧ m.AfterValue ∧ Runs .plain body m

/-- A value was taken. -/
def TakesValue (cs rest : List Char) : Prop := ∃ m, m.AfterValue ∧ Takes .plain cs rest m

/-- Whitespace before what is taken. -/
theorem Takes.of_skipSpace {cs rest : List Char} {m : Mode}
    (h : Takes .plain (skipSpace cs) rest m) : Takes .plain cs rest m := by
  obtain ⟨ws, hcs, hws⟩ := exists_space cs
  obtain ⟨taken, hne, hsplit, hrun⟩ := h
  have hspace : Runs .plain ws .plain := runs_of_inert fun c hc => plainStep_space 0 (hws c hc)
  refine ⟨ws ++ taken, by simp [hne], ?_, hspace.append hrun⟩
  rw [List.append_assoc, ← hsplit]
  exact hcs

/-- Whitespace behind a value, and the character that ends it. -/
theorem TakesValue.encloses {cs rest rest' : List Char} {c : Char} (h : TakesValue cs rest)
    (hskip : skipSpace rest = c :: rest') : Encloses cs c rest' := by
  obtain ⟨m, hm, taken, -, rfl, hrun⟩ := h
  obtain ⟨ws, hrest, hws⟩ := exists_space rest
  obtain ⟨m', hm', hspace⟩ := runs_space hm hws
  refine ⟨taken ++ ws, m', ?_, hm', hrun.append hspace⟩
  rw [List.append_assoc, ← hskip, ← hrest]

/-- Whitespace before what is enclosed. -/
theorem Encloses.of_skipSpace {cs rest : List Char} {c : Char}
    (h : Encloses (skipSpace cs) c rest) : Encloses cs c rest := by
  obtain ⟨ws, hcs, hws⟩ := exists_space cs
  obtain ⟨body, m, hsplit, hm, hrun⟩ := h
  have hspace : Runs .plain ws .plain := runs_of_inert fun c hc => plainStep_space 0 (hws c hc)
  refine ⟨ws ++ body, m, ?_, hm, hspace.append hrun⟩
  rw [List.append_assoc, ← hsplit]
  exact hcs

/-- Only whitespace is enclosed. -/
theorem encloses_of_skipSpace {cs rest : List Char} {c : Char}
    (hskip : skipSpace cs = c :: rest) : Encloses cs c rest := by
  obtain ⟨ws, hcs, hws⟩ := exists_space cs
  obtain ⟨m', hm', hspace⟩ := runs_space (m := .plain) (.inl rfl) hws
  exact ⟨ws, m', by rw [← hskip]; exact hcs, hm', hspace⟩

/-- A separator behind what is enclosed, and what is enclosed behind it. -/
theorem Encloses.sep {cs rest rest' : List Char} {c d : Char} (h : Encloses cs c rest)
    (hc : isFollower c = true) (hplain : plainStep 0 c = some (0, .plain))
    (h' : Encloses (skipSpace rest) d rest') : Encloses cs d rest' := by
  obtain ⟨body, m, rfl, hm, hrun⟩ := h
  obtain ⟨body', m', hsplit, hm', hrun'⟩ := h'
  obtain ⟨ws, hrest, hws⟩ := exists_space rest
  have hspace : Runs .plain ws .plain := runs_of_inert fun c hc => plainStep_space 0 (hws c hc)
  have hstep : Runs m [c] .plain := by simp [Runs, step_follower hm 0 hc, hplain]
  refine ⟨body ++ [c] ++ ws ++ body', m', ?_, hm',
    ((hrun.append hstep).append hspace).append hrun'⟩
  simp only [List.append_assoc, List.cons_append, List.nil_append, ← hsplit, ← hrest]

/-- The brackets around what is enclosed. -/
theorem Encloses.takesValue {cs rest : List Char} {opening close : Char}
    (h : Encloses cs close rest) (hopen : opening = '\x7b' ∨ opening = '[')
    (hclose : close = '\x7d' ∨ close = ']') : TakesValue (opening :: cs) rest := by
  obtain ⟨body, m, rfl, hm, hrun⟩ := h
  refine ⟨.plain, .inl rfl, opening :: body ++ [close], by simp, by simp, ?_⟩
  have hfirst : step (0, .plain) opening = some (1, .plain) := by
    rcases hopen with rfl | rfl <;> rfl
  have hlast : step (1, m) close = some (0, .plain) := by
    rw [step_follower hm 1 (by rcases hclose with rfl | rfl <;> decide)]
    rcases hclose with rfl | rfl <;> rfl
  unfold Runs
  rw [List.cons_append, run_cons, hfirst, Option.bind_some, run_append, hrun.at_depth 1]
  simp [hlast]

/-- A field: its key, a colon and what is enclosed behind it. -/
theorem encloses_field {cs rest rest' rest'' s : List Char} {d : Char}
    (hkey : scanString cs = some (s, rest)) (hcolon : skipSpace rest = ':' :: rest')
    (h : Encloses (skipSpace rest') d rest'') : Encloses ('"' :: cs) d rest'' := by
  have htakes : TakesValue ('"' :: cs) rest := ⟨.closed, .inr rfl, .cons rfl (takes_scanString hkey)⟩
  exact (htakes.encloses hcolon).sep (by decide) (by decide) h

theorem length_skipSpace_le (cs : List Char) : (skipSpace cs).length ≤ cs.length :=
  (List.dropWhile_sublist _).length_le

theorem TakesValue.length_lt {cs rest : List Char} (h : TakesValue cs rest) :
    rest.length < cs.length := by
  obtain ⟨m, -, htakes⟩ := h
  exact htakes.length_lt

/-! ### The decoder -/

section Decoder

variable [FloatReader]

/-- What the decoder takes with a bound of `n` for its recursion. -/
structure Balanced (n : Nat) : Prop where
  once : ∀ cs v rest, scanOnce n cs = .ok (v, rest) → TakesValue cs rest
  object : ∀ cs v rest, scanOnce n ('\x7b' :: cs) = .ok (v, rest) → Encloses cs '\x7d' rest
  items : ∀ cs items rest, scanItems n cs = .ok (items, rest) → Encloses cs ']' rest
  fields : ∀ cs fields rest, scanFields n cs = .ok (fields, rest) → Encloses cs '\x7d' rest

theorem balanced_zero : Balanced 0 where
  once _ _ _ h := by cases h
  object _ _ _ h := by cases h
  items _ _ _ h := by cases h
  fields _ _ _ h := by cases h

theorem encloses_of_object {n : Nat} (ih : Balanced n) {cs rest : List Char} {v : Json}
    (h : scanOnce (n + 1) ('\x7b' :: cs) = .ok (v, rest)) : Encloses cs '\x7d' rest := by
  unfold scanOnce at h
  rw [if_neg (by decide), if_pos rfl] at h
  split at h
  · rename_i rest' hskip
    cases h
    exact encloses_of_skipSpace hskip
  · cases hfields : scanFields n (skipSpace cs) with
    | error e =>
      rw [hfields] at h
      cases h
    | ok found =>
      rw [hfields] at h
      cases h
      exact (ih.fields _ _ _ hfields).of_skipSpace

theorem encloses_of_array {n : Nat} (ih : Balanced n) {cs rest : List Char} {v : Json}
    (h : scanOnce (n + 1) ('[' :: cs) = .ok (v, rest)) : Encloses cs ']' rest := by
  unfold scanOnce at h
  rw [if_neg (by decide), if_neg (by decide), if_pos rfl] at h
  split at h
  · rename_i rest' hskip
    cases h
    exact encloses_of_skipSpace hskip
  · cases hitems : scanItems n (skipSpace cs) with
    | error e =>
      rw [hitems] at h
      cases h
    | ok found =>
      rw [hitems] at h
      cases h
      exact (ih.items _ _ _ hitems).of_skipSpace

theorem takesValue_of_scanOnce {n : Nat} (ih : Balanced n) {cs rest : List Char} {v : Json}
    (h : scanOnce (n + 1) cs = .ok (v, rest)) : TakesValue cs rest := by
  cases cs with
  | nil => cases h
  | cons c cs =>
    by_cases hobject : c = '\x7b'
    · -- Objects.
      subst hobject
      exact (encloses_of_object ih h).takesValue (.inl rfl) (.inl rfl)
    by_cases harray : c = '['
    · -- Lists.
      subst harray
      exact (encloses_of_array ih h).takesValue (.inr rfl) (.inr rfl)
    unfold scanOnce at h
    by_cases hquote : c = '"'
    · -- Strings.
      subst hquote
      rw [if_pos rfl] at h
      split at h
      · rename_i s rest' hscan
        cases h
        exact ⟨.closed, .inr rfl, .cons rfl (takes_scanString hscan)⟩
      · cases h
    rw [if_neg hquote, if_neg hobject, if_neg harray] at h
    split at h
    · -- Names.
      rename_i v' rest' hscan
      cases h
      exact ⟨.plain, .inl rfl, takes_scanConstant hscan⟩
    · -- Numbers.
      split at h
      · rename_i t rest' hscan
        cases hvalue : t.value with
        | error e =>
          rw [hvalue] at h
          cases h
        | ok v' =>
          rw [hvalue] at h
          cases h
          exact ⟨.plain, .inl rfl, takes_scanNumber hscan⟩
      · cases h

theorem encloses_of_scanItems {n : Nat} (ih : Balanced n) {cs rest : List Char}
    {items : List Json} (h : scanItems (n + 1) cs = .ok (items, rest)) : Encloses cs ']' rest := by
  unfold scanItems at h
  cases hitem : scanOnce n cs with
  | error e =>
    rw [hitem] at h
    cases h
  | ok found =>
    obtain ⟨v, rest'⟩ := found
    have hvalue := ih.once _ _ _ hitem
    rw [hitem] at h
    dsimp only [bind, Except.bind] at h
    split at h
    · -- The bracket: this was the last item.
      rename_i rest'' hskip
      cases h
      exact hvalue.encloses hskip
    · -- A comma: the items behind it are enclosed by the bracket.
      rename_i rest'' hskip
      cases hmore : scanItems n (skipSpace rest'') with
      | error e =>
        rw [hmore] at h
        cases h
      | ok more =>
        rw [hmore] at h
        cases h
        exact (hvalue.encloses hskip).sep (by decide) (by decide) (ih.items _ _ _ hmore)
    · cases h

theorem encloses_of_scanFields {n : Nat} (ih : Balanced n) {cs rest : List Char}
    {fields : List (String × Json)} (h : scanFields (n + 1) cs = .ok (fields, rest)) :
    Encloses cs '\x7d' rest := by
  unfold scanFields at h
  split at h
  · cases h
  · -- The key, the colon and the value.
    rename_i n' tail hn
    cases hn
    split at h
    · cases h
    · rename_i key rest' hkey
      split at h
      · rename_i rest'' hcolon
        cases hvalue : scanOnce n (skipSpace rest'') with
        | error e =>
          rw [hvalue] at h
          cases h
        | ok found =>
          obtain ⟨v, rest₃⟩ := found
          have htakes := ih.once _ _ _ hvalue
          rw [hvalue] at h
          dsimp only [bind, Except.bind] at h
          split at h
          · -- The brace: this was the last field.
            rename_i rest₄ hskip
            cases h
            exact encloses_field hkey hcolon (htakes.encloses hskip)
          · -- A comma: the fields behind it are enclosed by the brace.
            rename_i rest₄ hskip
            cases hmore : scanFields n (skipSpace rest₄) with
            | error e =>
              rw [hmore] at h
              cases h
            | ok more =>
              rw [hmore] at h
              cases h
              exact encloses_field hkey hcolon
                ((htakes.encloses hskip).sep (by decide) (by decide) (ih.fields _ _ _ hmore))
          · cases h
      · cases h
  · cases h

/-- **Balance**: what the decoder takes for a value is well bracketed. -/
theorem balanced (n : Nat) : Balanced n := by
  induction n with
  | zero => exact balanced_zero
  | succ n ih =>
    exact ⟨fun _ _ _ => takesValue_of_scanOnce ih, fun _ _ _ => encloses_of_object ih,
      fun _ _ _ => encloses_of_scanItems ih, fun _ _ _ => encloses_of_scanFields ih⟩

/-! ### The bound of the recursion -/

theorem value_ne_bounded (t : NumberToken) : t.value ≠ .error .bounded := by
  unfold NumberToken.value
  split_ifs <;> simp

/-- A text that is short enough does not meet the bound `n`. -/
structure Unbounded (n : Nat) : Prop where
  once : ∀ cs, 2 * cs.length + 1 ≤ n → scanOnce n cs ≠ .error .bounded
  items : ∀ cs, 2 * cs.length + 2 ≤ n → scanItems n cs ≠ .error .bounded
  fields : ∀ cs, 2 * cs.length + 2 ≤ n → scanFields n cs ≠ .error .bounded

theorem scanOnce_ne_bounded {n : Nat} (ih : Unbounded n) {cs : List Char}
    (hlen : 2 * cs.length + 1 ≤ n + 1) : scanOnce (n + 1) cs ≠ .error .bounded := by
  intro h
  cases cs with
  | nil => cases h
  | cons c cs =>
    have hskip := length_skipSpace_le cs
    rw [List.length_cons] at hlen
    unfold scanOnce at h
    split_ifs at h
    · -- Strings.
      split at h <;> cases h
    · -- Objects: the fields have one character less.
      split at h
      · cases h
      · cases hfields : scanFields n (skipSpace cs) with
        | error e =>
          rw [hfields] at h
          cases h
          exact ih.fields _ (by omega) hfields
        | ok found =>
          rw [hfields] at h
          cases h
    · -- Lists: the items have one character less.
      split at h
      · cases h
      · cases hitems : scanItems n (skipSpace cs) with
        | error e =>
          rw [hitems] at h
          cases h
          exact ih.items _ (by omega) hitems
        | ok found =>
          rw [hitems] at h
          cases h
    · -- Names and numbers.
      split at h
      · cases h
      · split at h
        · rename_i t rest hscan
          cases hvalue : t.value with
          | error e =>
            rw [hvalue] at h
            cases h
            exact value_ne_bounded t hvalue
          | ok v =>
            rw [hvalue] at h
            cases h
        · cases h

theorem scanItems_ne_bounded {n : Nat} (ih : Unbounded n) {cs : List Char}
    (hlen : 2 * cs.length + 2 ≤ n + 1) : scanItems (n + 1) cs ≠ .error .bounded := by
  intro h
  unfold scanItems at h
  cases hitem : scanOnce n cs with
  -- The first item has one call less.
  | error e =>
    rw [hitem] at h
    cases h
    exact ih.once _ (by omega) hitem
  | ok found =>
    -- The value took a character, and so did the comma.
    obtain ⟨v, rest⟩ := found
    have hrest := ((balanced n).once _ _ _ hitem).length_lt
    have hskip := length_skipSpace_le rest
    rw [hitem] at h
    dsimp only [bind, Except.bind] at h
    split at h
    · cases h
    · rename_i rest' hcomma
      have hskip' := length_skipSpace_le rest'
      rw [hcomma, List.length_cons] at hskip
      cases hmore : scanItems n (skipSpace rest') with
      | error e =>
        rw [hmore] at h
        cases h
        exact ih.items _ (by omega) hmore
      | ok more =>
        rw [hmore] at h
        cases h
    · cases h

theorem scanFields_ne_bounded {n : Nat} (ih : Unbounded n) {cs : List Char}
    (hlen : 2 * cs.length + 2 ≤ n + 1) : scanFields (n + 1) cs ≠ .error .bounded := by
  intro h
  unfold scanFields at h
  split at h
  · rename_i heq
    cases heq
  · rename_i n' tail hn
    cases hn
    split at h
    · cases h
    · rename_i key rest hkey
      -- The key took a character, the quote another one.
      have hrest := (takes_scanString hkey).length_lt
      have hskip := length_skipSpace_le rest
      rw [List.length_cons] at hlen
      split at h
      · rename_i rest' hcolon
        have hskip' := length_skipSpace_le rest'
        rw [hcolon, List.length_cons] at hskip
        cases hvalue : scanOnce n (skipSpace rest') with
        | error e =>
          rw [hvalue] at h
          cases h
          exact ih.once _ (by omega) hvalue
        | ok found =>
          -- So did the colon and the value, and then the comma.
          obtain ⟨v, rest₃⟩ := found
          have hrest₃ := ((balanced n).once _ _ _ hvalue).length_lt
          have hskip₃ := length_skipSpace_le rest₃
          rw [hvalue] at h
          dsimp only [bind, Except.bind] at h
          split at h
          · cases h
          · rename_i rest₄ hcomma
            have hskip₄ := length_skipSpace_le rest₄
            rw [hcomma, List.length_cons] at hskip₃
            cases hmore : scanFields n (skipSpace rest₄) with
            | error e =>
              rw [hmore] at h
              cases h
              exact ih.fields _ (by omega) hmore
            | ok more =>
              rw [hmore] at h
              cases h
          · cases h
      · cases h
  · cases h

theorem unbounded (n : Nat) : Unbounded n := by
  induction n with
  | zero => exact ⟨fun _ h => by omega, fun _ h => by omega, fun _ h => by omega⟩
  | succ n ih =>
    exact ⟨fun _ => scanOnce_ne_bounded ih, fun _ => scanItems_ne_bounded ih,
      fun _ => scanFields_ne_bounded ih⟩

/-- **No bound**: the bound of the recursion is no limit of `json.loads`. -/
theorem loads_ne_bounded (s : String) : loads s ≠ .error .bounded := by
  intro h
  unfold loads at h
  dsimp only at h
  cases hscan : scanOnce (2 * (skipSpace s.toList).length + 2) (skipSpace s.toList) with
  | error e =>
    rw [hscan] at h
    cases h
    exact (unbounded _).once _ (by omega) hscan
  | ok found =>
    rw [hscan] at h
    dsimp only [bind, Except.bind] at h
    split_ifs at h <;> cases h

end Decoder

end AiK8sGateway.Foundations.JsonStructure
