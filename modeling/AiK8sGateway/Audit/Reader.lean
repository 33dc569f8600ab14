import AiK8sGateway.Audit.Console
import AiK8sGateway.Audit.LogFile
import AiK8sGateway.Foundations.JsonCuts
import AiK8sGateway.Foundations.LineGroups

/-!
# Reading the Audit File

`print_audit_tail` of `demo/agent_client.py` on the files that `log` leaves behind, whatever
becomes of the single writes.  A line shows the record of an attempt exactly if the attempt
left the whole of its line and nothing else is on it; any other line is malformed, and the
first of these that the console does not print ends the loop.

## Main results

- `readlines_logFile`: the lines of the file and the attempts behind them.
- `loads_of_shown`, `loads_of_not_shown`: what `json.loads` makes of a line.
- `printAuditTail_logFile`: what is printed.
- `untagged_fileLine`: a line has no closing tag that no record has.
- `recovery_of_logFile`: which records the whole file shows, and how many are lost.
-/

namespace AiK8sGateway.Audit

open Foundations PythonText JsonStructure

attribute [local instance] decidableForallChars

/-! ## Text files -/

/-- The line breaks of a file in text mode. -/
def universalNewlines : List Char → List Char
  | '\r' :: '\n' :: cs => '\n' :: universalNewlines cs
  | '\r' :: cs => '\n' :: universalNewlines cs
  | c :: cs => c :: universalNewlines cs
  | [] => []

/-- `open(path, encoding="utf-8")` and `readlines()`, unless the bytes are no UTF-8. -/
def readlines (file : List UInt8) : Option (List String) :=
  file.toByteArray.utf8Decode?.map fun text =>
    (linesOf '\n' (universalNewlines text.toList)).map String.ofList

/-- `lines[-n:]`. -/
def lastOf {α : Type} (n : Int) (lines : List α) : List α :=
  lines.drop (if 0 < n then lines.length - n.toNat else (-n).toNat)

theorem map_lastOf {α β : Type} (f : α → β) (n : Int) (lines : List α) :
    (lastOf n lines).map f = lastOf n (lines.map f) := by
  rw [lastOf, lastOf, List.map_drop, List.length_map]

theorem lastOf_zero {α : Type} (lines : List α) : lastOf 0 lines = lines := rfl

theorem lastOf_suffix {α : Type} (n : Int) (lines : List α) : lastOf n lines <:+ lines :=
  List.drop_suffix ..

/-! ## `print_audit_tail` -/

/-- What is printed for a line. -/
inductive Panel where
  | entry (record : Json)
  | malformed (line : String)

/-- What can end the loop over the lines. -/
inductive TailExc where
  | loads (e : LoadsError)
  /-- `MarkupError`. -/
  | markupError (msg : String)

/-- How a call ends. -/
inductive AuditTail where
  | notFound
  /-- `UnicodeDecodeError`. -/
  | undecodable
  /-- The panels, and the exception that ended the loop if there was one. -/
  | printed (panels : List Panel) (raised : Option TailExc)

/-- The record of an entry. -/
def Panel.record? : Panel → Option Json
  | entry record => some record
  | malformed _ => none

section Reading

variable [CharTables] [FloatReader] [Console]

/-- The loop over `recent`.  Only a `JSONDecodeError` is caught, and what the `except` clause
    prints may raise on its part. -/
def printLines : List String → List Panel × Option TailExc
  | [] => ([], none)
  | line :: lines =>
    match loads line with
    | .ok record => (.entry record :: (printLines lines).1, (printLines lines).2)
    | .error .jsonDecodeError =>
      match markupError? (malformedText line) with
      | none => (.malformed line :: (printLines lines).1, (printLines lines).2)
      | some msg => ([], some (.markupError msg))
    | .error e => ([], some (.loads e))

/-- `print_audit_tail` on the file, if there is one. -/
def printAuditTail (file : Option (List UInt8)) (n : Int) : AuditTail :=
  match file with
  | none => .notFound
  | some bytes =>
    match readlines bytes with
    | none => .undecodable
    | some lines => .printed (printLines (lastOf n lines)).1 (printLines (lastOf n lines)).2

end Reading

/-! ## The text of the file -/

theorem isAscii_line (c : LogCall) {d : Char} (hd : d ∈ c.line.toList) :
    isPrintableAscii d = true := printable_dumps c.record d hd

theorem length_utf8_line (c : LogCall) : (utf8 c.line).length = c.line.toList.length := by
  rw [utf8, flatMap_utf8EncodeChar fun d hd => toNat_lt_of_printable (isAscii_line c hd),
    List.length_map]

/-- The attempt as one of a line log of characters. -/
def LogAttempt.text (a : LogAttempt) : LineAppend Char '\n' where
  line := a.call.line.toList
  plain := fun hmem => absurd (isAscii_line a.call hmem) (by decide)
  outcome := a.outcome
  proper := by
    have h := a.proper
    rwa [length_utf8_line] at h

@[simp] theorem LogAttempt.line_text (a : LogAttempt) : a.text.line = a.call.line.toList := by
  dsimp only [LogAttempt.text]

/-- The text of the file. -/
def logText (attempts : List LogAttempt) : List Char :=
  LineAppend.contents (attempts.map LogAttempt.text)

theorem utf8_contents_append (a : LogAttempt) :
    a.text.added.flatMap String.utf8EncodeChar = a.append.added := by
  have hplain : ∀ d ∈ a.call.line.toList ++ ['\n'], d.toNat < 0x80 := by
    intro d hd
    rcases List.mem_append.mp hd with hd | hd
    · exact toNat_lt_of_printable (isAscii_line a.call hd)
    · rw [List.mem_singleton.mp hd]
      decide
  have hline : (a.call.line.toList ++ ['\n']).flatMap String.utf8EncodeChar =
      utf8 a.call.line ++ [newline] := by
    rw [List.flatMap_append]
    rfl
  unfold LineAppend.added
  dsimp only [LogAttempt.text, LogAttempt.append]
  cases a.outcome with
  | written => exact hline
  | failed => rfl
  | torn k =>
    dsimp only
    rw [← hline, flatMap_utf8EncodeChar hplain,
      flatMap_utf8EncodeChar fun d hd => hplain d (List.mem_of_mem_take hd), List.map_take]

/-- The bytes of the file are those of its text. -/
theorem logFile_eq_utf8 [CharTables] (attempts : List LogAttempt) :
    logFile attempts = (logText attempts).flatMap String.utf8EncodeChar := by
  rw [logFile_eq_contents, logText, LineAppend.contents, LineAppend.contents, List.flatMap_assoc,
    List.flatMap_map, List.flatMap_map]
  exact List.flatMap_congr fun a _ => (utf8_contents_append a).symm

theorem universalNewlines_of_notMem {cs : List Char} (h : '\r' ∉ cs) :
    universalNewlines cs = cs := by
  fun_induction universalNewlines cs with
  | case1 => exact absurd (List.mem_cons_self ..) h
  | case2 => exact absurd (List.mem_cons_self ..) h
  | case3 c cs _ _ ih => rw [ih fun hmem => h (List.mem_cons_of_mem _ hmem)]
  | case4 => rfl

theorem return_notMem_logText (attempts : List LogAttempt) : '\r' ∉ logText attempts := by
  intro hmem
  obtain ⟨a, ha, hadded⟩ := List.mem_flatMap.mp hmem
  obtain ⟨b, -, rfl⟩ := List.mem_map.mp ha
  rcases LineAppend.mem_of_mem_added hadded with hline | hnewline
  · rw [LogAttempt.line_text] at hline
    have hprintable := isAscii_line b.call hline
    exact absurd hprintable (by decide)
  · exact absurd hnewline (by decide)

/-! ## The attempts behind a line -/

/-- The attempts behind each line of the file. -/
def lineGroups (attempts : List LogAttempt) : List (List LogAttempt) :=
  groups LogAttempt.outcome [] attempts

/-- The text of the line that these attempts share. -/
def fileLine (g : List LogAttempt) : String :=
  String.ofList (LineAppend.contents (g.map LogAttempt.text))

theorem groups_text (attempts : List LogAttempt) :
    groups LineAppend.outcome [] (attempts.map LogAttempt.text) =
      (lineGroups attempts).map (List.map LogAttempt.text) := by
  have hgroups : groups LineAppend.outcome (([] : List LogAttempt).map LogAttempt.text)
      (attempts.map LogAttempt.text) = _ := groups_map LogAttempt.text [] attempts
  rwa [List.map_nil] at hgroups

/-- **Lines**: the lines that `readlines` returns, and the attempts behind them. -/
theorem readlines_logFile [CharTables] (attempts : List LogAttempt) :
    readlines (logFile attempts) = some ((lineGroups attempts).map fileLine) := by
  have hdecode : (logFile attempts).toByteArray.utf8Decode? = some (logText attempts).toArray := by
    rw [logFile_eq_utf8]
    exact List.utf8Decode?_utf8Encode
  unfold readlines
  rw [hdecode, Option.map_some, List.toList_toArray,
    universalNewlines_of_notMem (return_notMem_logText attempts), logText,
    LineAppend.linesOf_contents, groups_text, List.map_map, List.map_map]
  rfl

/-- The attempt left the whole of its line. -/
def LogAttempt.isWhole (a : LogAttempt) : Bool := a.text.isWhole

/-- The attempt that a line shows, if any. -/
def shownBy (g : List LogAttempt) : Option LogAttempt := alone? LogAttempt.isWhole g

/-- The attempts whose lines show their records. -/
def shown (attempts : List LogAttempt) : List LogAttempt :=
  legible LogAttempt.outcome LogAttempt.isWhole attempts

/-- The attempts that failed and left something behind. -/
def remainders (attempts : List LogAttempt) : List LogAttempt :=
  attempts.filter (isRemainder LogAttempt.outcome)

theorem isWhole_of_written {a : LogAttempt} (h : a.outcome = .written) : a.isWhole = true := by
  have houtcome : a.text.outcome = .written := h
  rw [LogAttempt.isWhole, LineAppend.isWhole_iff, LineAppend.kept, houtcome]

theorem succeeded_eq (attempts : List LogAttempt) :
    succeeded attempts = (attempts.filter (isWritten LogAttempt.outcome)).map LogAttempt.call := by
  rw [succeeded, ← List.filterMap_eq_map, List.filterMap_filter]
  refine List.filterMap_congr fun a _ => ?_
  unfold LogAttempt.succeeded? isWritten
  cases a.outcome <;> rfl

theorem length_succeeded (attempts : List LogAttempt) :
    (succeeded attempts).length = attempts.countP (isWritten LogAttempt.outcome) := by
  rw [succeeded_eq, List.length_map, List.countP_eq_length_filter]

/-- Without remainders the lines show the records that were written. -/
theorem shown_of_noRemainder {attempts : List LogAttempt}
    (h : ∀ a ∈ attempts, ¬ a.outcome.LeavesRemainder) :
    shown attempts = attempts.filter (isWritten LogAttempt.outcome) := by
  have halone : ∀ a ∈ attempts.filter (isWritten LogAttempt.outcome),
      alone? LogAttempt.isWhole [a] = some a := by
    intro a ha
    have hwritten : a.outcome = .written := of_decide_eq_true (List.mem_filter.mp ha).2
    exact if_pos (isWhole_of_written hwritten)
  rw [shown, legible, groups_of_noRemainder h, List.filterMap_map]
  exact (List.filterMap_congr halone).trans List.filterMap_some

/-- The panel for a line. -/
def panelOf (g : List LogAttempt) : Panel :=
  match shownBy g with
  | some a => .entry a.call.record
  | none => .malformed (fileLine g)

theorem record?_panelOf (g : List LogAttempt) :
    (panelOf g).record? = (shownBy g).map fun a => a.call.record := by
  unfold panelOf
  cases shownBy g <;> rfl

/-- The records of the panels. -/
theorem records_of_panels (gs : List (List LogAttempt)) :
    (gs.map panelOf).filterMap Panel.record? =
      (gs.filterMap shownBy).map fun a => a.call.record := by
  rw [List.filterMap_map, List.map_filterMap]
  exact List.filterMap_congr fun g _ => record?_panelOf g

/-! ## Lines that are not printed -/

/-- No string and no key of the record has a closing tag. -/
def LogAttempt.isUntagged (a : LogAttempt) : Bool :=
  a.call.record.allStrings fun s => decide (Untagged s.toList)

section Printing

variable [CharTables] [Console]

/-- The exception that printing the panel for a line ends with, if any. -/
def raisedBy (g : List LogAttempt) : Option TailExc :=
  match shownBy g with
  | some _ => none
  | none => (markupError? (malformedText (fileLine g))).map .markupError

/-- The lines before the first one that is not printed. -/
def printedBefore (gs : List (List LogAttempt)) : List (List LogAttempt) :=
  gs.takeWhile fun g => (raisedBy g).isNone

theorem printedBefore_printed {g : List LogAttempt} (h : raisedBy g = none)
    (gs : List (List LogAttempt)) : printedBefore (g :: gs) = g :: printedBefore gs :=
  List.takeWhile_cons_of_pos (by rw [h]; rfl)

theorem printedBefore_raised {g : List LogAttempt} {e : TailExc} (h : raisedBy g = some e)
    (gs : List (List LogAttempt)) : printedBefore (g :: gs) = [] :=
  List.takeWhile_cons_of_neg (by rw [h]; exact Bool.false_ne_true)

theorem printed_all {gs : List (List LogAttempt)} (h : ∀ g ∈ gs, raisedBy g = none) :
    printedBefore gs = gs ∧ gs.findSome? raisedBy = none := by
  refine ⟨List.takeWhile_eq_self_iff.mpr fun g hg => ?_, List.findSome?_eq_none_iff.mpr h⟩
  rw [h g hg]
  rfl

/-- Without remainders there is no malformed line. -/
theorem raisedBy_of_noRemainder {attempts g : List LogAttempt}
    (h : ∀ a ∈ attempts, ¬ a.outcome.LeavesRemainder) (hg : g ∈ lineGroups attempts) :
    raisedBy g = none := by
  rw [lineGroups, groups_of_noRemainder h] at hg
  obtain ⟨a, ha, rfl⟩ := List.mem_map.mp hg
  have hwritten : a.outcome = .written := of_decide_eq_true (List.mem_filter.mp ha).2
  have hshown : shownBy [a] = some a := if_pos (isWhole_of_written hwritten)
  rw [raisedBy, hshown]

end Printing

/-! ## What `json.loads` makes of a line -/

section Lines

variable [FloatReader]

/-- The claims and the params of a record are what `json.loads` returns, and its score has
    not too many digits. -/
structure FromJson (r : AuditRecord) : Prop where
  identity : Loadable r.identity
  role : Loadable r.role
  params : Loadable r.params.toJson
  score : (natDigits r.riskScore.natAbs).length ≤ maxStrDigits

theorem loadable_optional (s : Option String) : Loadable ((s.map Json.str).getD .null) := by
  cases s with
  | none => exact .null
  | some s => exact .str s

/-- A record is an object that is read back, and begins with its timestamp. -/
theorem isRecord_of_fromJson {c : LogCall} (h : FromJson c.args) : IsRecord c.record := by
  have hreasons : Loadable (.arr (c.args.riskReasons.map .str)) := by
    refine .arr fun v hv => ?_
    obtain ⟨s, -, rfl⟩ := List.mem_map.mp hv
    exact .str s
  have hloadable : Loadable c.record := by
    refine .obj (by simp) ?_
    simp only [List.forall_mem_cons]
    exact ⟨.str _, .str _, h.identity, h.role, .str _, .str _, .str _, h.params, .str _,
      .int h.score, hreasons, .str _, loadable_optional _, loadable_optional _, nofun⟩
  have hkey : "timestamp".toList.flatMap escapeAscii = 't' :: "imestamp".toList := by decide
  exact ⟨hloadable, objectText_dumps hloadable hkey (by decide)⟩

/-- Attempts with such records. -/
def AllFromJson (attempts : List LogAttempt) : Prop := ∀ a ∈ attempts, FromJson a.call.args

/-- Fragments of records before other fragments. -/
theorem fragments_append {g : List LogAttempt} (h : AllFromJson g)
    (hkept : ∀ a ∈ g, a.text.kept ≠ []) {rest : List Char} (hrest : Fragments rest) :
    Fragments ((g.map LogAttempt.text).flatMap LineAppend.kept ++ rest) := by
  induction g with
  | nil => exact hrest
  | cons a g ih =>
    have hpre : a.text.kept <+: (dumps a.call.record).toList := by
      have hkept := a.text.kept_prefix
      rwa [LogAttempt.line_text] at hkept
    rw [List.map_cons, List.flatMap_cons, List.append_assoc]
    exact .cons (isRecord_of_fromJson (h a (List.mem_cons_self ..))) hpre
      (hkept a (List.mem_cons_self ..))
      (ih (fun b hb => h b (List.mem_cons_of_mem _ hb)) fun b hb =>
        hkept b (List.mem_cons_of_mem _ hb))

/-- The text of a line: fragments of records, and perhaps a line break. -/
structure LineShape (g : List LogAttempt) (ends : List Char) : Prop where
  ne_nil : g ≠ []
  kept : ∀ a ∈ g, a.text.kept ≠ []
  space : ∀ c ∈ ends, isJsonSpace c = true
  contents : LineAppend.contents (g.map LogAttempt.text) =
    (g.map LogAttempt.text).flatMap LineAppend.kept ++ ends
  fragments : Fragments (LineAppend.contents (g.map LogAttempt.text))

theorem lineShape_of_group {attempts g : List LogAttempt} (hg : g ∈ lineGroups attempts)
    (h : AllFromJson attempts) : ∃ ends, LineShape g ends := by
  have hall : AllFromJson g := fun a ha => h a (mem_of_mem_groups hg ha)
  -- Step 1: the attempts of the group share a line of the file.
  have hshares : LineAppend.SharesLine (g.map LogAttempt.text) := by
    have hmem : g.map LogAttempt.text ∈
        groups LineAppend.outcome [] (attempts.map LogAttempt.text) := by
      rw [groups_text]
      exact List.mem_map_of_mem hg
    exact LineAppend.sharesLine_of_mem_groups LineAppend.unended_nil hmem
  -- Step 2: each of them left something there, as no record is empty.
  have hkept : ∀ a ∈ g, a.text.kept ≠ [] := by
    intro a ha
    refine hshares.kept_ne_nil (fun b hb => ?_) (List.mem_map_of_mem ha)
    obtain ⟨a', ha', rfl⟩ := List.mem_map.mp hb
    rw [LogAttempt.line_text]
    exact (isRecord_of_fromJson (hall a' ha')).text.braced.ne_nil
  have hne : g ≠ [] := fun hnil => hshares.ne_nil (by rw [hnil, List.map_nil])
  generalize hmap : g.map LogAttempt.text = pieces at hshares
  cases hshares with
  | @ended before hunended b hb =>
    -- The last attempt wrote its line and the line break.
    obtain ⟨g', last, rfl, rfl, hlast⟩ := List.map_eq_append_iff.mp hmap
    obtain ⟨x, rfl, rfl⟩ := List.map_eq_singleton_iff.mp hlast
    have hadded : x.text.added = x.text.line ++ ['\n'] := by rw [LineAppend.added, hb]
    have hwhole : x.text.kept = x.text.line := by rw [LineAppend.kept, hb]
    have hsplit : LineAppend.contents ((g' ++ [x]).map LogAttempt.text) =
        (g'.map LogAttempt.text).flatMap LineAppend.kept ++ (x.text.line ++ ['\n']) := by
      rw [List.map_append, LineAppend.contents_append, hunended.contents_eq]
      simp [LineAppend.contents, hadded]
    -- The line break is whitespace behind a whole record.
    have hspace : ∀ c ∈ ['\n'], isJsonSpace c = true := by decide
    refine ⟨['\n'], hne, hkept, hspace, ?_, ?_⟩
    · rw [hsplit, List.map_append, List.flatMap_append]
      simp [hwhole]
    · rw [hsplit, LogAttempt.line_text]
      have hx := isRecord_of_fromJson (hall x (List.mem_append_right _ (List.mem_cons_self ..)))
      exact fragments_append (fun a ha => hall a (List.mem_append_left _ ha))
        (fun a ha => hkept a (List.mem_append_left _ ha)) (.ended hx hspace)
  -- Nothing ends the last line, which is made of fragments only.
  | unended hunended _ =>
    refine ⟨[], hne, hkept, List.forall_mem_nil _, ?_, ?_⟩
    · rw [hmap, hunended.contents_eq, List.append_nil]
    · rw [hmap, hunended.contents_eq, ← hmap, ← List.append_nil ((g.map _).flatMap _)]
      exact fragments_append hall hkept .nil

/-- The record of an attempt that is alone on its line is read back. -/
theorem loads_of_shown {attempts g : List LogAttempt} (hg : g ∈ lineGroups attempts)
    (h : AllFromJson attempts) {a : LogAttempt} (ha : shownBy g = some a) :
    loads (fileLine g) = .ok a.call.record := by
  obtain ⟨ends, hshape⟩ := lineShape_of_group hg h
  obtain ⟨rfl, hwhole⟩ := eq_singleton_of_alone? ha
  have hrecord := isRecord_of_fromJson (h a (mem_of_mem_groups hg (List.mem_cons_self ..)))
  have hkept : a.text.kept = a.call.line.toList := by
    rw [LineAppend.isWhole_iff.mp hwhole, LogAttempt.line_text]
  have hline : fileLine [a] = dumps a.call.record ++ String.ofList ends := by
    rw [fileLine, hshape.contents]
    simp [hkept, LogCall.line]
  rw [hline]
  exact loads_dumps_append hrecord.loadable hshape.space

/-- Any other line is refused. -/
theorem loads_of_not_shown {attempts g : List LogAttempt} (hg : g ∈ lineGroups attempts)
    (h : AllFromJson attempts) (hnone : shownBy g = none) :
    loads (fileLine g) = .error .jsonDecodeError := by
  obtain ⟨ends, hshape⟩ := lineShape_of_group hg h
  cases hload : loads (fileLine g) with
  | error e =>
    -- The decoder has one error for fragments.
    cases e with
    | jsonDecodeError => rfl
    | valueError => exact absurd hload (loads_ne_valueError hshape.fragments)
    | bounded => exact absurd hload (loads_ne_bounded _)
  | ok v =>
    -- Accepted fragments are one record that is whole.
    exfalso
    cases g with
    | nil => exact hshape.ne_nil rfl
    | cons a g =>
      -- Every attempt was about a record, whatever is left of it.
      have hrecord : ∀ b ∈ a :: g, ObjectText b.text.line := by
        intro b hb
        rw [LogAttempt.line_text]
        exact (isRecord_of_fromJson (h b (mem_of_mem_groups hg hb))).text
      rw [fileLine, hshape.contents, List.map_cons, List.flatMap_cons, List.append_assoc,
        List.flatMap_def] at hload
      have hrest : ∀ q ∈ (g.map LogAttempt.text).map LineAppend.kept,
          q ≠ [] ∧ ∃ ds, ObjectText ds ∧ q <+: ds := by
        intro q hq
        obtain ⟨_, htext, rfl⟩ := List.mem_map.mp hq
        obtain ⟨b, hb, rfl⟩ := List.mem_map.mp htext
        have hb' := List.mem_cons_of_mem a hb
        exact ⟨hshape.kept b hb', _, hrecord b hb', b.text.kept_prefix⟩
      obtain ⟨hwhole, hnil⟩ := whole_of_loads (hrecord a (List.mem_cons_self ..))
        a.text.kept_prefix (hshape.kept a (List.mem_cons_self ..)) hrest hshape.space hload
      -- It is alone on the line, which the line was said not to be.
      obtain rfl : g = [] := by simpa using hnil
      have halone : shownBy [a] = some a := if_pos (LineAppend.isWhole_iff.mpr hwhole)
      rw [halone] at hnone
      cases hnone

/-! ## Closing tags -/

/-- Fragments of records without closing tags have none either. -/
theorem untagged_kept {g : List LogAttempt} (h : AllFromJson g)
    (hplain : ∀ a ∈ g, a.isUntagged = true) {ends : List Char}
    (hends : ∀ c ∈ ends, isJsonSpace c = true) :
    Untagged ((g.map LogAttempt.text).flatMap LineAppend.kept ++ ends) ∧
      ((g.map LogAttempt.text).flatMap LineAppend.kept ++ ends).head? ≠ some '/' := by
  induction g with
  | nil =>
    -- Whitespace has neither of the two characters.
    have hspace : ∀ c ∈ ends, c ≠ '[' ∧ c ≠ '/' := by
      rintro c hc
      constructor
      all_goals
        rintro rfl
        exact absurd (hends _ hc) (by decide)
    refine ⟨untagged_of_notMem fun hmem => (hspace _ hmem).1 rfl, fun hhead => ?_⟩
    exact (hspace _ (List.mem_of_head? hhead)).2 rfl
  | cons a g ih =>
    obtain ⟨hrest, hhead⟩ := ih (fun b hb => h b (List.mem_cons_of_mem _ hb)) fun b hb =>
      hplain b (List.mem_cons_of_mem _ hb)
    -- What is kept of a record is a beginning of its line, which has no closing tag.
    have hcut : a.text.kept <+: a.call.line.toList := by
      have hkept := a.text.kept_prefix
      rwa [LogAttempt.line_text] at hkept
    have hkept : Untagged a.text.kept :=
      List.IsChain.prefix (inert_dumps (hplain a (List.mem_cons_self ..))).1 hcut
    rw [List.map_cons, List.flatMap_cons, List.append_assoc]
    refine ⟨untagged_append hkept hrest fun _ => hhead, ?_⟩
    -- What is kept of a record is empty, or begins with its brace.
    obtain ⟨c, more, -, hline⟩ :=
      (isRecord_of_fromJson (h a (List.mem_cons_self ..))).text.firstKey
    cases hfirst : a.text.kept with
    | nil => rwa [List.nil_append]
    | cons d ds =>
      rw [hfirst, LogCall.line, hline, List.cons_prefix_cons] at hcut
      rw [hcut.1]
      exact fun hslash => absurd (Option.some.inj hslash) (by decide)

/-- A line has no closing tag that no record has. -/
theorem untagged_fileLine {attempts g : List LogAttempt} (hg : g ∈ lineGroups attempts)
    (h : AllFromJson attempts) (hplain : ∀ a ∈ attempts, a.isUntagged = true) :
    Untagged (fileLine g).toList := by
  obtain ⟨ends, hshape⟩ := lineShape_of_group hg h
  rw [fileLine, String.toList_ofList, hshape.contents]
  exact (untagged_kept (fun a ha => h a (mem_of_mem_groups hg ha))
    (fun a ha => hplain a (mem_of_mem_groups hg ha)) hshape.space).1

/-! ## What is printed -/

variable [CharTables] [Console]

theorem printLines_of_groups {attempts : List LogAttempt} (h : AllFromJson attempts)
    {gs : List (List LogAttempt)} (hgs : gs ⊆ lineGroups attempts) :
    printLines (gs.map fileLine) = ((printedBefore gs).map panelOf, gs.findSome? raisedBy) := by
  induction gs with
  | nil => rfl
  | cons g gs ih =>
    have hg := hgs (List.mem_cons_self ..)
    have hrest := ih fun x hx => hgs (List.mem_cons_of_mem _ hx)
    rw [List.map_cons, printLines, List.findSome?_cons]
    cases hshown : shownBy g with
    -- The record of the line is printed.
    | some a =>
      have hpanel : panelOf g = .entry a.call.record := by rw [panelOf, hshown]
      have hraised : raisedBy g = none := by rw [raisedBy, hshown]
      rw [loads_of_shown hg h hshown, hrest, printedBefore_printed hraised, hraised,
        List.map_cons, hpanel]
    | none =>
      have hpanel : panelOf g = .malformed (fileLine g) := by rw [panelOf, hshown]
      rw [loads_of_not_shown hg h hshown]
      dsimp only
      cases hmarkup : markupError? (malformedText (fileLine g)) with
      -- The line is printed as malformed.
      | none =>
        have hraised : raisedBy g = none := by
          rw [raisedBy, hshown, hmarkup]
          rfl
        rw [hrest, printedBefore_printed hraised, hraised, List.map_cons, hpanel]
      | some msg =>
        -- The loop ends here.
        have hraised : raisedBy g = some (.markupError msg) := by
          rw [raisedBy, hshown, hmarkup]
          rfl
        rw [printedBefore_raised hraised, hraised, List.map_nil]

/-- **The audit tail**: for each of the last lines, the record of the one attempt that is
    alone on it and whole; for any other line, that it is malformed.  The first line of these
    that the console refuses ends the loop. -/
theorem printAuditTail_logFile {attempts : List LogAttempt} (h : AllFromJson attempts) (n : Int) :
    printAuditTail (some (logFile attempts)) n =
      .printed ((printedBefore (lastOf n (lineGroups attempts))).map panelOf)
        ((lastOf n (lineGroups attempts)).findSome? raisedBy) := by
  have hlines := printLines_of_groups h (lastOf_suffix n (lineGroups attempts)).subset
  unfold printAuditTail
  dsimp only
  rw [readlines_logFile]
  dsimp only
  rw [← map_lastOf, hlines]

/-- No line raises if no record has a closing tag. -/
theorem raisedBy_of_untagged {attempts g : List LogAttempt} (hg : g ∈ lineGroups attempts)
    (h : AllFromJson attempts) (hplain : ∀ a ∈ attempts, a.isUntagged = true) :
    raisedBy g = none := by
  unfold raisedBy
  cases shownBy g with
  | some a => rfl
  | none =>
    dsimp only
    rw [printed_of_untagged (untagged_fileLine hg h hplain)]
    rfl

/-- All of the last lines are printed if no record has a closing tag. -/
theorem printAuditTail_of_untagged {attempts : List LogAttempt} (h : AllFromJson attempts)
    (hplain : ∀ a ∈ attempts, a.isUntagged = true) (n : Int) :
    printAuditTail (some (logFile attempts)) n =
      .printed ((lastOf n (lineGroups attempts)).map panelOf) none := by
  have hquiet : ∀ g ∈ lastOf n (lineGroups attempts), raisedBy g = none := fun g hg =>
    raisedBy_of_untagged ((lastOf_suffix n _).subset hg) h hplain
  obtain ⟨hall, hnone⟩ := printed_all hquiet
  rw [printAuditTail_logFile h, hall, hnone]

/-! ## What is recovered -/

/-- What a reader of the whole file gets out of it: these panels, and perhaps an exception. -/
structure Recovery (attempts : List LogAttempt) (panels : List Panel)
    (raised : Option TailExc) : Prop where
  /-- The entries are records of the calls, in their order, and no call comes twice. -/
  inOrder : ∃ seen : List LogAttempt, seen.Sublist attempts ∧
    panels.filterMap Panel.record? = seen.map fun a => a.call.record
  /-- Without remainders the entries are the records that were written. -/
  complete : (∀ a ∈ attempts, ¬ a.outcome.LeavesRemainder) →
    raised = none ∧ panels.filterMap Panel.record? = (succeeded attempts).map LogCall.record
  /-- Without closing tags every record that is alone on its line is there. -/
  exact : (∀ a ∈ attempts, a.isUntagged = true) →
    raised = none ∧ panels.filterMap Panel.record? = (shown attempts).map fun a => a.call.record
  /-- Each remainder costs one record at most. -/
  damage : (∀ a ∈ attempts, a.isUntagged = true) →
    (succeeded attempts).length ≤
      (panels.filterMap Panel.record?).length + (remainders attempts).length

/-- **Recovery**: what the entries of the whole file are, and how much is lost. -/
theorem recovery_of_logFile {attempts : List LogAttempt} (h : AllFromJson attempts) :
    ∃ panels raised, printAuditTail (some (logFile attempts)) 0 = .printed panels raised ∧
      Recovery attempts panels raised := by
  have hshown : shown attempts = (lineGroups attempts).filterMap shownBy := rfl
  -- Without closing tags nothing is raised, and all groups are printed.
  have hexact : (∀ a ∈ attempts, a.isUntagged = true) →
      (lineGroups attempts).findSome? raisedBy = none ∧
        ((printedBefore (lineGroups attempts)).map panelOf).filterMap Panel.record? =
          (shown attempts).map fun a => a.call.record := by
    intro hplain
    obtain ⟨hall, hnone⟩ := printed_all fun g hg => raisedBy_of_untagged hg h hplain
    exact ⟨hnone, by rw [hall, records_of_panels, hshown]⟩
  refine ⟨_, _, printAuditTail_logFile h 0, ?_⟩
  rw [lastOf_zero]
  refine ⟨⟨_, ?_, records_of_panels _⟩, fun hnone => ?_, hexact, fun hplain => ?_⟩
  · -- The lines that are printed come first.
    have hfirst : (printedBefore (lineGroups attempts)).Sublist (lineGroups attempts) :=
      (List.takeWhile_prefix _).sublist
    exact (hfirst.filterMap shownBy).trans (legible_sublist attempts)
  · -- Without remainders every group is a whole record.
    obtain ⟨hall, hquiet⟩ := printed_all fun g hg => raisedBy_of_noRemainder hnone hg
    refine ⟨hquiet, ?_⟩
    rw [hall, records_of_panels, ← hshown, shown_of_noRemainder hnone, succeeded_eq, List.map_map]
    rfl
  · -- Each remainder takes one whole line with it at most.
    rw [(hexact hplain).2, List.length_map, length_succeeded, remainders,
      ← List.countP_eq_length_filter]
    exact countP_written_le (fun a => isWhole_of_written) attempts

end Lines

end AiK8sGateway.Audit
