import AiK8sGateway.Audit.Logger
import AiK8sGateway.Foundations.JsonText
import AiK8sGateway.Foundations.LineLog

/-!
# The Audit File

`log` of `app/audit/logger.py` down to the bytes of the file.  A write error is swallowed,
and what it left in the file is where the next record begins.

## Main results

- `logFile_eq_contents`: the file is a line log of the records.
- `readable_iff`: the file reads back as the records whose write succeeded exactly if
  none of them was written after a remainder.
-/

namespace AiK8sGateway.Audit

open Foundations PythonText

/-! ## Records -/

/-- One call of `log`, with the clock reading of its record. -/
structure LogCall where
  timestamp : String
  args : AuditRecord

namespace LogCall

/-- `record`. -/
def record (c : LogCall) : Json :=
  .obj [("timestamp", .str c.timestamp), ("request_id", .str c.args.requestId),
    ("identity", c.args.identity), ("role", c.args.role), ("action", .str c.args.action),
    ("resource", .str c.args.resource), ("namespace", .str c.args.namespace),
    ("params", c.args.params.toJson), ("risk_level", .str c.args.riskLevel.value),
    ("risk_score", .int c.args.riskScore), ("risk_reasons", .arr (c.args.riskReasons.map .str)),
    ("decision", .str c.args.decision.value),
    ("opa_reason", (c.args.opaReason.map Json.str).getD .null),
    ("error", (c.args.error.map Json.str).getD .null)]

/-- `line`. -/
def line (c : LogCall) : String := dumps c.record

theorem newline_notMem_line (c : LogCall) : newline ∉ utf8 c.line := by
  unfold line
  exact newline_notMem_utf8 (printable_dumps c.record)

/-- Every line begins with the brace of its record. -/
theorem utf8_line_ne_nil (c : LogCall) : utf8 c.line ≠ [] := by
  unfold line record
  rw [dumps, utf8, String.toList_append, String.toList_append, List.flatMap_append,
    List.flatMap_append]
  simp [String.utf8EncodeChar_ne_nil]

theorem utf8_line_newline (c : LogCall) : utf8 (c.line ++ "\n") = utf8 c.line ++ [newline] := by
  unfold utf8
  rw [String.toList_append, List.flatMap_append]
  rfl

end LogCall

/-! ## Appending -/

/-- A call with what becomes of its write, and the text of the error if there is one. -/
structure LogAttempt where
  call : LogCall
  outcome : WriteOutcome
  proper : outcome.Proper ((utf8 call.line).length + 1)
  error : String := ""

/-- The attempt as one of a line log. -/
def LogAttempt.append (a : LogAttempt) : LineAppend UInt8 newline :=
  ⟨utf8 a.call.line, a.call.newline_notMem_line, a.outcome, a.proper⟩

section Log

variable [CharTables]

/-- `log`: the file after the call, and what it prints to `stderr`. -/
def log (file : List UInt8) (a : LogAttempt) : List UInt8 × Option String :=
  let warning := "[AUDIT WARNING] Failed to write audit record for request_id=" ++
    quoted a.call.args.requestId ++ ": " ++ a.error
  match a.outcome with
  | .written => (file ++ utf8 (a.call.line ++ "\n"), none)
  | .failed => (file, some warning)
  -- The text was flushed in part only.
  | .torn kept => (file ++ (utf8 (a.call.line ++ "\n")).take kept, some warning)

/-- The file after a sequence of calls. -/
def logFile (attempts : List LogAttempt) : List UInt8 :=
  attempts.foldl (fun file a => (log file a).1) []

/-- A call only appends. -/
theorem log_fst (file : List UInt8) (a : LogAttempt) :
    (log file a).1 = file ++ a.append.added := by
  unfold log LineAppend.added
  rw [LogCall.utf8_line_newline]
  dsimp only [LogAttempt.append]
  cases a.outcome with
  | written => rfl
  | failed => exact (List.append_nil _).symm
  | torn kept => rfl

/-- **The file** is the line log of the attempts. -/
theorem logFile_eq_contents (attempts : List LogAttempt) :
    logFile attempts = LineAppend.contents (attempts.map LogAttempt.append) := by
  have hfold : ∀ file, attempts.foldl (fun file a => (log file a).1) file =
      file ++ LineAppend.contents (attempts.map LogAttempt.append) := by
    intro file
    induction attempts generalizing file with
    | nil => exact (List.append_nil _).symm
    | cons a attempts ih =>
      rw [List.foldl_cons, ih, log_fst, List.append_assoc]
      rfl
  exact hfold []

/-! ## Reading back -/

/-- The call, if its write succeeded. -/
def LogAttempt.succeeded? (a : LogAttempt) : Option LogCall :=
  match a.outcome with
  | .written => some a.call
  | _ => none

/-- The calls whose write succeeded. -/
def succeeded (attempts : List LogAttempt) : List LogCall :=
  attempts.filterMap LogAttempt.succeeded?

/-- The file, split at the newline bytes. -/
def fileLines (attempts : List LogAttempt) : List (List UInt8) :=
  (logFile attempts).splitOn newline

/-- `json.loads` reads the records of these calls back from their lines. -/
def InvertsDumps (loads : List UInt8 → Option Json) (attempts : List LogAttempt) : Prop :=
  ∀ a ∈ attempts, loads (utf8 a.call.line) = some a.call.record

/-- Parsing the lines yields, in call order, every record whose write succeeded. -/
def Yields (loads : List UInt8 → Option Json) (attempts : List LogAttempt) : Prop :=
  ((succeeded attempts).map fun c => some c.record).Sublist ((fileLines attempts).map loads)

/-- Every record whose write succeeded is on the line which that write ended, alone on it,
    and is read back from it. -/
structure Readable (loads : List UInt8 → Option Json) (attempts : List LogAttempt) : Prop where
  ownLine : ((succeeded attempts).map fun c => utf8 c.line) <+: fileLines attempts
  parsed : ((succeeded attempts).map fun c => some c.record) <+: (fileLines attempts).map loads

/-- No record is written after a failed write that left something behind. -/
def NoRecordAfterRemainder (attempts : List LogAttempt) : Prop :=
  attempts.Pairwise fun a b => a.outcome.LeavesRemainder → b.outcome ≠ .written

omit [CharTables] in
theorem written_append (attempts : List LogAttempt) :
    LineAppend.written (attempts.map LogAttempt.append) =
      (succeeded attempts).map fun c => utf8 c.line := by
  unfold LineAppend.written succeeded
  rw [List.filterMap_map, List.map_filterMap]
  apply List.filterMap_congr
  intro a _
  unfold Function.comp LineAppend.written? LogAttempt.succeeded? LogAttempt.append
  dsimp only
  cases a.outcome <;> rfl

theorem ownLine_iff (attempts : List LogAttempt) :
    ((succeeded attempts).map fun c => utf8 c.line) <+: fileLines attempts ↔
      NoRecordAfterRemainder attempts := by
  rw [fileLines, logFile_eq_contents, ← written_append, LineAppend.written_prefix_lines_iff]
  unfold LineAppend.NoneAfterRemainder NoRecordAfterRemainder
  rw [List.pairwise_map]
  rfl

/-- **The audit file** is readable exactly if no record is written after a failed write
    that left something behind, and a readable file yields every record. -/
theorem readable_iff {loads : List UInt8 → Option Json} {attempts : List LogAttempt}
    (hloads : InvertsDumps loads attempts) :
    (Readable loads attempts ↔ NoRecordAfterRemainder attempts) ∧
      (Readable loads attempts → Yields loads attempts) := by
  refine ⟨⟨fun h => (ownLine_iff attempts).mp h.ownLine, fun h => ?_⟩,
    fun h => h.parsed.sublist⟩
  have hlines := (ownLine_iff attempts).mpr h
  refine ⟨hlines, ?_⟩
  -- The lines are those of calls in the sequence, which `loads` reads back.
  have hparsed : ((succeeded attempts).map fun c => utf8 c.line).map loads =
      (succeeded attempts).map fun c => some c.record := by
    rw [List.map_map]
    apply List.map_congr_left
    intro c hc
    obtain ⟨a, ha, hcall⟩ := List.mem_filterMap.mp hc
    obtain rfl : a.call = c := by
      unfold LogAttempt.succeeded? at hcall
      split at hcall
      · exact Option.some.inj hcall
      · cases hcall
    exact hloads a ha
  rw [← hparsed]
  exact hlines.map loads

end Log

section Examples

attribute [local instance] asciiTables

/-- A `json.loads` that knows the line of one call, and refuses any other. -/
def knows (c : LogCall) (line : List UInt8) : Option Json :=
  if line = utf8 c.line then some c.record else none

/-- A write that succeeds. -/
def writtenAttempt (c : LogCall) : LogAttempt where
  call := c
  outcome := .written
  proper := trivial

/-- A write that runs out of space after one byte. -/
def tornAttempt (c : LogCall) : LogAttempt where
  call := c
  outcome := .torn 1
  proper := by
    have hpos := List.length_pos_of_ne_nil c.utf8_line_ne_nil
    show 1 < _
    omega
  error := "[Errno 28] No space left on device"

theorem knows_inverts {c : LogCall} {attempts : List LogAttempt}
    (h : ∀ a ∈ attempts, a.call = c) : InvertsDumps (knows c) attempts := by
  intro a ha
  rw [h a ha, knows, if_pos rfl]

/-- After a torn write the next record is glued to what is left of it. -/
theorem fileLines_tornThenWritten (c : LogCall) :
    fileLines [tornAttempt c, writtenAttempt c] = [(utf8 c.line).take 1 ++ utf8 c.line, []] := by
  have hpos := List.length_pos_of_ne_nil c.utf8_line_ne_nil
  have htorn : (tornAttempt c).append.added = (utf8 c.line).take 1 := by
    simp only [LineAppend.added, LogAttempt.append, tornAttempt]
    exact List.take_append_of_le_length hpos
  have hremainder : newline ∉ (utf8 c.line).take 1 :=
    fun hmem => c.newline_notMem_line (List.mem_of_mem_take hmem)
  have hwritten : (writtenAttempt c).append.added = utf8 c.line ++ [newline] := by
    simp only [LineAppend.added, LogAttempt.append, writtenAttempt]
  have hcontents : logFile [tornAttempt c, writtenAttempt c] =
      (utf8 c.line).take 1 ++ (utf8 c.line ++ [newline]) ++ [] := by
    simp only [logFile_eq_contents, LineAppend.contents, List.map_cons, List.map_nil,
      List.flatMap_cons, List.flatMap_nil, htorn, hwritten, List.append_assoc]
  rw [fileLines, hcontents, LineAppend.lines_line_append hremainder c.newline_notMem_line,
    List.splitOn_nil]

/-- No line of that file is the record whose write succeeded. -/
theorem not_yields_of_torn (c : LogCall) :
    ¬ Yields (knows c) [tornAttempt c, writtenAttempt c] := by
  intro hyields
  have hpos := List.length_pos_of_ne_nil c.utf8_line_ne_nil
  have hglued : knows c ((utf8 c.line).take 1 ++ utf8 c.line) = none := by
    refine if_neg fun heq => ?_
    have hlen := congrArg List.length heq
    rw [List.length_append, List.length_take] at hlen
    omega
  have hempty : knows c [] = none := if_neg fun heq => c.utf8_line_ne_nil heq.symm
  rw [Yields, fileLines_tornThenWritten] at hyields
  have hmem : some c.record ∈ [(utf8 c.line).take 1 ++ utf8 c.line, []].map (knows c) := by
    apply hyields.subset
    exact List.mem_map.mpr ⟨c, List.mem_singleton.mpr rfl, rfl⟩
  simp [hglued, hempty] at hmem

/-- A denied request with a line break in its action. -/
def deniedCall : LogCall where
  timestamp := "2025-01-01T00:00:00+00:00"
  args :=
    { requestId := "r-1", identity := .str "agent-dev", role := .str "developer"
      action := "delete\n", resource := "pods", «namespace» := "default", params := .empty
      riskLevel := .medium, riskScore := 2, riskReasons := [], decision := .deny }

/-- The record of a write that succeeds before a torn one is read back. -/
theorem readable_writtenThenTorn :
    Readable (knows deniedCall) [writtenAttempt deniedCall, tornAttempt deniedCall] := by
  have hinverts : InvertsDumps (knows deniedCall)
      [writtenAttempt deniedCall, tornAttempt deniedCall] :=
    knows_inverts (by simp [writtenAttempt, tornAttempt])
  refine (readable_iff hinverts).1.mpr ?_
  simp [NoRecordAfterRemainder, writtenAttempt, tornAttempt, WriteOutcome.LeavesRemainder]

/-- The record of a write that succeeds after a torn one is lost. -/
theorem not_yields_tornThenWritten :
    ¬ ∀ loads attempts, InvertsDumps loads attempts → Yields loads attempts := by
  intro h
  refine not_yields_of_torn deniedCall (h _ _ (knows_inverts ?_))
  simp [writtenAttempt, tornAttempt]

end Examples

end AiK8sGateway.Audit
