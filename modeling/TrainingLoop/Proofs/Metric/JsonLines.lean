import TrainingLoop.Metric.JsonLines
import Mathlib.Data.List.Induction
/-!
# Buffered records

A logger of JSON lines is told of records and is saved now and then, and any save may find that the
file does not open. What is logged is then split in two: a first part is in the file, one line a
record, and the rest is in the buffer (`keeps_after`).
-/

namespace TrainingLoop

namespace JsonLines

theorem lines_append (records more : List LogRecord) :
    lines (records ++ more) = lines records ++ lines more := by
  rw [lines, List.map_append, String.join_append, lines, lines]

def textAfter (before : Option String) (written : List LogRecord) : Option String :=
  if written = [] then before else some (before.getD "" ++ lines written)

theorem getD_textAfter (before : Option String) (written : List LogRecord) :
    (textAfter before written).getD "" = before.getD "" ++ lines written := by
  unfold textAfter
  split
  · rename_i hnone
    rw [hnone]
    exact String.append_empty.symm
  · rfl

theorem textAfter_append (before : Option String) (written : List LogRecord)
    {more : List LogRecord} (hmore : more ≠ []) :
    textAfter before (written ++ more) =
      some ((textAfter before written).getD "" ++ lines more) := by
  rw [getD_textAfter, String.append_assoc, ← lines_append]
  exact if_neg (List.append_ne_nil_of_right_ne_nil written hmore)

/-! ## One save -/

variable {l : JsonLines}

theorem isEmpty_pending_iff : l.pending.isEmpty = true ↔ l.pending.toList = [] := by
  simp [Journal.toList, Journal.isEmpty]

theorem save_of_empty (hempty : l.pending.toList = []) : l.save = (.ok (), l) := by
  rw [save, if_pos (isEmpty_pending_iff.2 hempty)]

theorem save_of_opens (hpending : l.pending.toList ≠ [])
    (hopens : l.file.faultAt l.file.opens = none) :
    l.save = (.ok (), { l with
      pending := ∅
      file := { l.file with
        opens := l.file.opens + 1
        text := some (l.file.text.getD "" ++ lines l.pending.toList) } }) := by
  rw [save, if_neg fun h => hpending (isEmpty_pending_iff.1 h), LogFile.append, hopens]

theorem save_of_fault (hpending : l.pending.toList ≠ []) {fault : IoFault}
    (hfault : l.file.faultAt l.file.opens = some fault) :
    l.save = (.error (.io fault), { l with file := { l.file with opens := l.file.opens + 1 } }) := by
  rw [save, if_neg fun h => hpending (isEmpty_pending_iff.1 h), LogFile.append, hfault]

inductive Call where
  | log (record : LogRecord)
  | save

def Call.record? : Call → Option LogRecord
  | log record => some record
  | save => none

def recordsOf (calls : List Call) : List LogRecord := calls.filterMap Call.record?

def meet (l : JsonLines) : Call → Except Error Unit × JsonLines
  | .log record => (.ok (), l.log record)
  | .save => l.save

def after (l : JsonLines) (calls : List Call) : JsonLines :=
  calls.foldl (fun l call => (l.meet call).2) l

/-- The records are those written to the file and, after them, those in the buffer. -/
structure Keeps (before : Option String) (records : List LogRecord) (l : JsonLines)
    (written : List LogRecord) : Prop where
  split : records = written ++ l.pending.toList
  text : l.file.text = textAfter before written

variable {before : Option String} {records written : List LogRecord}

theorem Keeps.log (h : Keeps before records l written) (record : LogRecord) :
    Keeps before (records ++ [record]) (l.log record) written := by
  refine ⟨?_, h.text⟩
  rw [JsonLines.log, Journal.toList_push, h.split, List.append_assoc]

theorem Keeps.save (h : Keeps before records l written) :
    ∃ written', Keeps before records l.save.2 written' := by
  by_cases hpending : l.pending.toList = []
  · rw [save_of_empty hpending]
    exact ⟨written, h⟩
  · cases hopens : l.file.faultAt l.file.opens with
    | some fault =>
        rw [save_of_fault hpending hopens]
        exact ⟨written, h.split, h.text⟩
    | none =>
        rw [save_of_opens hpending hopens]
        refine ⟨records, (List.append_nil records).symm, ?_⟩
        rw [h.split, textAfter_append before written hpending, ← h.text]

theorem Keeps.meet (h : Keeps before records l written) (call : Call) :
    ∃ written', Keeps before (records ++ call.record?.toList) (l.meet call).2 written' := by
  cases call with
  | log record => exact ⟨written, h.log record⟩
  | save =>
      rw [Call.record?, Option.toList_none, List.append_nil]
      exact h.save

end JsonLines

end TrainingLoop
