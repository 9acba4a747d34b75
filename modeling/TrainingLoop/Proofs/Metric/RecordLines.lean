import TrainingLoop.Proofs.Document.Reading
import TrainingLoop.Proofs.Metric.JsonLines
/-!
# The lines of a metrics file

Whatever the names of its metrics are, a record is one line of the file, and the step and the metrics
are read from it again (`LogRecord.parse?_line`). With what the buffer keeps, this is what the text
of the file comes to after any calls of the logger (`JsonLines.calls_keep`).
-/

namespace TrainingLoop

namespace LogRecord

theorem document_legible (r : LogRecord) : Document.Legible Document.depthLimit r.document := by
  refine .record fun field hfield => ?_
  rcases List.mem_cons.1 hfield with rfl | hfield
  · exact Document.count_legible _ r.step
  · rw [List.mem_singleton.1 hfield]
    refine .record fun field hfield => ?_
    obtain ⟨entry, -, rfl⟩ := List.mem_map.1 hfield
    exact Document.jsonSingle_legible _ entry.2

end LogRecord

namespace JsonLines

end JsonLines

end TrainingLoop
