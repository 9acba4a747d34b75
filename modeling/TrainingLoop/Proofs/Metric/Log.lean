import TrainingLoop.Metric.Log
import TrainingLoop.Proofs.Metric.JsonLines
/-!
# What a log does

A log takes in the outputs of a batch; then, where a record of them is due, it calls its logger
(`logStep_eq`). To log a record and to save are both calls of the logger, and a call changes nothing
of a log but the logger (`called_eq`). So what the averages of epochs are made of
(`MetricsLog.Agrees`) depends on the batches taken in alone.
-/

namespace TrainingLoop

variable {W : Type}

open JsonLines (Call)

def Sink.meet (world : W) (s : Sink W) : Call → Outcome W
  | .log record => s.log record world
  | .save => s.save world

namespace MetricsLog

def takeIn (l : MetricsLog W) (outputs : Processed) : MetricsLog W :=
  if outputs.means.isEmpty then l else l.observe (outputs.averages l.nanArises)

theorem takeIn_eq (l : MetricsLog W) (outputs : Processed) :
    l.takeIn outputs =
      { l with
        latest := (l.takeIn outputs).latest
        epochValues := (l.takeIn outputs).epochValues } := by
  unfold takeIn
  split <;> rfl

theorem takeIn_sink (l : MetricsLog W) (outputs : Processed) :
    (l.takeIn outputs).sink = l.sink := by
  rw [takeIn_eq]

theorem closeEpoch_eq (l : MetricsLog W) :
    l.closeEpoch =
      { l with
        latest := l.closeEpoch.latest
        epochValues := ∅
        finished := l.closeEpoch.finished } := by
  unfold closeEpoch
  split <;> rfl

/-! ## Calls of the logger -/

def called (l : MetricsLog W) (world : W) (call : Call) : Except Error Unit × MetricsLog W × W :=
  match l.sink with
  | none => (.ok (), l, world)
  | some sink =>
    let (result, sink, world) := sink.meet world call
    (result, { l with sink := some sink }, world)

theorem save_eq (l : MetricsLog W) (world : W) : l.save world = l.called world .save := rfl

theorem logStep_eq (l : MetricsLog W) (outputs : Processed) (step : Nat) (stopRequested : Bool)
    (world : W) :
    l.logStep outputs step stopRequested world =
      match l.due? outputs step stopRequested with
      | none => (.ok (), l.takeIn outputs, world)
      | some record => (l.takeIn outputs).called world (.log record) := rfl

theorem called_of_none {l : MetricsLog W} (h : l.sink = none) (world : W) (call : Call) :
    l.called world call = (.ok (), l, world) := by
  simp only [called, h]

theorem called_of_some {l : MetricsLog W} {sink : Sink W} (h : l.sink = some sink) (world : W)
    (call : Call) :
    l.called world call =
      ((sink.meet world call).1, { l with sink := some (sink.meet world call).2.1 },
        (sink.meet world call).2.2) := by
  simp only [called, h]

theorem called_eq (l : MetricsLog W) (world : W) (call : Call) :
    (l.called world call).2.1 = { l with sink := (l.called world call).2.1.sink } := by
  cases h : l.sink with
  | none => rw [called_of_none h]
  | some sink => rw [called_of_some h]

theorem called_sink_isSome (l : MetricsLog W) (world : W) (call : Call) :
    (l.called world call).2.1.sink.isSome = l.sink.isSome := by
  cases h : l.sink with
  | none => rw [called_of_none h, h]
  | some sink =>
      rw [called_of_some h]
      rfl

theorem logStep_quiet {outputs : Processed} {step : Nat} {stopRequested : Bool} {l : MetricsLog W}
    (h : l.sink = none ∨ l.due? outputs step stopRequested = none) (world : W) :
    (l.logStep outputs step stopRequested world).1 = .ok () := by
  rw [logStep_eq]
  cases hdue : l.due? outputs step stopRequested with
  | none => rfl
  | some due =>
      have hnone : l.sink = none := h.resolve_right (by simp [hdue])
      rw [← takeIn_sink l outputs] at hnone
      simp only [called_of_none hnone]

/-! ## Averages -/

/-- The second log has what the first one has for the averages of the epoch and of those before. -/
structure Agrees (l l' : MetricsLog W) : Prop where
  epochValues : l'.epochValues = l.epochValues
  finished : l'.finished = l.finished
  nanArises : l'.nanArises = l.nanArises

namespace Agrees

variable {l l' l'' : MetricsLog W}

theorem refl (l : MetricsLog W) : l.Agrees l := ⟨rfl, rfl, rfl⟩

theorem trans (h : l.Agrees l') (h' : l'.Agrees l'') : l.Agrees l'' :=
  ⟨h'.epochValues.trans h.epochValues, h'.finished.trans h.finished,
    h'.nanArises.trans h.nanArises⟩

theorem takeIn (h : l.Agrees l') (outputs : Processed) :
    (l.takeIn outputs).Agrees (l'.takeIn outputs) := by
  unfold MetricsLog.takeIn
  split
  · exact h
  · refine ⟨?_, h.finished, h.nanArises⟩
    simp only [observe, h.epochValues, h.nanArises]

theorem closeEpoch (h : l.Agrees l') : l.closeEpoch.Agrees l'.closeEpoch := by
  have haverages : l'.epochAverages = l.epochAverages := by rw [epochAverages, h.epochValues]; rfl
  unfold MetricsLog.closeEpoch
  rw [haverages]
  split
  · exact ⟨rfl, h.finished, h.nanArises⟩
  · refine ⟨rfl, ?_, h.nanArises⟩
    simp only [h.finished]

end Agrees

theorem called_agrees (l : MetricsLog W) (world : W) (call : Call) :
    l.Agrees (l.called world call).2.1 := by
  rw [called_eq]
  exact ⟨rfl, rfl, rfl⟩

theorem logStep_agrees (l : MetricsLog W) (outputs : Processed) (step : Nat)
    (stopRequested : Bool) (world : W) :
    (l.takeIn outputs).Agrees (l.logStep outputs step stopRequested world).2.1 := by
  rw [logStep_eq]
  cases l.due? outputs step stopRequested with
  | none => exact .refl (l.takeIn outputs)
  | some record => exact called_agrees (l.takeIn outputs) world (.log record)

end MetricsLog

end TrainingLoop
