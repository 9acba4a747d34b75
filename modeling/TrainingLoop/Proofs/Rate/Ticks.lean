import TrainingLoop.Rate.Board
/-!
# Ticks of the rate board

What a sequence of ticks makes of a schedule. The schedule goes on by one input at every
`frequency`-th tick of its interval, so the number of inputs is a quotient of the number of ticks
(`length_inputs`).
-/

namespace TrainingLoop

structure RateTick where
  interval : Interval
  metrics : Metrics

def Schedule.advance (s : Schedule) : Option Float32 → Schedule
  | none => s.step
  | some value => s.observe value

def Schedule.advanceAll (s : Schedule) (calls : List (Option Float32)) : Schedule :=
  calls.foldl Schedule.advance s

theorem Schedule.advanceAll_outside (o : OutsideSchedule) (calls : List (Option Float32)) :
    (outside o).advanceAll calls = outside (o.told calls) := by
  induction calls generalizing o with
  | nil => simp [advanceAll, OutsideSchedule.told]
  | cons call calls ih =>
      have hcall : (outside o).advance call = outside (o.told [call]) := by
        cases call <;> rfl
      rw [advanceAll, List.foldl_cons, hcall]
      refine (ih (o.told [call])).trans ?_
      simp [OutsideSchedule.told]

namespace ScheduledRate

def after (s : ScheduledRate) (t : RateTick) : ScheduledRate :=
  if s.interval = t.interval then (s.tick t.metrics).rate else s

def afterAll (s : ScheduledRate) (ticks : List RateTick) : ScheduledRate := ticks.foldl after s

/-- The input with which a tick advances the schedule, if it does. -/
def input? (s : ScheduledRate) (t : RateTick) : Option (Option Float32) :=
  if s.interval = t.interval ∧ s.due = true then
    match s.monitor with
    | none => some none
    | some key => (t.metrics.get? key).map some
  else none

def inputs (s : ScheduledRate) : List RateTick → List (Option Float32)
  | [] => []
  | t :: ticks => (s.input? t).toList ++ (s.after t).inputs ticks

/-- The tick does not fail: a metric that the schedule needs is at hand. -/
def Takes (s : ScheduledRate) (t : RateTick) : Prop :=
  s.interval = t.interval → ∃ advanced, (s.tick t.metrics).result = .ok advanced

def TakesAll (s : ScheduledRate) : List RateTick → Prop
  | [] => True
  | t :: ticks => s.Takes t ∧ (s.after t).TakesAll ticks

/-! ## One tick -/

@[simp] theorem after_interval (s : ScheduledRate) (t : RateTick) :
    (s.after t).interval = s.interval := by
  unfold after tick
  grind

@[simp] theorem after_frequency (s : ScheduledRate) (t : RateTick) :
    (s.after t).frequency = s.frequency := by
  unfold after tick
  grind

@[simp] theorem after_monitor (s : ScheduledRate) (t : RateTick) :
    (s.after t).monitor = s.monitor := by
  unfold after tick
  grind

theorem after_ticks (s : ScheduledRate) (t : RateTick) :
    (s.after t).ticks = s.ticks + if s.interval = t.interval then 1 else 0 := by
  unfold after tick
  grind

theorem after_schedule (s : ScheduledRate) (t : RateTick) :
    (s.after t).schedule = (s.input? t).toList.foldl Schedule.advance s.schedule := by
  unfold after tick input?
  grind [Schedule.advance]

theorem after_schedule_of_input {s : ScheduledRate} {t : RateTick} {input : Option Float32}
    (hinput : s.input? t = some input) : (s.after t).schedule = s.schedule.advance input := by
  rw [after_schedule, hinput]
  rfl

theorem input?_isSome {s : ScheduledRate} {t : RateTick} (htakes : s.Takes t) :
    (s.input? t).isSome = true ↔ s.interval = t.interval ∧ s.due = true := by
  unfold input?
  by_cases hdue : s.interval = t.interval ∧ s.due = true
  · rw [if_pos hdue]
    obtain ⟨advanced, hresult⟩ := htakes hdue.1
    unfold tick at hresult
    rw [if_pos hdue.2] at hresult
    cases hmonitor : s.monitor with
    | none => simp [hdue]
    | some key =>
        cases hget : t.metrics.get? key with
        | none => simp [hmonitor, hget] at hresult
        | some value => simp [hdue, hget]
  · rw [if_neg hdue]
    simp [hdue]

/-- The inputs so far are the quotient of the ticks so far, before a tick and after it. -/
theorem length_input? {s : ScheduledRate} {t : RateTick} (htakes : s.Takes t) :
    s.ticks / s.frequency + (s.input? t).toList.length = (s.after t).ticks / s.frequency := by
  have hsome := input?_isSome htakes
  rw [after_ticks]
  by_cases hinterval : s.interval = t.interval
  · rw [if_pos hinterval, Nat.succ_div]
    by_cases hdue : s.frequency ∣ s.ticks + 1
    · have hinput : (s.input? t).isSome = true :=
        hsome.2 ⟨hinterval, by simpa [due] using Nat.mod_eq_zero_of_dvd hdue⟩
      obtain ⟨input, heq⟩ := Option.isSome_iff_exists.1 hinput
      rw [if_pos hdue, heq]
      rfl
    · have hinput : s.input? t = none := by
        rw [← Option.not_isSome_iff_eq_none, hsome]
        intro h
        exact hdue (Nat.dvd_of_mod_eq_zero (by simpa [due] using h.2))
      rw [if_neg hdue, hinput]
      rfl
  · have hinput : s.input? t = none := by
      rw [← Option.not_isSome_iff_eq_none, hsome]
      exact fun h => hinterval h.1
    rw [if_neg hinterval, hinput]
    rfl

/-! ## Many ticks -/

theorem afterAll_append (s : ScheduledRate) (ticks more : List RateTick) :
    s.afterAll (ticks ++ more) = (s.afterAll ticks).afterAll more :=
  List.foldl_append

theorem takesAll_append {s : ScheduledRate} {ticks more : List RateTick} :
    s.TakesAll (ticks ++ more) ↔ s.TakesAll ticks ∧ (s.afterAll ticks).TakesAll more := by
  induction ticks generalizing s with
  | nil => simp [TakesAll, afterAll]
  | cons t ticks ih =>
      simp only [List.cons_append, TakesAll, ih, and_assoc]
      rfl

theorem afterAll_schedule (s : ScheduledRate) (ticks : List RateTick) :
    (s.afterAll ticks).schedule = (s.inputs ticks).foldl Schedule.advance s.schedule := by
  induction ticks generalizing s with
  | nil => rfl
  | cons t ticks ih =>
      rw [inputs, List.foldl_append, ← after_schedule]
      exact ih (s.after t)

/-- One input for every `frequency` ticks of the schedule's interval. -/
theorem length_inputs {s : ScheduledRate} {ticks : List RateTick} (htakes : s.TakesAll ticks) :
    s.ticks / s.frequency + (s.inputs ticks).length =
      (s.ticks + ticks.countP fun t => t.interval = s.interval) / s.frequency := by
  induction ticks generalizing s with
  | nil => rfl
  | cons t ticks ih =>
      have hrest := ih htakes.2
      simp only [after_frequency, after_interval] at hrest
      have hcount : (t :: ticks).countP (fun u => u.interval = s.interval) =
          (if s.interval = t.interval then 1 else 0) +
            ticks.countP fun u => u.interval = s.interval := by
        rw [List.countP_cons, Nat.add_comm]
        simp [eq_comm]
      rw [inputs, List.length_append, ← Nat.add_assoc, length_input? htakes.1, hrest, hcount,
        after_ticks, Nat.add_assoc]

end ScheduledRate

namespace RateBoard

theorem tickAll_ok {interval : Interval} {metrics : Metrics} {rates : List ScheduledRate}
    {advanced : Nat} (h : (tickAll interval metrics rates).result = .ok advanced) :
    (tickAll interval metrics rates).rates = rates.map (·.after ⟨interval, metrics⟩) ∧
      ∀ s ∈ rates, s.Takes ⟨interval, metrics⟩ := by
  induction rates generalizing advanced with
  | nil => exact ⟨rfl, by simp⟩
  | cons s rest ih =>
      unfold tickAll at h ⊢
      by_cases hinterval : s.interval = interval
      · rw [if_pos hinterval] at h ⊢
        cases htick : (s.tick metrics).result with
        | error e => simp [htick] at h
        | ok own =>
            simp only [htick] at h ⊢
            cases hrest : (tickAll interval metrics rest).result with
            | error e => simp [hrest, Except.map] at h
            | ok others =>
                obtain ⟨hrates, htakes⟩ := ih hrest
                refine ⟨by simp [hrates, ScheduledRate.after, hinterval], ?_⟩
                simp only [List.forall_mem_cons]
                exact ⟨fun _ => ⟨own, htick⟩, htakes⟩
      · rw [if_neg hinterval] at h ⊢
        obtain ⟨hrates, htakes⟩ := ih h
        refine ⟨by simp [hrates, ScheduledRate.after, hinterval], ?_⟩
        simp only [List.forall_mem_cons]
        exact ⟨fun heq => absurd heq hinterval, htakes⟩

end RateBoard

end TrainingLoop
