import TrainingLoop.Proofs.Rate.Ticks
import Mathlib.Data.List.Induction
/-!
# The schedules of a board are independent

A board ticks its schedules in one loop, which breaks off where a metric is missing. While no update
fails, each schedule is what it would be alone: advanced at every `frequency`-th tick of its own
interval, with the metric of that tick that it monitors (`ScheduledRate.alone`). An update fails
where a schedule of its interval is due and its metric is missing, and else returns how many
schedules were due (`update_independent`).
-/

namespace TrainingLoop

/-! ## Every so many of a list -/

section EveryNth

variable {α : Type}

/-- Those at the places `n`, `2 * n` and so on, the first place being one. -/
def everyNth (n : Nat) (xs : List α) : List α :=
  ((xs.zipIdx 1).filter fun entry => n ∣ entry.2).map Prod.fst

theorem everyNth_snoc (n : Nat) (xs : List α) (x : α) :
    everyNth n (xs ++ [x]) = everyNth n xs ++ if n ∣ xs.length + 1 then [x] else [] := by
  rw [everyNth, List.zipIdx_append, List.filter_append, List.map_append, Nat.add_comm 1]
  by_cases hplace : n ∣ xs.length + 1
  · rw [if_pos hplace]
    simp [everyNth, hplace]
  · rw [if_neg hplace]
    simp [everyNth, hplace]

end EveryNth

namespace ScheduledRate

variable {s : ScheduledRate} {ticks : List RateTick} {t : RateTick}

/-! ## One tick -/

def advancesAt (s : ScheduledRate) (t : RateTick) : Bool := s.interval = t.interval && s.due

/-- The input for the schedule at a tick: nothing is to be observed without a monitor, and else the
metric, if it is there. -/
def reading? (s : ScheduledRate) (t : RateTick) : Option (Option Float32) :=
  match s.monitor with
  | none => some none
  | some key => (t.metrics.get? key).map some

def missing? (s : ScheduledRate) (t : RateTick) : Option String :=
  s.monitor.filter fun key => (t.metrics.get? key).isNone

theorem missing?_eq_none_iff : s.missing? t = none ↔ ∃ input, s.reading? t = some input := by
  unfold missing? reading?
  cases s.monitor with
  | none => simp
  | some key => cases h : t.metrics.get? key <;> simp [Option.filter, h]

theorem missing?_eq_some_iff {key : String} :
    s.missing? t = some key ↔ s.monitor = some key ∧ t.metrics.get? key = none := by
  rw [missing?, Option.filter_eq_some_iff, Option.isNone_iff_eq_none]

theorem advancesAt_iff : s.advancesAt t = true ↔ s.interval = t.interval ∧ s.due = true := by
  rw [advancesAt, Bool.and_eq_true, decide_eq_true_iff]

theorem tick_result_of_due (hdue : s.due = true) :
    (s.tick t.metrics).result =
      match s.missing? t with
      | some key => .error (.misconfiguration (.metricUnavailable key t.metrics.keys))
      | none => .ok true := by
  unfold tick missing?
  rw [if_pos hdue]
  cases s.monitor with
  | none => rfl
  | some key => cases h : t.metrics.get? key <;> simp [Option.filter, h]

theorem tick_result_of_not_due (hdue : ¬ s.due = true) :
    (s.tick t.metrics).result = .ok false := by
  unfold tick
  rw [if_neg hdue]

theorem Takes.reading (htakes : s.Takes t) (hdue : s.advancesAt t = true) :
    ∃ input, s.reading? t = some input := by
  obtain ⟨hinterval, hdue⟩ := advancesAt_iff.1 hdue
  obtain ⟨advanced, hresult⟩ := htakes hinterval
  rw [tick_result_of_due hdue] at hresult
  apply missing?_eq_none_iff.1
  cases hmissing : s.missing? t with
  | none => rfl
  | some key =>
      rw [hmissing] at hresult
      cases hresult

theorem after_of_stays (hdue : ¬ s.advancesAt t = true) :
    s.after t = { s with ticks := s.ticks + if s.interval = t.interval then 1 else 0 } := by
  unfold after tick
  by_cases hinterval : s.interval = t.interval
  · have hnot : ¬ s.due = true := fun h => hdue (advancesAt_iff.2 ⟨hinterval, h⟩)
    simp only [if_pos hinterval, if_neg hnot]
  · simp only [if_neg hinterval, Nat.add_zero]

theorem after_of_advances (hdue : s.advancesAt t = true) {input : Option Float32}
    (hinput : s.reading? t = some input) :
    s.after t = { s with schedule := s.schedule.advance input, ticks := s.ticks + 1 } := by
  obtain ⟨hinterval, hdue⟩ := advancesAt_iff.1 hdue
  unfold after tick
  rw [if_pos hinterval]
  simp only [if_pos hdue]
  unfold reading? at hinput
  cases hmonitor : s.monitor with
  | none =>
      rw [hmonitor] at hinput
      cases hinput
      rfl
  | some key =>
      simp only [hmonitor, Option.map_eq_some_iff] at hinput
      obtain ⟨value, hvalue, rfl⟩ := hinput
      simp only [hvalue]
      rfl

/-! ## One schedule alone -/

/-- The ticks at which the schedule advances, told by their places. -/
def dueTicks (s : ScheduledRate) (ticks : List RateTick) : List RateTick :=
  everyNth s.frequency (ticks.filter fun t => t.interval = s.interval)

/-- What the ticks make of a schedule that has not ticked before and is on no board. -/
def alone (s : ScheduledRate) (ticks : List RateTick) : ScheduledRate :=
  { s with
    schedule := s.schedule.advanceAll ((s.dueTicks ticks).filterMap s.reading?)
    ticks := ticks.countP fun t => t.interval = s.interval }

/-- The tick is of the schedule's interval, and with the earlier ones of that interval it is one of
a multiple of its frequency. -/
def isDue (s : ScheduledRate) (earlier : List RateTick) (t : RateTick) : Bool :=
  s.interval = t.interval && s.frequency ∣ (earlier.countP fun t => t.interval = s.interval) + 1

theorem advancesAt_alone : (s.alone ticks).advancesAt t = s.isDue ticks t := by
  have hdue : (s.alone ticks).due =
      decide (s.frequency ∣ (ticks.countP fun t => t.interval = s.interval) + 1) := by
    rw [Bool.eq_iff_iff, due, beq_iff_eq, decide_eq_true_iff, Nat.dvd_iff_mod_eq_zero]
    rfl
  rw [advancesAt, isDue, hdue]
  rfl

theorem dueTicks_snoc :
    s.dueTicks (ticks ++ [t]) = s.dueTicks ticks ++ if s.isDue ticks t then [t] else [] := by
  rw [dueTicks, List.filter_append, isDue, List.countP_eq_length_filter]
  by_cases hinterval : t.interval = s.interval
  · have hown : [t].filter (fun t => decide (t.interval = s.interval)) = [t] :=
      List.filter_cons_of_pos (decide_eq_true hinterval)
    rw [hown, everyNth_snoc]
    simp [dueTicks, hinterval]
  · have hother : [t].filter (fun t => decide (t.interval = s.interval)) = [] :=
      List.filter_cons_of_neg (by simp [hinterval])
    rw [hother, List.append_nil]
    simp [dueTicks, Ne.symm hinterval]

theorem alone_after (htakes : (s.alone ticks).Takes t) :
    (s.alone ticks).after t = s.alone (ticks ++ [t]) := by
  have hcount : (ticks ++ [t]).countP (fun t => decide (t.interval = s.interval)) =
      ticks.countP (fun t => decide (t.interval = s.interval)) +
        if s.interval = t.interval then 1 else 0 := by
    simp [List.countP_append, List.countP_cons, eq_comm]
  by_cases hdue : (s.alone ticks).advancesAt t = true
  · obtain ⟨input, hinput⟩ := htakes.reading hdue
    have hread : s.reading? t = some input := hinput
    have hinterval : s.interval = t.interval := (advancesAt_iff.1 hdue).1
    rw [after_of_advances hdue hinput, alone, alone, dueTicks_snoc, ← advancesAt_alone, if_pos hdue,
      hcount, if_pos hinterval, List.filterMap_append, Schedule.advanceAll, Schedule.advanceAll,
      List.foldl_append]
    simp [hread]
  · rw [after_of_stays hdue, alone, alone, dueTicks_snoc, ← advancesAt_alone, if_neg hdue,
      List.append_nil, hcount]

theorem afterAll_eq_alone (hnew : s.ticks = 0) (htakes : s.TakesAll ticks) :
    s.afterAll ticks = s.alone ticks := by
  induction ticks using List.reverseRecOn with
  | nil =>
      obtain ⟨schedule, interval, frequency, monitor, count, hpos⟩ := s
      obtain rfl : count = 0 := hnew
      rfl
  | append_singleton ticks t ih =>
      obtain ⟨hticks, hlast⟩ := takesAll_append.1 htakes
      rw [ih hticks] at hlast
      rw [afterAll_append, ih hticks]
      exact alone_after hlast.1

theorem TakesAll.reading (hnew : s.ticks = 0) (htakes : s.TakesAll ticks) :
    ∀ u ∈ s.dueTicks ticks, ∃ input, s.reading? u = some input := by
  induction ticks using List.reverseRecOn with
  | nil => exact fun u hu => nomatch hu
  | append_singleton ticks t ih =>
      obtain ⟨hticks, hlast⟩ := takesAll_append.1 htakes
      rw [afterAll_eq_alone hnew hticks] at hlast
      intro u hu
      rw [dueTicks_snoc, List.mem_append] at hu
      rcases hu with hu | hu
      · exact ih hticks u hu
      · by_cases hdue : s.isDue ticks t = true
        · rw [if_pos hdue, List.mem_singleton] at hu
          rw [hu]
          rw [← advancesAt_alone] at hdue
          exact hlast.1.reading hdue
        · rw [if_neg hdue] at hu
          exact nomatch hu

/-- What a schedule from outside hears of: the ticks at which it is due, each with what it reads
there, and nothing else. -/
theorem alone_outside {o : OutsideSchedule} (houtside : s.schedule = .outside o) :
    (s.alone ticks).schedule =
      .outside (o.told ((s.dueTicks ticks).filterMap s.reading?)) := by
  rw [alone, houtside, Schedule.advanceAll_outside]

end ScheduledRate

/-! ## The board -/

namespace RateBoard

open ScheduledRate

def updated (b : RateBoard) (t : RateTick) : RateBoard := ⟨(b.update t.interval t.metrics).rates⟩

def updatedAll (b : RateBoard) (ticks : List RateTick) : RateBoard := ticks.foldl updated b

def TakesAll (b : RateBoard) : List RateTick → Prop
  | [] => True
  | t :: ticks => (∃ advanced, (b.update t.interval t.metrics).result = .ok advanced) ∧
      (b.updated t).TakesAll ticks

theorem updatedAll_rates {b : RateBoard} {ticks : List RateTick} (htakes : b.TakesAll ticks) :
    (b.updatedAll ticks).rates = b.rates.map (·.afterAll ticks) ∧
      ∀ s ∈ b.rates, s.TakesAll ticks := by
  induction ticks generalizing b with
  | nil => exact ⟨(List.map_id b.rates).symm, fun _ _ => trivial⟩
  | cons t ticks ih =>
      obtain ⟨⟨advanced, hresult⟩, hrest⟩ := htakes
      obtain ⟨hrates, hticks⟩ := tickAll_ok hresult
      have hupdated : (b.updated t).rates = b.rates.map (·.after t) := hrates
      obtain ⟨hafter, hlater⟩ := ih hrest
      rw [hupdated, List.map_map] at hafter
      refine ⟨hafter, fun s hs => ⟨hticks s hs, hlater (s.after t) ?_⟩⟩
      rw [hupdated]
      exact List.mem_map_of_mem hs

theorem updatedAll_eq_alone {b : RateBoard} {ticks : List RateTick}
    (hnew : ∀ s ∈ b.rates, s.ticks = 0) (htakes : b.TakesAll ticks) :
    (b.updatedAll ticks).rates = b.rates.map (·.alone ticks) := by
  obtain ⟨hrates, hticks⟩ := updatedAll_rates htakes
  rw [hrates]
  exact List.map_congr_left fun s hs => afterAll_eq_alone (hnew s hs) (hticks s hs)

/-- An update fails at the first schedule that is due without its metric, and else counts those that
are due. -/
theorem tickAll_result (t : RateTick) (rates : List ScheduledRate) :
    (tickAll t.interval t.metrics rates).result =
      match (rates.filter (·.advancesAt t)).findSome? (·.missing? t) with
      | some key => .error (.misconfiguration (.metricUnavailable key t.metrics.keys))
      | none => .ok (rates.countP (·.advancesAt t)) := by
  induction rates with
  | nil => rfl
  | cons s rest ih =>
      unfold tickAll
      by_cases hdue : s.advancesAt t = true
      · obtain ⟨hinterval, hnow⟩ := advancesAt_iff.1 hdue
        rw [if_pos hinterval, List.filter_cons, if_pos hdue, List.countP_cons, if_pos hdue,
          List.findSome?_cons]
        simp only [tick_result_of_due hnow]
        cases s.missing? t with
        | some key => rfl
        | none =>
            simp only [ih]
            cases (rest.filter (·.advancesAt t)).findSome? (·.missing? t) <;> rfl
      · rw [List.filter_cons, if_neg hdue, List.countP_cons, if_neg hdue]
        by_cases hinterval : s.interval = t.interval
        · have hnot : ¬ s.due = true := fun h => hdue (advancesAt_iff.2 ⟨hinterval, h⟩)
          rw [if_pos hinterval]
          simp only [tick_result_of_not_due hnot, ih]
          cases (rest.filter (·.advancesAt t)).findSome? (·.missing? t) <;> rfl
        · rw [if_neg hinterval]
          exact ih

theorem update_eq_ok_iff {b : RateBoard} {t : RateTick} {n : Nat} :
    (b.update t.interval t.metrics).result = .ok n ↔
      (∀ s ∈ b.rates, s.advancesAt t = true → ∃ input, s.reading? t = some input) ∧
        n = b.rates.countP (·.advancesAt t) := by
  have hresult := tickAll_result t b.rates
  have hnone : (b.rates.filter (·.advancesAt t)).findSome? (·.missing? t) = none ↔
      ∀ s ∈ b.rates, s.advancesAt t = true → ∃ input, s.reading? t = some input := by
    simp only [List.findSome?_eq_none_iff, List.mem_filter, missing?_eq_none_iff, and_imp]
  rw [update, hresult, ← hnone]
  cases (b.rates.filter (·.advancesAt t)).findSome? (·.missing? t) with
  | none => simp [eq_comm]
  | some key => simp

theorem update_fails_iff {b : RateBoard} {t : RateTick} :
    (∃ key, (b.update t.interval t.metrics).result =
        .error (.misconfiguration (.metricUnavailable key t.metrics.keys))) ↔
      ∃ s ∈ b.rates, s.advancesAt t = true ∧
        ∃ key, s.monitor = some key ∧ t.metrics.get? key = none := by
  have hresult := tickAll_result t b.rates
  rw [update, hresult]
  cases hfirst : (b.rates.filter (·.advancesAt t)).findSome? (·.missing? t) with
  | some key =>
      obtain ⟨s, hs, hmissing⟩ := List.exists_of_findSome?_eq_some hfirst
      obtain ⟨hs, hdue⟩ := List.mem_filter.1 hs
      exact ⟨fun _ => ⟨s, hs, hdue, key, missing?_eq_some_iff.1 hmissing⟩, fun _ => ⟨key, rfl⟩⟩
  | none =>
      constructor
      · rintro ⟨key, h⟩
        cases h
      · rintro ⟨s, hs, hdue, key, hmissing⟩
        have hnot := List.findSome?_eq_none_iff.1 hfirst s (List.mem_filter.2 ⟨hs, hdue⟩)
        rw [missing?_eq_some_iff.2 hmissing] at hnot
        cases hnot

end RateBoard

open ScheduledRate

/-- After updates that all succeed, every schedule of a board is what it would be alone, advanced at
each due tick of its own interval with what it reads there. The next update succeeds just if every
schedule that is due has its metric, and then returns how many are due; otherwise the configuration
is at fault. -/
theorem RateBoard.update_independent {b : RateBoard} (hnew : ∀ s ∈ b.rates, s.ticks = 0)
    {calls : List RateTick} (hcalls : b.TakesAll calls) (t : RateTick) :
    (b.updatedAll calls).rates = b.rates.map (·.alone calls) ∧
    (b.updatedAll calls).current = b.rates.map (fun s => (s.alone calls).rate) ∧
    (∀ s ∈ b.rates, ∀ u ∈ s.dueTicks calls, ∃ input, s.reading? u = some input) ∧
    (∀ n, ((b.updatedAll calls).update t.interval t.metrics).result = .ok n ↔
      (∀ s ∈ b.rates, s.isDue calls t = true → ∃ input, s.reading? t = some input) ∧
        n = b.rates.countP (·.isDue calls t)) ∧
    ((∃ key, ((b.updatedAll calls).update t.interval t.metrics).result =
        .error (.misconfiguration (.metricUnavailable key t.metrics.keys))) ↔
      ∃ s ∈ b.rates, s.isDue calls t = true ∧
        ∃ key, s.monitor = some key ∧ t.metrics.get? key = none) := by
  have hrates := updatedAll_eq_alone hnew hcalls
  obtain ⟨-, hticks⟩ := updatedAll_rates hcalls
  refine ⟨hrates, ?_, fun s hs => (hticks s hs).reading (hnew s hs), fun n => ?_, ?_⟩
  · rw [current, hrates, List.map_map]
    rfl
  · rw [update_eq_ok_iff, hrates, List.forall_mem_map, List.countP_map]
    simp only [advancesAt_alone, Function.comp_def]
    exact Iff.rfl
  · rw [update_fails_iff, hrates]
    simp only [List.mem_map, exists_exists_and_eq_and, advancesAt_alone]
    exact Iff.rfl

def RateBoard.decayAndPlateau : RateBoard := ⟨[
  { schedule := .stepDecay { initial := 1.0, gamma := 0.5, stepSize := 1 }
    interval := .step
    frequency := 2
    frequency_pos := Nat.two_pos },
  { schedule := .plateau { rate := 1.0, factor := 0.5, patience := 0 }
    interval := .epoch
    monitor := some "loss" }]⟩

def RateTick.threeSteps : List RateTick :=
  [⟨.step, ∅⟩, ⟨.step, ∅⟩, ⟨.epoch, KeyMap.ofList [("loss", 1.0 / 0.0)]⟩, ⟨.step, ∅⟩]

theorem RateBoard.update_independent_threeSteps :
    (∀ s ∈ decayAndPlateau.rates, s.ticks = 0) ∧ decayAndPlateau.TakesAll RateTick.threeSteps ∧
      (decayAndPlateau.updatedAll RateTick.threeSteps).current = [0.5, 0.5] ∧
      ((decayAndPlateau.updatedAll RateTick.threeSteps).update .step ∅).result = .ok 1 ∧
      ∃ key, ((decayAndPlateau.updatedAll RateTick.threeSteps).update .epoch ∅).result =
        .error (.misconfiguration (.metricUnavailable key [])) := by
  have hnew : ∀ s ∈ decayAndPlateau.rates, s.ticks = 0 := by decide +kernel
  have htakes : decayAndPlateau.TakesAll RateTick.threeSteps :=
    ⟨⟨0, by decide +kernel⟩, ⟨1, by decide +kernel⟩, ⟨1, by decide +kernel⟩, ⟨0, by decide +kernel⟩,
      trivial⟩
  obtain ⟨-, hcurrent, -, hstep, -⟩ := update_independent hnew htakes ⟨.step, ∅⟩
  obtain ⟨-, -, -, -, hepoch⟩ := update_independent hnew htakes ⟨.epoch, ∅⟩
  refine ⟨hnew, htakes, hcurrent.trans (by decide +kernel), ?_, ?_⟩
  · refine (hstep 1).2 ⟨fun s hs hdue => ?_, by decide +kernel⟩
    rcases List.mem_cons.1 hs with rfl | hs
    · exact ⟨none, rfl⟩
    · rw [List.mem_singleton.1 hs] at hdue
      exact absurd hdue (by decide +kernel)
  · exact hepoch.2
      ⟨_, List.mem_cons_of_mem _ List.mem_cons_self, by decide +kernel, "loss", rfl, rfl⟩

end TrainingLoop
