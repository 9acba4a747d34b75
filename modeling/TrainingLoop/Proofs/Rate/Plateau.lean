import TrainingLoop.Proofs.Rate.Ticks
import Mathlib.Data.List.Induction
import Mathlib.Logic.Function.Iterate
/-!
# Plateaus and their cuts

A plateau schedule counts the observations that are stale. Here every call of its whole history is
judged by the calls before it, without that counter: an observation improves on the latest
improvement or is stale, and a stale one cuts the rate where it is the one after as many as the
patience allows. The rate changes at the cuts and nowhere else (`plateau_cuts`).
-/

namespace TrainingLoop

namespace PlateauSchedule

/-! ## Histories -/

def meet (s : PlateauSchedule) : Option Float32 → PlateauSchedule
  | none => s
  | some metric => s.observe metric

def after (s : PlateauSchedule) (calls : List (Option Float32)) : PlateauSchedule :=
  calls.foldl meet s

variable {s p : PlateauSchedule} {past : List (Option Float32)} {call : Option Float32}

theorem advance_plateau : (Schedule.plateau s).advance call = .plateau (s.meet call) := by
  cases call with
  | none => rfl
  | some metric => rfl

theorem advanceAll_plateau (calls : List (Option Float32)) :
    (Schedule.plateau s).advanceAll calls = .plateau (s.after calls) := by
  induction calls generalizing s with
  | nil => rfl
  | cons call rest ih =>
      rw [Schedule.advanceAll, List.foldl_cons, advance_plateau]
      exact ih

theorem after_append {more : List (Option Float32)} :
    s.after (past ++ more) = (s.after past).after more :=
  List.foldl_append

/-! ## What the calls of a history come to -/

inductive Outcome where
  /-- A plain step. -/
  | aside
  | improvement (metric : Float32)
  | stale
  /-- A stale observation, at which the rate is cut. -/
  | cut
  deriving DecidableEq

namespace Outcome

def improved? : Outcome → Option Float32
  | improvement metric => some metric
  | _ => none

def isStale : Outcome → Bool
  | stale | cut => true
  | _ => false

/-- Stale observations are counted from here. -/
def restarts : Outcome → Bool
  | improvement _ | cut => true
  | _ => false

end Outcome

def bestOf (outcomes : List Outcome) : Float32 :=
  (outcomes.findSome? Outcome.improved?).getD (1.0 / 0.0)

def staleCalls (outcomes : List Outcome) : Nat :=
  (outcomes.takeWhile (!·.restarts)).countP Outcome.isStale

def outcome (s : PlateauSchedule) (earlier : List Outcome) : Option Float32 → Outcome
  | none => .aside
  | some metric =>
    if metric < bestOf earlier - s.minDelta then .improvement metric
    else if staleCalls earlier + 1 = s.patience + 1 then .cut
    else .stale

def outcomes (s : PlateauSchedule) (calls : List (Option Float32)) : List Outcome :=
  calls.foldl (fun earlier call => s.outcome earlier call :: earlier) []

theorem outcomes_snoc :
    s.outcomes (past ++ [call]) = s.outcome (s.outcomes past) call :: s.outcomes past := by
  rw [outcomes, List.foldl_append]
  rfl

section Counting

variable {earlier : List Outcome}

theorem staleCalls_aside : staleCalls (.aside :: earlier) = staleCalls earlier := by
  rw [staleCalls, List.takeWhile_cons_of_pos rfl]
  exact List.countP_cons_of_neg Bool.false_ne_true

theorem staleCalls_stale : staleCalls (.stale :: earlier) = staleCalls earlier + 1 := by
  rw [staleCalls, List.takeWhile_cons_of_pos rfl]
  exact List.countP_cons_of_pos rfl

theorem staleCalls_restart {o : Outcome} (ho : o.restarts = true) :
    staleCalls (o :: earlier) = 0 := by
  rw [staleCalls, List.takeWhile_cons_of_neg (by simp [ho])]
  rfl

end Counting

/-! ## The schedule holds what its history tells -/

/-- The schedule has the settings of `s`, and the best metric and the count that the outcomes
tell. The count never passes the patience. -/
structure Recalls (s : PlateauSchedule) (outcomes : List Outcome) (p : PlateauSchedule) : Prop where
  lowest : p.lowest = s.lowest
  factor : p.factor = s.factor
  patience : p.patience = s.patience
  minDelta : p.minDelta = s.minDelta
  best : p.best = bestOf outcomes
  stale : p.stale = staleCalls outcomes
  patient : staleCalls outcomes ≤ s.patience

variable {earlier : List Outcome}

theorem Recalls.improves (h : Recalls s earlier p) {metric : Float32} :
    p.improves metric = decide (metric < bestOf earlier - s.minDelta) := by
  rw [PlateauSchedule.improves, h.best, h.minDelta]

theorem Recalls.exhausted_iff (h : Recalls s earlier p) :
    p.patience < p.stale + 1 ↔ staleCalls earlier + 1 = s.patience + 1 := by
  have hpatient := h.patient
  rw [h.patience, h.stale]
  omega

theorem Recalls.observe (h : Recalls s earlier p) (metric : Float32) :
    Recalls s (s.outcome earlier (some metric) :: earlier) (p.observe metric) := by
  have hpatient := h.patient
  rw [PlateauSchedule.observe, h.improves, outcome]
  by_cases hbelow : metric < bestOf earlier - s.minDelta
  · rw [decide_eq_true hbelow, if_pos rfl, if_pos hbelow]
    exact ⟨h.lowest, h.factor, h.patience, h.minDelta, rfl, rfl, Nat.zero_le _⟩
  · rw [decide_eq_false hbelow, if_neg Bool.false_ne_true, if_neg hbelow]
    by_cases hexhausted : staleCalls earlier + 1 = s.patience + 1
    · rw [if_pos (h.exhausted_iff.2 hexhausted), if_pos hexhausted]
      exact ⟨h.lowest, h.factor, h.patience, h.minDelta, h.best, rfl, Nat.zero_le _⟩
    · rw [if_neg fun hover => hexhausted (h.exhausted_iff.1 hover), if_neg hexhausted]
      refine ⟨h.lowest, h.factor, h.patience, h.minDelta, h.best, ?_, ?_⟩
      · rw [staleCalls_stale, ← h.stale]
      · rw [staleCalls_stale]
        omega

theorem Recalls.observe_rate (h : Recalls s earlier p) (metric : Float32) :
    (p.observe metric).rate =
      if s.outcome earlier (some metric) = .cut then Single.larger (p.rate * s.factor) s.lowest
      else p.rate := by
  rw [PlateauSchedule.observe, h.improves, outcome]
  by_cases hbelow : metric < bestOf earlier - s.minDelta
  · rw [decide_eq_true hbelow, if_pos rfl, if_pos hbelow]
    exact (if_neg nofun).symm
  · rw [decide_eq_false hbelow, if_neg Bool.false_ne_true, if_neg hbelow]
    by_cases hexhausted : staleCalls earlier + 1 = s.patience + 1
    · rw [if_pos (h.exhausted_iff.2 hexhausted), if_pos hexhausted, if_pos rfl, ← h.factor,
        ← h.lowest]
      rfl
    · rw [if_neg fun hover => hexhausted (h.exhausted_iff.1 hover), if_neg hexhausted]
      exact (if_neg nofun).symm

theorem Recalls.meet (h : Recalls s earlier p) (call : Option Float32) :
    Recalls s (s.outcome earlier call :: earlier) (p.meet call) := by
  cases call with
  | some metric => exact h.observe metric
  | none =>
      refine ⟨h.lowest, h.factor, h.patience, h.minDelta, h.best, ?_, ?_⟩
      · rw [outcome, staleCalls_aside]
        exact h.stale
      · rw [outcome, staleCalls_aside]
        exact h.patient

theorem Recalls.meet_rate (h : Recalls s earlier p) (call : Option Float32) :
    (p.meet call).rate =
      if s.outcome earlier call = .cut then Single.larger (p.rate * s.factor) s.lowest
      else p.rate := by
  cases call with
  | some metric => exact h.observe_rate metric
  | none => exact (if_neg nofun).symm

/-- A schedule that has observed nothing yet recalls what is called from then on. -/
theorem recalls_after (hbest : s.best = 1.0 / 0.0) (hstale : s.stale = 0)
    (calls : List (Option Float32)) : Recalls s (s.outcomes calls) (s.after calls) := by
  induction calls using List.reverseRecOn with
  | nil => exact ⟨rfl, rfl, rfl, rfl, hbest, hstale, Nat.zero_le _⟩
  | append_singleton past call ih =>
      rw [outcomes_snoc, after_append]
      exact ih.meet call

/-! ## Stale observations in a row -/

def cutTo (s : PlateauSchedule) (rate : Float32) : Float32 :=
  Single.larger (rate * s.factor) s.lowest

/-- What a row of stale observations after a history comes to, of which so many cut the rate. -/
structure Row (s : PlateauSchedule) (past : List (Option Float32)) (length cuts : Nat)
    (calls : List (Option Float32)) : Prop where
  best : bestOf (s.outcomes calls) = bestOf (s.outcomes past)
  /-- Each observation is still counted, or it is one of the `patience + 1` that a cut settles. -/
  balance : staleCalls (s.outcomes calls) + (s.patience + 1) * cuts =
    staleCalls (s.outcomes past) + length
  count : (s.outcomes calls).count .cut = (s.outcomes past).count .cut + cuts
  rate : (s.after calls).rate = s.cutTo^[cuts] (s.after past).rate

theorem Row.snoc {length cuts : Nat} {calls : List (Option Float32)} {metric : Float32}
    (h : s.Row past length cuts calls) (hrecalls : Recalls s (s.outcomes calls) (s.after calls))
    (hstale : ¬ metric < bestOf (s.outcomes past) - s.minDelta) :
    ∃ cuts', s.Row past (length + 1) cuts' (calls ++ [some metric]) := by
  have hbalance := h.balance
  have hrate := hrecalls.meet_rate (some metric)
  have hafter : s.after (calls ++ [some metric]) = (s.after calls).meet (some metric) :=
    after_append
  rw [← hafter] at hrate
  by_cases hexhausted : staleCalls (s.outcomes calls) + 1 = s.patience + 1
  · have hcut : s.outcome (s.outcomes calls) (some metric) = .cut := by
      rw [outcome, h.best, if_neg hstale, if_pos hexhausted]
    rw [hcut, if_pos rfl] at hrate
    refine ⟨cuts + 1, ?_, ?_, ?_, ?_⟩
    · rw [outcomes_snoc, hcut]
      exact h.best
    · rw [outcomes_snoc, hcut, staleCalls_restart rfl, Nat.mul_succ]
      omega
    · rw [outcomes_snoc, hcut, List.count_cons_self, h.count, Nat.add_assoc]
    · rw [hrate, h.rate, Function.iterate_succ_apply']
      rfl
  · have hcounted : s.outcome (s.outcomes calls) (some metric) = .stale := by
      rw [outcome, h.best, if_neg hstale, if_neg hexhausted]
    rw [hcounted, if_neg nofun] at hrate
    refine ⟨cuts, ?_, ?_, ?_, hrate.trans h.rate⟩
    · rw [outcomes_snoc, hcounted]
      exact h.best
    · rw [outcomes_snoc, hcounted, staleCalls_stale]
      omega
    · rw [outcomes_snoc, hcounted, List.count_cons_of_ne (by decide), h.count]

theorem row_of_stale (hbest : s.best = 1.0 / 0.0) (hfresh : s.stale = 0) {metrics : List Float32}
    (hstale : ∀ metric ∈ metrics, ¬ metric < bestOf (s.outcomes past) - s.minDelta) :
    ∃ cuts, s.Row past metrics.length cuts (past ++ metrics.map some) := by
  induction metrics using List.reverseRecOn with
  | nil =>
      rw [List.map_nil, List.append_nil]
      exact ⟨0, rfl, rfl, rfl, rfl⟩
  | append_singleton metrics metric ih =>
      obtain ⟨cuts, hrow⟩ := ih fun m hm => hstale m (List.mem_append_left _ hm)
      have hlast := hstale metric (List.mem_append_right _ List.mem_cons_self)
      rw [List.map_append, ← List.append_assoc, List.length_append]
      exact hrow.snoc (recalls_after hbest hfresh _) hlast

/-- A row of stale observations that begins with none counted has a cut for every `patience + 1`
of them. -/
theorem Row.cuts_eq {length cuts : Nat} {calls : List (Option Float32)}
    (h : s.Row past length cuts calls) (hpatient : staleCalls (s.outcomes calls) ≤ s.patience)
    (hnone : staleCalls (s.outcomes past) = 0) : cuts = length / (s.patience + 1) := by
  have hbalance := h.balance
  rw [hnone, Nat.zero_add] at hbalance
  exact ((Nat.div_mod_unique (Nat.succ_pos _)).2 ⟨hbalance, Nat.lt_succ_of_le hpatient⟩).1.symm

end PlateauSchedule

open PlateauSchedule

/-- Whatever was called before, a plateau schedule that starts out fresh changes its rate just at
the stale observations that are, with those since the last improvement or cut, one more than its
patience, and there to the product with its factor or the lowest rate, whichever is larger. A plain
step has no effect at all, and a row of `m` stale observations has `m / (patience + 1)` cuts. -/
theorem PlateauSchedule.plateau_cuts {s : PlateauSchedule} (hbest : s.best = 1.0 / 0.0)
    (hstale : s.stale = 0) (past future : List (Option Float32)) (call : Option Float32) :
    ((Schedule.plateau s).advanceAll (past ++ [call])).rate =
      (if s.outcome (s.outcomes past) call = .cut then
        Single.larger (((Schedule.plateau s).advanceAll past).rate * s.factor) s.lowest
      else ((Schedule.plateau s).advanceAll past).rate) ∧
    (Schedule.plateau s).advanceAll (past ++ none :: future) =
      (Schedule.plateau s).advanceAll (past ++ future) ∧
    ∀ metrics : List Float32, staleCalls (s.outcomes past) = 0 →
      (∀ metric ∈ metrics, ¬ metric < bestOf (s.outcomes past) - s.minDelta) →
      (s.outcomes (past ++ metrics.map some)).count .cut =
          (s.outcomes past).count .cut + metrics.length / (s.patience + 1) ∧
        ((Schedule.plateau s).advanceAll (past ++ metrics.map some)).rate =
          s.cutTo^[metrics.length / (s.patience + 1)]
            ((Schedule.plateau s).advanceAll past).rate := by
  simp only [advanceAll_plateau]
  refine ⟨?_, ?_, fun metrics hnone hmetrics => ?_⟩
  · rw [after_append]
    exact (recalls_after hbest hstale past).meet_rate call
  · rw [after_append, after_append]
    rfl
  · obtain ⟨cuts, hrow⟩ := row_of_stale hbest hstale hmetrics
    obtain rfl := hrow.cuts_eq (recalls_after hbest hstale _).patient hnone
    exact ⟨hrow.count, hrow.rate⟩

def PlateauSchedule.halving : PlateauSchedule :=
  { rate := 1.0, lowest := 0.3, factor := 0.5, patience := 1 }

theorem PlateauSchedule.plateau_cuts_halving :
    halving.best = 1.0 / 0.0 ∧ halving.stale = 0 ∧
      ((Schedule.plateau halving).advanceAll
        [some 1.0, some 1.0, none, some (0.0 / 0.0)]).rate = 0.5 ∧
      staleCalls (halving.outcomes [some 1.0]) = 0 ∧
      (∀ metric ∈ [1.0, 0.0 / 0.0, 2.0, 1.0, 1.5],
        ¬ metric < bestOf (halving.outcomes [some 1.0]) - halving.minDelta) ∧
      ((Schedule.plateau halving).advanceAll
        [some 1.0, some 1.0, some (0.0 / 0.0), some 2.0, some 1.0, some 1.5]).rate = 0.3 := by
  obtain ⟨hcut, -⟩ := plateau_cuts (s := halving) rfl rfl [some 1.0, some 1.0, none] []
    (some (0.0 / 0.0))
  obtain ⟨-, -, hrow⟩ := plateau_cuts (s := halving) rfl rfl [some 1.0] [] none
  have hnone : staleCalls (halving.outcomes [some 1.0]) = 0 := by decide +kernel
  have hstale : ∀ metric ∈ [1.0, 0.0 / 0.0, 2.0, 1.0, 1.5],
      ¬ metric < bestOf (halving.outcomes [some 1.0]) - halving.minDelta := by decide +kernel
  refine ⟨rfl, rfl, hcut.trans (by decide +kernel), hnone, hstale, ?_⟩
  exact (hrow _ hnone hstale).2.trans (by decide +kernel)

end TrainingLoop
