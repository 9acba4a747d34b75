import TrainingLoop.Spec.Build
import Mathlib.Data.List.Induction
/-!
# Early stopping and its patience

A callback for early stopping counts checks. Here the checks of its whole history are judged one by
one, each against the latest improvement before it, and the callback turns out to ask for a stop
just where its patience is exhausted (`build_exhausts_patience`): the history tells what it holds.
-/

namespace TrainingLoop

namespace EarlyStopping

/-! ## Histories -/

inductive Occurrence where
  | told (event : CallbackEvent) (context : Context)
  | reset

def meet (e : EarlyStopping) : Occurrence → Option CallbackAction × EarlyStopping
  | .told event context => (some (e.respond event context).1, (e.respond event context).2)
  | .reset => (none, e.reset)

def answers (e : EarlyStopping) : List Occurrence → List (Option CallbackAction)
  | [] => []
  | o :: rest => (e.meet o).1 :: answers (e.meet o).2 rest

def after (e : EarlyStopping) (history : List Occurrence) : EarlyStopping :=
  history.foldl (fun e o => (e.meet o).2) e

variable {e s : EarlyStopping} {past : List Occurrence} {o : Occurrence}

theorem after_snoc : e.after (past ++ [o]) = ((e.after past).meet o).2 := by
  rw [after, List.foldl_append]
  rfl

theorem length_answers : (e.answers past).length = past.length := by
  induction past generalizing e with
  | nil => rfl
  | cons o rest ih => rw [answers, List.length_cons, List.length_cons, ih]

theorem answers_append {future : List Occurrence} :
    e.answers (past ++ future) = e.answers past ++ (e.after past).answers future := by
  induction past generalizing e with
  | nil => rfl
  | cons o rest ih => rw [List.cons_append, answers, answers, ih, List.cons_append]; rfl

theorem getElem?_answers {future : List Occurrence} :
    (e.answers (past ++ o :: future))[past.length]? = some ((e.after past).meet o).1 := by
  rw [answers_append, List.getElem?_append_right (Nat.le_of_eq length_answers), length_answers,
    Nat.sub_self]
  rfl

/-! ## What the checks of a history find -/

inductive Outcome where
  /-- Nothing is checked. -/
  | aside
  | improvement (value : Float32)
  | stale
  | reset
  deriving DecidableEq

namespace Outcome

def improved? : Outcome → Option Float32
  | improvement value => some value
  | _ => none

def isReset : Outcome → Bool
  | reset => true
  | _ => false

/-- The checks without improvement are counted from here. -/
def restarts (o : Outcome) : Bool := o.isReset || o.improved?.isSome

end Outcome

/-- The latest improvement since the last reset, of outcomes with the latest first. -/
def record? (outcomes : List Outcome) : Option Float32 :=
  (outcomes.takeWhile (!·.isReset)).findSome? Outcome.improved?

def staleChecks (outcomes : List Outcome) : Nat :=
  (outcomes.takeWhile (!·.restarts)).count .stale

theorem staleChecks_stale {outcomes : List Outcome} :
    staleChecks (.stale :: outcomes) = staleChecks outcomes + 1 := by
  rw [staleChecks, List.takeWhile_cons_of_pos rfl, List.count_cons_self]
  rfl

def checkedMetric? (e : EarlyStopping) : Occurrence → Option Float32
  | .told .validationEnd context =>
    if e.onValidation then context.metrics.get? e.monitor else none
  | .told (.trainEpochEnd _) context =>
    if e.onValidation then none else context.metrics.get? e.monitor
  | _ => none

/-- A check after the outcomes so far, the latest of them first. An improvement is below the best
value so far by more than the least difference. -/
def finding (e : EarlyStopping) (earlier : List Outcome) (value : Float32) : Outcome :=
  if value < (record? earlier).getD (1.0 / 0.0) - e.minDelta then .improvement value else .stale

def outcome (e : EarlyStopping) (earlier : List Outcome) : Occurrence → Outcome
  | .reset => .reset
  | .told event context =>
    match e.checkedMetric? (.told event context) with
    | none => .aside
    | some value => e.finding earlier value

def outcomes (e : EarlyStopping) (history : List Occurrence) : List Outcome :=
  history.foldl (fun earlier o => e.outcome earlier o :: earlier) []

theorem outcomes_snoc :
    e.outcomes (past ++ [o]) = e.outcome (e.outcomes past) o :: e.outcomes past := by
  rw [outcomes, List.foldl_append]
  rfl

theorem checked?_eq {event : CallbackEvent} {context : Context} :
    e.checked? event context = e.checkedMetric? (.told event context) := by
  unfold checked? checkedMetric? checksAt
  cases event <;> cases e.onValidation <;> rfl

/-! ## The callback holds what its history tells -/

/-- The callback has the settings of `e`, the best value and the count that the outcomes tell. -/
structure Recalls (e : EarlyStopping) (outcomes : List Outcome) (s : EarlyStopping) : Prop where
  monitor : s.monitor = e.monitor
  patience : s.patience = e.patience
  minDelta : s.minDelta = e.minDelta
  onValidation : s.onValidation = e.onValidation
  best : s.best = (record? outcomes).getD (1.0 / 0.0)
  stale : s.stale = staleChecks outcomes

variable {earlier : List Outcome}

theorem Recalls.checked? (h : Recalls e earlier s) {event : CallbackEvent} {context : Context} :
    s.checked? event context = e.checkedMetric? (.told event context) := by
  rw [checked?_eq]
  unfold checkedMetric?
  rw [h.monitor, h.onValidation]

theorem Recalls.improves (h : Recalls e earlier s) {value : Float32} :
    s.improves value = decide (value < (record? earlier).getD (1.0 / 0.0) - e.minDelta) := by
  rw [EarlyStopping.improves, h.best, h.minDelta]

theorem Recalls.check (h : Recalls e earlier s) (value : Float32) :
    Recalls e (e.finding earlier value :: earlier) (s.check value).2 := by
  rw [EarlyStopping.check, h.improves, finding]
  by_cases hbelow : value < (record? earlier).getD (1.0 / 0.0) - e.minDelta
  · rw [decide_eq_true hbelow, if_pos rfl, if_pos hbelow]
    exact ⟨h.monitor, h.patience, h.minDelta, h.onValidation, rfl, rfl⟩
  · rw [decide_eq_false hbelow, if_neg Bool.false_ne_true, if_neg hbelow]
    refine ⟨h.monitor, h.patience, h.minDelta, h.onValidation, h.best, ?_⟩
    rw [staleChecks_stale, ← h.stale]

theorem Recalls.check_stops (h : Recalls e earlier s) (value : Float32) :
    (s.check value).1 = if e.finding earlier value = .stale ∧
      max e.patience 1 ≤ staleChecks (e.finding earlier value :: earlier)
      then .stop else .proceed := by
  rw [EarlyStopping.check, h.improves, finding]
  by_cases hbelow : value < (record? earlier).getD (1.0 / 0.0) - e.minDelta
  · rw [decide_eq_true hbelow, if_pos rfl, if_pos hbelow]
    exact (if_neg fun hstale => nomatch hstale.1).symm
  · have hpatience : max e.patience 1 ≤ s.stale + 1 ↔ s.patience ≤ s.stale + 1 := by
      rw [h.patience]
      omega
    rw [decide_eq_false hbelow, if_neg Bool.false_ne_true, if_neg hbelow, staleChecks_stale,
      ← h.stale]
    simp only [hpatience, true_and]

theorem Recalls.meet (h : Recalls e earlier s) (o : Occurrence) :
    Recalls e (e.outcome earlier o :: earlier) (s.meet o).2 := by
  cases o with
  | reset => exact ⟨h.monitor, h.patience, h.minDelta, h.onValidation, rfl, rfl⟩
  | told event context =>
      rw [EarlyStopping.meet, respond, h.checked?, outcome]
      cases e.checkedMetric? (.told event context) with
      | none => exact ⟨h.monitor, h.patience, h.minDelta, h.onValidation, h.best, h.stale⟩
      | some value => exact h.check value

theorem Recalls.respond_stops (h : Recalls e earlier s) {event : CallbackEvent}
    {context : Context} :
    (s.respond event context).1 =
      if e.outcome earlier (.told event context) = .stale ∧
          max e.patience 1 ≤ staleChecks (e.outcome earlier (.told event context) :: earlier)
        then .stop else .proceed := by
  rw [respond, h.checked?, outcome]
  cases e.checkedMetric? (.told event context) with
  | none => exact (if_neg fun hstale => nomatch hstale.1).symm
  | some value => exact h.check_stops value

theorem Recalls.best? (h : Recalls e earlier s) :
    s.best? = (record? earlier).filter Float32.isFinite := by
  rw [EarlyStopping.best?, h.best]
  cases record? earlier with
  | none => rfl
  | some value => rfl

/-- A callback that holds nothing yet recalls what happens to it from then on. -/
theorem recalls_after (hbest : e.best = 1.0 / 0.0) (hstale : e.stale = 0)
    (history : List Occurrence) : Recalls e (e.outcomes history) (e.after history) := by
  induction history using List.reverseRecOn with
  | nil => exact ⟨rfl, rfl, rfl, rfl, hbest, hstale⟩
  | append_singleton past o ih =>
      rw [outcomes_snoc, after_snoc]
      exact ih.meet o

end EarlyStopping

open EarlyStopping

/-- Whatever has happened to it before, a callback that a specification describes asks for a stop
just at a check without improvement that is, with those since the last improvement or reset, one of
at least as many as its patience, and at least one. It goes on at every other event, is changed by
none at which it does not check, and its best value is the latest improvement if that is finite. -/
theorem EarlyStoppingSpec.build_exhausts_patience (s : EarlyStoppingSpec)
    (past future : List Occurrence) (event : CallbackEvent) (context : Context) :
    (s.build.answers (past ++ .told event context :: future))[past.length]? =
      some (some
        (if s.build.outcome (s.build.outcomes past) (.told event context) = .stale ∧
            max s.patience 1 ≤ staleChecks (s.build.outcomes (past ++ [.told event context]))
          then .stop else .proceed)) ∧
    (s.build.checkedMetric? (.told event context) = none →
      s.build.after (past ++ [.told event context]) = s.build.after past) ∧
    (s.build.after past).best? =
      (record? (s.build.outcomes past)).filter Float32.isFinite := by
  have hrecalls : Recalls s.build (s.build.outcomes past) (s.build.after past) :=
    recalls_after rfl rfl past
  refine ⟨?_, fun hnone => ?_, hrecalls.best?⟩
  · rw [getElem?_answers, outcomes_snoc, EarlyStopping.meet, hrecalls.respond_stops]
    rfl
  · rw [after_snoc, EarlyStopping.meet, respond, hrecalls.checked?, hnone]

end TrainingLoop
