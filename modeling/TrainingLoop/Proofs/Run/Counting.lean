import TrainingLoop.Proofs.Run.FitTrace
/-!
# The counters read off the events

The counters at a point of a run are those at its start, moved on by the events up to that point
(`Progress.afterAll`). `Counted` says of a piece of a run that all its events show the counters of
their point, and that no batch pays for more than one optimizer step or one signal.
-/

namespace TrainingLoop

variable {σ W β : Type}

/-! ## Counters and credit -/

namespace Progress

def step (p : Progress) : Progress := { p with globalStep := p.globalStep + 1 }

def after (p : Progress) : RunEvent β → Progress
  | .pulled _ _ => p.pull
  | .stepRequested _ _ => p.step
  | _ => p

def afterAll (p : Progress) (events : List (RunEvent β)) : Progress := events.foldl after p

@[simp] theorem afterAll_nil (p : Progress) : p.afterAll ([] : List (RunEvent β)) = p := rfl

@[simp] theorem afterAll_cons (p : Progress) (event : RunEvent β) (rest : List (RunEvent β)) :
    p.afterAll (event :: rest) = (p.after event).afterAll rest := rfl

theorem afterAll_append (p : Progress) (before rest : List (RunEvent β)) :
    p.afterAll (before ++ rest) = (p.afterAll before).afterAll rest := List.foldl_append

theorem globalStep_le_after (p : Progress) (event : RunEvent β) :
    p.globalStep ≤ (p.after event).globalStep := by
  cases event <;> simp [after, pull, step]

theorem globalStep_le_afterAll (p : Progress) (events : List (RunEvent β)) :
    p.globalStep ≤ (p.afterAll events).globalStep := by
  induction events generalizing p with
  | nil => exact le_rfl
  | cons event rest ih => exact (globalStep_le_after p event).trans (ih _)

end Progress

def RunEvent.Shows (p : Progress) : RunEvent β → Prop
  | .callback _ _ context => context.progress = p
  | .evaluated _ globalStep => globalStep = p.globalStep
  | .logged record => record.step = p.globalStep
  | .stepRequested totalBatches current => p = ⟨current, totalBatches⟩
  | _ => True

/-- Every event shows the counters of its point. -/
def Progress.Tells : Progress → List (RunEvent β) → Prop
  | _, [] => True
  | p, event :: rest => event.Shows p ∧ (p.after event).Tells rest

def RunEvent.spends : RunEvent β → Bool
  | .stepRequested _ _ | .signalled _ => true
  | _ => false

/-- A pull gives the credit for one event that spends it. -/
def Paid : (credit : Bool) → List (RunEvent β) → Prop
  | _, [] => True
  | credit, event :: rest =>
    (event.spends → credit = true) ∧ Paid (event.isPulled || (credit && !event.spends)) rest

namespace Paid

variable {credit : Bool} {events rest : List (RunEvent β)}

theorem mono (h : Paid false events) : Paid credit events := by
  induction events with
  | nil => trivial
  | cons event rest ih =>
      obtain ⟨hspends, hrest⟩ := h
      have hnot : event.spends = false := by simpa using hspends
      cases hpull : event.isPulled with
      | true => simpa [Paid, hpull, hnot] using hrest
      | false =>
          have hrest' : Paid credit rest := ih (by simpa [hpull] using hrest)
          simpa [Paid, hpull, hnot] using hrest'

theorem append (h : Paid credit events) (hrest : Paid false rest) :
    Paid credit (events ++ rest) := by
  induction events generalizing credit with
  | nil => exact hrest.mono
  | cons event events ih => exact ⟨h.1, ih h.2⟩

theorem of_append (h : Paid credit (events ++ rest)) :
    Paid credit events ∧ ∃ left, Paid left rest := by
  induction events generalizing credit with
  | nil => exact ⟨trivial, credit, h⟩
  | cons event events ih =>
      obtain ⟨hevents, hrest⟩ := ih h.2
      exact ⟨⟨h.1, hevents⟩, hrest⟩

/-- Before the next pull the credit is spent once. -/
theorem countP_spends_le (h : Paid credit events) (hpull : ∀ event ∈ events, event.isPulled = false) :
    events.countP RunEvent.spends ≤ credit.toNat := by
  induction events generalizing credit with
  | nil => exact Nat.zero_le _
  | cons event events ih =>
      have hevent : event.isPulled = false := hpull event List.mem_cons_self
      have hmost := ih h.2 fun event' hin => hpull event' (List.mem_cons_of_mem _ hin)
      rw [List.countP_cons]
      cases hspends : event.spends with
      | true =>
          rw [h.1 hspends]
          simp only [hevent, hspends] at hmost
          simpa using hmost
      | false =>
          simp only [hevent, hspends] at hmost
          simpa using hmost

theorem steps_le (h : Paid credit events) (p : Progress) :
    (p.afterAll events).globalStep + p.totalBatches ≤
      p.globalStep + (p.afterAll events).totalBatches + credit.toNat := by
  induction events generalizing credit p with
  | nil => simp
  | cons event events ih =>
      have hmost := ih h.2 (p.after event)
      have hone := h.1
      rw [Progress.afterAll_cons]
      cases event <;> cases credit <;>
        simp [RunEvent.isPulled, RunEvent.spends, Progress.after, Progress.pull, Progress.step]
          at hmost hone ⊢ <;> omega

end Paid

/-! ## Pieces of a run -/

/-- The events of a piece of a run lead from the first counters to the second; each of them shows
the counters of its point, and each optimizer step and each signal is paid for by a batch. -/
structure Counted (p : Progress) (new : List (RunEvent β)) (p' : Progress) : Prop where
  tells : p.Tells new
  after : p.afterAll new = p'
  paid : Paid false new

theorem Progress.tells_append {p : Progress} {before rest : List (RunEvent β)} :
    p.Tells (before ++ rest) ↔ p.Tells before ∧ (p.afterAll before).Tells rest := by
  induction before generalizing p with
  | nil => simp [Tells]
  | cons event before ih => simp [Tells, ih, and_assoc]

structure RunEvent.Rests (p : Progress) (event : RunEvent β) : Prop where
  shows : event.Shows p
  after : p.after event = p
  spends : event.spends = false
  isPulled : event.isPulled = false

theorem RunEvent.Quiet.rests {p : Progress} {event : RunEvent β} (h : event.Quiet p) :
    event.Rests p := by
  cases event <;> first | exact h.elim | exact ⟨h, rfl, rfl, rfl⟩

theorem RunEvent.failed_rests (p : Progress) (cause : Error) :
    (RunEvent.failed cause : RunEvent β).Rests p := ⟨trivial, rfl, rfl, rfl⟩

theorem RunEvent.dataRequested_rests (p : Progress) (epoch : Nat) :
    (RunEvent.dataRequested epoch : RunEvent β).Rests p := ⟨trivial, rfl, rfl, rfl⟩

namespace Counted

variable {p q s : Progress} {new more : List (RunEvent β)}

theorem nil (p : Progress) : Counted p ([] : List (RunEvent β)) p := ⟨trivial, rfl, trivial⟩

theorem append (h : Counted p new q) (h' : Counted q more s) : Counted p (new ++ more) s := by
  obtain ⟨htells, rfl, hpaid⟩ := h
  obtain ⟨htells', rfl, hpaid'⟩ := h'
  exact ⟨Progress.tells_append.2 ⟨htells, htells'⟩, Progress.afterAll_append p new more,
    hpaid.append hpaid'⟩

theorem of_append (h : Counted p (new ++ more) q) : Counted p new (p.afterAll new) :=
  ⟨(Progress.tells_append.1 h.tells).1, rfl, h.paid.of_append.1⟩

theorem rests_append {credit : Bool} (hrests : ∀ event ∈ new, event.Rests p)
    (htells : p.Tells more) (hpaid : Paid credit more) :
    p.Tells (new ++ more) ∧ p.afterAll (new ++ more) = p.afterAll more ∧
      Paid credit (new ++ more) := by
  induction new with
  | nil => exact ⟨htells, rfl, hpaid⟩
  | cons event new ih =>
      have hevent : event.Rests p := hrests event List.mem_cons_self
      obtain ⟨htells', hafter', hpaid'⟩ := ih fun e he => hrests e (List.mem_cons_of_mem _ he)
      refine ⟨⟨hevent.shows, by rwa [hevent.after]⟩, ?_, by simp [hevent.spends], ?_⟩
      · rw [List.cons_append, Progress.afterAll_cons, hevent.after, hafter']
      · simpa [hevent.spends, hevent.isPulled] using hpaid'

theorem of_rests (hrests : ∀ event ∈ new, event.Rests p) : Counted p new p := by
  have hnothing : Paid false ([] : List (RunEvent β)) := trivial
  obtain ⟨htells, hafter, hpaid⟩ := rests_append hrests (show p.Tells [] from trivial) hnothing
  rw [List.append_nil] at htells hafter hpaid
  exact ⟨htells, hafter, hpaid⟩

theorem single {event : RunEvent β} (h : event.Rests p) : Counted p [event] p := by
  apply Counted.of_rests
  intro event' hevent
  rwa [List.mem_singleton.1 hevent]

theorem of_leaves {α : Type} {L : Language (RunEvent β)} {result : Except Error α}
    (hL : Only (RunEvent.Rests p) L) (h : Leaves L result new) : Counted p new p :=
  .of_rests (h.only hL (RunEvent.failed_rests p))

theorem batch {index : Nat} {isLast : Bool} (hrests : ∀ event ∈ new, event.Rests p.pull)
    (htells : p.pull.Tells more) (hpaid : Paid true more) :
    Counted p (.pulled index isLast :: (new ++ more)) (p.pull.afterAll more) := by
  obtain ⟨htells', hafter, hpaid'⟩ := rests_append hrests htells hpaid
  exact ⟨⟨trivial, htells'⟩, hafter, nofun, hpaid'⟩

end Counted

/-! ## The languages of a run -/

namespace Trace

open Computability

variable {setup : Setup W β} {n : Nat} {p : Progress} {handed : Handed β} {dataloader : Nat}
  {outputs : Processed} {word : List (RunEvent β)}

/-- A completed batch adds one to the batches, and one to the steps if it ends with one. -/
theorem counted_of_completed {steps : Bool}
    (h : word ∈ trained setup n p.pull handed dataloader outputs * upkeep n p.pull steps) :
    Counted p word (if steps then p.pull.step else p.pull) := by
  obtain ⟨_, ⟨_, ⟨_, rfl, _, rfl, rfl⟩, ended, hended, rfl⟩, _,
    ⟨validated, hvalidated, _, ⟨saved, hsaved, last, hlast, rfl⟩, rfl⟩, rfl⟩ := h
  have hrests : ∀ event ∈ .batchRun handed.batch handed.index dataloader ::
      (ended ++ (validated ++ saved)), event.Rests p.pull := by
    have hsaves : Only (RunEvent.Quiet p.pull) (1 + {[.saved]} : Language (RunEvent β)) :=
      (Only.single trivial).optional
    have hall := (Only.batchEnded setup n p.pull handed dataloader outputs).mul
      ((Only.validated n p.pull).optional.mul hsaves)
    have hin := Language.append_mem_mul hended (Language.append_mem_mul hvalidated hsaved)
    intro event hevent
    rcases List.mem_cons.1 hevent with rfl | hrest
    · exact ⟨trivial, rfl, rfl, rfl⟩
    · exact (hall _ hin event hrest).rests
  cases steps with
  | false =>
      obtain rfl : last = [] := hlast
      have hnothing : Paid true ([] : List (RunEvent β)) := trivial
      simpa using Counted.batch hrests (show p.pull.Tells [] from trivial) hnothing
  | true =>
      obtain ⟨_, rfl, _, rfl, rfl⟩ := hlast
      have hstep : p.pull.Tells
          ([.ratesTicked .step, .stepRequested p.pull.totalBatches p.pull.globalStep] :
            List (RunEvent β)) := by
        simp [Progress.Tells, RunEvent.Shows, Progress.after]
      have hpaid : Paid true
          ([.ratesTicked .step, .stepRequested p.pull.totalBatches p.pull.globalStep] :
            List (RunEvent β)) := by
        simp [Paid, RunEvent.spends, RunEvent.isPulled]
      simpa [Progress.after] using Counted.batch hrests hstep hpaid

/-- A batch that fails on its way adds no more than a completed one. -/
theorem counted_of_broken {steps : Bool} {e : Error}
    (h : CutShort (trained setup n p.pull handed dataloader outputs * upkeep n p.pull steps) e
      word) :
    ∃ q, Counted p word q ∧ q.globalStep ≤ p.globalStep + 1 := by
  obtain ⟨done, rest, hall, hends⟩ := h
  have hcounted := counted_of_completed hall
  have hdone : Counted p done (p.afterAll done) := hcounted.of_append
  have hone : (p.afterAll done).globalStep ≤ p.globalStep + 1 := calc
    (p.afterAll done).globalStep ≤ (p.afterAll (done ++ rest)).globalStep := by
      rw [Progress.afterAll_append]
      exact Progress.globalStep_le_afterAll _ _
    _ ≤ p.globalStep + 1 := by
      rw [hcounted.after]
      cases steps <;> simp [Progress.pull, Progress.step]
  refine ⟨p.afterAll done, ?_, hone⟩
  rcases hends with rfl | ⟨before, call, cause, -, rfl, -⟩
  · exact hdone
  · exact hdone.append (.single (RunEvent.failed_rests _ cause))

theorem counted_of_skipped (h : word ∈ skipped handed dataloader) : Counted p word p.pull := by
  obtain ⟨_, ⟨_, rfl, _, rfl, rfl⟩, _, rfl, rfl⟩ := h
  have hrests : ∀ event ∈ [.batchRun handed.batch handed.index dataloader],
      RunEvent.Rests p.pull event := by
    intro event hevent
    rw [List.mem_singleton.1 hevent]
    exact ⟨trivial, rfl, rfl, rfl⟩
  have hsignal : Paid true ([.signalled handed.index] : List (RunEvent β)) :=
    ⟨fun _ => rfl, trivial⟩
  exact Counted.batch hrests ⟨trivial, trivial⟩ hsignal

end Trace

namespace Only

open Trace

theorem rests {p : Progress} {L : Language (RunEvent β)} (hL : Only (RunEvent.Quiet p) L) :
    Only (RunEvent.Rests p) L := hL.mono fun _ => RunEvent.Quiet.rests

theorem epochBegun_rests (setup : Setup W β) (n epoch : Nat) (p : Progress) :
    Only (RunEvent.Rests p) (epochBegun setup n epoch p) :=
  (single (RunEvent.dataRequested_rests p epoch)).mul (called setup n p _).rests

end Only

end TrainingLoop
