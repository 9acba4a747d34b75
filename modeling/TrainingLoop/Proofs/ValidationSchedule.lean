import TrainingLoop.ValidationSchedule
/-!
# The two questions of the validation schedule

The schedule is asked after every batch and at the end of the epoch. The two answers never
overlap, and together they are the multiples of the interval.
-/

namespace TrainingLoop

namespace BatchCount

theorem divides_finite {k n : Nat} : (finite k).divides n = true ↔ 1 ≤ k ∧ k ∣ n := by
  cases k with
  | zero => simp [divides]
  | succ k => simp [divides, Nat.dvd_iff_mod_eq_zero]

theorem divides_of_le {N : BatchCount} {b : Nat} (hpos : 0 < b)
    (hbound : ∀ n, N = .finite n → b ≤ n) : N.divides b = true ↔ N = .finite b := by
  cases N with
  | infinite =>
      simp only [divides, beq_iff_eq, reduceCtorEq, iff_false]
      omega
  | finite n =>
      have hle : b ≤ n := hbound n rfl
      rw [divides_finite, finite.injEq]
      constructor
      · rintro ⟨-, hdvd⟩
        exact Nat.le_antisymm (Nat.le_of_dvd hpos hdvd) hle
      · rintro rfl
        exact ⟨hpos, Nat.dvd_refl _⟩

/-- The numbers of the batches after which an epoch is validated that has so many batches: the
multiples of the interval or, without an interval, the end of the data. -/
def validated (interval : BatchCount) (consumed : Nat) (ranOut : Bool) : List Nat :=
  match interval with
  | .finite k => (List.range' 1 consumed).filter fun b => decide (1 ≤ k ∧ k ∣ b)
  | .infinite => if 0 < consumed ∧ ranOut = true then [consumed] else []

end BatchCount

namespace ValidationSchedule

def midEpoch (v : ValidationSchedule) (epoch consumed : Nat) : List Nat :=
  (List.range' 1 consumed).filter fun b => v.dueAfterBatch epoch (b - 1)

def atEnd (v : ValidationSchedule) (epoch consumed : Nat) (lastOfData : Bool) : List Nat :=
  if 0 < consumed ∧ v.dueAfterEpoch epoch false (consumed - 1) lastOfData = true then [consumed]
  else []

theorem coversEpoch_iff {v : ValidationSchedule} {epoch : Nat} :
    v.coversEpoch epoch = true ↔
      v.enabled = true ∧ 0 < v.everyNEpochs ∧ v.everyNEpochs ∣ epoch + 1 := by
  simp [coversEpoch, Nat.dvd_iff_mod_eq_zero, and_assoc]

theorem midEpoch_succ (v : ValidationSchedule) (epoch consumed : Nat) :
    v.midEpoch epoch (consumed + 1) =
      v.midEpoch epoch consumed ++
        if v.dueAfterBatch epoch consumed then [consumed + 1] else [] := by
  rw [midEpoch, List.range'_1_concat, List.filter_append, Nat.add_comm 1 consumed]
  congr 1
  simp [List.filter_cons]

theorem midEpoch_eq_nil {v : ValidationSchedule} {epoch consumed : Nat}
    (h : v.coversEpoch epoch = false) : v.midEpoch epoch consumed = [] := by
  simp [midEpoch, dueAfterBatch, h]

theorem atEnd_eq_nil {v : ValidationSchedule} {epoch consumed : Nat} {lastOfData : Bool}
    (h : v.coversEpoch epoch = false) : v.atEnd epoch consumed lastOfData = [] := by
  simp [atEnd, dueAfterEpoch, h]

theorem midEpoch_infinite {v : ValidationSchedule} {epoch consumed : Nat}
    (h : v.interval = .infinite) : v.midEpoch epoch consumed = [] := by
  simp [midEpoch, dueAfterBatch, h, BatchCount.divides]

theorem dueAfterBatch_iff {v : ValidationSchedule} {epoch k b : Nat}
    (hcovers : v.coversEpoch epoch = true) (hinterval : v.interval = .finite k) (hpos : 0 < b) :
    v.dueAfterBatch epoch (b - 1) = true ↔
      (1 ≤ k ∧ k ∣ b) ∧ v.trainingBatches.divides b = false := by
  rw [dueAfterBatch, Nat.sub_add_cancel hpos, hcovers, hinterval]
  simp [BatchCount.divides_finite]

theorem dueAfterEpoch_iff {v : ValidationSchedule} {epoch k b : Nat} {lastOfData : Bool}
    (hcovers : v.coversEpoch epoch = true) (hinterval : v.interval = .finite k) (hpos : 0 < b) :
    v.dueAfterEpoch epoch false (b - 1) lastOfData = true ↔
      (1 ≤ k ∧ k ∣ b) ∧ v.trainingBatches.divides b = true := by
  rw [dueAfterEpoch, Nat.sub_add_cancel hpos, hcovers, hinterval]
  simp [BatchCount.divides_finite, BatchCount.isInfinite]

theorem midEpoch_finite {v : ValidationSchedule} {epoch k m : Nat}
    (hcovers : v.coversEpoch epoch = true) (hinterval : v.interval = .finite k)
    (hbound : ∀ n, v.trainingBatches = .finite n → m < n) :
    v.midEpoch epoch m = (List.range' 1 m).filter fun b => decide (1 ≤ k ∧ k ∣ b) := by
  apply List.filter_congr
  intro b hb
  obtain ⟨hpos, hlt⟩ : 1 ≤ b ∧ b < 1 + m := by simpa using hb
  have hnot : v.trainingBatches.divides b = false := by
    rw [← Bool.not_eq_true, BatchCount.divides_of_le hpos]
    · intro heq
      have := hbound b heq
      omega
    · intro n hn
      have := hbound n hn
      omega
  rw [Bool.eq_iff_iff, dueAfterBatch_iff hcovers hinterval hpos, decide_eq_true_iff]
  simp [hnot]

/-- The last batch is validated after by one of the two questions, if it is one of the interval. -/
theorem lastBatch_finite {v : ValidationSchedule} {epoch k m : Nat} {lastOfData : Bool}
    (hcovers : v.coversEpoch epoch = true) (hinterval : v.interval = .finite k) :
    (if v.dueAfterBatch epoch m then [m + 1] else []) ++ v.atEnd epoch (m + 1) lastOfData =
      [m + 1].filter fun b => decide (1 ≤ k ∧ k ∣ b) := by
  have hmid := dueAfterBatch_iff (b := m + 1) hcovers hinterval (Nat.succ_pos m)
  have hend : v.dueAfterEpoch epoch false (m + 1 - 1) lastOfData = true ↔
      (1 ≤ k ∧ k ∣ m + 1) ∧ v.trainingBatches.divides (m + 1) = true :=
    dueAfterEpoch_iff hcovers hinterval (Nat.succ_pos m)
  rw [Nat.add_sub_cancel] at hmid hend
  rw [atEnd, List.filter_cons, List.filter_nil, Nat.add_sub_cancel]
  by_cases hdvd : 1 ≤ k ∧ k ∣ m + 1
  · cases hcompletes : v.trainingBatches.divides (m + 1) with
    | true => simp_all
    | false => simp_all
  · simp_all

/-- In an epoch that does not pass its number of batches, both questions together have validation
run after the batches of the interval, after each of them once. -/
theorem midEpoch_append_atEnd {v : ValidationSchedule} {epoch consumed : Nat} {lastOfData : Bool}
    (hbound : ∀ n, v.trainingBatches = .finite n → consumed ≤ n) :
    v.midEpoch epoch consumed ++ v.atEnd epoch consumed lastOfData =
      if v.coversEpoch epoch then v.interval.validated consumed lastOfData else [] := by
  cases hcovers : v.coversEpoch epoch with
  | false => rw [midEpoch_eq_nil hcovers, atEnd_eq_nil hcovers]; rfl
  | true =>
      rw [if_pos rfl]
      cases hinterval : v.interval with
      | infinite =>
          rw [midEpoch_infinite hinterval]
          simp [atEnd, dueAfterEpoch, BatchCount.validated, hinterval, hcovers,
            BatchCount.divides, BatchCount.isInfinite]
      | finite k =>
          cases consumed with
          | zero => rfl
          | succ m =>
              rw [midEpoch_succ, List.append_assoc, lastBatch_finite hcovers hinterval,
                midEpoch_finite hcovers hinterval hbound, BatchCount.validated,
                List.range'_1_concat, List.filter_append, Nat.add_comm 1 m]

end ValidationSchedule

end TrainingLoop
