import TrainingLoop.Batches
/-!
# The feed hands out the batches in order

`Feed.At` says where a feed stands. The batch handed out next is the one of that index, and it is
marked as the last one just if there is none behind it.
-/

namespace TrainingLoop

variable {β : Type}

namespace Batches

theorem get?_eq_none_iff {b : Batches β} {i : Nat} :
    b.get? i = none ↔ ∃ n, b.length = some n ∧ n ≤ i := by
  unfold get?
  cases b.length with
  | none => simp
  | some n => simp

theorem get?_isSome_of_length {b : Batches β} {n i : Nat} (hlength : b.length = some n) :
    (b.get? i).isSome = decide (i < n) := by
  unfold get?
  rw [hlength]
  by_cases hi : i < n <;> simp [hi]

end Batches

namespace Feed

/-- The feed has handed out the first `n` batches, and has looked at no batch beyond the next. -/
structure At (b : Batches β) (n : Nat) (f : Feed β) : Prop where
  batches : f.batches = b
  handed : f.handed = n
  ahead : f.ahead = some (b.get? n) ∧ f.asked = n + 1 ∨ n = 0 ∧ f.ahead = none ∧ f.asked = 0

theorem at_ofBatches (b : Batches β) : At b 0 (ofBatches b) :=
  ⟨rfl, rfl, .inr ⟨rfl, rfl, rfl⟩⟩

theorem take_of_at {b : Batches β} {n : Nat} {f : Feed β} (h : At b n f) :
    ∃ f', f.take = (b.get? n, f') ∧ f'.batches = b ∧ f'.handed = n ∧
      f'.asked = n + 1 := by
  obtain ⟨rfl, rfl, ⟨hahead, hasked⟩ | ⟨hzero, hahead, hasked⟩⟩ := h
  · exact ⟨{ f with ahead := none }, by simp [take, hahead], rfl, rfl, hasked⟩
  · have htake : f.take = (f.batches.get? f.handed, { f with asked := f.asked + 1 }) := by
      simp [take, ask, hahead, hasked, hzero]
    exact ⟨_, htake, rfl, rfl, by simp [hasked, hzero]⟩

theorem next_of_none {b : Batches β} {n : Nat} {f : Feed β} (h : At b n f)
    (hnone : b.get? n = none) : f.next.1 = none := by
  obtain ⟨f', htake, -⟩ := take_of_at h
  simp [next, htake, hnone]

theorem next_of_some {b : Batches β} {n : Nat} {f : Feed β} (h : At b n f)
    {batch : β} (hsome : b.get? n = some batch) :
    ∃ f', f.next = (some ⟨n, batch, (b.get? (n + 1)).isNone⟩, f') ∧
      At b (n + 1) f' := by
  obtain ⟨f', htake, hbatches, hhanded, hasked⟩ := take_of_at h
  simp only [next, htake, hsome, ask, hbatches, hhanded, hasked]
  exact ⟨_, rfl, rfl, rfl, .inl ⟨rfl, rfl⟩⟩

theorem of_next {b : Batches β} {n : Nat} {f f' : Feed β} {handed : Handed β} (h : At b n f)
    (hnext : f.next = (some handed, f')) :
    handed.index = n ∧ b.get? n = some handed.batch ∧
      handed.isLast = (b.get? (n + 1)).isNone ∧ At b (n + 1) f' := by
  cases hget : b.get? n with
  | none =>
      have hnone := next_of_none h hget
      rw [hnext] at hnone
      cases hnone
  | some batch =>
      obtain ⟨f₁, hf₁, hat⟩ := next_of_some h hget
      rw [hnext] at hf₁
      cases hf₁
      exact ⟨rfl, rfl, rfl, hat⟩

theorem eq_none_of_next {b : Batches β} {n : Nat} {f : Feed β} (h : At b n f)
    (hnext : f.next.1 = none) : b.get? n = none := by
  cases hget : b.get? n with
  | none => rfl
  | some batch =>
      obtain ⟨f₁, hf₁, -⟩ := next_of_some h hget
      rw [hf₁] at hnext
      cases hnext

theorem asked_le {b : Batches β} {n : Nat} {f : Feed β} (h : At b n f) : f.asked ≤ n + 1 := by
  rcases h.ahead with ⟨-, hasked⟩ | ⟨-, -, hasked⟩ <;> omega

theorem asked_of_none {b : Batches β} {n : Nat} {f : Feed β} (h : At b n f)
    (hnone : b.get? n = none) : f.next.2.asked = n + 1 := by
  obtain ⟨f', htake, -, -, hasked⟩ := take_of_at h
  simpa [next, htake, hnone] using hasked

end Feed

end TrainingLoop
