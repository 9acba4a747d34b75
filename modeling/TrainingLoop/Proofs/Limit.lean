import TrainingLoop.Limit
import TrainingLoop.Proofs.Number.Counts
/-!
# Fractions of an epoch

What fractions of a known length come to. A length has only 24 significant bits in the arithmetic
of `BatchLimit.share`, so the whole of an epoch is the nearest such count, which may be one that the
epoch does not have.
-/

namespace TrainingLoop.BatchLimit

open Single

/-- The whole of an epoch as its fraction one has it. -/
def wholeShare (n : Nat) : Nat := min (2 ^ 64 - 1) (nearestCount n)

theorem share_eq {f : Float32} {n : Nat} (hn : n < 2 ^ 64) (hf : isFraction f = true) :
    share f n = min (2 ^ 64 - 1) ⌊value (ofCount n * f)⌋₊ :=
  ((ofCount_isAmount hn).1.mul_fraction hf).1.toCount_eq

theorem share_le {f : Float32} {n : Nat} (hn : n < 2 ^ 64) (hf : isFraction f = true) :
    share f n ≤ wholeShare n := by
  obtain ⟨hamount, hvalue⟩ := ofCount_isAmount hn
  have hfloor : ⌊value (ofCount n * f)⌋₊ ≤ nearestCount n := by
    refine Nat.floor_le_of_le ?_
    rw [← hvalue]
    exact (hamount.mul_fraction hf).2
  rw [share_eq hn hf]
  exact min_le_min_left _ hfloor

theorem share_one {n : Nat} (hn : n < 2 ^ 64) : share 1.0 n = wholeShare n := by
  obtain ⟨hamount, hvalue⟩ := ofCount_isAmount hn
  obtain ⟨hproduct, hsame⟩ := hamount.mul_one
  rw [share, hproduct.toCount_eq, hsame, hvalue, Nat.floor_natCast]
  rfl

/-- A fraction of an epoch of `n` batches stays within `whole` batches, and one comes to `whole`. -/
structure SettlesWithin (f : Float32) (n whole : Nat) : Prop where
  batches : ∃ m ≤ whole, resolveBatches (.fraction f) (some n) = .ok (.finite m) ∧
    (f = 1.0 → m = whole)
  interval : ∃ k, 1 ≤ k ∧ k ≤ max whole 1 ∧
    resolveInterval (.fraction f) (.finite n) = .ok (.finite k) ∧ (f = 1.0 → k = max whole 1)

theorem settlesWithin_iff {f : Float32} {n whole : Nat} :
    SettlesWithin f n whole ↔ share f n ≤ whole ∧ (f = 1.0 → share f n = whole) := by
  constructor
  · rintro ⟨⟨m, hle, hresolves, hwhole⟩, -⟩
    obtain rfl : share f n = m := by simpa [resolveBatches] using hresolves
    exact ⟨hle, hwhole⟩
  · rintro ⟨hle, hwhole⟩
    refine ⟨⟨_, hle, rfl, hwhole⟩, ⟨_, le_max_right _ _, max_le_max_right 1 hle, rfl, ?_⟩⟩
    exact fun hone => congrArg (max · 1) (hwhole hone)

theorem wholeShare_eq_iff {n : Nat} (hn : n < 2 ^ 64) :
    wholeShare n = n ↔ (∃ m e, m < 2 ^ 24 ∧ n = m * 2 ^ e) ∨ n = 2 ^ 64 - 1 := by
  have hbound := nearestCount_le hn
  have hgreatest : nearestCount (2 ^ 64 - 1) = 2 ^ 64 := by decide +kernel
  rw [← nearestCount_eq_iff, wholeShare]
  constructor
  · intro hsame
    omega
  · rintro (hsame | rfl)
    · omega
    · rw [hgreatest]
      rfl

/-- Every fraction of an epoch settles within the nearest count of 24 significant bits, and within
the epoch itself just where the length is such a count or the greatest one. -/
theorem fraction_settles {n : Nat} (hn : n < 2 ^ 64) :
    (∀ f, isFraction f = true → SettlesWithin f n (wholeShare n)) ∧
    ((∀ f, isFraction f = true → SettlesWithin f n n) ↔
      (∃ m e, m < 2 ^ 24 ∧ n = m * 2 ^ e) ∨ n = 2 ^ 64 - 1) := by
  rw [← wholeShare_eq_iff hn]
  have hwhole (f : Float32) (hf : isFraction f = true) : SettlesWithin f n (wholeShare n) := by
    refine settlesWithin_iff.2 ⟨share_le hn hf, ?_⟩
    rintro rfl
    exact share_one hn
  refine ⟨hwhole, fun hall => ?_, fun hsame => ?_⟩
  · have hone := (settlesWithin_iff.1 (hall 1.0 isFraction_one)).2 rfl
    rwa [share_one hn] at hone
  · rwa [hsame] at hwhole

theorem fraction_settles_past24Bits :
    16777219 < 2 ^ 64 ∧ isFraction 1.0 = true ∧ SettlesWithin 1.0 16777219 16777220 := by
  have hn : 16777219 < 2 ^ 64 := by decide
  have hwhole : wholeShare 16777219 = 16777220 := by decide +kernel
  exact ⟨hn, isFraction_one, hwhole ▸ (fraction_settles hn).1 1.0 isFraction_one⟩

theorem resolve_past24Bits_beyondEpoch :
    isFraction 1.0 = true ∧
      resolveBatches (.fraction 1.0) (some 16777219) = .ok (.finite 16777220) ∧
      resolveInterval (.fraction 1.0) (.finite 16777219) = .ok (.finite 16777220) ∧
      ¬ SettlesWithin 1.0 16777219 16777219 := by
  have hshare : share 1.0 16777219 = 16777220 := by decide +kernel
  refine ⟨isFraction_one, ?_, ?_, ?_⟩
  · rw [resolveBatches, hshare]
  · rw [resolveInterval, hshare]
    rfl
  · rw [settlesWithin_iff, hshare]
    exact fun hwithin => absurd hwithin.1 (by decide)

end TrainingLoop.BatchLimit
