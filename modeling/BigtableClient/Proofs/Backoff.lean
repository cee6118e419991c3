import BigtableClient.Retry

/-!
# When the backoff is a duration

The backoff of a policy whose longest one is well below the 64 bits of seconds is a
duration, whatever the power of its multiplier comes to.
-/

namespace BigtableClient

open ProofSupport.Binary64

def RetryPolicy.BacksOff (codec : Codec) (policy : RetryPolicy) : Prop :=
  ∀ failedAttempt draw, (backoff codec policy failedAttempt draw).isSome

/-- No read with these options panics. -/
structure ReadOptions.NeverPanics (codec : Codec) (options : ReadOptions) : Prop where
  backsOff : options.retry.BacksOff codec
  fits : ∀ timeout ≤ options.deadlines.attemptTimeout, codec.takesTimeout timeout

/-! ## Seconds -/

theorem asSecsF64_ne_negative (duration : Duration) : duration.asSecsF64 ≠ .negative :=
  F64.add_ne_negative (F64.round_ne_negative _ _)
    (F64.divNat_ne_negative (F64.round_ne_negative _ _) _)

/-- A duration is at most twice as long in floating-point seconds. -/
theorem exists_asSecsF64 {duration : Duration} (h : duration < 2 ^ 62 * 1000000000) :
    ∃ units, units ≤ 2 ^ 63 * F64.unit ∧ duration.asSecsF64 = .finite units := by
  have hseconds : duration / 1000000000 * F64.unit ≤ 2 ^ 62 * F64.unit * 1 := by
    rw [Nat.mul_one]
    exact Nat.mul_le_mul_right _ (Nat.div_lt_of_lt_mul (Nat.mul_comm _ _ ▸ h)).le
  have hnanos : duration % 1000000000 * F64.unit ≤ 2 ^ 30 * F64.unit * 1 := by
    rw [Nat.mul_one]
    exact Nat.mul_le_mul_right _ ((Nat.mod_lt duration (by omega)).le.trans (by omega))
  obtain ⟨whole, hwhole, hwholeEq⟩ := F64.exists_round_le_unit Nat.one_pos hseconds (by omega)
  obtain ⟨part, hpart, hpartEq⟩ := F64.exists_round_le_unit Nat.one_pos hnanos (by omega)
  have hden : 0 < 1000000000 := by omega
  obtain ⟨rest, hrest, hrestEq⟩ := F64.exists_round_le_unit hden
    (hpart.trans (Nat.le_mul_of_pos_right _ hden)) (by omega)
  have hsum : whole + rest ≤ 2 ^ 63 * F64.unit * 1 := by omega
  obtain ⟨units, hunits, hunitsEq⟩ := F64.exists_round_le_unit Nat.one_pos hsum (by omega)
  refine ⟨units, hunits, ?_⟩
  rw [Duration.asSecsF64, F64.ofNat, hwholeEq, F64.ofNat, hpartEq, F64.divNat, hrestEq, F64.add,
    hunitsEq]

/-- Seconds far below 64 bits are a duration. -/
theorem isSome_fromSecsF64 {units : Nat} (h : units ≤ 2 ^ 63 * F64.unit) :
    (Duration.fromSecsF64 (.finite units)).isSome := by
  have hnanos : roundHalfEven (units * 1000000000) F64.unit ≤ 2 ^ 63 * 1000000000 := by
    apply roundHalfEven_le F64.unit_pos
    calc units * 1000000000 ≤ 2 ^ 63 * F64.unit * 1000000000 := Nat.mul_le_mul_right _ h
      _ = 2 ^ 63 * 1000000000 * F64.unit := Nat.mul_right_comm _ _ _
  have hmax : 2 ^ 63 * 1000000000 ≤ maxDuration := by decide
  rw [Duration.fromSecsF64, if_pos (hnanos.trans hmax)]
  rfl

/-! ## Policies -/

/-- A policy whose longest backoff is below 2^62 seconds never panics. -/
theorem RetryPolicy.backsOff_of_lt {codec : Codec} {policy : RetryPolicy}
    (hpowi : ∀ exponent, codec.powi policy.multiplier exponent ≠ .negative)
    (hmax : policy.maxBackoff < 2 ^ 62 * 1000000000) : policy.BacksOff codec := by
  intro failedAttempt draw
  obtain ⟨longest, hlongest, hlongestEq⟩ := exists_asSecsF64 hmax
  obtain ⟨units, hunits, hunitsEq⟩ := F64.exists_min_le
    (F64.mul_ne_negative (asSecsF64_ne_negative policy.initialBackoff)
      (hpowi (min (failedAttempt - 1) i32Max))) longest
  obtain ⟨capped, hcapped⟩ :=
    Option.isSome_iff_exists.1 (isSome_fromSecsF64 (hunits.trans hlongest))
  unfold backoff
  simp only [hlongestEq, hunitsEq, hcapped]
  cases policy.jitter with
  | full => rfl
  | none => rfl

/-- With full jitter there may be no delay at all. -/
theorem RetryPolicy.BacksOff.backoff_zero {codec : Codec} {policy : RetryPolicy}
    (h : policy.BacksOff codec) (hjitter : policy.jitter = .full) (failedAttempt : Nat) :
    backoff codec policy failedAttempt 0 = some 0 := by
  obtain ⟨drawn, hdrawn⟩ := Option.isSome_iff_exists.1 (h failedAttempt 0)
  unfold backoff at hdrawn ⊢
  obtain ⟨capped, hcapped, -⟩ := Option.bind_eq_some_iff.1 hdrawn
  simp [hcapped, hjitter]

theorem ReadOptions.neverPanics_default {codec : Codec}
    (hpowi : ∀ exponent, codec.powi RetryPolicy.default.multiplier exponent ≠ .negative)
    (hfits : ∀ timeout ≤ 20 * 1000000000, codec.takesTimeout timeout) :
    ReadOptions.default.NeverPanics codec where
  backsOff := RetryPolicy.backsOff_of_lt hpowi (by decide)
  fits := hfits

end BigtableClient
