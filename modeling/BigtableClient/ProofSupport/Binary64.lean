import Mathlib

/-!
# Numbers of double precision

The finite numbers are the multiples of the least positive one, so that they are
counted by naturals.  Every operation rounds its exact result to the nearest number
with 53 significant bits.
-/

namespace BigtableClient.ProofSupport.Binary64

def roundHalfEven (num den : Nat) : Nat :=
  let quotient := num / den
  let rest := num % den
  if 2 * rest < den then quotient
  else if den < 2 * rest then quotient + 1
  else quotient + quotient % 2

/-- Numbers below zero are not told apart, and neither are the two zeros. -/
inductive F64 where
  | nan
  | negative
  /-- counted in units of `2 ^ -1074` -/
  | finite (units : Nat)
  | infinite
  deriving DecidableEq, Repr

namespace F64

@[irreducible] def unit : Nat := 2 ^ 1074

/-- The units of the first power of two that is not a number any more. -/
@[irreducible] def overflow : Nat := 2 ^ 2098

def one : F64 := .finite unit

def round (num den : Nat) : F64 :=
  let exponent := (num / den).log2 - 52
  let units := roundHalfEven num (den * 2 ^ exponent) * 2 ^ exponent
  if units < overflow then .finite units else .infinite

def ofNat (n : Nat) : F64 := round (n * unit) 1

def add : F64 → F64 → F64
  | .nan, _ => .nan
  | _, .nan => .nan
  | .negative, _ => .negative
  | _, .negative => .negative
  | .infinite, _ => .infinite
  | _, .infinite => .infinite
  | .finite a, .finite b => round (a + b) 1

def mul (x y : F64) : F64 :=
  -- the factor decides first, so that a power that is not known stays as it is
  match y, x with
  | .nan, _ => .nan
  | _, .nan => .nan
  | .negative, _ => .negative
  | _, .negative => .negative
  | .infinite, .infinite => .infinite
  | .infinite, .finite a => if a = 0 then .nan else .infinite
  | .finite b, .infinite => if b = 0 then .nan else .infinite
  | .finite b, .finite a => round (a * b) unit

def divNat : F64 → Nat → F64
  | .finite a, n => round a n
  | x, _ => x

/-- `f64::min`: a number that is none loses. -/
def min : F64 → F64 → F64
  | .nan, y => y
  | x, .nan => x
  | .negative, _ => .negative
  | _, .negative => .negative
  | .infinite, y => y
  | x, .infinite => x
  | .finite a, .finite b => .finite (Nat.min a b)

def power (base : F64) : Nat → F64
  | 0 => one
  | exponent + 1 => (power base exponent).mul base

end F64

/-! ## Rounding -/

theorem roundHalfEven_le {num den bound : Nat} (hden : 0 < den) (h : num ≤ bound * den) :
    roundHalfEven num den ≤ bound := by
  have hsplit := Nat.div_add_mod num den
  have hrest := Nat.mod_lt num hden
  have hquotient : num / den ≤ bound := Nat.div_le_of_le_mul (by rwa [Nat.mul_comm] at h)
  rcases Nat.lt_or_eq_of_le hquotient with hlt | heq
  · unfold roundHalfEven
    dsimp only
    split_ifs <;> omega
  · -- the fraction is the bound itself
    have hzero : num % den = 0 := by
      rw [heq, Nat.mul_comm] at hsplit
      omega
    unfold roundHalfEven
    dsimp only
    rw [hzero, if_pos (by omega)]
    exact hquotient

theorem two_pow_lt {k n bound : Nat} (h : k < n) (hbound : bound = 2 ^ n) : 2 ^ k < bound := by
  rw [hbound]
  exact Nat.pow_lt_pow_right (by omega) h

theorem pos_of_eq_two_pow {bound n : Nat} (h : bound = 2 ^ n) : 0 < bound := by
  rw [h]
  exact Nat.two_pow_pos n

namespace F64

theorem overflow_eq : overflow = 2 ^ 2098 := by unfold overflow; rfl

theorem unit_eq : unit = 2 ^ 1074 := by unfold unit; rfl

theorem unit_pos : 0 < unit := pos_of_eq_two_pow unit_eq

theorem two_pow_mul_unit (k : Nat) : 2 ^ k * unit = 2 ^ (k + 1074) := by
  rw [unit_eq, Nat.pow_add]

/-- Rounding does not pass a power of two. -/
theorem exists_round_le {num den k : Nat} (hden : 0 < den) (h : num ≤ 2 ^ k * den)
    (hk : k < 2098) : ∃ units, units ≤ 2 ^ k ∧ round num den = .finite units := by
  have hquotient : num / den ≤ 2 ^ k := Nat.div_le_of_le_mul (by rwa [Nat.mul_comm] at h)
  have hexponent : (num / den).log2 - 52 ≤ k := by
    have hlog : (num / den).log2 ≤ k := by
      by_cases hzero : num / den = 0
      · simp [hzero]
      · have hle := (Nat.log2_self_le hzero).trans hquotient
        exact (Nat.pow_le_pow_iff_right (by omega)).1 hle
    omega
  obtain ⟨rest, hrest⟩ := Nat.exists_eq_add_of_le hexponent
  have hmantissa : roundHalfEven num (den * 2 ^ ((num / den).log2 - 52)) ≤ 2 ^ rest := by
    apply roundHalfEven_le (Nat.mul_pos hden (Nat.two_pow_pos _))
    calc num ≤ 2 ^ k * den := h
      _ = 2 ^ rest * (den * 2 ^ ((num / den).log2 - 52)) := by
          conv_lhs => rw [hrest, Nat.pow_add]
          ring
  have hunits : roundHalfEven num (den * 2 ^ ((num / den).log2 - 52)) *
      2 ^ ((num / den).log2 - 52) ≤ 2 ^ k := by
    calc _ ≤ 2 ^ rest * 2 ^ ((num / den).log2 - 52) := Nat.mul_le_mul_right _ hmantissa
      _ = 2 ^ k := by
          conv_rhs => rw [hrest, Nat.pow_add]
          ring
  have hlt : 2 ^ k < overflow := two_pow_lt hk overflow_eq
  refine ⟨_, hunits, ?_⟩
  unfold round
  exact if_pos (hunits.trans_lt hlt)

theorem exists_round_le_unit {num den k : Nat} (hden : 0 < den) (h : num ≤ 2 ^ k * unit * den)
    (hk : k < 1024) : ∃ units, units ≤ 2 ^ k * unit ∧ round num den = .finite units := by
  rw [two_pow_mul_unit] at h ⊢
  exact exists_round_le hden h (by omega)

/-- The minimum with a finite number is at most that number, unless it is below zero. -/
theorem exists_min_le {x : F64} (hx : x ≠ .negative) (bound : Nat) :
    ∃ units, units ≤ bound ∧ x.min (.finite bound) = .finite units := by
  cases x with
  | nan => exact ⟨bound, le_rfl, rfl⟩
  | negative => exact absurd rfl hx
  | finite a => exact ⟨_, Nat.min_le_right a bound, rfl⟩
  | infinite => exact ⟨bound, le_rfl, rfl⟩

/-! ### Signs -/

theorem round_ne_negative (num den : Nat) : round num den ≠ .negative := by
  unfold round
  dsimp only
  split_ifs <;> exact nofun

theorem add_ne_negative {x y : F64} (hx : x ≠ .negative) (hy : y ≠ .negative) :
    x.add y ≠ .negative := by
  cases x <;> cases y <;> simp_all [add, round_ne_negative]

theorem mul_ne_negative {x y : F64} (hx : x ≠ .negative) (hy : y ≠ .negative) :
    x.mul y ≠ .negative := by
  cases x <;> cases y <;> simp_all [mul, round_ne_negative] <;> split_ifs <;> exact nofun

theorem divNat_ne_negative {x : F64} (hx : x ≠ .negative) (n : Nat) :
    x.divNat n ≠ .negative := by
  cases x <;> simp_all [divNat, round_ne_negative]

theorem power_ne_negative {x : F64} (hx : x ≠ .negative) (exponent : Nat) :
    x.power exponent ≠ .negative := by
  induction exponent with
  | zero => exact nofun
  | succ exponent ih => exact mul_ne_negative ih hx

end F64

end BigtableClient.ProofSupport.Binary64
