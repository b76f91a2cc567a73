import Mathlib.Algebra.Order.Floor.Semifield
import Mathlib.Data.Rat.Floor

/-! A position that moves on by `rate / per` at a time. The whole units it has
passed are taken off, and only the fraction is kept. -/

namespace Lib

/-- What is left of `n / per` without its whole units. -/
def fraction (per n : Nat) : ℚ := (n % per : Nat) / (per : Nat)

variable {per : Nat} (h : 0 < per) (n rate : Nat)

include h in
theorem floor_fraction : ⌊fraction per n⌋₊ = 0 := by
  rw [fraction, Nat.floor_div_eq_div, Nat.div_eq_of_lt (Nat.mod_lt n h)]

theorem fraction_add : fraction per n + (rate : ℚ) / (per : ℚ) = (n % per + rate : Nat) / (per : ℚ) := by
  rw [fraction, Nat.cast_add, add_div]

include h in
theorem div_add_rate : (n + rate) / per = n / per + (n % per + rate) / per := by
  conv_lhs => rw [← Nat.div_add_mod n per, Nat.add_assoc, Nat.mul_add_div h]

include h in
/-- The whole units that a move passes. -/
theorem floor_fraction_add :
    ⌊fraction per n + (rate : ℚ) / (per : ℚ)⌋₊ = (n + rate) / per - n / per := by
  rw [fraction_add, Nat.floor_div_eq_div, div_add_rate h n rate, Nat.add_sub_cancel_left]

include h in
theorem fraction_add_sub :
    fraction per n + (rate : ℚ) / (per : ℚ) - ((n + rate) / per - n / per : Nat) =
      fraction per (n + rate) := by
  have hper : (per : ℚ) ≠ 0 := Nat.cast_ne_zero.mpr h.ne'
  have hmod : (n + rate) % per = (n % per + rate) % per := (Nat.mod_add_mod n per rate).symm
  have hsum : ((n % per + rate : Nat) : ℚ) =
      per * ((n % per + rate) / per : Nat) + ((n % per + rate) % per : Nat) := by
    exact_mod_cast (Nat.div_add_mod (n % per + rate) per).symm
  rw [fraction_add, div_add_rate h n rate, Nat.add_sub_cancel_left, fraction, hmod, hsum, add_div,
    mul_div_cancel_left₀ _ hper, add_sub_cancel_left]

end Lib
