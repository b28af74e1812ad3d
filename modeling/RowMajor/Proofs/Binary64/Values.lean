import Mathlib.Algebra.Order.Field.Rat
import Mathlib.Data.Nat.Cast.Order.Field
import Mathlib.Tactic.Lift
import RowMajor.Proofs.Binary64.Magnitudes

/-!
# Values of numbers

A finite number stands for a rational one, which is a whole number of units. The infinities and
the NaN stand for none. A number equals an integer exactly if this is what it stands for.
-/

namespace RowMajor.Binary64

/-- The rational number that a finite number stands for. -/
def value? : Binary64 → Option ℚ
  | .finite negative rank =>
    let magnitude : ℚ := unitsAt rank / unitsPerOne
    some (if negative then -magnitude else magnitude)
  | _ => none

theorem units_div_eq_iff {units : Nat} {n : Int} :
    (units / unitsPerOne : ℚ) = n ↔
      units % unitsPerOne = 0 ∧ Int.ofNat (units / unitsPerOne) = n := by
  have positive : 0 < unitsPerOne := by decide
  have nonzero : (unitsPerOne : ℚ) ≠ 0 := Nat.cast_ne_zero.mpr (Nat.ne_of_gt positive)
  constructor
  · intro same
    have nonneg : (0 : ℚ) ≤ n := by
      rw [← same]
      exact div_nonneg (Nat.cast_nonneg _) (Nat.cast_nonneg _)
    lift n to ℕ using Int.cast_nonneg_iff.mp nonneg
    rw [div_eq_iff nonzero] at same
    obtain rfl : units = n * unitsPerOne := by exact_mod_cast same
    exact ⟨Nat.mul_mod_left .., congrArg Int.ofNat (Nat.mul_div_cancel n positive)⟩
  · rintro ⟨whole, rfl⟩
    rw [Int.ofNat_eq_natCast, div_eq_iff nonzero]
    exact_mod_cast (Nat.div_mul_cancel (Nat.dvd_of_mod_eq_zero whole)).symm

/-- What a number equals is what it stands for, if that is an integer. -/
theorem toInt?_eq_some_iff {x : Binary64} {n : Int} :
    x.toInt? = some n ↔ x.value? = some (n : ℚ) := by
  cases x with
  | infinity _ | nan => exact iff_of_false nofun nofun
  | finite negative rank =>
      simp only [toInt?, value?, Option.ite_none_right_eq_some, Option.some.injEq]
      cases negative with
      | false => exact units_div_eq_iff.symm
      | true =>
          rw [if_pos rfl, if_pos rfl, neg_eq_iff_eq_neg, neg_eq_iff_eq_neg, ← Int.cast_neg]
          exact units_div_eq_iff.symm

end RowMajor.Binary64
