import Mathlib.Algebra.Group.Nat.Defs
import Mathlib.Order.Monotone.Basic
import Mathlib.Order.Nat
import RowMajor.Binary64.Rounding

/-!
# Magnitudes and integers

The magnitudes strictly increase with their ranks, so a number is determined by its sign
and its value, and two numbers that equal one integer have the same key. A natural number
below `2 ^ 53` is found again after it has been stored.
-/

namespace RowMajor.Binary64

theorem unitsAt_of_lt {rank : Nat} (h : rank < runLength) : unitsAt rank = rank :=
  if_pos h

theorem unitsAt_of_le {rank : Nat} (h : runLength ≤ rank) :
    unitsAt rank = (runLength + rank % runLength) * 2 ^ (rank / runLength - 1) := by
  rw [unitsAt, if_neg (Nat.not_lt.mpr h), Nat.shiftLeft_eq]

/-- The magnitude at a place of a run, given the run. -/
theorem unitsAt_run {run place : Nat} (h : place < runLength) :
    unitsAt ((run + 1) * runLength + place) = (runLength + place) * 2 ^ run := by
  have positive : 0 < runLength := by decide
  have late : runLength ≤ (run + 1) * runLength + place := by
    rw [Nat.succ_mul]
    omega
  have quotient : ((run + 1) * runLength + place) / runLength = run + 1 := by
    rw [Nat.mul_comm, Nat.mul_add_div positive, Nat.div_eq_of_lt h, Nat.add_zero]
  have remainder : ((run + 1) * runLength + place) % runLength = place := by
    rw [Nat.mul_comm, Nat.mul_add_mod, Nat.mod_eq_of_lt h]
  rw [unitsAt_of_le late, quotient, remainder, Nat.add_sub_cancel]

theorem exists_run {rank : Nat} (h : runLength ≤ rank) :
    ∃ run place, place < runLength ∧ rank = (run + 1) * runLength + place := by
  refine ⟨rank / runLength - 1, rank % runLength, Nat.mod_lt _ (by decide), ?_⟩
  have started : 1 ≤ rank / runLength := (Nat.one_le_div_iff (by decide)).mpr h
  rw [Nat.sub_add_cancel started, Nat.div_add_mod']

theorem unitsAt_lt_succ (rank : Nat) : unitsAt rank < unitsAt (rank + 1) := by
  rcases Nat.lt_or_ge rank runLength with early | late
  · rcases Nat.lt_or_ge (rank + 1) runLength with next | last
    · rw [unitsAt_of_lt early, unitsAt_of_lt next]
      exact Nat.lt_succ_self rank
    · have edge : rank + 1 = (0 + 1) * runLength + 0 := by omega
      rw [unitsAt_of_lt early, edge, unitsAt_run (by decide), Nat.pow_zero]
      omega
  · obtain ⟨run, place, within, rfl⟩ := exists_run late
    have positive : 0 < 2 ^ run := Nat.pos_of_ne_zero (by simp)
    rw [unitsAt_run within]
    rcases Nat.lt_or_ge (place + 1) runLength with next | last
    · rw [Nat.add_assoc, unitsAt_run next]
      exact Nat.mul_lt_mul_of_pos_right (by omega) positive
    · -- the last place of a run is followed by the first of the next, at twice the step
      have edge : (run + 1) * runLength + place + 1 = (run + 1 + 1) * runLength + 0 := by
        rw [Nat.succ_mul (run + 1)]
        omega
      rw [edge, unitsAt_run (by decide), Nat.pow_succ', ← Nat.mul_assoc]
      exact Nat.mul_lt_mul_of_pos_right (by omega) positive

theorem unitsAt_strictMono : StrictMono unitsAt :=
  strictMono_nat_of_lt_succ unitsAt_lt_succ

theorem unitsAt_eq_zero {rank : Nat} : unitsAt rank = 0 ↔ rank = 0 :=
  unitsAt_strictMono.injective.eq_iff' rfl

/-- An integral magnitude is zero in units if it is zero in ones. -/
theorem unitsAt_div_eq_zero {rank : Nat} (whole : unitsAt rank % unitsPerOne = 0) :
    unitsAt rank / unitsPerOne = 0 ↔ rank = 0 := by
  have zeroed := Nat.div_left_inj (Nat.dvd_of_mod_eq_zero whole) (Nat.dvd_zero unitsPerOne)
  rw [Nat.zero_div] at zeroed
  exact zeroed.trans unitsAt_eq_zero

/-- Finite numbers have the same key if they differ at most in the sign of zero. -/
theorem key_finite_eq_iff {negative negative' : Bool} {rank rank' : Fin (2047 * runLength)} :
    (finite negative rank).key = (finite negative' rank').key ↔
      rank = rank' ∧ (rank.val = 0 ∨ negative = negative') := by
  have zero_eq : zero = finite false ⟨0, by decide⟩ := rfl
  simp only [key, zero_eq, Fin.ext_iff]
  split <;> split <;> simp only [finite.injEq, Fin.ext_iff] <;> grind

/-- A number with a plus sign is its own key. -/
theorem key_ofRank_plus (rank : Nat) : (ofRank false rank).key = ofRank false rank := by
  rw [ofRank]
  split
  · rename_i within
    rw [key]
    split
    · rename_i least
      subst least
      rfl
    · rfl
  · rfl

/-- Signs and magnitudes of integers, apart from the sign of zero. -/
theorem signed_eq_iff {negative negative' : Bool} {m n : Nat} :
    (if negative then -Int.ofNat m else Int.ofNat m) =
      (if negative' then -Int.ofNat n else Int.ofNat n) ↔
        m = n ∧ (m = 0 ∨ negative = negative') := by
  simp only [Int.ofNat_eq_natCast]
  cases negative <;> cases negative' <;> simp <;> omega

/-- Numbers that equal an integer have the same key exactly if the integers are the same. -/
theorem toInt?_eq_iff {x y : Binary64} {m n : Int} (hx : x.toInt? = some m)
    (hy : y.toInt? = some n) : m = n ↔ x.key = y.key := by
  cases x with
  | infinity _ => cases hx
  | nan => cases hx
  | finite negative rank =>
      cases y with
      | infinity _ => cases hy
      | nan => cases hy
      | finite negative' rank' =>
          simp only [toInt?, Option.ite_none_right_eq_some, Option.some.injEq] at hx hy
          obtain ⟨whole, rfl⟩ := hx
          obtain ⟨whole', rfl⟩ := hy
          have divides := Nat.dvd_of_mod_eq_zero whole
          have quotients : unitsAt rank / unitsPerOne = unitsAt rank' / unitsPerOne ↔
              rank = rank' := by
            rw [Nat.div_left_inj divides (Nat.dvd_of_mod_eq_zero whole'),
              unitsAt_strictMono.injective.eq_iff, Fin.ext_iff]
          rw [signed_eq_iff, key_finite_eq_iff, quotients, unitsAt_div_eq_zero whole]

theorem truncate_of_toInt? {x : Binary64} {n : Int} (whole : x.toInt? = some n) :
    x.truncate = n := by
  cases x with
  | infinity _ => cases whole
  | nan => cases whole
  | finite negative rank =>
      simp only [toInt?, Option.ite_none_right_eq_some, Option.some.injEq] at whole
      exact whole.2

/-- A number that equals an integer has its sign, but a zero may have either. -/
theorem isNegative_of_toInt? {x : Binary64} {n : Int} (whole : x.toInt? = some n) :
    (x.isNegative && !x.isZero) = decide (n < 0) := by
  cases x with
  | infinity _ => cases whole
  | nan => cases whole
  | finite negative rank =>
      simp only [toInt?, Option.ite_none_right_eq_some, Option.some.injEq] at whole
      obtain ⟨divides, rfl⟩ := whole
      have vanishes := unitsAt_div_eq_zero divides
      generalize unitsAt rank / unitsPerOne = magnitude at vanishes
      rw [Bool.eq_iff_iff]
      cases negative with
      | false => simp [isNegative]
      | true => simp [isNegative, isZero, ← vanishes]

theorem toNat?_eq_some_iff {x : Binary64} {n : Nat} :
    x.toNat? = some n ↔ x.toInt? = some (Int.ofNat n) := by
  cases whole : x.toInt? with
  | none => simp only [toNat?, whole, Option.bind_none, reduceCtorEq]
  | some m =>
      simp only [toNat?, whole, Option.bind_some, Option.ite_none_left_eq_some, Option.some.injEq,
        Int.ofNat_eq_natCast]
      omega

theorem toInt?_key (x : Binary64) : x.key.toInt? = x.toInt? := by
  cases x with
  | infinity _ => rfl
  | nan => rfl
  | finite negative rank =>
      rw [key]
      split
      · rename_i least
        have units : unitsAt rank = 0 := unitsAt_eq_zero.mpr least
        have vanishes : toInt? (finite negative rank) = some 0 := by
          simp [toInt?, units]
        exact (by decide : zero.toInt? = some 0).trans vanishes.symm
      · rfl

theorem nearestEven_of_dvd {num den : Nat} (positive : 0 < den) (h : den ∣ num) :
    nearestEven num den = num / den := by
  rw [nearestEven, Nat.mod_eq_zero_of_dvd h]
  exact if_pos positive

theorem log2_mul_two_pow {n : Nat} (h : n ≠ 0) (k : Nat) : (n * 2 ^ k).log2 = n.log2 + k := by
  induction k with
  | zero => rw [Nat.pow_zero, Nat.mul_one, Nat.add_zero]
  | succ k ih =>
      have nonzero : n * 2 ^ k ≠ 0 := Nat.mul_ne_zero h (by simp)
      rw [Nat.pow_succ', Nat.mul_left_comm, Nat.log2_two_mul nonzero, ih, Nat.add_assoc]

/-- A number of at most 53 binary digits has a place in the run of its leading digit. -/
theorem nearestRank_mul_two_pow {n shift : Nat} (run : Nat) (h : n ≠ 0)
    (digits : n.log2 + shift = 52) :
    ∃ place, place < runLength ∧ (runLength + place) * 2 ^ run = n * 2 ^ (run + shift) ∧
      nearestRank (n * 2 ^ (run + shift)) 1 = (run + 1) * runLength + place := by
  obtain ⟨low, high⟩ := (Nat.log2_eq_iff h).mp rfl
  have least : runLength ≤ n * 2 ^ shift := by
    calc runLength = 2 ^ n.log2 * 2 ^ shift := by rw [← Nat.pow_add, digits]
      _ ≤ n * 2 ^ shift := Nat.mul_le_mul_right _ low
  have most : n * 2 ^ shift < 2 * runLength := by
    calc n * 2 ^ shift < 2 ^ (n.log2 + 1) * 2 ^ shift :=
          Nat.mul_lt_mul_of_pos_right high (Nat.pos_of_ne_zero (by simp))
      _ = 2 * (2 ^ n.log2 * 2 ^ shift) := by rw [Nat.pow_succ', Nat.mul_assoc]
      _ = 2 * runLength := by rw [← Nat.pow_add, digits]
  have scaled : n * 2 ^ (run + shift) = n * 2 ^ shift * 2 ^ run := by
    rw [Nat.pow_add, Nat.mul_comm (2 ^ run), Nat.mul_assoc]
  have steps : 0 < 1 <<< run := by
    rw [Nat.one_shiftLeft]
    exact Nat.pos_of_ne_zero (by simp)
  have fits : nearestEven (n * 2 ^ (run + shift)) (1 <<< run) = n * 2 ^ shift := by
    rw [nearestEven_of_dvd steps ?_, scaled, Nat.one_shiftLeft, Nat.mul_div_cancel]
    · exact Nat.pos_of_ne_zero (by simp)
    · rw [scaled, Nat.one_shiftLeft]
      exact Nat.dvd_mul_left ..
  have leading : (n * 2 ^ (run + shift)).log2 - runLength.log2 = run := by
    have width : runLength.log2 = 52 := by decide
    rw [log2_mul_two_pow h, width]
    omega
  refine ⟨n * 2 ^ shift - runLength, by omega, ?_, ?_⟩
  · rw [Nat.add_sub_cancel' least, scaled]
  · simp only [nearestRank, Nat.div_one, leading, fits]
    rw [Nat.succ_mul]
    omega

/-- A natural number below `2 ^ 53` is a magnitude. -/
theorem unitsAt_nearestRank {n : Nat} (h : n < 2 ^ 53) :
    nearestRank (n * unitsPerOne) 1 < 2047 * runLength ∧
      unitsAt (nearestRank (n * unitsPerOne) 1) = n * unitsPerOne := by
  by_cases zero : n = 0
  · subst zero
    rw [Nat.zero_mul]
    decide
  · have short : n.log2 < 53 := (Nat.log2_lt zero).mpr h
    have scale : unitsPerOne = 2 ^ (1022 + n.log2 + (52 - n.log2)) := by
      have places : 1022 + n.log2 + (52 - n.log2) = 1074 := by omega
      rw [← Nat.one_shiftLeft]
      exact congrArg (1 <<< ·) places.symm
    have digits : n.log2 + (52 - n.log2) = 52 := by omega
    obtain ⟨place, within, value, rank⟩ := nearestRank_mul_two_pow (1022 + n.log2) zero digits
    rw [scale, rank, unitsAt_run within]
    refine ⟨?_, value⟩
    calc (1022 + n.log2 + 1) * runLength + place
        < (1022 + n.log2 + 1 + 1) * runLength := by
          rw [Nat.succ_mul (1022 + n.log2 + 1)]
          omega
      _ ≤ 2047 * runLength := Nat.mul_le_mul_right _ (by omega)

theorem toInt?_ofSmallNat {n : Nat} (h : n < 2 ^ 53) :
    (ofSmallNat n).toInt? = some (Int.ofNat n) := by
  obtain ⟨within, units⟩ := unitsAt_nearestRank h
  have positive : 0 < unitsPerOne := by decide
  rw [ofSmallNat, ofRatio, ofRank, dif_pos within]
  simp only [toInt?, units, Nat.mul_mod_left, if_true, Nat.mul_div_cancel _ positive]
  rfl

theorem ofSmallInt_ofNat (i : Nat) : ofSmallInt (Int.ofNat i) = ofSmallNat i := by
  have plus : decide (Int.ofNat i < 0) = false :=
    decide_eq_false (Int.not_lt.mpr (Int.natCast_nonneg i))
  rw [ofSmallInt, plus]
  rfl

/-- An integer is stored as the nearest number if that equals an integer. -/
theorem ofInt?_eq_some {m n : Int} (whole : (ofSmallInt n).toInt? = some m) :
    ofInt? n = some (ofSmallInt n) := by
  rw [ofInt?]
  generalize ofSmallInt n = x at whole ⊢
  cases x with
  | infinity _ => cases whole
  | nan => rfl
  | finite _ _ => rfl

theorem toInt?_ofByte (b : UInt8) : (ofByte b).toInt? = some (Int.ofNat b.toNat) :=
  toInt?_ofSmallNat (Nat.lt_trans b.toNat_lt (by decide))

/-- Bytes are told apart by the numbers that stand for them. -/
theorem ofByte_inj {b c : UInt8} : ofByte b = ofByte c ↔ b = c := by
  refine ⟨fun same => ?_, congrArg ofByte⟩
  have integers := congrArg toInt? same
  rw [toInt?_ofByte, toInt?_ofByte] at integers
  exact UInt8.toNat_inj.mp (Int.ofNat_inj.mp (Option.some.inj integers))

end RowMajor.Binary64
