import RowMajor.Proofs.Binary64.Magnitudes

/-!
# Rounding of integers

From `2 ^ 53` on only every second integer is a number, then every fourth, and so on. An integer is
rounded to one of them, because the steps between the magnitudes beside it are whole numbers. An
integer that is rounded keeps its sign and does not become zero.
-/

namespace RowMajor.Binary64

/-- The integer as which an integer is found again after it has been stored, unless it lies beyond
all numbers. -/
def rounded? (n : Int) : Option Int :=
  (ofInt? n).bind toInt?

/-- The rank of a magnitude as the beginning of a run and the number of steps from there on. -/
theorem unitsAt_steps {run steps : Nat} (least : runLength ≤ steps) (most : steps ≤ 2 * runLength) :
    unitsAt (run * runLength + steps) = steps * 2 ^ run := by
  obtain ⟨place, rfl⟩ := Nat.exists_eq_add_of_le least
  rcases Nat.lt_or_ge place runLength with within | last
  · rw [← Nat.add_assoc, ← Nat.succ_mul]
    exact unitsAt_run within
  · obtain rfl : place = runLength := by omega
    have edge : run * runLength + (runLength + runLength) = (run + 1 + 1) * runLength + 0 := by
      rw [Nat.succ_mul, Nat.succ_mul]
      omega
    rw [edge, unitsAt_run (by decide), Nat.add_zero, Nat.pow_succ', ← Nat.mul_assoc, Nat.mul_two]

theorem nearestEven_le (num den : Nat) :
    num / den ≤ nearestEven num den ∧ nearestEven num den ≤ num / den + 1 := by
  simp only [nearestEven]
  split
  · omega
  · split <;> omega

/-- The magnitude nearest to a large integer is a whole number of steps, each as long as `2 ^ 1074`
units or longer. -/
theorem dvd_unitsAt_of_le {n : Nat} (large : 2 ^ 53 ≤ n) :
    unitsPerOne ∣ unitsAt (nearestRank (n * unitsPerOne) 1) ∧
      0 < nearestRank (n * unitsPerOne) 1 := by
  have nonzero : n ≠ 0 := by omega
  have digits : 53 ≤ n.log2 := (Nat.le_log2 nonzero).mpr large
  obtain ⟨low, high⟩ := (Nat.log2_eq_iff nonzero).mp rfl
  -- the power is too large to be written out, so its exponent gets a name
  obtain ⟨places, bits⟩ : ∃ places, 1074 = places := ⟨_, rfl⟩
  have scale : unitsPerOne = 2 ^ places :=
    (congrArg (1 <<< ·) bits).trans (Nat.one_shiftLeft places)
  have leading : (n * unitsPerOne).log2 - runLength.log2 = n.log2 + 1022 := by
    have width : runLength.log2 = 52 := by decide
    rw [scale, log2_mul_two_pow nonzero, width]
    omega
  have quotient : n * unitsPerOne / 2 ^ (n.log2 + 1022) = n / 2 ^ (n.log2 - 52) := by
    have split : n.log2 + 1022 = n.log2 - 52 + places := by omega
    rw [split, Nat.pow_add, scale, Nat.mul_div_mul_right _ _ (Nat.two_pow_pos places)]
  have least : runLength ≤ n / 2 ^ (n.log2 - 52) := by
    rw [Nat.le_div_iff_mul_le (Nat.two_pow_pos _)]
    calc runLength * 2 ^ (n.log2 - 52) = 2 ^ (52 + (n.log2 - 52)) := (Nat.pow_add 2 52 _).symm
      _ = 2 ^ n.log2 := by rw [Nat.add_sub_cancel' (by omega)]
      _ ≤ n := low
  have most : n / 2 ^ (n.log2 - 52) < 2 * runLength := by
    rw [Nat.div_lt_iff_lt_mul (Nat.two_pow_pos _)]
    calc n < 2 ^ (n.log2 + 1) := high
      _ = 2 ^ (53 + (n.log2 - 52)) := by rw [show n.log2 + 1 = 53 + (n.log2 - 52) by omega]
      _ = 2 * runLength * 2 ^ (n.log2 - 52) := Nat.pow_add 2 53 _
  obtain ⟨below, above⟩ := nearestEven_le (n * unitsPerOne) (2 ^ (n.log2 + 1022))
  rw [quotient] at below above
  simp only [nearestRank, Nat.div_one, leading, Nat.one_shiftLeft]
  rw [unitsAt_steps (Nat.le_trans least below) (Nat.le_trans above most)]
  have steps : unitsPerOne ∣ 2 ^ (n.log2 + 1022) := by
    rw [scale]
    exact Nat.pow_dvd_pow 2 (by omega)
  have positive : 0 < runLength := by decide
  exact ⟨Nat.dvd_mul_left_of_dvd steps _, by omega⟩

theorem dvd_unitsAt_nearestRank (n : Nat) :
    unitsPerOne ∣ unitsAt (nearestRank (n * unitsPerOne) 1) ∧
      (nearestRank (n * unitsPerOne) 1 = 0 ↔ n = 0) := by
  rcases Nat.lt_or_ge n (2 ^ 53) with small | large
  · obtain ⟨-, exact_⟩ := unitsAt_nearestRank small
    have positive : 0 < unitsPerOne := by decide
    rw [← unitsAt_eq_zero, exact_]
    exact ⟨Nat.dvd_mul_left .., Nat.mul_eq_zero.trans (or_iff_left (Nat.ne_of_gt positive))⟩
  · obtain ⟨whole, positive⟩ := dvd_unitsAt_of_le large
    exact ⟨whole, iff_of_false (Nat.ne_of_gt positive) (by omega)⟩

/-- What an integer is stored as is an integer, of the same sign. -/
theorem exists_toInt?_of_ofInt? {n : Int} {x : Binary64} (stored : ofInt? n = some x) :
    ∃ m, x.toInt? = some m ∧ (m < 0 ↔ n < 0) ∧ (m = 0 ↔ n = 0) := by
  obtain ⟨whole, vanishes⟩ := dvd_unitsAt_nearestRank n.natAbs
  have whole := Nat.mod_eq_zero_of_dvd whole
  rw [Int.natAbs_eq_zero] at vanishes
  rw [ofInt?, ofSmallInt, ofRatio, ofRank] at stored
  split at stored
  · cases stored
    have zeroed := unitsAt_div_eq_zero whole
    rw [vanishes] at zeroed
    refine ⟨_, by rw [toInt?]; exact if_pos whole, ?_⟩
    generalize unitsAt (nearestRank (n.natAbs * unitsPerOne) 1) / unitsPerOne = magnitude at zeroed
    by_cases negative : n < 0
    · rw [decide_eq_true negative]
      simp only [if_true, Int.ofNat_eq_natCast]
      omega
    · rw [decide_eq_false negative]
      simp only [Bool.false_eq_true, if_false, Int.ofNat_eq_natCast]
      omega
  · cases stored

theorem rounded?_eq_none_iff {n : Int} : rounded? n = none ↔ ofInt? n = none := by
  rw [rounded?]
  cases stored : ofInt? n with
  | none => exact iff_of_true rfl rfl
  | some x =>
      obtain ⟨m, whole, -⟩ := exists_toInt?_of_ofInt? stored
      rw [Option.bind_some, whole]
      exact iff_of_false nofun nofun

theorem rounded?_eq_some_iff {n m : Int} :
    rounded? n = some m ↔ ∃ x, ofInt? n = some x ∧ x.toInt? = some m :=
  Option.bind_eq_some_iff

/-- Rounding keeps the sign. -/
theorem sign_rounded? {n m : Int} (found : rounded? n = some m) :
    (m < 0 ↔ n < 0) ∧ (m = 0 ↔ n = 0) := by
  obtain ⟨x, stored, whole⟩ := rounded?_eq_some_iff.mp found
  obtain ⟨m', whole', sign⟩ := exists_toInt?_of_ofInt? stored
  obtain rfl := Option.some.inj (whole.symm.trans whole')
  exact sign

theorem nearestEven_mono {num num' : Nat} (den : Nat) (le : num ≤ num') :
    nearestEven num den ≤ nearestEven num' den := by
  have quotients : num / den ≤ num' / den := Nat.div_le_div_right le
  rcases Nat.lt_or_ge (num / den) (num' / den) with less | same
  · calc nearestEven num den ≤ num / den + 1 := (nearestEven_le num den).2
      _ ≤ num' / den := less
      _ ≤ nearestEven num' den := (nearestEven_le num' den).1
  · have equal : num' / den = num / den := Nat.le_antisymm same quotients
    have first := Nat.div_add_mod num den
    have second := Nat.div_add_mod num' den
    rw [equal] at second
    have remainders : num % den ≤ num' % den := by omega
    simp only [nearestEven, equal]
    split_ifs <;> omega

/-- The step of a magnitude within its run. Every run but the first begins at its leading digit. -/
theorem nearestEven_run (num : Nat) :
    (num.log2 - 52 ≠ 0 → runLength ≤ nearestEven num (2 ^ (num.log2 - 52))) ∧
      nearestEven num (2 ^ (num.log2 - 52)) ≤ 2 * runLength := by
  obtain ⟨below, above⟩ := nearestEven_le num (2 ^ (num.log2 - 52))
  constructor
  · intro later
    refine Nat.le_trans ?_ below
    have nonzero : num ≠ 0 := by
      rintro rfl
      exact later rfl
    rw [Nat.le_div_iff_mul_le (Nat.two_pow_pos _)]
    calc runLength * 2 ^ (num.log2 - 52) = 2 ^ (52 + (num.log2 - 52)) := (Nat.pow_add 2 52 _).symm
      _ = 2 ^ num.log2 := by rw [show 52 + (num.log2 - 52) = num.log2 by omega]
      _ ≤ num := Nat.log2_self_le nonzero
  · refine Nat.le_trans above ?_
    rw [Nat.succ_le_iff, Nat.div_lt_iff_lt_mul (Nat.two_pow_pos _)]
    calc num < 2 ^ (num.log2 + 1) := Nat.lt_log2_self
      _ ≤ 2 ^ (53 + (num.log2 - 52)) := Nat.pow_le_pow_right (by decide) (by omega)
      _ = 2 * runLength * 2 ^ (num.log2 - 52) := Nat.pow_add 2 53 _

theorem nearestRank_mono {num num' : Nat} (le : num ≤ num') :
    nearestRank num 1 ≤ nearestRank num' 1 := by
  have width : runLength.log2 = 52 := by decide
  have digits : num.log2 ≤ num'.log2 := by
    rcases Nat.eq_zero_or_pos num with rfl | positive
    · exact Nat.zero_le _
    · have nonzero : num' ≠ 0 := by omega
      exact (Nat.le_log2 nonzero).mpr
        (Nat.le_trans (Nat.log2_self_le (Nat.ne_of_gt positive)) le)
  obtain ⟨-, above⟩ := nearestEven_run num
  obtain ⟨below, -⟩ := nearestEven_run num'
  simp only [nearestRank, Nat.div_one, Nat.one_shiftLeft, width]
  rcases Nat.lt_or_ge (num.log2 - 52) (num'.log2 - 52) with earlier | same
  · have start := below (by omega)
    have next := Nat.mul_le_mul_right runLength earlier
    rw [Nat.succ_mul] at next
    omega
  · have run : num'.log2 - 52 = num.log2 - 52 := by omega
    rw [run]
    exact Nat.add_le_add_left (nearestEven_mono _ le) _

theorem ofInt?_eq_none_iff {n : Int} :
    ofInt? n = none ↔ 2047 * runLength ≤ nearestRank (n.natAbs * unitsPerOne) 1 := by
  rw [ofInt?, ofSmallInt, ofRatio, ofRank]
  split
  · rename_i within
    exact iff_of_false (Option.some_ne_none _) (Nat.not_le.mpr within)
  · rename_i beyond
    exact iff_of_true rfl (Nat.not_lt.mp beyond)

/-- What lies beyond an integer that is too large is too large itself. -/
theorem rounded?_eq_none_of_le {m n : Int} (le : m.natAbs ≤ n.natAbs)
    (large : rounded? m = none) : rounded? n = none := by
  rw [rounded?_eq_none_iff, ofInt?_eq_none_iff] at large ⊢
  exact Nat.le_trans large (nearestRank_mono (Nat.mul_le_mul_right _ le))

/-- The magnitude nearest to a natural number, in ones. -/
def nearestMagnitude (n : Nat) : Nat :=
  unitsAt (nearestRank (n * unitsPerOne) 1) / unitsPerOne

theorem rounded?_eq (n : Int) :
    rounded? n = if nearestRank (n.natAbs * unitsPerOne) 1 < 2047 * runLength then
      some (if n < 0 then -Int.ofNat (nearestMagnitude n.natAbs)
        else Int.ofNat (nearestMagnitude n.natAbs)) else none := by
  obtain ⟨whole, -⟩ := dvd_unitsAt_nearestRank n.natAbs
  have whole := Nat.mod_eq_zero_of_dvd whole
  by_cases within : nearestRank (n.natAbs * unitsPerOne) 1 < 2047 * runLength
  · have stored : ofInt? n = some (finite (decide (n < 0)) ⟨_, within⟩) := by
      rw [ofInt?, ofSmallInt, ofRatio, ofRank, dif_pos within]
      rfl
    rw [rounded?, stored, if_pos within, Option.bind_some, toInt?, if_pos whole]
    simp only [decide_eq_true_eq, nearestMagnitude]
  · rw [if_neg within]
    exact rounded?_eq_none_iff.mpr (ofInt?_eq_none_iff.mpr (Nat.not_lt.mp within))

theorem nearestMagnitude_mono {n n' : Nat} (le : n ≤ n') :
    nearestMagnitude n ≤ nearestMagnitude n' :=
  Nat.div_le_div_right (unitsAt_strictMono.monotone
    (nearestRank_mono (Nat.mul_le_mul_right _ le)))

theorem nearestMagnitude_of_lt {n : Nat} (small : n < 2 ^ 53) : nearestMagnitude n = n := by
  have positive : 0 < unitsPerOne := by decide
  rw [nearestMagnitude, (unitsAt_nearestRank small).2, Nat.mul_div_cancel _ positive]

/-- Integers up to `2 ^ 53` are numbers. -/
theorem rounded?_of_natAbs_le {n : Int} (small : n.natAbs ≤ 2 ^ 53) : rounded? n = some n := by
  rcases Nat.lt_or_ge n.natAbs (2 ^ 53) with less | most
  · rw [rounded?_eq, if_pos (unitsAt_nearestRank less).1, nearestMagnitude_of_lt less]
    congr 1
    simp only [Int.ofNat_eq_natCast]
    omega
  · obtain rfl | rfl : n = 2 ^ 53 ∨ n = -2 ^ 53 := by omega
    · decide +kernel
    · decide +kernel

theorem eq_of_rounded? {n m : Int} (found : rounded? n = some m) :
    m = if n < 0 then -Int.ofNat (nearestMagnitude n.natAbs)
      else Int.ofNat (nearestMagnitude n.natAbs) := by
  rw [rounded?_eq] at found
  obtain ⟨-, same⟩ := Option.ite_none_right_eq_some.mp found
  exact (Option.some.inj same).symm

theorem natAbs_of_rounded? {n m : Int} (found : rounded? n = some m) :
    m.natAbs = nearestMagnitude n.natAbs := by
  rw [eq_of_rounded? found]
  split
  · rw [Int.natAbs_neg]
    exact Int.natAbs_natCast _
  · exact Int.natAbs_natCast _

/-- An integer that is not a number is farther out than `2 ^ 53`, and is not rounded to one that is
closer. -/
theorem eq_or_far_of_rounded? {n m : Int} (found : rounded? n = some m) :
    m = n ∨ 2 ^ 53 < n.natAbs ∧ 2 ^ 53 ≤ m.natAbs := by
  rcases Nat.lt_or_ge (2 ^ 53) n.natAbs with far | small
  · have edge : nearestMagnitude (2 ^ 53) = 2 ^ 53 := by decide +kernel
    have out := nearestMagnitude_mono (Nat.le_of_lt far)
    rw [edge, ← natAbs_of_rounded? found] at out
    exact .inr ⟨far, out⟩
  · exact .inl (Option.some.inj (found.symm.trans (rounded?_of_natAbs_le small)))

/-- Opposite integers are rounded to opposite ones. -/
theorem rounded?_neg {n m : Int} (found : rounded? n = some m) : rounded? (-n) = some (-m) := by
  rw [rounded?_eq] at found ⊢
  obtain ⟨within, same⟩ := Option.ite_none_right_eq_some.mp found
  obtain rfl := Option.some.inj same
  have vanishes : nearestMagnitude 0 = 0 := by decide +kernel
  rw [Int.natAbs_neg, if_pos within]
  congr 1
  rcases Int.lt_trichotomy n 0 with negative | rfl | positive
  · rw [if_pos negative, if_neg (by omega), Int.neg_neg]
  · rw [Int.natAbs_zero, vanishes]
    rfl
  · have up : ¬ n < 0 := Int.not_lt.mpr (Int.le_of_lt positive)
    have down : -n < 0 := Int.neg_neg_of_pos positive
    rw [if_pos down, if_neg up]

/-- The number as which an integer is stored: the nearest one, which there is unless the integer
lies beyond all numbers. -/
def Stores (x : Binary64) (n : Int) : Prop :=
  ofInt? n = some x

theorem Stores.toInt?_eq {x : Binary64} {n : Int} (h : x.Stores n) : x.toInt? = rounded? n := by
  rw [rounded?, h, Option.bind_some]

theorem exists_stores_iff {n : Int} : (∃ x : Binary64, x.Stores n) ↔ (rounded? n).isSome := by
  rw [Option.isSome_iff_ne_none, Ne, rounded?_eq_none_iff, ← Ne, ← Option.isSome_iff_ne_none,
    Option.isSome_iff_exists]
  rfl

theorem Stores.eq {x : Binary64} {n : Int} (h : x.Stores n) : x = ofSmallInt n := by
  rw [Stores, ofInt?] at h
  cases nearest : ofSmallInt n with
  | infinity negative =>
      rw [nearest] at h
      cases h
  | _ =>
      rw [nearest] at h
      exact (Option.some.inj h).symm

/-- A natural number below `2 ^ 53` is stored as a number that equals it. -/
theorem stores_ofSmallNat {n : Nat} (small : n < 2 ^ 53) :
    (ofSmallNat n).Stores (Int.ofNat n) := by
  have whole := toInt?_ofSmallNat small
  rw [← ofSmallInt_ofNat] at whole ⊢
  exact ofInt?_eq_some whole

/-- The integer after `2 ^ 53` lies halfway between two numbers and goes to the one of even rank. -/
example : rounded? 9007199254740993 = some 9007199254740992 := by decide +kernel

end RowMajor.Binary64
