import RowMajor.Operand.Integers
import RowMajor.Proofs.Binary64.Magnitudes
import RowMajor.Proofs.Operand.Lists
import RowMajor.Proofs.Outcome

/-!
# Lone natural numbers

An operand that is a natural number is read in two ways. Where a natural number is one of several
things that may be given, the operand is asked whether it is one, and elsewhere it is read as a
list, like the operands that hold several numbers. Then the list has this number in it and no
other. That is so even of an element that stands among those of another kind. An integer is stored
as a number before it is asked, so it may have been rounded by then.
-/

namespace RowMajor

namespace Item

variable {x : Item Value} {r : Binary64} {n : Nat}

theorem integer_of_real? (role : Role) (real : x.real? = some r) (natural : r.toNat? = some n) :
    x.integer role = .ok (Int.ofNat n) := by
  have whole := Binary64.toNat?_eq_some_iff.mp natural
  cases x with
  | number y =>
      cases real
      rw [integer, Binary64.integer, whole]
  | byte b =>
      cases real
      rw [Binary64.toInt?_ofByte] at whole
      exact congrArg Except.ok (Option.some.inj whole)
  | _ => cases real

theorem whole_of_real? (real : x.real? = some r) (natural : r.toNat? = some n) :
    x.whole = Int.ofNat n := by
  have whole := Binary64.toNat?_eq_some_iff.mp natural
  cases x with
  | number y =>
      cases real
      exact Binary64.truncate_of_toInt? whole
  | byte b =>
      cases real
      rw [Binary64.toInt?_ofByte] at whole
      exact Option.some.inj whole
  | _ => cases real

theorem isNegative_leaf_of_real? (real : x.real? = some r) (natural : r.toNat? = some n) :
    x.leaf.isNegative = false := by
  cases x with
  | number y =>
      cases real
      have whole := Binary64.toNat?_eq_some_iff.mp natural
      exact (Binary64.isNegative_of_toInt? whole).trans
        (decide_eq_false (Int.not_lt.mpr (Int.natCast_nonneg n)))
  | byte b => exact decide_eq_false (Int.not_lt.mpr (Int.natCast_nonneg b.toNat))
  | _ => cases real

end Item

namespace Value

variable {v : Value} {n : Nat}

/-- A natural number is the only integer of its value, and is given as one that is not negative. -/
theorem integers_of_natural? (role : Role) (natural : v.natural? = some n) :
    v.rank = 0 ∧ v.integers role = .ok [Int.ofNat n] ∧
      ∃ given : Operand, v.givenIntegers role = .ok [given] ∧ given.isNegative = false := by
  have nonneg : (Operand.integer (Int.ofNat n)).isNegative = false :=
    decide_eq_false (Int.not_lt.mpr (Int.natCast_nonneg n))
  rw [natural?.eq_def] at natural
  split at natural
  · rename_i x
    have ints : (Value.number ⟨[], [x]⟩).integers role = .ok [Int.ofNat n] :=
      Outcome.mapM_singleton (Item.integer_of_real? (x := .number x) role rfl natural)
    exact ⟨rfl, ints, _, congrArg (Except.map _) ints, nonneg⟩
  · cases natural
    exact ⟨rfl, rfl, _, rfl, nonneg⟩
  · rename_i x
    obtain ⟨r, real, natural⟩ := Option.bind_eq_some_iff.mp natural
    have ints : (Value.mixed .number ⟨[], [x]⟩).integers role = .ok [Int.ofNat n] :=
      Outcome.mapM_singleton (Item.integer_of_real? role real natural)
    exact ⟨rfl, ints, _, congrArg (Except.map _) ints, nonneg⟩
  · -- among bytes an element is given as it is, so its own sign matters
    obtain ⟨r, real, natural⟩ := Option.bind_eq_some_iff.mp natural
    have whole := Item.whole_of_real? real natural
    exact ⟨rfl, congrArg (fun i => Except.ok [i]) whole, _, rfl,
      Item.isNegative_leaf_of_real? real natural⟩
  · cases natural

theorem naturalList_of_natural? (role : Role) (natural : v.natural? = some n) :
    v.rank = 0 ∧ v.naturalList role = .ok [n] := by
  obtain ⟨scalar, ints, given, as, nonneg⟩ := integers_of_natural? role natural
  have low : ¬ 1 < v.rank := scalar ▸ by decide
  have none : [given].find? Operand.isNegative = none := by
    rw [List.find?_singleton, nonneg]
    rfl
  refine ⟨scalar, ?_⟩
  rw [naturalList, integerList, if_neg low, ints, as]
  simp only [Bind.bind, Except.bind, none]
  rfl

end Value

namespace Operand

variable {x : Operand} {n : Nat}

theorem exists_value_of_asNatural? (natural : x.asNatural? = .ok (some n)) :
    ∃ v, x.toValue = .ok v ∧ v.natural? = some n := by
  cases read : x.toValue with
  | error e =>
      rw [asNatural?, read] at natural
      cases natural
  | ok v =>
      rw [asNatural?, read] at natural
      simp only [Bind.bind, Except.bind] at natural
      split at natural
      · cases natural
      · cases natural
      · exact ⟨v, rfl, Except.ok.inj natural⟩

/-- A lone integer is stored as a number. -/
theorem toValue_integer (n : Int) :
    (integer n).toValue = Kind.coerceNumber (.integer n) >>= fun x =>
      .ok (.number (.scalar x)) := by
  have value : (integer n).toValue =
      pure (.scalar (integer n)) >>= fun nested => build (kindOf nested.items) none nested := rfl
  have kind : kindOf (Grid.scalar (integer n)).items = .number := kindOf_integers [n]
  have built : build .number none (.scalar (integer n)) =
      [integer n].mapM Kind.coerceNumber >>= fun xs => .ok (.number ⟨[], xs⟩) := rfl
  rw [value, pure_bind, kind, built, List.mapM_cons]
  cases Kind.coerceNumber (integer n) <;> rfl

/-- A natural number is read as what it is rounded to. -/
theorem asNatural?_integer {m : Nat}
    (found : Binary64.rounded? (Int.ofNat n) = some (Int.ofNat m)) :
    (integer (Int.ofNat n)).asNatural? = .ok (some m) := by
  obtain ⟨r, stored, whole⟩ := Binary64.rounded?_eq_some_iff.mp found
  rw [asNatural?, toValue_integer, Kind.coerceNumber_integer_eq_ok_iff.mpr stored]
  exact congrArg Except.ok (Binary64.toNat?_eq_some_iff.mpr whole)

theorem toValue_integer_of_large {i : Int} (large : Binary64.rounded? i = none) :
    (integer i).toValue = .error .tooLarge := by
  rw [toValue_integer, Kind.coerceNumber_integer_of_large large]
  rfl

end Operand

end RowMajor
