import RowMajor.Operand.Equality
import RowMajor.Proofs.Value.Bytes

/-!
# Wider kinds

A byte is stored among numbers, and a number among complex numbers, as what stands for it,
so an element stands for the same complex number in every numeric kind that can hold it.
Keys tell elements apart by these numbers and by nothing else: all NaNs are one number, and
so are the two zeros, also as parts of complex numbers. Two numeric values that meet at the
wider of their kinds are therefore equal where they were equal before.
-/

namespace RowMajor

namespace Binary64

/-- The two are one number. The zeros are, whatever their signs, and a NaN is one with itself. -/
def Same (x y : Binary64) : Prop :=
  x = y ∨ (x.isZero ∧ y.isZero)

theorem key_of_isZero {x : Binary64} (h : x.isZero) : x.key = zero := by
  cases x with
  | finite negative rank => exact if_pos (beq_iff_eq.mp h)
  | infinity _ | nan => cases h

theorem key_of_not_isZero {x : Binary64} (h : ¬ x.isZero) : x.key = x := by
  cases x with
  | finite negative rank => exact if_neg (mt beq_iff_eq.mpr h)
  | infinity _ | nan => rfl

/-- Numbers have the same key exactly if they are one number. -/
theorem key_eq_iff {x y : Binary64} : x.key = y.key ↔ x.Same y := by
  by_cases hx : x.isZero <;> by_cases hy : y.isZero
  · rw [key_of_isZero hx, key_of_isZero hy]
    exact iff_of_true rfl (.inr ⟨hx, hy⟩)
  · rw [key_of_isZero hx, key_of_not_isZero hy]
    refine iff_of_false (fun zeroed => hy (zeroed ▸ rfl)) ?_
    rintro (rfl | ⟨-, zeroed⟩)
    · exact hy hx
    · exact hy zeroed
  · rw [key_of_not_isZero hx, key_of_isZero hy]
    refine iff_of_false (fun zeroed => hx (zeroed ▸ rfl)) ?_
    rintro (rfl | ⟨zeroed, -⟩)
    · exact hx hy
    · exact hx zeroed
  · rw [key_of_not_isZero hx, key_of_not_isZero hy, Same, or_iff_left (hx ·.1)]

theorem isZero_iff_of_same {x y : Binary64} (same : x.Same y) : x.isZero ↔ y.isZero := by
  rcases same with rfl | ⟨hx, hy⟩
  · rfl
  · exact iff_of_true hx hy

end Binary64

/-- Complex numbers are one number if both their parts are. -/
def Complex.Same (z w : Complex) : Prop :=
  z.re.Same w.re ∧ z.im.Same w.im

namespace Key

theorem ofComplex_ofReal (x : Binary64) : ofComplex (.ofReal x) = .real x.key :=
  if_pos rfl

/-- A key with one part stands for no number that has a key with two. -/
theorem ofComplex_eq_iff {z w : Complex} : ofComplex z = ofComplex w ↔ z.Same w := by
  rw [ofComplex, ofComplex, Complex.Same]
  by_cases hz : z.im.isZero <;> by_cases hw : w.im.isZero
  · rw [if_pos hz, if_pos hw, real.injEq, Binary64.key_eq_iff, and_iff_left (.inr ⟨hz, hw⟩)]
  · rw [if_pos hz, if_neg hw]
    exact iff_of_false (fun h => nomatch h) fun same =>
      hw ((Binary64.isZero_iff_of_same same.2).mp hz)
  · rw [if_neg hz, if_pos hw]
    exact iff_of_false (fun h => nomatch h) fun same =>
      hz ((Binary64.isZero_iff_of_same same.2).mpr hw)
  · rw [if_neg hz, if_neg hw, complex.injEq, Binary64.key_eq_iff, Binary64.key_eq_iff]

end Key

namespace Kind

/-- The kind is one of those on the ladder. -/
def IsNumeric (k : Kind) : Prop :=
  k.rung?.isSome

/-- The elements of a numeric kind have the keys of the numbers that they stand for. -/
theorem IsNumeric.exists_complex {k : Kind} (numeric : k.IsNumeric) (x : k.Element) :
    ∃ z, (k.item x).complex? = some z ∧ k.key x = Key.ofComplex z := by
  cases k with
  | number => exact ⟨.ofReal x, rfl, (Key.ofComplex_ofReal x).symm⟩
  | byte =>
      refine ⟨.ofReal (.ofByte x), rfl, ?_⟩
      rw [Key.ofComplex_ofReal, Binary64.key_ofByte]
      rfl
  | complex => exact ⟨x, rfl, rfl⟩
  | character | box => cases numeric

theorem IsNumeric.family {k : Kind} (numeric : k.IsNumeric) : k.family = .number := by
  cases k with
  | number | byte | complex => rfl
  | character | box => cases numeric

end Kind

/-- The other kind is the same numeric kind, or a wider one. -/
def Kind.Widens (k target : Kind) : Prop :=
  ∃ m n, k.rung? = some m ∧ target.rung? = some n ∧ m ≤ n

theorem Value.coerceComplex_byte (b : UInt8) :
    Kind.coerceComplex (.integer (Int.ofNat b.toNat)) = .ok (.ofReal (.ofByte b)) := by
  rw [Kind.coerceComplex, Operand.toReal?, Binary64.ofInt?_byte, Option.elim_some,
    Option.getD_some]
  · rfl
  · intro _ same
    cases same

/-- Elements are stored in a wider kind without a change of their keys. -/
theorem Kind.Widens.exists_store {k target : Kind} (wider : k.Widens target) :
    ∃ store : k.Element → target.Element, (∀ x, target.key (store x) = k.key x) ∧
      ∀ a, Value.convert target (.ofGrid (.uniform k) a) =
        .ok (.ofGrid (.uniform target) (a.map store)) := by
  by_cases same : k = target
  · subst same
    refine ⟨id, fun _ => rfl, fun a => ?_⟩
    have kind : (Value.ofGrid (.uniform k) a).kind = k := Value.kind_ofGrid ..
    rw [Value.convert, if_pos kind, Grid.map_id]
  · obtain ⟨m, n, low, high, le⟩ := wider
    cases k with
    | character | box => cases low
    | complex =>
        cases low
        cases target with
        | complex => exact absurd rfl same
        | character | box => cases high
        | number | byte => cases high; omega
    | number =>
        cases low
        cases target with
        | number => exact absurd rfl same
        | character | box => cases high
        | byte => cases high; omega
        | complex =>
            exact ⟨Complex.ofReal, Key.ofComplex_ofReal, Value.convert_eq_ok same fun _ => rfl⟩
    | byte =>
        cases target with
        | byte => exact absurd rfl same
        | character | box => cases high
        | number =>
            exact ⟨Binary64.ofByte, key_ofByte, Value.convert_eq_ok same Value.coerceNumber_byte⟩
        | complex =>
            refine ⟨fun b => .ofReal (.ofByte b), fun b => ?_,
              Value.convert_eq_ok same Value.coerceComplex_byte⟩
            exact (Key.ofComplex_ofReal _).trans (key_ofByte b)

namespace Kind.Widens

variable {k target : Kind}

theorem ne_box (wider : k.Widens target) : target ≠ .box := by
  rintro rfl
  obtain ⟨_, _, -, never, -⟩ := wider
  cases never

theorem isNumeric_target (wider : k.Widens target) : target.IsNumeric := by
  obtain ⟨-, n, -, high, -⟩ := wider
  rw [IsNumeric, high]
  rfl

/-- A value in a wider kind has the keys of its elements in their places. -/
theorem exists_converted {v : Value} (h : v.WellFormed) (wider : v.kind.Widens target) :
    ∃ w, v.convert target = .ok w ∧ w.WellFormed ∧ w.kind = target ∧ w.keyGrid = v.keyGrid := by
  obtain ⟨k, a, rfl⟩ : ∃ k a, v = .ofGrid (.uniform k) a :=
    ⟨v.kind, Value.exists_grid h.isUniform⟩
  have kind : (Value.ofGrid (.uniform k) a).kind = k := Value.kind_ofGrid ..
  rw [kind] at wider
  obtain ⟨store, keys, converted⟩ := wider.exists_store
  have wf : a.WellFormed := (Value.wellFormed_ofGrid_iff.mp h).2.wellFormed
  refine ⟨_, converted a, Value.wellFormed_unboxed wider.ne_box (wf.map store),
    Value.kind_ofGrid .., ?_⟩
  have each : (a.items.map store).map target.key = a.items.map k.key := by
    rw [List.map_map]
    exact List.map_congr_left fun x _ => keys x
  rw [Value.keyGrid_ofGrid, Value.keyGrid_ofGrid]
  exact congrArg (Grid.mk a.shape) each

end Kind.Widens

namespace Value

/-- Values of numeric kinds are equal if they have the same keys in their places. -/
theorem equals_of_keyGrid {v w : Value} (numericV : v.kind.IsNumeric) (numericW : w.kind.IsNumeric)
    (keys : w.keyGrid = v.keyGrid) : (Operand.value w).equals (.value v) = true := by
  have same : w.key = v.key := by
    rw [key_eq, key_eq, numericV.family, numericW.family]
    exact congrArg (fun g : Grid Key => Key.value .number g.shape g.items) keys
  exact beq_iff_eq.mpr same

/-- The key of the element in a place of the row-major order. -/
def keyAt? (v : Value) (i : Nat) : Option Key :=
  v.keyGrid.items[i]?

/-- The complex number that the element in a place of the row-major order stands for. -/
def complexAt? (v : Value) (i : Nat) : Option Complex :=
  v.itemGrid.items[i]?.bind Item.complex?

theorem WellFormed.exists_complexAt {v : Value} (h : v.WellFormed) (numeric : v.kind.IsNumeric)
    {i : Nat} (within : i < v.elementCount) :
    ∃ z, v.complexAt? i = some z ∧ v.keyAt? i = some (Key.ofComplex z) := by
  obtain ⟨k, a, rfl⟩ : ∃ k a, v = .ofGrid (.uniform k) a :=
    ⟨v.kind, exists_grid h.isUniform⟩
  rw [kind_ofGrid] at numeric
  rw [elementCount_ofGrid] at within
  obtain ⟨z, stands, key⟩ := numeric.exists_complex a.items[i]
  refine ⟨z, ?_, ?_⟩
  · rw [complexAt?, itemGrid_ofGrid, Grid.items_map, List.getElem?_map,
      List.getElem?_eq_getElem within]
    exact stands
  · rw [keyAt?, keyGrid_ofGrid, Grid.items_map, List.getElem?_map,
      List.getElem?_eq_getElem within]
    exact congrArg some key

theorem convert_self (v : Value) : v.convert v.kind = .ok v :=
  if_pos rfl

theorem convert_complex_byte (a : Grid UInt8) :
    convert .complex (.byte a) = .ok (.complex (a.map fun b => .ofReal (.ofByte b))) :=
  have other : Kind.byte ≠ .complex := by decide
  convert_eq_ok other coerceComplex_byte a

theorem convert_complex_number (a : Grid Binary64) :
    convert .complex (.number a) = .ok (.complex (a.map .ofReal)) :=
  have other : Kind.number ≠ .complex := by decide
  convert_eq_ok other (fun _ => rfl) a

/-- Numeric values meet at the wider of their kinds, both converted to it. -/
theorem unify_numeric (pairing : Pairing) {a b : Value} (ha : a.WellFormed) (hb : b.WellFormed)
    (numericA : a.kind.IsNumeric) (numericB : b.kind.IsNumeric) :
    ∃ both, unify pairing a b = .ok both ∧
      a.convert both.kind = .ok (ofGrid both.form both.first) ∧
      b.convert both.kind = .ok (ofGrid both.form both.second) ∧
      a.kind.Widens both.kind ∧ b.kind.Widens both.kind := by
  have byte_byte : Kind.byte.Widens .byte := ⟨0, 0, rfl, rfl, by decide⟩
  have byte_number : Kind.byte.Widens .number := ⟨0, 1, rfl, rfl, by decide⟩
  have byte_complex : Kind.byte.Widens .complex := ⟨0, 2, rfl, rfl, by decide⟩
  have number_number : Kind.number.Widens .number := ⟨1, 1, rfl, rfl, by decide⟩
  have number_complex : Kind.number.Widens .complex := ⟨1, 2, rfl, rfl, by decide⟩
  have complex_complex : Kind.complex.Widens .complex := ⟨2, 2, rfl, rfl, by decide⟩
  cases ha with
  | character _ | box _ _ => cases numericA
  | byte _ =>
      cases hb with
      | character _ | box _ _ => cases numericB
      | byte _ => exact ⟨_, rfl, convert_self _, convert_self _, byte_byte, byte_byte⟩
      | number _ =>
          exact ⟨_, rfl, convert_number_byte _, convert_self _, byte_number, number_number⟩
      | complex _ =>
          exact ⟨_, rfl, convert_complex_byte _, convert_self _, byte_complex, complex_complex⟩
  | number _ =>
      cases hb with
      | character _ | box _ _ => cases numericB
      | byte _ =>
          exact ⟨_, rfl, convert_self _, convert_number_byte _, number_number, byte_number⟩
      | number _ => exact ⟨_, rfl, convert_self _, convert_self _, number_number, number_number⟩
      | complex _ =>
          exact ⟨_, rfl, convert_complex_number _, convert_self _, number_complex,
            complex_complex⟩
  | complex _ =>
      cases hb with
      | character _ | box _ _ => cases numericB
      | byte _ =>
          exact ⟨_, rfl, convert_self _, convert_complex_byte _, complex_complex, byte_complex⟩
      | number _ =>
          exact ⟨_, rfl, convert_self _, convert_complex_number _, complex_complex,
            number_complex⟩
      | complex _ =>
          exact ⟨_, rfl, convert_self _, convert_self _, complex_complex, complex_complex⟩

end Value

/-- Conversion to a wider kind gives an equal value. Two numeric values that are brought together
become values of one kind with their old shapes, and an element of the one is equal to an
element of the other exactly as before, which is if they stand for one complex number. -/
theorem widening_keeps_equality (pairing : Pairing) {a b : Value} (ha : a.WellFormed)
    (hb : b.WellFormed) (numericA : a.kind.IsNumeric) (numericB : b.kind.IsNumeric) :
    (∀ target, a.kind.Widens target → ∃ w, a.convert target = .ok w ∧ w.WellFormed ∧
      w.kind = target ∧ w.shape = a.shape ∧ (Operand.value w).equals (.value a) = true) ∧
    ∃ both, Value.unify pairing a b = .ok both ∧
      let a' := Value.ofGrid both.form both.first
      let b' := Value.ofGrid both.form both.second
      a.convert both.kind = .ok a' ∧ b.convert both.kind = .ok b' ∧
        a'.WellFormed ∧ b'.WellFormed ∧ a'.kind = b'.kind ∧
        a'.shape = a.shape ∧ b'.shape = b.shape ∧
        ∀ i < a.elementCount, ∀ j < b.elementCount, ∃ z w,
          a.complexAt? i = some z ∧ b.complexAt? j = some w ∧
            (a.keyAt? i = b.keyAt? j ↔ z.Same w) ∧ (a'.keyAt? i = b'.keyAt? j ↔ z.Same w) := by
  constructor
  · intro target wider
    obtain ⟨w, converted, wf, kind, keys⟩ := wider.exists_converted ha
    refine ⟨w, converted, wf, kind, congrArg Grid.shape keys, ?_⟩
    exact Value.equals_of_keyGrid numericA (kind ▸ wider.isNumeric_target) keys
  · obtain ⟨both, met, first, second, widerA, widerB⟩ :=
      Value.unify_numeric pairing ha hb numericA numericB
    obtain ⟨a', converted, wfA, kindA, keysA⟩ := widerA.exists_converted ha
    obtain rfl := Except.ok.inj (first.symm.trans converted)
    obtain ⟨b', converted, wfB, kindB, keysB⟩ := widerB.exists_converted hb
    obtain rfl := Except.ok.inj (second.symm.trans converted)
    refine ⟨both, met, first, second, wfA, wfB, kindA.trans kindB.symm,
      congrArg Grid.shape keysA, congrArg Grid.shape keysB, fun i hi j hj => ?_⟩
    obtain ⟨z, standsZ, keyZ⟩ := ha.exists_complexAt numericA hi
    obtain ⟨w, standsW, keyW⟩ := hb.exists_complexAt numericB hj
    have equal : a.keyAt? i = b.keyAt? j ↔ z.Same w := by
      rw [keyZ, keyW, Option.some.injEq, Key.ofComplex_eq_iff]
    refine ⟨z, w, standsZ, standsW, equal, ?_⟩
    rwa [Value.keyAt?, Value.keyAt?, keysA, keysB]

/-- A NaN and a negative zero are equal to the complex numbers that stand for them, before and
after they have become complex numbers themselves. -/
theorem zero_and_nan_widened :
    let a : Value := .number ⟨[3], [.nan, .negativeZero, .ofByte 2]⟩
    let b : Value := .complex ⟨[2], [⟨.zero, .negativeZero⟩, ⟨.nan, .zero⟩]⟩
    a.WellFormed ∧ b.WellFormed ∧ a.kind.IsNumeric ∧ b.kind.IsNumeric ∧
      a.kind.Widens .complex ∧
      (∃ w, a.convert .complex = .ok w ∧ (Operand.value w).equals (.value a) = true) ∧
      ∃ both, Value.unify .find a b = .ok both ∧
        let a' := Value.ofGrid both.form both.first
        let b' := Value.ofGrid both.form both.second
        (a.keyAt? 0 = b.keyAt? 1 ∧ a'.keyAt? 0 = b'.keyAt? 1) ∧
          a.keyAt? 1 = b.keyAt? 0 ∧ a'.keyAt? 1 = b'.keyAt? 0 := by
  intro a b
  have ha : a.WellFormed := .number (by decide)
  have hb : b.WellFormed := .complex (by decide)
  have wider : a.kind.Widens .complex := ⟨1, 2, rfl, rfl, by decide⟩
  obtain ⟨converted, both, met, -, -, -, -, -, -, -, equal⟩ :=
    widening_keeps_equality .find ha hb rfl rfl
  obtain ⟨w, wide, -, -, -, same⟩ := converted .complex wider
  obtain ⟨_, _, -, -, before, after⟩ := equal 0 (by decide) 1 (by decide)
  have nan : a.keyAt? 0 = b.keyAt? 1 := rfl
  obtain ⟨_, _, -, -, before', after'⟩ := equal 1 (by decide) 0 (by decide)
  have zero : a.keyAt? 1 = b.keyAt? 0 := rfl
  exact ⟨ha, hb, rfl, rfl, wider, ⟨w, wide, same⟩, both, met,
    ⟨nan, after.mpr (before.mp nan)⟩, zero, after'.mpr (before'.mp zero)⟩

end RowMajor
