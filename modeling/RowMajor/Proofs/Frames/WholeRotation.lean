import RowMajor.Proofs.Frames.Rotation
import RowMajor.Proofs.Rotation.Cycling

/-!
# Whole arrays rotated as one row

At depth zero there is one row, which is the array, and one row of offsets. Rotating by rows
then comes to a rotation of the array, as long as there are not more offsets than axes. Where
there are, the rotation of the array is refused, while rotating by rows leaves out the offsets
that there are no axes for.
-/

namespace RowMajor

variable {α : Type}

/-- Offsets that no axis is left for move nothing. -/
theorem Shape.turned_take (s : Shape) (offsets : List Int) (index : List Nat) :
    s.turned (offsets.take s.length) index = s.turned offsets index := by
  induction s generalizing offsets index with
  | nil => cases offsets <;> rfl
  | cons d s ih =>
      match offsets, index with
      | [], _ => rfl
      | _ :: _, [] => rfl
      | offset :: offsets, i :: index =>
          rw [List.length_cons, List.take_succ_cons, turned, turned, ih]

namespace Grid

variable {a : Grid α} {offsets : Grid Int}

theorem WellFormed.turned_take (h : a.WellFormed) (offsets : List Int) :
    a.turned (offsets.take a.rank) = a.turned offsets := by
  have first := h.turned (offsets.take a.rank)
  apply first.ext (h.turned offsets) rfl
  intro index mem
  have inside : index ∈ Shape.coordinates a.shape := mem
  rw [h.get?_turned _ inside, h.get?_turned _ inside, Grid.rank, Shape.turned_take]

/-- The only row at depth zero is the grid. -/
theorem rotateRows_whole (h : a.WellFormed) (ho : offsets.WellFormed) (few : offsets.rank ≤ 1)
    (kind : Kind) : rotateRows kind 0 offsets 0 a = .ok (a.turned offsets.items) := by
  have aligned : a.align (kind, .number) 0 offsets 0 =
      .ok (along a.shape [] 0 0 a offsets) := align_eq h ho (kind, .number) 0 0
  have back : (along a.shape [] 0 0 a offsets).shape = a.shape := if_pos (Nat.one_mul _)
  have rows : (along a.shape [] 0 0 a offsets).pairs =
      if Shape.cellCount a.shape = 0 then [] else [(a.items, offsets.items)] := by
    show (if _ then [] else [((a.cellAt []).items, (offsets.cellAt []).items)]) = _
    rw [cellAt_nil h, cellAt_nil ho]
    rfl
  have turned : rotateSection offsets.items a.shape 0 a.items = (a.turned offsets.items).items :=
    rotateSection_whole offsets.items h.natural h.length_eq
  have length : (a.turned offsets.items).items.length = Shape.cellCount a.shape :=
    (h.turned offsets.items).length_eq
  rw [rotateRows, aligned]
  simp only
  rw [if_neg fun many => Nat.not_lt.mpr few many.1]
  refine congrArg Except.ok ?_
  rw [Aligned.mapRows, back, rows]
  refine congrArg (Grid.mk a.shape) ?_
  split
  · rename_i empty
    rw [empty, List.length_eq_zero_iff] at length
    exact length.symm
  · show (rotateSection offsets.items a.shape 0 a.items ++ []) ++ [] = _
    rw [List.append_nil, List.append_nil, turned]
    rfl

end Grid

variable {o v : Value} {offsets : List Int}

/-- Integers are read alike in every role. -/
theorem Value.integers_ok_role (h : v.WellFormed) {role : Role} (other : Role)
    (read : v.integers role = .ok offsets) : v.integers other = .ok offsets := by
  cases h with
  | number h =>
      refine Outcome.mapM_ok_of_imp (fun x n same => ?_) read
      rw [Binary64.integer] at same ⊢
      cases equals : x.toInt? with
      | none =>
          rw [equals] at same
          cases same
      | some m =>
          rw [equals] at same
          exact same
  | byte h => exact read
  | complex h => cases read
  | character h => cases read
  | box h inner => cases read

/-- Rotating the only row at depth zero gives what rotating the array gives, if there are not more
offsets than axes. Where there are, the rotation of the array is refused, and the offsets beyond
the axes are left out of the other. -/
theorem rotateDepth_eq_rotate_iff {by_ value : Operand} (given : by_.toValue = .ok o)
    (whole : value.toValue = .ok v) (ho : o.WellFormed) (hv : v.WellFormed)
    (read : o.integerList .offsets = .ok offsets) :
    ∃ r, rotateDepth by_ value 0 0 .none = .ok r ∧
      v.rotate .none (offsets.take v.rank) = .ok r ∧
      rotate by_ value .none =
        (if offsets.length ≤ v.rank then .ok r
        else .error (.shape (.indexLength .rotate v.rank offsets.length))) ∧
      (rotateDepth by_ value 0 0 .none = rotate by_ value .none ↔ offsets.length ≤ v.rank) := by
  obtain ⟨f, a, rfl⟩ := v.exists_form
  have h : a.WellFormed := (Value.grid_ofGrid_wellFormed a).mp hv.holds.wellFormed
  have flat : ¬ 1 < o.rank := by
    intro many
    rw [Value.integerList, if_pos many] at read
    cases read
  have listed : o.integers .offsets = .ok offsets := by
    rwa [Value.integerList, if_neg flat] at read
  have grid : o.integerGrid .offsetTable = .ok ⟨o.shape, offsets⟩ := by
    rw [Value.integerGrid, Value.integers_ok_role ho .offsetTable listed]
    rfl
  have table : Grid.WellFormed ⟨o.shape, offsets⟩ := by
    have yields := Value.integerGrid_yields .offsetTable ho
    rwa [grid] at yields
  have byRows : rotateDepth by_ value 0 0 .none = .ok (.ofGrid f (a.turned offsets)) := by
    have operands : rotateDepth by_ value 0 0 .none =
        rotateDepth (.value o) (.value (.ofGrid f a)) 0 0 .none := by
      rw [rotateDepth, Operand.asIntegerGrid, given, whole]
      rfl
    have rows : Grid.rotateRows f.kind (Int.ofNat 0) ⟨o.shape, offsets⟩ (Int.ofNat 0) a = _ :=
      Grid.rotateRows_whole h table (Nat.le_of_not_lt flat) f.kind
    refine operands.trans ((rotateDepth_eq grid (Value.promoteFor_none _) 0 0).trans ?_)
    rw [rows]
    rfl
  have atOnce : rotate by_ value .none = (Value.ofGrid f a).rotate .none offsets := by
    rw [rotate, Operand.asIntegers, given, whole]
    show (o.integerList .offsets >>= fun offsets => (Value.ofGrid f a).rotate .none offsets) = _
    rw [read]
    rfl
  rw [Value.rank_ofGrid, byRows, atOnce, Value.rotate_without_fill h, Value.rotate_without_fill h,
    List.length_take, if_neg (by omega), h.turned_take]
  refine ⟨_, rfl, rfl, ?_⟩
  by_cases few : offsets.length ≤ a.rank
  · rw [if_neg (Nat.not_lt.mpr few), if_pos few]
    exact ⟨rfl, iff_of_true rfl few⟩
  · rw [if_pos (Nat.lt_of_not_le few), if_neg few]
    refine ⟨rfl, iff_of_false (fun same => ?_) few⟩
    cases same

/-- A word rotated by one byte, as a whole and by its only row. -/
theorem word_rotated_whole :
    let offsets : Value := .byte ⟨[1], [1]⟩
    let word : Value := .character ⟨[3], ['a', 'b', 'c']⟩
    offsets.WellFormed ∧ word.WellFormed ∧ offsets.integerList .offsets = .ok [1] ∧
      rotateDepth (.value offsets) (.text ['a', 'b', 'c']) 0 0 .none =
        rotate (.value offsets) (.text ['a', 'b', 'c']) .none := by
  intro offsets word
  have ho : offsets.WellFormed := .byte (by decide)
  have hv : word.WellFormed := .character (by decide)
  have given : (Operand.value offsets).toValue = .ok offsets := rfl
  have whole : (Operand.text ['a', 'b', 'c']).toValue = .ok word := rfl
  obtain ⟨r, -, -, -, agree⟩ := rotateDepth_eq_rotate_iff given whole ho hv rfl
  exact ⟨ho, hv, rfl, agree.mpr (by decide)⟩

/-- The second offset of a word is refused by one rotation and left out by the other. -/
theorem second_offset_left_out :
    let offsets : Operand := .value (.byte ⟨[2], [1, 2]⟩)
    offsets.asIntegers .offsets = .ok [1, 2] ∧
      rotate offsets (.text ['a', 'b', 'c']) .none = .error (.shape (.indexLength .rotate 1 2)) ∧
      rotateDepth offsets (.text ['a', 'b', 'c']) 0 0 .none =
        .ok (.character ⟨[3], ['b', 'c', 'a']⟩) :=
  ⟨rfl, rfl, rfl⟩

end RowMajor
