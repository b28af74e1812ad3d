import Mathlib.Data.List.DropRight
import RowMajor.Proofs.Frames.Alignment

/-!
# Shapes after alignment

Aligned rows that are put together again stand along the longer frame. The shape that the grid
had before is put back instead whenever there are as many elements as before. If no cell was
repeated, that is so, and the axes of length one that were left out of account are there
again. If cells were repeated, it is so as well when each of them was repeated just once, or
when there are no elements at all, and the longer frame is lost.
-/

namespace RowMajor

variable {α β : Type}

namespace Shape

variable {s t : Shape}

theorem cellCount_eq_mul_drop (agree : Compatible s t) (shorter : s.length < t.length) :
    cellCount t = cellCount s * cellCount (t.drop s.length) := by
  have lead := agree.take_longer_left
  rw [longer, if_pos shorter] at lead
  rw [← lead, List.length_take, Nat.min_eq_left (Nat.le_of_lt shorter), cellCount_take_mul_drop]

/-- Cells that are repeated along a longer frame have as many elements as before only if there are
none or each cell is repeated once. -/
theorem cellCount_longer_eq_iff (agree : Compatible s t) (rest : Shape) :
    cellCount (longer s t) * cellCount rest = cellCount (s ++ rest) ↔
      ¬ (s.length < t.length ∧ cellCount (s ++ rest) ≠ 0 ∧ cellCount (t.drop s.length) ≠ 1) := by
  rw [cellCount_append, longer]
  split
  · rename_i shorter
    rw [cellCount_eq_mul_drop agree shorter, Nat.mul_right_comm]
    generalize cellCount s * cellCount rest = count
    rcases Nat.eq_zero_or_pos count with rfl | positive
    · simp
    · rw [Nat.mul_eq_left (Nat.ne_of_gt positive)]
      simp [shorter, Nat.ne_of_gt positive]
  · rename_i longer
    exact iff_of_true rfl fun repeated => longer repeated.1

/-- A frame that is longer than its partner is not what the partner was before. -/
theorem matched_ne (shorter : (matched s t).1.length < (matched s t).2.length) :
    (matched s t).2 ≠ s := by
  rw [matched] at shorter ⊢
  split at shorter
  · rename_i agree
    rw [if_pos agree]
    exact fun same => absurd (congrArg List.length same) (Nat.ne_of_gt shorter)
  · rename_i disagree
    rw [if_neg disagree]
    intro same
    simp only [← same, List.dropWhile_idempotent] at shorter
    exact absurd shorter (Nat.lt_irrefl _)

end Shape

namespace Grid

variable {a : Grid α} {b : Grid β} {x : Aligned α β} {depth otherDepth : Nat}

/-- The shape that rows have once they are put together again. -/
theorem align_shape (h : a.WellFormed) (h' : b.WellFormed) (kinds : Kind × Kind)
    (aligned : a.align kinds (Int.ofNat depth) b (Int.ofNat otherDepth) = .ok x) :
    let frames := Shape.matched (a.shape.take depth) (b.shape.take otherDepth)
    x.shape = if frames.1.length < frames.2.length ∧ a.items ≠ [] ∧
      Shape.cellCount (frames.2.drop frames.1.length) ≠ 1 then frames.2 ++ a.shape.drop depth
      else a.shape := by
  intro frames
  have whole := (align_eq h h' kinds depth otherDepth).symm.trans aligned
  have wf : (a.withShape (frames.1 ++ a.shape.drop depth)).WellFormed := h.matched depth _
  have count : a.items.length = Shape.cellCount (frames.1 ++ a.shape.drop depth) := wf.length_eq
  change (if Shape.Compatible frames.1 frames.2 then Except.ok (along a.shape _ _ _
      (a.withShape (frames.1 ++ a.shape.drop depth)) _) else _) = _ at whole
  split at whole
  · rename_i agree
    cases whole
    have rest : (frames.1 ++ a.shape.drop depth).drop frames.1.length = a.shape.drop depth :=
      List.drop_left
    have filled := Shape.cellCount_longer_eq_iff agree (a.shape.drop depth)
    rw [← count, ne_eq, List.length_eq_zero_iff] at filled
    show (if Shape.cellCount _ * Shape.cellCount (List.drop _ (frames.1 ++ a.shape.drop depth)) =
        Shape.cellCount a.shape then a.shape else _ ++ List.drop _ (frames.1 ++ _)) = _
    rw [rest, ← h.length_eq]
    by_cases repeated : frames.1.length < frames.2.length ∧ a.items ≠ [] ∧
        Shape.cellCount (frames.2.drop frames.1.length) ≠ 1
    · rw [if_neg fun same => filled.mp same repeated, if_pos repeated, Shape.longer,
        if_pos repeated.1]
    · rw [if_pos (filled.mpr repeated), if_neg repeated]
  · cases whole

/-- The frame of the other grid takes the place of a shorter one exactly if there are elements and
their cells are not repeated just once each. A frame that is not shorter is put back with the
axes of length one that were left out of account. -/
theorem align_restores_iff {f : List α → List β → List α} (h : a.WellFormed) (h' : b.WellFormed)
    (kinds : Kind × Kind)
    (aligned : a.align kinds (Int.ofNat depth) b (Int.ofNat otherDepth) = .ok x) :
    let frames := Shape.matched (a.shape.take depth) (b.shape.take otherDepth)
    (x.mapRows f).shape =
        (if frames.1.length < frames.2.length then frames.2 ++ a.shape.drop depth
          else a.shape) ↔
      (frames.1.length < frames.2.length →
        a.items ≠ [] ∧ Shape.cellCount (frames.2.drop frames.1.length) ≠ 1) := by
  intro frames
  show x.shape = _ ↔ _
  rw [align_shape h h' kinds aligned]
  change (if frames.1.length < frames.2.length ∧ _ ∧ _ then frames.2 ++ _ else _) = _ ↔ _
  by_cases shorter : frames.1.length < frames.2.length
  · have other : frames.2 ++ a.shape.drop depth ≠ a.shape := fun same =>
      Shape.matched_ne shorter
        (List.append_cancel_right (same.trans (List.take_append_drop depth a.shape).symm))
    rw [if_pos shorter]
    by_cases repeated : a.items ≠ [] ∧ Shape.cellCount (frames.2.drop frames.1.length) ≠ 1
    · rw [if_pos ⟨shorter, repeated⟩]
      exact iff_of_true rfl fun _ => repeated
    · rw [if_neg fun both => repeated both.2]
      exact iff_of_false other.symm fun always => repeated (always shorter)
  · rw [if_neg shorter, if_neg fun both => shorter both.1]
    exact iff_of_true rfl fun less => absurd less shorter

/-- Three elements at every one of two places. -/
theorem row_repeated_twice :
    let a : Grid Char := ⟨[3], ['a', 'b', 'c']⟩
    let b : Grid UInt8 := ⟨[2], [5, 6]⟩
    a.WellFormed ∧ b.WellFormed ∧ ∃ x,
      a.align (.character, .byte) (Int.ofNat 0) b (Int.ofNat 1) = .ok x ∧
        (x.mapRows fun row _ => row.reverse).shape = [2, 3] := by
  obtain ⟨x, aligned⟩ : ∃ x, align (.character, .byte) ⟨[3], ['a', 'b', 'c']⟩ (Int.ofNat 0)
      (Grid.mk [2] [(5 : UInt8), 6]) (Int.ofNat 1) = .ok x := ⟨_, rfl⟩
  refine ⟨by decide, by decide, x, aligned, ?_⟩
  exact (align_restores_iff (by decide) (by decide) (.character, .byte) aligned).mpr fun _ =>
    ⟨by decide, by decide⟩

/-- Every element is repeated once along an axis that its frame lacks. The longer frame is lost,
and the axis in front that was left out of account is back. -/
theorem leading_axis_put_back :
    let a : Grid UInt8 := ⟨[1, 2], [1, 2]⟩
    let b : Grid UInt8 := ⟨[2, 1], [5, 6]⟩
    a.WellFormed ∧ b.WellFormed ∧
      Shape.matched (a.shape.take 2) (b.shape.take 2) = ([2], [2, 1]) ∧
      ∃ x, a.align (.byte, .byte) 2 b 2 = .ok x ∧
        (x.mapRows fun row _ => row.reverse).shape = a.shape ∧
        a.shape ≠ [2, 1] ++ a.shape.drop 2 :=
  ⟨by decide, by decide, rfl, _, rfl, rfl, by decide⟩

end Grid

end RowMajor
