import Mathlib.Data.List.Rotate
import RowMajor.Proofs.Grid.Assembly
import RowMajor.Proofs.Operations.Rotate

/-!
# Elements moved by a rotation

A rotation moves every coordinate along the leading axes by the offset of its axis, modulo the
length of the axis. It does so axis by axis: the rows are moved round by the first offset, and
then each of them is rotated by the offsets that remain. Both steps are read off at the place
of one element, and an induction on the offsets puts them together.
-/

namespace RowMajor

variable {α : Type}

namespace Shape

variable {s : Shape} {index : List Nat}

/-- The coordinates of the element that a rotation brings to the given ones. -/
def turned : Shape → List Int → List Nat → List Nat
  | d :: s, offset :: offsets, i :: index =>
    ((Int.ofNat i + offset) % d).toNat :: turned s offsets index
  | _, _, index => index

theorem turned_mem (offsets : List Int) (mem : index ∈ coordinates s) :
    turned s offsets index ∈ coordinates s := by
  induction offsets generalizing s index with
  | nil => cases s <;> exact mem
  | cons offset offsets ih =>
      cases s with
      | nil => exact mem
      | cons d s =>
          obtain ⟨i, rest, rfl, below, inside⟩ := mem_coordinates_cons.mp mem
          refine mem_coordinates_cons.mpr ⟨_, _, rfl, ?_, ih inside⟩
          have positive : 0 < d := by omega
          have low := Int.emod_nonneg (Int.ofNat i + offset) (Int.ne_of_gt positive)
          have high := Int.emod_lt_of_pos (Int.ofNat i + offset) positive
          omega

end Shape

section

variable {f : List α → List α} {size count i j : Nat} {items : List α}

/-- A row that is there in full. -/
theorem length_row (length : items.length = count * size) (there : i < count) :
    ((items.drop (i * size)).take size).length = size := by
  have room := Nat.mul_le_mul_right size (Nat.succ_le_of_lt there)
  rw [Nat.succ_mul] at room
  simp only [List.length_take, List.length_drop, length]
  omega

theorem getElem?_row (items : List α) (i : Nat) (below : j < size) :
    ((items.drop (i * size)).take size)[j]? = items[i * size + j]? := by
  rw [List.getElem?_take_of_lt below, List.getElem?_drop]

/-- What stands in a row after every row has been changed comes from that row alone. -/
theorem getElem?_flatMap_pieces (length : items.length = count * size)
    (keeps : ∀ row, row.length = size → (f row).length = size) (there : i < count)
    (below : j < size) :
    ((pieces size count items).flatMap f)[i * size + j]? =
      (f ((items.drop (i * size)).take size))[j]? := by
  have each : ∀ row ∈ pieces size count items, (f row).length = size := by
    intro row mem
    exact keeps row (length_of_mem_pieces (Nat.le_of_eq length.symm) mem)
  rw [getElem?_flatMap_of_length each below, getElem?_pieces there, Option.bind_some]

/-- Where nothing happens to any row, nothing happens to the list. -/
theorem flatMap_pieces_eq_self (length : items.length = count * size)
    (fixed : ∀ row, row.length = size → f row = row) :
    (pieces size count items).flatMap f = items := by
  have enough := Nat.le_of_eq length
  have rows : (pieces size count items).flatMap f = (pieces size count items).flatMap id := by
    apply List.flatMap_congr
    intro row mem
    exact fixed row (length_of_mem_pieces (Nat.le_of_eq length.symm) mem)
  rw [rows, List.flatMap_id, flatten_pieces enough]

end

/-- Moving coordinates along an axis, with the offset brought below its length first. -/
theorem toNat_add_emod {d : Int} (positive : 0 < d) (i : Nat) (offset : Int) :
    ((Int.ofNat i + offset) % d).toNat = (i + (offset % d).toNat) % d.toNat := by
  have low := Int.emod_nonneg offset (Int.ne_of_gt positive)
  obtain ⟨m, here⟩ := Int.eq_ofNat_of_zero_le low
  obtain ⟨n, rfl⟩ := Int.eq_ofNat_of_zero_le (Int.le_of_lt positive)
  rw [← Int.add_emod_emod, here, Int.ofNat_eq_natCast, ← Int.natCast_add, ← Int.natCast_emod]
  simp only [Int.toNat_natCast]

/-- The rows of a list moved round by an offset. -/
def turn (offset d : Int) (size : Nat) (items : List α) : List α :=
  items.drop ((offset % d).toNat * size) ++ items.take ((offset % d).toNat * size)

theorem getElem?_turn {d : Int} {size i j : Nat} {items : List α} (offset : Int)
    (length : items.length = d.toNat * size) (row : i < d.toNat) (below : j < size) :
    (turn offset d size items)[i * size + j]? =
      items[((Int.ofNat i + offset) % d).toNat * size + j]? := by
  have positive : 0 < d := by omega
  have high : (offset % d).toNat ≤ d.toNat :=
    Int.toNat_le_toNat (Int.le_of_lt (Int.emod_lt_of_pos offset positive))
  have start : (offset % d).toNat * size ≤ items.length :=
    length ▸ Nat.mul_le_mul_right size high
  have there : i * size + j < items.length := by
    rw [length]
    have := Nat.mul_le_mul_right size (Nat.succ_le_of_lt row)
    rw [Nat.succ_mul] at this
    omega
  rw [turn, ← List.rotate_eq_drop_append_take start, List.getElem?_rotate there,
    toNat_add_emod positive, length]
  generalize (offset % d).toNat = m
  have place : i * size + j + m * size = j + size * (i + m) := by
    rw [Nat.mul_add, Nat.mul_comm size i, Nat.mul_comm size m]
    omega
  congr 1
  rw [place, Nat.mul_comm d.toNat, Nat.mod_mul, Nat.add_mul_mod_self_left,
    Nat.mod_eq_of_lt below, Nat.add_mul_div_left _ _ (Nat.zero_lt_of_lt below),
    Nat.div_eq_of_lt below, Nat.zero_add, Nat.mul_comm size, Nat.add_comm]

theorem length_turn (offset d : Int) (size : Nat) (items : List α) :
    (turn offset d size items).length = items.length := by
  rw [turn, List.length_append, List.length_drop, List.length_take]
  omega

theorem length_rotateItems {s : Shape} {items : List α} (offsets : List Int) (natural : s.Natural)
    (length : items.length = s.cellCount) :
    (rotateItems offsets s items).length = s.cellCount :=
  (rotateItems_fills offsets natural ⟨length, fun _ _ => trivial⟩).length

/-- Nothing is left to do with a row of the last axis or without elements. -/
theorem row_unchanged {step : List Int → Shape → List α → List α} {offsets : List Int} {s : Shape}
    {row : List α} (still : ∀ s row, step [] s row = row)
    (flat : ∀ offsets row, step offsets [] row = row)
    (keeps : (step offsets s row).length = row.length) (length : row.length = s.cellCount)
    (last : (offsets.isEmpty || s.isEmpty || s.cellCount == 0) = true) :
    step offsets s row = row := by
  simp only [Bool.or_eq_true, List.isEmpty_iff, beq_iff_eq] at last
  obtain (rfl | rfl) | empty := last
  · exact still s row
  · exact flat offsets row
  · rw [empty] at length
    rw [length, List.length_eq_zero_iff] at keeps
    rw [keeps, List.length_eq_zero_iff.mp length]

/-- A rotation turns the rows and then rotates each of them by the offsets that remain. -/
theorem rotateItems_cons {d : Int} {s : Shape} {items : List α} (offset : Int)
    (offsets : List Int) (natural : s.Natural) (length : items.length = d.toNat * s.cellCount) :
    rotateItems (offset :: offsets) (d :: s) items =
      (pieces s.cellCount d.toNat (turn offset d s.cellCount items)).flatMap
        (rotateItems offsets s) := by
  have covered : (turn offset d s.cellCount items).length = d.toNat * s.cellCount :=
    (length_turn ..).trans length
  simp only [rotateItems, ← Shape.cellCount_eq_volume natural]
  split
  · rename_i last
    refine (flatMap_pieces_eq_self covered fun row size => ?_).symm
    apply row_unchanged _ _ _ size last
    · intro s row
      cases s <;> rfl
    · intro offsets row
      cases offsets <;> rfl
    · exact (length_rotateItems offsets natural size).trans size.symm
  · rfl

/-- Every element comes from where the offsets of its axes point to. -/
theorem getElem?_rotateItems {s : Shape} {items : List α} {index : List Nat}
    (offsets : List Int) (natural : s.Natural) (length : items.length = s.cellCount)
    (mem : index ∈ s.coordinates) :
    (rotateItems offsets s items)[s.offset index]? =
      items[s.offset (s.turned offsets index)]? := by
  induction offsets generalizing s items index with
  | nil => cases s <;> rfl
  | cons offset offsets ih =>
      cases s with
      | nil => rfl
      | cons d s =>
          obtain ⟨-, rowNatural⟩ := (Shape.natural_cons d s).mp natural
          obtain ⟨i, rest, rfl, row, inside⟩ := Shape.mem_coordinates_cons.mp mem
          have below := Shape.offset_lt rowNatural inside
          have source := Shape.offset_lt rowNatural (Shape.turned_mem offsets inside)
          have covered := (length_turn offset d (Shape.cellCount s) items).trans length
          rw [rotateItems_cons offset offsets rowNatural length]
          simp only [Shape.turned, Shape.offset, ← Shape.cellCount_eq_volume rowNatural]
          rw [getElem?_flatMap_pieces covered
              (fun _ size => length_rotateItems offsets rowNatural size) row below,
            ih rowNatural (length_row covered row) inside, getElem?_row _ i source,
            getElem?_turn offset length row source]

end RowMajor
