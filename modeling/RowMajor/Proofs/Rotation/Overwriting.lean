import RowMajor.Proofs.Rotation.Reversals

/-!
# Rows overwritten in place

After a rotation the rows that came round the end of an axis are overwritten, and then the rows
of every row. Between bounds in the list this is done one row after the other, and it comes to
the same as taking the section out, overwriting it and putting it back, as long as the list does
not end before the section does.
-/

namespace RowMajor

variable {α : Type}

section

variable {count size i j n : Nat} {items : List α}

/-- Rows before a bound are the items before it. -/
theorem row_lt_iff (below : j < size) : i * size + j < n * size ↔ i < n := by
  have row : (i * size + j) / size = i := by
    rw [Nat.mul_comm, Nat.mul_add_div (Nat.zero_lt_of_lt below), Nat.div_eq_of_lt below,
      Nat.add_zero]
  rw [← Nat.div_lt_iff_lt_mul (Nat.zero_lt_of_lt below), row]

/-- The rows that a rotation brings round an end, overwritten. -/
def overwriteRows (x : α) (offset d : Int) (size : Nat) (items : List α) : List α :=
  let span := min offset.natAbs d.toNat * size
  if 0 < offset then items.take (d.toNat * size - span) ++ List.replicate span x
  else List.replicate span x ++ items.drop span

theorem length_overwriteRows {d : Int} (x : α) (offset : Int)
    (length : items.length = d.toNat * size) :
    (overwriteRows x offset d size items).length = d.toNat * size := by
  have within : min offset.natAbs d.toNat * size ≤ d.toNat * size :=
    Nat.mul_le_mul_right size (Nat.min_le_right ..)
  rw [overwriteRows]
  split <;>
    · simp only [List.length_append, List.length_take, List.length_drop, List.length_replicate,
        length]
      omega

/-- A row stays if the offset does not lead out of the axis. -/
theorem getElem?_overwriteRows {d : Int} (x : α) (offset : Int)
    (length : items.length = d.toNat * size) (row : i < d.toNat) (below : j < size) :
    (overwriteRows x offset d size items)[i * size + j]? =
      if 0 ≤ Int.ofNat i + offset ∧ Int.ofNat i + offset < d then items[i * size + j]?
      else some x := by
  have place := (row_lt_iff (n := d.toNat) below).mpr row
  rw [overwriteRows, Int.ofNat_eq_natCast]
  generalize lost : min offset.natAbs d.toNat = m
  have within : m * size ≤ d.toNat * size := Nat.mul_le_mul_right size (by omega)
  split
  · have kept : (items.take (d.toNat * size - m * size)).length = (d.toNat - m) * size := by
      rw [List.length_take, length, Nat.sub_mul]
      omega
    by_cases stays : i < d.toNat - m
    · have before := (row_lt_iff below).mpr stays
      rw [if_pos (by omega), List.getElem?_append_left (kept ▸ before),
        List.getElem?_take_of_lt (Nat.sub_mul .. ▸ before)]
    · have behind := mt (row_lt_iff below).mp stays
      rw [if_neg (by omega), List.getElem?_append_right (kept ▸ Nat.le_of_not_lt behind), kept,
        List.getElem?_replicate_of_lt]
      rw [Nat.sub_mul] at behind ⊢
      omega
  · by_cases stays : m ≤ i
    · have behind := mt (row_lt_iff below).mp (Nat.not_lt.mpr stays)
      rw [if_pos (by omega), List.getElem?_append_right, List.getElem?_drop, List.length_replicate]
      · congr 1
        omega
      · rw [List.length_replicate]
        omega
    · have before := (row_lt_iff below).mpr (Nat.lt_of_not_le stays)
      rw [if_neg (by omega), List.getElem?_append_left, List.getElem?_replicate_of_lt before]
      rw [List.length_replicate]
      exact before

end

section

variable {s : Shape} {items : List α}

theorem length_overwriteWrapped (x : α) (offsets : List Int) (natural : s.Natural)
    (length : items.length = s.cellCount) :
    (overwriteWrapped x offsets s items).length = s.cellCount :=
  (overwriteWrapped_fills offsets natural trivial ⟨length, fun _ _ => trivial⟩).length

theorem overwriteWrapped_of_last {offsets : List Int} {row : List α} (x : α) (natural : s.Natural)
    (length : row.length = s.cellCount)
    (last : (offsets.isEmpty || s.isEmpty || s.cellCount == 0) = true) :
    overwriteWrapped x offsets s row = row := by
  apply row_unchanged _ _ _ length last
  · intro s row
    cases s <;> rfl
  · intro offsets row
    cases offsets <;> rfl
  · exact (length_overwriteWrapped x offsets natural length).trans length.symm

/-- Rows that came round are overwritten, and the elements of the others by the offsets that
remain. -/
theorem overwriteWrapped_cons {d : Int} (x : α) (offset : Int) (offsets : List Int)
    (natural : s.Natural) (length : items.length = d.toNat * s.cellCount) :
    overwriteWrapped x (offset :: offsets) (d :: s) items =
      (pieces s.cellCount d.toNat (overwriteRows x offset d s.cellCount items)).flatMap
        (overwriteWrapped x offsets s) := by
  have covered := length_overwriteRows x offset length
  simp only [overwriteWrapped, ← Shape.cellCount_eq_volume natural]
  split
  · rename_i last
    exact (flatMap_pieces_eq_self covered fun row size =>
      overwriteWrapped_of_last x natural size last).symm
  · rfl

end

section

variable {m n : Nat}

/-- The last items of a section replaced. -/
theorem changeSection_last (within : m ≤ n) (start : Nat) (padding items : List α) :
    changeSection (start + (n - m)) m (fun _ => padding) items =
      changeSection start n (fun part => part.take (n - m) ++ padding) items := by
  have stop : start + (n - m) + m = start + n := by omega
  have kept : ((items.drop start).take n).take (n - m) = (items.drop start).take (n - m) := by
    rw [List.take_take, Nat.min_eq_left (Nat.sub_le n m)]
  simp only [changeSection, stop, kept, List.take_add, List.append_assoc]

/-- The first items of a section replaced. -/
theorem changeSection_first (within : m ≤ n) (start : Nat) (padding items : List α) :
    changeSection start m (fun _ => padding) items =
      changeSection start n (fun part => padding ++ part.drop m) items := by
  obtain ⟨k, rfl⟩ := Nat.exists_eq_add_of_le within
  have rest : items.drop (start + (m + k)) = ((items.drop start).drop m).drop k := by
    rw [List.drop_drop, List.drop_drop]
  have behind : items.drop (start + m) =
      ((items.drop start).take (m + k)).drop m ++ items.drop (start + (m + k)) := by
    rw [List.drop_take, Nat.add_sub_cancel_left, rest, List.take_append_drop, List.drop_drop]
  simp only [changeSection, List.append_assoc]
  rw [behind]

/-- The rows that came round lie between bounds. -/
theorem overwriteBetween_rows (x : α) (offset : Int) (start count size : Nat) (items : List α) :
    let stop := Int.ofNat start + Int.ofNat count * Int.ofNat size
    let span := min (Int.ofNat offset.natAbs * Int.ofNat size) (stop - Int.ofNat start)
    let padding (_ : List α) : List α := List.replicate span.toNat x
    (if offset = 0 then items
      else if 0 < offset then changeBetween (stop - span) stop padding items
      else changeBetween (Int.ofNat start) (Int.ofNat start + span) padding items) =
      changeSection start (count * size) (overwriteRows x offset (Int.ofNat count) size) items := by
  intro stop span padding
  have within : min offset.natAbs count * size ≤ count * size :=
    Nat.mul_le_mul_right size (Nat.min_le_right ..)
  have width : span = Int.ofNat (min offset.natAbs count * size) := by
    have whole : stop - Int.ofNat start = Int.ofNat (count * size) := by
      show Int.ofNat start + Int.ofNat (count * size) - Int.ofNat start = _
      omega
    have product :
        Int.ofNat offset.natAbs * Int.ofNat size = Int.ofNat (offset.natAbs * size) := rfl
    show min _ (stop - Int.ofNat start) = _
    rw [whole, product, ← Nat.mul_min_mul_right]
    simp only [Int.ofNat_eq_natCast]
    omega
  have filler : padding = fun _ => List.replicate (min offset.natAbs count * size) x := by
    funext part
    show List.replicate span.toNat x = _
    rw [width]
    rfl
  have last : stop = Int.ofNat (start + count * size) := rfl
  have rows : overwriteRows x offset (Int.ofNat count) size = fun part : List α =>
      if 0 < offset then part.take (count * size - min offset.natAbs count * size) ++
        List.replicate (min offset.natAbs count * size) x
      else List.replicate (min offset.natAbs count * size) x ++
        part.drop (min offset.natAbs count * size) := rfl
  rw [rows, width, last, filler]
  rcases Int.lt_trichotomy offset 0 with behind | rfl | ahead
  · have stop : Int.ofNat start + Int.ofNat (min offset.natAbs count * size) =
        Int.ofNat (start + min offset.natAbs count * size) := rfl
    have negative : ¬ 0 < offset := Int.not_lt.mpr (Int.le_of_lt behind)
    simp only [if_neg (Int.ne_of_lt behind), if_neg negative]
    rw [stop, changeBetween_ofNat, changeSection_first within]
  · have none : min (Int.natAbs 0) count * size = 0 := by
      rw [Int.natAbs_zero, Nat.zero_min, Nat.zero_mul]
    simp only [if_true, none, Int.lt_irrefl, if_false]
    exact (changeSection_id ..).symm
  · have first : Int.ofNat (start + count * size) - Int.ofNat (min offset.natAbs count * size) =
        Int.ofNat (start + (count * size - min offset.natAbs count * size)) := by
      simp only [Int.ofNat_eq_natCast]
      omega
    have stop : start + count * size = start + (count * size - min offset.natAbs count * size) +
        min offset.natAbs count * size := by omega
    simp only [if_neg (Int.ne_of_gt ahead), if_pos ahead]
    rw [first, stop, changeBetween_ofNat, changeSection_last within]

end

/-- A change of parts of one length only. Other parts do not occur in a section that is all there,
and leaving them as they are keeps every length. -/
def onFull (size : Nat) (change : List α → List α) (part : List α) : List α :=
  if part.length = size then change part else part

section

variable {start count size : Nat} {change other : List α → List α} {items : List α}

theorem onFull_eq {part : List α} (length : part.length = size) :
    onFull size change part = change part :=
  if_pos length

theorem length_onFull (keeps : ∀ part, part.length = size → (change part).length = size)
    (part : List α) : (onFull size change part).length = part.length := by
  rw [onFull]
  split
  · rename_i length
    rw [keeps part length, length]
  · rfl

theorem changeSection_congr (inside : start + size ≤ items.length)
    (same : ∀ part, part.length = size → change part = other part) :
    changeSection start size change items = changeSection start size other items := by
  have length : ((items.drop start).take size).length = size := by
    rw [List.length_take, List.length_drop]
    omega
  rw [changeSection, changeSection, same _ length]

theorem changeSection_onFull (inside : start + size ≤ items.length) :
    changeSection start size (onFull size change) items = changeSection start size change items :=
  changeSection_congr inside fun _ => onFull_eq

/-- Steps that keep the length of a list only have to agree on lists of that length. -/
theorem foldl_congr_of_length {ι : Type} {step other : List α → ι → List α} {bounds : List ι}
    {total : Nat} (keeps : ∀ items i, (other items i).length = items.length)
    (same : ∀ i ∈ bounds, ∀ items, items.length = total → step items i = other items i)
    (length : items.length = total) : bounds.foldl step items = bounds.foldl other items := by
  induction bounds generalizing items with
  | nil => rfl
  | cons i bounds ih =>
      rw [List.foldl_cons, List.foldl_cons, same i List.mem_cons_self items length]
      apply ih
      · intro j mem
        exact same j (List.mem_cons_of_mem i mem)
      · exact (keeps items i).trans length

/-- Full rows changed one after the other are changed all at once. -/
theorem foldl_rowBounds_full {step : Int → List α → List α} (filled : size ≠ 0)
    (inside : start + count * size ≤ items.length)
    (keeps : ∀ row, row.length = size → (change row).length = size)
    (rows : ∀ i < count, ∀ others, others.length = items.length →
      step (Int.ofNat (start + i * size)) others =
        changeSection (start + i * size) size change others) :
    (rowBounds (Int.ofNat start) (Int.ofNat count) (Int.ofNat size)).foldl
        (fun items row => step row items) items =
      changeSection start (count * size) (fun part => (pieces size count part).flatMap change)
        items := by
  have kept (row : List α) (_ : row.length ≤ size) := length_onFull keeps row
  have some : Int.ofNat size ≠ 0 := fun none => filled (Int.ofNat_inj.mp none)
  let each (others : List α) (row : Int) : List α :=
    changeSection row.toNat size (onFull size change) others
  have alike : ∀ row ∈ rowBounds (Int.ofNat start) (Int.ofNat count) (Int.ofNat size),
      ∀ others, others.length = items.length → step row others = each others row := by
    intro row mem others length
    rw [rowBounds, if_neg some, List.mem_map] at mem
    obtain ⟨i, below, rfl⟩ := mem
    have row : i < count := List.mem_range.mp below
    have room := Nat.mul_le_mul_right size (Nat.succ_le_of_lt row)
    rw [Nat.succ_mul] at room
    have there : start + i * size + size ≤ others.length := by omega
    exact (rows i row others length).trans (changeSection_onFull there).symm
  have still (others : List α) (row : Int) : (each others row).length = others.length :=
    length_changeSection kept row.toNat others
  rw [foldl_congr_of_length still alike rfl, foldl_rowBounds filled kept fun i others => rfl]
  apply changeSection_congr inside
  intro part length
  apply List.flatMap_congr
  intro row mem
  exact onFull_eq (length_of_mem_pieces (Nat.le_of_eq length.symm) mem)

/-- A section is changed first, and then its rows one after the other. -/
theorem foldl_rowBounds_changed {step : Int → List α → List α} (filled : size ≠ 0)
    (inside : start + count * size ≤ items.length)
    (first : ∀ part, part.length = count * size → (other part).length = count * size)
    (keeps : ∀ row, row.length = size → (change row).length = size)
    (rows : ∀ i < count, ∀ others, others.length = items.length →
      step (Int.ofNat (start + i * size)) others =
        changeSection (start + i * size) size change others) :
    (rowBounds (Int.ofNat start) (Int.ofNat count) (Int.ofNat size)).foldl
        (fun items row => step row items) (changeSection start (count * size) other items) =
      changeSection start (count * size)
        (fun part => (pieces size count (other part)).flatMap change) items := by
  have kept (part : List α) (_ : part.length ≤ count * size) := length_onFull first part
  have length := length_changeSection kept start items
  rw [← changeSection_onFull inside]
  refine (foldl_rowBounds_full filled (length.symm ▸ inside) keeps ?_).trans ?_
  · intro i below others same
    exact rows i below others (same.trans length)
  · rw [changeSection_changeSection kept]
    apply changeSection_congr inside
    intro part whole
    rw [onFull_eq whole]

end

variable {s : Shape}

/-- Between natural bounds within a list a section is overwritten as if it were taken out. -/
theorem overwriteBetween_ofNat (x : α) (offsets : List Int) (natural : s.Natural)
    (start : Nat) {items : List α} (inside : start + s.cellCount ≤ items.length) :
    overwriteBetween x offsets s (Int.ofNat start) items =
      changeSection start s.cellCount (overwriteWrapped x offsets s) items := by
  induction offsets generalizing s start items with
  | nil => cases s <;> exact (changeSection_id ..).symm
  | cons offset offsets ih =>
      cases s with
      | nil => exact (changeSection_id ..).symm
      | cons d s =>
          obtain ⟨nonneg, rowNatural⟩ := (Shape.natural_cons d s).mp natural
          obtain ⟨count, rfl⟩ := Int.eq_ofNat_of_zero_le nonneg
          have shifted := overwriteBetween_rows x offset start count (Shape.cellCount s) items
          simp only [Int.ofNat_eq_natCast] at shifted
          rw [Shape.cellCount, Int.toNat_natCast] at inside ⊢
          have keeps (part : List α) (length : part.length = count * Shape.cellCount s) :=
            length_overwriteRows (d := count) x offset length
          rw [changeSection_congr inside fun part length =>
            overwriteWrapped_cons x offset offsets rowNatural length]
          rcases Nat.eq_zero_or_pos count with rfl | positive
          · rw [Nat.zero_mul]
            exact (changeSection_nothing start rfl items).symm
          rw [overwriteBetween, if_neg (by omega)]
          simp only [Shape.size_eq_cellCount rowNatural, Int.ofNat_eq_natCast, shifted]
          by_cases last : (offsets.isEmpty || s.isEmpty || Shape.cellCount s == 0) = true
          · rw [changeSection_congr inside fun part length =>
              flatMap_pieces_eq_self (keeps part length) fun row size =>
                overwriteWrapped_of_last x rowNatural size last]
            split
            · rfl
            · rename_i more
              have empty : Shape.cellCount s = 0 := by simpa [more] using last
              rw [empty, rowBounds, Int.natCast_zero, if_pos rfl]
              rfl
          · simp only [Bool.or_eq_true, not_or, beq_iff_eq] at last
            obtain ⟨more, filled⟩ := last
            rw [if_neg (by simpa using more)]
            apply foldl_rowBounds_changed filled inside keeps
            · intro row length
              exact length_overwriteWrapped x offsets rowNatural length
            · intro i below others length
              apply ih rowNatural
              have room := Nat.mul_le_mul_right (Shape.cellCount s) (Nat.succ_le_of_lt below)
              rw [Nat.succ_mul] at room
              omega

/-- A section is overwritten between bounds, wherever it lies. -/
theorem overwriteSection_eq_overwriteBetween (x : α) (offsets : List Int) (s : Shape)
    (start : Int) (items : List α) :
    overwriteSection x offsets s start items = overwriteBetween x offsets s start items := by
  rw [overwriteSection]
  split
  · rename_i within
    obtain ⟨natural, nonneg, inside⟩ := within
    obtain ⟨start, rfl⟩ := Int.eq_ofNat_of_zero_le nonneg
    rw [Shape.size_eq_cellCount natural] at inside
    rw [Int.toNat_natCast, ← Shape.cellCount_eq_volume natural]
    exact (overwriteBetween_ofNat x offsets natural start (Int.ofNat_le.mp inside)).symm
  · rfl

end RowMajor
