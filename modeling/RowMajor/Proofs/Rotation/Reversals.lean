import RowMajor.Proofs.Rotation.Turning

/-!
# Sections rotated in place

The rows of a section are moved round by three reversals: of the rows that go to the end, of the
others, and of the whole section. Bounds in the list are all that this takes, and the rows are
then rotated one after the other in the same way. For a section that begins at a position and
has axes of natural length this comes to the same as taking it out, rotating it and putting it
back, also where the list ends before the section does. A section is therefore rotated by
reversals whatever its bounds are, and nothing beside it changes.
-/

namespace RowMajor

variable {α : Type}

section

variable {start size n : Nat} {change : List α → List α} {first rest items : List α}

/-- The first items of a list, of which there may be too few if nothing follows them. -/
theorem take_append_short (short : first.length ≤ n) (full : rest ≠ [] → first.length = n) :
    (first ++ rest).take n = first := by
  rcases rest with _ | ⟨x, rest⟩
  · rw [List.append_nil, List.take_of_length_le short]
  · exact List.take_left' (full (List.cons_ne_nil x rest))

theorem drop_append_short (short : first.length ≤ n) (full : rest ≠ [] → first.length = n) :
    (first ++ rest).drop n = rest := by
  rcases rest with _ | ⟨x, rest⟩
  · rw [List.append_nil, List.drop_of_length_le short]
  · exact List.drop_left' (full (List.cons_ne_nil x rest))

theorem length_take_of_drop_ne_nil (more : items.drop n ≠ []) : (items.take n).length = n := by
  apply List.length_take_of_le
  by_contra few
  exact more (List.drop_of_length_le (Nat.le_of_not_le few))

/-- A section further on is one of what is left behind the first items. -/
theorem changeSection_add (before start size : Nat) (change : List α → List α) (items : List α) :
    changeSection (before + start) size change items =
      items.take before ++ changeSection start size change (items.drop before) := by
  simp only [changeSection, List.take_add, List.drop_drop, Nat.add_assoc, List.append_assoc]

theorem changeSection_front (size : Nat) (change : List α → List α) (items : List α) :
    changeSection 0 size change items = change (items.take size) ++ items.drop size := by
  simp only [changeSection, List.take_zero, List.drop_zero, Nat.zero_add, List.nil_append]

theorem changeSection_behind (start size : Nat) (change : List α → List α)
    (short : first.length ≤ n) (full : rest ≠ [] → first.length = n) :
    changeSection (n + start) size change (first ++ rest) =
      first ++ changeSection start size change rest := by
  rw [changeSection_add, take_append_short short full, drop_append_short short full]

theorem changeSection_at (start size : Nat) (change : List α → List α) (items : List α) :
    changeSection start size change items =
      items.take start ++ changeSection 0 size change (items.drop start) :=
  changeSection_add start 0 size change items

/-- What is behind a position has been changed before. -/
theorem changeSection_changed {changed : List α} (same : changed.length = (items.drop n).length)
    (start size : Nat) (change : List α → List α) :
    changeSection (n + start) size change (items.take n ++ changed) =
      items.take n ++ changeSection start size change changed := by
  apply changeSection_behind start size change (List.length_take_le n items)
  intro more
  apply length_take_of_drop_ne_nil
  intro none
  rw [none, List.length_nil, List.length_eq_zero_iff] at same
  exact more same

theorem changeSection_at_changed {changed : List α}
    (same : changed.length = (items.drop n).length) (size : Nat) (change : List α → List α) :
    changeSection n size change (items.take n ++ changed) =
      items.take n ++ changeSection 0 size change changed :=
  changeSection_changed same 0 size change

theorem changeSection_nothing (start : Nat) (kept : change [] = []) (items : List α) :
    changeSection start 0 change items = items := by
  simp only [changeSection, List.take_zero, kept, Nat.add_zero, List.append_nil,
    List.take_append_drop]

theorem length_changeSection
    (keeps : ∀ part, part.length ≤ size → (change part).length = part.length)
    (start : Nat) (items : List α) :
    (changeSection start size change items).length = items.length := by
  have part := keeps ((items.drop start).take size) (List.length_take_le ..)
  simp only [changeSection, List.length_append, part, List.length_take, List.length_drop]
  omega

/-- Between two positions lies a section. -/
theorem changeBetween_ofNat (start size : Nat) (change : List α → List α) (items : List α) :
    changeBetween (Int.ofNat start) (Int.ofNat (start + size)) change items =
      changeSection start size change items := by
  simp only [changeBetween, changeSection, resolveBound_ofNat]
  rcases Nat.le_total start items.length with inside | outside
  · have first : min start items.length = start := Nat.min_eq_left inside
    have last : max start (min (start + size) items.length) = min (start + size) items.length := by
      omega
    have taken : (items.drop start).take (min (start + size) items.length - start) =
        (items.drop start).take size := by
      rw [List.take_eq_take_iff, List.length_drop]
      omega
    rw [first, last, taken, ← List.drop_eq_drop_min]
  · have first : min start items.length = items.length := Nat.min_eq_right outside
    have last : max items.length (min (start + size) items.length) = items.length := by omega
    have far : items.length ≤ start + size := by omega
    simp only [first, last, List.take_length, List.drop_length, List.take_nil,
      List.take_of_length_le outside, List.drop_of_length_le outside, List.drop_of_length_le far]

end

/-- The first items of a list are moved to the end of a section by reversing them, the others of
the section and then all of it. -/
theorem reverse_front {middle size : Nat} (within : middle ≤ size) (items : List α) :
    changeSection 0 size .reverse (changeSection middle (size - middle) .reverse
        (changeSection 0 middle .reverse items)) =
      changeSection 0 size (fun part => part.drop middle ++ part.take middle) items := by
  obtain ⟨n, rfl⟩ := Nat.exists_eq_add_of_le within
  have second : changeSection middle n .reverse
      ((items.take middle).reverse ++ items.drop middle) =
        ((items.take middle).reverse ++ ((items.drop middle).take n).reverse) ++
          items.drop (middle + n) := by
    have turned : (items.take middle).reverse.length = (items.take middle).length :=
      List.length_reverse
    have apart := changeSection_behind 0 n List.reverse (turned ▸ List.length_take_le ..)
      fun more => turned.trans (length_take_of_drop_ne_nil more)
    rw [Nat.add_zero] at apart
    rw [apart, changeSection_front, List.drop_drop, List.append_assoc]
  have length : ((items.take middle).reverse ++ ((items.drop middle).take n).reverse).length =
      (items.take (middle + n)).length := by
    simp only [List.length_append, List.length_reverse, List.take_add]
  have short : ((items.take middle).reverse ++ ((items.drop middle).take n).reverse).length ≤
      middle + n := length ▸ List.length_take_le ..
  have full (more : items.drop (middle + n) ≠ []) := length.trans (length_take_of_drop_ne_nil more)
  have part : (items.take (middle + n)).take middle = items.take middle := by
    rw [List.take_take, Nat.min_eq_left (Nat.le_add_right ..)]
  simp only [changeSection_front, Nat.add_sub_cancel_left]
  rw [second, take_append_short short full, drop_append_short short full, List.drop_take, part,
    Nat.add_sub_cancel_left, List.reverse_append, List.reverse_reverse, List.reverse_reverse]

/-- The same of a section anywhere in a list. -/
theorem reverse_sections {middle size : Nat} (within : middle ≤ size) (start : Nat)
    (items : List α) :
    changeSection start size .reverse (changeSection (start + middle) (size - middle) .reverse
        (changeSection start middle .reverse items)) =
      changeSection start size (fun part => part.drop middle ++ part.take middle) items := by
  have reversed (n : Nat) (part : List α) (_ : part.length ≤ n) :
      part.reverse.length = part.length := List.length_reverse
  have first := length_changeSection (reversed middle) 0 (items.drop start)
  have second := length_changeSection (reversed (size - middle)) middle
    (changeSection 0 middle .reverse (items.drop start))
  rw [changeSection_at start middle, changeSection_changed first,
    changeSection_at_changed (second.trans first), reverse_front within, ← changeSection_at]

/-- Rows changed one after the other are changed all at once. -/
theorem foldl_rows {size : Nat} {change : List α → List α}
    (keeps : ∀ row, row.length ≤ size → (change row).length = row.length) (start count : Nat)
    (items : List α) :
    (List.range count).foldl (fun items i => changeSection (start + i * size) size change items)
        items =
      changeSection start (count * size) (fun part => (pieces size count part).flatMap change)
        items := by
  induction count generalizing start items with
  | zero =>
      rw [Nat.zero_mul, changeSection_nothing start rfl]
      rfl
  | succ count ih =>
      have row := keeps ((items.drop start).take size) (List.length_take_le ..)
      have first : (changeSection 0 size change (items.drop start)).length =
          (items.drop start).length := length_changeSection keeps 0 _
      have short : (change ((items.drop start).take size)).length ≤ size :=
        row ▸ List.length_take_le ..
      have full (more : (items.drop start).drop size ≠ []) :
          (change ((items.drop start).take size)).length = size :=
        row.trans (length_take_of_drop_ne_nil more)
      have others := changeSection_behind 0 (count * size)
        (fun part => (pieces size count part).flatMap change) short full
      rw [Nat.add_zero] at others
      have shift (i : Nat) : start + (i + 1) * size = start + size + i * size := by
        rw [Nat.succ_mul]
        omega
      have total : (count + 1) * size = size + count * size := by
        rw [Nat.succ_mul, Nat.add_comm]
      have front : ((items.drop start).take (size + count * size)).take size =
          (items.drop start).take size := by
        rw [List.take_take, Nat.min_eq_left (Nat.le_add_right ..)]
      rw [List.range_succ_eq_map, List.foldl_cons, List.foldl_map]
      simp only [Nat.zero_mul, Nat.add_zero, Nat.succ_eq_add_one, shift]
      rw [ih, changeSection_at start size, changeSection_changed first, changeSection_front size,
        others, changeSection_at start, changeSection_front, changeSection_front, total, pieces,
        List.flatMap_cons, front, List.drop_take, Nat.add_sub_cancel_left]
      simp only [List.drop_drop, List.append_assoc, Nat.add_assoc]

section

variable {s : Shape} {items : List α} {size count : Nat} {f g : List α → List α}

theorem changeSection_id (start size : Nat) (items : List α) :
    changeSection start size (fun part => part) items = items := by
  rw [changeSection_at, changeSection_front, List.take_append_drop, List.take_append_drop]

/-- A section is changed twice. -/
theorem changeSection_changeSection
    (keeps : ∀ part, part.length ≤ size → (f part).length = part.length) (start : Nat)
    (items : List α) :
    changeSection start size g (changeSection start size f items) =
      changeSection start size (fun part => g (f part)) items := by
  have changed := keeps ((items.drop start).take size) (List.length_take_le ..)
  have short : (f ((items.drop start).take size)).length ≤ size :=
    changed ▸ List.length_take_le ..
  have full (more : (items.drop start).drop size ≠ []) :
      (f ((items.drop start).take size)).length = size :=
    changed.trans (length_take_of_drop_ne_nil more)
  rw [changeSection_at start size f,
    changeSection_at_changed (length_changeSection keeps 0 (items.drop start)),
    changeSection_front size f, changeSection_front, take_append_short short full,
    drop_append_short short full, changeSection_at, changeSection_front]

theorem length_flatMap_pieces
    (keeps : ∀ row, row.length ≤ size → (f row).length = row.length)
    (short : items.length ≤ count * size) :
    ((pieces size count items).flatMap f).length = items.length := by
  have rows : (pieces size count items).map (fun row => (f row).length) =
      (pieces size count items).map List.length := by
    apply List.map_congr_left
    intro row mem
    exact keeps row (length_le_of_mem_pieces mem)
  rw [List.length_flatMap, rows, ← List.length_flatten, flatten_pieces short]

theorem length_rotateItems_of_le (offsets : List Int) (natural : s.Natural)
    (short : items.length ≤ s.cellCount) : (rotateItems offsets s items).length = items.length := by
  induction offsets generalizing s items with
  | nil => cases s <;> rfl
  | cons offset offsets ih =>
      cases s with
      | nil => rfl
      | cons d s =>
          obtain ⟨-, rowNatural⟩ := (Shape.natural_cons d s).mp natural
          have turned (n : Nat) : (items.drop n ++ items.take n).length = items.length := by
            rw [List.length_append, List.length_drop, List.length_take]
            omega
          simp only [rotateItems, ← Shape.cellCount_eq_volume rowNatural]
          split
          · exact turned _
          · apply (length_flatMap_pieces _ _).trans (turned _)
            · intro row few
              exact ih rowNatural few
            · rw [turned]
              exact short

/-- Rows are moved round between bounds by three reversals. -/
theorem reverse_turn {count : Nat} (positive : 0 < count) (offset : Int) (start size : Nat)
    (items : List α) :
    let stop := Int.ofNat start + Int.ofNat count * Int.ofNat size
    let middle := Int.ofNat start + offset.fmod (Int.ofNat count) * Int.ofNat size
    changeBetween (Int.ofNat start) stop .reverse (changeBetween middle stop .reverse
        (changeBetween (Int.ofNat start) middle .reverse items)) =
      changeSection start (count * size) (turn offset (Int.ofNat count) size) items := by
  intro stop middle
  have above : 0 < Int.ofNat count := Int.ofNat_lt.mpr positive
  have low := Int.emod_nonneg offset (Int.ne_of_gt above)
  have high := Int.emod_lt_of_pos offset above
  obtain ⟨m, here⟩ := Int.eq_ofNat_of_zero_le low
  have within : m * size ≤ count * size := by
    apply Nat.mul_le_mul_right
    rw [here] at high
    exact Nat.le_of_lt (Int.ofNat_lt.mp high)
  have first : middle = Int.ofNat (start + m * size) := by
    show Int.ofNat start + offset.fmod (Int.ofNat count) * Int.ofNat size = _
    rw [Int.fmod_eq_emod_of_nonneg offset (Int.le_of_lt above), here]
    rfl
  have last : stop = Int.ofNat (start + count * size) := rfl
  have behind : start + count * size = start + m * size + (count * size - m * size) := by omega
  have turned : turn offset (Int.ofNat count) size =
      fun part : List α => part.drop (m * size) ++ part.take (m * size) := by
    funext part
    rw [turn, here, Int.toNat_natCast]
  rw [first, last, changeBetween_ofNat, behind, changeBetween_ofNat, changeBetween_ofNat,
    reverse_sections within, turned]

/-- Steps from one bound of a row to the next. -/
theorem foldl_rowBounds {step : Int → List α → List α} {start : Nat} (filled : size ≠ 0)
    (keeps : ∀ row, row.length ≤ size → (f row).length = row.length)
    (rows : ∀ i items, step (Int.ofNat (start + i * size)) items =
      changeSection (start + i * size) size f items) :
    (rowBounds (Int.ofNat start) (Int.ofNat count) (Int.ofNat size)).foldl
        (fun items row => step row items) items =
      changeSection start (count * size) (fun part => (pieces size count part).flatMap f)
        items := by
  have bound (i : Nat) : Int.ofNat start + Int.ofNat i * Int.ofNat size =
      Int.ofNat (start + i * size) := rfl
  have some : Int.ofNat size ≠ 0 := fun none => filled (Int.ofNat_inj.mp none)
  rw [rowBounds, if_neg some, List.foldl_map, ← foldl_rows keeps]
  simp only [bound, rows]
  rfl

/-- Rows are moved round and then rotated one by one, unless that changes nothing. -/
theorem rotateItems_apart (offset d : Int) (offsets : List Int) (rowNatural : s.Natural) :
    rotateItems (offset :: offsets) (d :: s) = fun part : List α =>
      if offsets.isEmpty || s.isEmpty || s.cellCount == 0 then turn offset d s.cellCount part
      else (pieces s.cellCount d.toNat (turn offset d s.cellCount part)).flatMap
        (rotateItems offsets s) := by
  rw [Shape.cellCount_eq_volume rowNatural]
  rfl

/-- Between natural bounds a section is rotated as if it were taken out. -/
theorem rotateBetween_ofNat (offsets : List Int) (natural : s.Natural) (start : Nat)
    (items : List α) :
    rotateBetween offsets s (Int.ofNat start) items =
      changeSection start s.cellCount (rotateItems offsets s) items := by
  induction offsets generalizing s start items with
  | nil => cases s <;> exact (changeSection_id ..).symm
  | cons offset offsets ih =>
      cases s with
      | nil => exact (changeSection_id ..).symm
      | cons d s =>
          obtain ⟨nonneg, rowNatural⟩ := (Shape.natural_cons d s).mp natural
          obtain ⟨count, rfl⟩ := Int.eq_ofNat_of_zero_le nonneg
          have turned (positive : 0 < count) :=
            reverse_turn positive offset start (Shape.cellCount s) items
          have apart := rotateItems_apart (α := α) offset (Int.ofNat count) offsets rowNatural
          simp only [Int.ofNat_eq_natCast] at turned apart
          rw [Shape.cellCount, Int.toNat_natCast]
          rcases Nat.eq_zero_or_pos count with rfl | positive
          · have none :
                rotateItems (offset :: offsets) (((0 : Nat) : Int) :: s) ([] : List α) = [] :=
              List.length_eq_zero_iff.mp (length_rotateItems_of_le _ natural (Nat.zero_le _))
            rw [Nat.zero_mul]
            exact (changeSection_nothing start none items).symm
          rw [rotateBetween, if_neg (by omega), apart]
          simp only [Shape.size_eq_cellCount rowNatural, Int.ofNat_eq_natCast, turned positive]
          by_cases last : (offsets.isEmpty || s.isEmpty) = true
          · simp only [last, Bool.true_or, if_true]
          rcases Nat.eq_zero_or_pos (Shape.cellCount s) with empty | filled
          · simp only [empty, rowBounds, Int.natCast_zero, if_true, List.foldl_nil,
              beq_self_eq_true, Bool.or_true, ite_self]
          · have others : ¬ (offsets.isEmpty || s.isEmpty || Shape.cellCount s == 0) = true := by
              simp only [last, Bool.false_or, beq_iff_eq]
              omega
            simp only [if_neg last, if_neg others]
            apply (foldl_rowBounds (Nat.ne_of_gt filled) _ _).trans
            · apply changeSection_changeSection
              intro part _
              exact length_turn ..
            · intro row few
              exact length_rotateItems_of_le offsets rowNatural few
            · intro i items
              exact ih rowNatural (start + i * Shape.cellCount s) items

/-- A section is rotated by reversals, whatever its bounds are. -/
theorem rotateSection_eq_rotateBetween (offsets : List Int) (s : Shape) (start : Int)
    (items : List α) :
    rotateSection offsets s start items = rotateBetween offsets s start items := by
  rw [rotateSection]
  split
  · rename_i within
    obtain ⟨natural, nonneg⟩ := within
    obtain ⟨start, rfl⟩ := Int.eq_ofNat_of_zero_le nonneg
    rw [Int.toNat_natCast, ← Shape.cellCount_eq_volume natural]
    exact (rotateBetween_ofNat offsets natural start items).symm
  · rfl

/-- What is not in a section stays as it is. -/
theorem getElem?_changeSection_outside {start p : Nat}
    (keeps : ∀ part, part.length ≤ size → (f part).length = part.length)
    (outside : p < start ∨ start + size ≤ p) :
    (changeSection start size f items)[p]? = items[p]? := by
  have length := length_changeSection keeps start items
  have part := keeps ((items.drop start).take size) (List.length_take_le ..)
  rcases Nat.lt_or_ge p items.length with there | beyond
  · rw [List.length_take, List.length_drop] at part
    rw [changeSection]
    rcases outside with before | behind
    · rw [List.append_assoc, List.getElem?_append_left, List.getElem?_take_of_lt before]
      rw [List.length_take]
      omega
    · rw [List.getElem?_append_right, List.getElem?_drop]
      · simp only [List.length_append, List.length_take, part]
        congr 1
        omega
      · simp only [List.length_append, List.length_take, part]
        omega
  · rw [List.getElem?_eq_none beyond, List.getElem?_eq_none (length ▸ beyond)]

/-- A rotation changes nothing beside its section. -/
theorem rotateSection_frame (offsets : List Int) (natural : s.Natural) (start : Nat)
    (items : List α) :
    (rotateSection offsets s (Int.ofNat start) items).length = items.length ∧
      ∀ p, p < start ∨ start + s.cellCount ≤ p →
        (rotateSection offsets s (Int.ofNat start) items)[p]? = items[p]? := by
  have keeps (part : List α) (few : part.length ≤ s.cellCount) :=
    length_rotateItems_of_le offsets natural few
  rw [rotateSection_eq_rotateBetween, rotateBetween_ofNat offsets natural]
  constructor
  · exact length_changeSection keeps start items
  · intro p outside
    exact getElem?_changeSection_outside keeps outside

end

end RowMajor
