import RowMajor.Proofs.Section.Taking

/-!
# Putting sections back by coordinates

A section that fits an array can always be put back over it. Inside the part that the counts
cover, the result then holds the elements of the section, each at the place such an element
comes from, and outside it holds those of the array. As for taking, this is one induction on
the counts over an equation that goes by rows (`replaceSection_cons`); the last count, which
joins the section to the rows it does not cover, is no exception.
-/

namespace RowMajor

variable {α : Type}

namespace Shape

theorem exists_sectionStart {n d : Int} (fits : Int.ofNat n.natAbs ≤ d) :
    ∃ start : Nat, sectionStart n d = Int.ofNat start ∧ start + n.natAbs ≤ d.toNat := by
  refine ⟨(sectionStart n d).toNat, ?_⟩
  simp only [sectionStart, Int.ofNat_eq_natCast] at fits ⊢
  split <;> omega

/-- The element lies in the section that the counts take. -/
def Covers : List Int → Shape → List Nat → Prop
  | n :: counts, d :: s, i :: index =>
    (sectionStart n d ≤ Int.ofNat i ∧ Int.ofNat i < sectionStart n d + Int.ofNat n.natAbs) ∧
      Covers counts s index
  | _, _, _ => True

theorem covers_nil (s : Shape) (index : List Nat) : Covers [] s index := by
  cases s <;> trivial

/-- What a section covers is what its elements come from. -/
theorem Covers.exists_source {counts : List Int} {s : Shape} {index : List Nat}
    (covered : Covers counts s index) (fits : HasSection counts s)
    (mem : index ∈ coordinates s) :
    ∃ inner ∈ coordinates (taken counts s),
      sectionSource counts s inner = index.map Int.ofNat := by
  induction counts generalizing s index with
  | nil =>
      refine ⟨index, ?_, ?_⟩
      · cases s <;> exact mem
      · cases s <;> rfl
  | cons n counts ih =>
      cases s with
      | nil => exact ⟨index, mem, rfl⟩
      | cons d s =>
          obtain ⟨i, rest, rfl, there, below⟩ := mem_coordinates_cons.mp mem
          obtain ⟨⟨first, last⟩, covered⟩ := covered
          obtain ⟨fits, inside⟩ := fits
          simp only [Int.ofNat_eq_natCast] at first last fits
          have within : HasSection counts s := by
            refine inside.resolve_left ?_
            rintro rfl
            simp only [Int.natAbs_zero] at last
            omega
          obtain ⟨inner, mem, source⟩ := ih covered within below
          refine ⟨(Int.ofNat i - sectionStart n d).toNat :: inner, ?_, ?_⟩
          · refine cons_mem_coordinates.mpr ⟨?_, mem⟩
            simp only [Int.ofNat_eq_natCast]
            omega
          · rw [sectionSource, source, List.map_cons]
            congr 1
            simp only [Int.ofNat_eq_natCast]
            omega

end Shape

namespace Grid

variable {part into : Grid α} {n d : Int} {counts : List Int} {s : Shape} {cut : Section}

theorem dropLeading_eq_stacked (h : into.WellFormed) (shape : into.shape = d :: s) (n : Int) :
    into.dropLeading n = stacked s (into.dropRows n) := by
  have nonneg := h.rowCount_nonneg
  have total := h.length_eq_rows
  have kept : max (into.rowCount - Int.ofNat n.natAbs) 0 =
      Int.ofNat (into.rowCount.toNat - n.natAbs) := by
    simp only [Int.ofNat_eq_natCast]
    omega
  have skipped : ((into.rowCount - Int.ofNat (into.rowCount.toNat - n.natAbs)) *
      Shape.size into.rowShape).toNat =
        (into.rowCount.toNat - (into.rowCount.toNat - n.natAbs)) * into.rowSize := by
    have fewer : 0 ≤ into.rowCount - Int.ofNat (into.rowCount.toNat - n.natAbs) := by
      simp only [Int.ofNat_eq_natCast]
      omega
    rw [Int.toNat_mul fewer (Shape.size_nonneg h.natural_rowShape)]
    congr 1
    simp only [Int.ofNat_eq_natCast]
    omega
  have items : (into.dropRows n).flatMap (·.items) =
      if 0 ≤ n then into.items.drop ((into.rowCount.toNat -
        (into.rowCount.toNat - n.natAbs)) * into.rowSize)
      else into.items.take ((into.rowCount.toNat - n.natAbs) * into.rowSize) := by
    simp only [dropRows]
    split
    · rw [flatMap_rowsFrom]
      refine List.take_of_length_le ?_
      rw [List.length_drop, total, ← Nat.sub_mul]
      exact Nat.mul_le_mul_right _ (by omega)
    · rw [flatMap_rowsFrom, Nat.zero_mul, List.drop_zero]
  have rowShape := rowShape_of_shape shape
  simp only [dropLeading, kept]
  rw [stacked, items, length_dropRows, skipped, rowShape]
  rfl

/-- Dropping leaves the rows that a section does not cover. -/
theorem dropRows_eq (shape : into.shape = d :: s) (enough : n.natAbs ≤ d.toNat) :
    into.dropRows n =
      into.rows.take (Shape.sectionStart n d).toNat ++
        into.rows.drop ((Shape.sectionStart n d).toNat + n.natAbs) := by
  have count := rowCount_of_shape shape
  have length : into.rows.length = d.toNat := by rw [length_rows, count]
  have kept : d.toNat - (d.toNat - n.natAbs) = n.natAbs := by omega
  simp only [dropRows, count, kept, Shape.sectionStart]
  split
  · rw [← take_drop_rows shape (by omega)]
    simp only [Int.toNat_zero, List.take_zero, List.nil_append, Nat.zero_add]
    refine List.take_of_length_le (Nat.le_of_eq ?_)
    rw [List.length_drop, length]
  · have start : (d - Int.ofNat n.natAbs).toNat = d.toNat - n.natAbs := by
      simp only [Int.ofNat_eq_natCast]
      omega
    rw [start, Nat.sub_add_cancel enough, ← length, List.drop_length, List.append_nil, length,
      ← take_drop_rows shape (by omega), List.drop_zero]

theorem rows_dropLeading (h : into.WellFormed) (shape : into.shape = d :: s) (n : Int) :
    (into.dropLeading n).rows = into.dropRows n := by
  rw [dropLeading_eq_stacked h shape]
  refine rows_stacked fun row mem => ?_
  obtain ⟨holds, rowShape⟩ := h.holds_trivial.dropRows mem
  rw [rowShape_of_shape shape] at rowShape
  exact ⟨holds.wellFormed, rowShape⟩

/-- Joining a section to the rows that it does not cover puts it in their midst. -/
theorem replaceSection_last (hp : part.WellFormed) (h : into.WellFormed)
    (shape : into.shape = d :: s) (enough : n.natAbs ≤ d.toNat)
    (partShape : part.shape = Int.ofNat n.natAbs :: s) :
    replaceSection cut [n] part into =
      .ok (stacked s (splice (Shape.sectionStart n d).toNat part.rows into.rows)) := by
  have count := rowCount_of_shape shape
  have length : into.rows.length = d.toNat := by rw [length_rows, count]
  have partRows : part.rows.length = n.natAbs := length_rows_of_shape partShape
  have rest := (dropLeading_holds h.holds_trivial n).wellFormed
  have restShape : (into.dropLeading n).shape = max (d - Int.ofNat n.natAbs) 0 :: s := by
    simp only [dropLeading, count, Grid.rowShape, shape, List.tail_cons]
  have restRows := (rows_dropLeading h shape n).trans (dropRows_eq shape enough)
  rw [splice_eq, partRows]
  simp only [replaceSection]
  split
  · rename_i front
    rw [join_eq_stacked hp rest partShape restShape, restRows, Shape.sectionStart, if_pos front]
    simp only [Int.toNat_zero, List.take_zero, List.nil_append]
  · rename_i back
    have last : into.rows.length ≤ (Shape.sectionStart n d).toNat + n.natAbs := by
      rw [length, Shape.sectionStart, if_neg back]
      simp only [Int.ofNat_eq_natCast]
      omega
    rw [join_eq_stacked rest hp restShape partShape, restRows, List.drop_of_length_le last,
      List.append_nil, List.append_nil]

/-- The rows of a section, each with the row that it goes back into. -/
theorem zip_covered {start : Nat} (shape : into.shape = d :: s)
    (partShape : part.shape = Int.ofNat n.natAbs :: Shape.taken counts s)
    (room : start + n.natAbs ≤ d.toNat) :
    part.rows.zip ((into.rows.drop start).take n.natAbs) =
      (List.range n.natAbs).map fun i => (part.cellAt [i], into.cellAt [start + i]) := by
  rw [take_drop_rows shape room, rowsFrom_eq_map shape, rows_eq_map partShape]
  exact List.zip_map'

/-- A row of a section and the row that it goes back into fit together as the section and the
array do. -/
theorem covered_pair {start : Nat} {pair : Grid α × Grid α} (hp : part.WellFormed)
    (h : into.WellFormed) (shape : into.shape = d :: s) (room : start + n.natAbs ≤ d.toNat)
    (partShape : part.shape = Int.ofNat n.natAbs :: Shape.taken counts s)
    (mem : pair ∈ (List.range n.natAbs).map fun i =>
      (part.cellAt [i], into.cellAt [start + i])) :
    n ≠ 0 ∧ pair.1.WellFormed ∧ pair.2.WellFormed ∧
      pair.1.shape = Shape.taken counts s ∧ pair.2.shape = s := by
  obtain ⟨i, there, rfl⟩ := List.mem_map.mp mem
  have there : i < n.natAbs := List.mem_range.mp there
  have below : start + i < d.toNat := Nat.lt_of_lt_of_le (Nat.add_lt_add_left there _) room
  refine ⟨?_, hp.cellAt_row partShape there, h.cellAt_row shape below, shape_row partShape i,
    shape_row shape _⟩
  rintro rfl
  exact Nat.not_lt_zero i there

/-- A section that has no more rows than the array is put back row by row. -/
theorem replaceSection_cons {start : Nat} (hp : part.WellFormed) (h : into.WellFormed)
    (shape : into.shape = d :: s) (begins : Shape.sectionStart n d = Int.ofNat start)
    (room : start + n.natAbs ≤ d.toNat)
    (partShape : part.shape = Int.ofNat n.natAbs :: Shape.taken counts s) :
    replaceSection cut (n :: counts) part into = (do
      let renewed ← ((List.range n.natAbs).map fun i =>
        (part.cellAt [i], into.cellAt [start + i])).mapM fun (new, old) =>
          replaceSection cut counts new old
      ofRows s (into.rows.take start ++ renewed ++ into.rows.drop (start + n.natAbs))) := by
  have length := length_rows_of_shape shape
  have rowShape := rowShape_of_shape shape
  rw [← zip_covered shape partShape room]
  cases counts with
  | cons m counts =>
      have first : (if 0 ≤ n then 0 else into.rows.length - n.natAbs) = start := by
        simp only [Shape.sectionStart, Int.ofNat_eq_natCast] at begins
        split at begins <;> split <;> omega
      simp only [replaceSection, first, rowShape]
      rw [if_neg (by omega)]
  | nil =>
      rw [Shape.taken_nil] at partShape
      have partRows : part.rows.length = n.natAbs := length_rows_of_shape partShape
      have covered : part.rows.length ≤ ((into.rows.drop start).take n.natAbs).length := by
        rw [List.length_take, List.length_drop]
        omega
      have stays (pair : Grid α × Grid α) : replaceSection cut [] pair.1 pair.2 = pure pair.1 := by
        rw [replaceSection]
        rfl
      have same : ∀ row ∈ splice start part.rows into.rows, row.shape = s := by
        intro row mem
        rcases mem_of_mem_splice mem with new | old
        · rw [shape_of_mem_rows new, rowShape_of_shape partShape]
        · rw [shape_of_mem_rows old, rowShape]
      rw [Outcome.mapM_congr fun pair _ => stays pair, List.mapM_pure, List.map_fst_zip covered,
        replaceSection_last hp h shape (by omega) partShape, begins, ← partRows]
      exact (ofRows_eq_stacked same).symm

/-- What is left after a section was put back over an array: where the counts cover it, the
elements are those of the section, and elsewhere those of the array. -/
structure IsReplaced (counts : List Int) (part into r : Grid α) : Prop where
  wellFormed : r.WellFormed
  shape : r.shape = into.shape
  inside : ∀ index ∈ Shape.coordinates part.shape,
    r.at? (Shape.sectionSource counts into.shape index) = part.get? index
  outside : ∀ index ∈ Shape.coordinates into.shape,
    ¬ Shape.Covers counts into.shape index → r.get? index = into.get? index

theorem isReplaced_nil (h : part.WellFormed)
    (shape : part.shape = Shape.taken [] into.shape) : IsReplaced [] part into part := by
  refine ⟨h, shape.trans (Shape.taken_nil _), fun index _ => ?_, fun index _ apart => ?_⟩
  · rw [Shape.sectionSource_nil, at?_ofNat]
  · exact absurd (Shape.covers_nil _ index) apart

section Rows

variable {start : Nat} {renewed : List (Grid α)}

theorem alike_replaced (h : into.WellFormed) (shape : into.shape = d :: s)
    (rows : List.Forall₂ (fun pair row => IsReplaced counts pair.1 pair.2 row)
      ((List.range n.natAbs).map fun i => (part.cellAt [i], into.cellAt [start + i])) renewed) :
    ∀ row ∈ splice start renewed into.rows, row.WellFormed ∧ row.shape = s := by
  intro row mem
  rcases mem_of_mem_splice mem with new | old
  · obtain ⟨pair, there, replaced⟩ := exists_of_forall₂_right rows new
    obtain ⟨i, -, rfl⟩ := List.mem_map.mp there
    exact ⟨replaced.wellFormed, replaced.shape.trans (shape_row shape _)⟩
  · refine ⟨h.rows old, ?_⟩
    rw [shape_of_mem_rows old, rowShape_of_shape shape]

/-- The rows that the count covers are those in which the section was put back. -/
theorem cellAt_renewed {i : Nat} (h : into.WellFormed) (shape : into.shape = d :: s)
    (enough : start + renewed.length ≤ into.rows.length)
    (rows : List.Forall₂ (fun pair row => IsReplaced counts pair.1 pair.2 row)
      ((List.range n.natAbs).map fun i => (part.cellAt [i], into.cellAt [start + i])) renewed)
    (there : i < n.natAbs) :
    IsReplaced counts (part.cellAt [i]) (into.cellAt [start + i])
      ((stacked s (splice start renewed into.rows)).cellAt [start + i]) := by
  obtain ⟨row, found, replaced⟩ := getElem?_of_forall₂_range rows there
  have inside := (List.getElem?_eq_some_iff.mp found).1
  rwa [cellAt_stacked (alike_replaced h shape rows)
    ((getElem?_splice_inside enough inside).trans found)]

/-- The other rows are those of the array. -/
theorem cellAt_kept {j : Nat} (h : into.WellFormed) (shape : into.shape = d :: s)
    (enough : start + renewed.length ≤ into.rows.length)
    (rows : List.Forall₂ (fun pair row => IsReplaced counts pair.1 pair.2 row)
      ((List.range n.natAbs).map fun i => (part.cellAt [i], into.cellAt [start + i])) renewed)
    (there : j < d.toNat) (beside : j < start ∨ start + renewed.length ≤ j) :
    (stacked s (splice start renewed into.rows)).cellAt [j] = into.cellAt [j] := by
  have old : into.rows[j]? = some (into.cellAt [j]) := by
    rw [rows_eq_map shape, List.getElem?_map, List.getElem?_range there]
    rfl
  exact cellAt_stacked (alike_replaced h shape rows)
    ((getElem?_splice_outside enough beside).trans old)

/-- Rows put back over those that a count covers make up the array after the section was put
back. -/
theorem isReplaced_stacked (hp : part.WellFormed) (h : into.WellFormed)
    (shape : into.shape = d :: s) (begins : Shape.sectionStart n d = Int.ofNat start)
    (room : start + n.natAbs ≤ d.toNat)
    (partShape : part.shape = Int.ofNat n.natAbs :: Shape.taken counts s)
    (rows : List.Forall₂ (fun pair row => IsReplaced counts pair.1 pair.2 row)
      ((List.range n.natAbs).map fun i => (part.cellAt [i], into.cellAt [start + i])) renewed) :
    IsReplaced (n :: counts) part into (stacked s (splice start renewed into.rows)) := by
  have length := length_rows_of_shape shape
  have count : renewed.length = n.natAbs := by
    rw [← rows.length_eq, List.length_map, List.length_range]
  have enough : start + renewed.length ≤ into.rows.length := by rw [count, length]; exact room
  have total : (splice start renewed into.rows).length = d.toNat :=
    (length_splice enough).trans length
  obtain ⟨nonneg, natural⟩ := h.natural_of_shape shape
  have whole := WellFormed.stacked natural (alike_replaced h shape rows)
  have inWhole {j : Nat} (there : j < d.toNat) :
      j < (Int.ofNat (splice start renewed into.rows).length).toNat :=
    Nat.lt_of_lt_of_eq there total.symm
  constructor
  · exact whole
  · rw [stacked, total, shape]
    exact congrArg (· :: s) (Int.toNat_of_nonneg nonneg)
  · intro index mem
    rw [partShape] at mem
    obtain ⟨i, rest, rfl, there, below⟩ := Shape.mem_coordinates_cons.mp mem
    have inPart : i < n.natAbs := there
    have source := (cellAt_renewed h shape enough rows inPart).inside rest
      ((shape_row partShape i).symm ▸ below)
    rw [shape_row shape, get?_row hp.natural partShape there] at source
    rw [shape, Shape.sectionSource, begins, ← source]
    exact (at?_row whole.natural rfl (inWhole
      (Nat.lt_of_lt_of_le (Nat.add_lt_add_left inPart _) room))).symm
  · intro index mem apart
    rw [shape] at mem apart
    obtain ⟨j, rest, rfl, there, below⟩ := Shape.mem_coordinates_cons.mp mem
    rw [Shape.Covers, begins] at apart
    rw [← get?_row h.natural shape there, ← get?_row whole.natural rfl (inWhole there)]
    -- Not to be covered means to lie in another row, or beside the part of a row that is covered.
    by_cases covered : start ≤ j ∧ j < start + n.natAbs
    · obtain ⟨i, rfl⟩ := Nat.exists_eq_add_of_le covered.1
      have beside : ¬ Shape.Covers counts s rest := by
        refine fun inside => apart ⟨?_, inside⟩
        simp only [Int.ofNat_eq_natCast]
        omega
      have inRow : i < n.natAbs := Nat.lt_of_add_lt_add_left covered.2
      rw [← shape_row shape (start + i)] at below beside
      exact (cellAt_renewed h shape enough rows inRow).outside rest below beside
    · rw [cellAt_kept h shape enough rows there (by omega)]

end Rows

/-- A section that reaches past no axis is put back. -/
theorem replaceSection_isReplaced (cut : Section) (hp : part.WellFormed) (h : into.WellFormed)
    (rank : counts.length ≤ into.rank) (fits : Shape.HasSection counts into.shape)
    (partShape : part.shape = Shape.taken counts into.shape) :
    Outcome (IsReplaced counts part into) (fun _ => False)
      (replaceSection cut counts part into) := by
  induction counts generalizing part into with
  | nil =>
      rw [replaceSection]
      exact isReplaced_nil hp partShape
  | cons n counts ih =>
      have shape := shape_eq_cons rank
      rw [shape] at fits partShape
      obtain ⟨fits, inside⟩ := fits
      obtain ⟨start, begins, room⟩ := Shape.exists_sectionStart fits
      have each : ∀ pair ∈ (List.range n.natAbs).map fun i =>
          (part.cellAt [i], into.cellAt [start + i]),
          Outcome (IsReplaced counts pair.1 pair.2) (fun _ => False)
            (replaceSection cut counts pair.1 pair.2) := by
        intro pair mem
        obtain ⟨nonzero, new, old, newShape, oldShape⟩ :=
          covered_pair hp h shape room partShape mem
        refine ih new old ?_ ?_ (newShape.trans (congrArg _ oldShape.symm))
        · rw [Grid.rank, oldShape]
          exact rank_rowShape rank
        · rw [oldShape]
          exact inside.resolve_left nonzero
      rw [replaceSection_cons hp h shape begins room partShape]
      apply (Outcome.mapM_forall₂ each).bind
      intro renewed rows
      have count : renewed.length = n.natAbs := by
        rw [← rows.length_eq, List.length_map, List.length_range]
      have same := fun row mem => (alike_replaced h shape rows row mem).2
      show Outcome _ _ (ofRows into.rowShape (into.rows.take start ++ renewed ++
        into.rows.drop (start + n.natAbs)))
      rw [← count, ← splice_eq, ofRows_eq_stacked same]
      exact isReplaced_stacked hp h shape begins room partShape rows

end Grid

end RowMajor
