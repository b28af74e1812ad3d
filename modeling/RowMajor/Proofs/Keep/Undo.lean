import RowMajor.Proofs.Keep.Merging
import RowMajor.Proofs.Operations.Keep
import RowMajor.Proofs.Value.Cells

/-!
# Undoing a keep

Rows are put back if they are as many as were counted and have the shape of the others. Only the
counts that are given are looked at before the fill value completes them, so a fill value larger
than one gets through although the rows it counts were kept more than once.
-/

namespace RowMajor

variable {α : Type} {fill : Fill} {counts full : List Nat}

/-- The first shape has just so many rows, and these are of the same shape as those of the second.
A shape without axes has no rows. -/
def Shape.FitsBack (rows : Nat) (kept into : Shape) : Prop :=
  kept.headD 0 = Int.ofNat rows ∧ (0 < rows → kept.tail = into.tail)

namespace Grid

variable {a kept into r row : Grid α} {rows : List (Grid α)} {n : Nat}

/-- The rows that there are to be put back. -/
def givenRows (kept : Grid α) : List (Grid α) :=
  if kept.rank = 0 then [] else kept.rows

theorem givenRows_of_axes (axes : kept.rank ≠ 0) : kept.givenRows = kept.rows :=
  if_neg axes

theorem mem_rows_of_mem_givenRows (mem : row ∈ kept.givenRows) : row ∈ kept.rows := by
  rw [givenRows] at mem
  split at mem
  · cases mem
  · exact mem

theorem shape_of_axes (axes : a.rank ≠ 0) : a.shape = a.rowCount :: a.rowShape := by
  have rank : [(0 : Int)].length ≤ a.rank := Nat.pos_of_ne_zero axes
  exact shape_eq_cons rank

theorem length_givenRows (kept : Grid α) :
    kept.givenRows.length = (kept.shape.headD 0).toNat := by
  by_cases axes : kept.rank = 0
  · rw [givenRows, if_pos axes, List.eq_nil_of_length_eq_zero axes]
    rfl
  · rw [givenRows_of_axes axes, length_rows, shape_of_axes axes]
    rfl

theorem fitsBack_iff (hk : kept.WellFormed) : Shape.FitsBack n kept.shape into.shape ↔
    kept.givenRows.length = n ∧ ∀ new ∈ kept.givenRows, new.shape = into.rowShape := by
  have count : kept.shape.headD 0 = Int.ofNat n ↔ kept.givenRows.length = n := by
    have nonneg : 0 ≤ kept.shape.headD 0 := by
      cases shape : kept.shape with
      | nil => exact Int.le_refl 0
      | cons d s => exact (hk.natural_of_shape shape).1
    rw [length_givenRows]
    simp only [Int.ofNat_eq_natCast]
    omega
  rw [Shape.FitsBack, count]
  refine and_congr_right fun length => ?_
  rw [← length]
  constructor
  · intro same new mem
    rw [shape_of_mem_rows (mem_rows_of_mem_givenRows mem)]
    exact same (List.length_pos_of_mem mem)
  · intro same pos
    obtain ⟨new, mem⟩ := List.exists_mem_of_length_pos pos
    exact (shape_of_mem_rows (mem_rows_of_mem_givenRows mem)).symm.trans (same new mem)

/-- One row more than there are counts is enough to tell that there are too many. -/
theorem keptRows_eq_take (counts : List Nat) (kept : Grid α) :
    kept.keptRows counts = kept.givenRows.take (counts.length + 1) := by
  by_cases axes : kept.rank = 0
  · rw [keptRows, givenRows, if_pos axes, if_pos axes, List.take_nil]
  · have room : 0 + min kept.rowCount.toNat (counts.length + 1) ≤ kept.rowCount.toNat := by omega
    rw [keptRows, if_neg axes, givenRows_of_axes axes, ← take_drop_rows (shape_of_axes axes) room,
      List.drop_zero, ← length_rows, Nat.min_comm, ← List.take_eq_take_min]

/-- If the rows are no more than there are counts, all of them are looked at. -/
theorem keptRows_of_length_le (few : kept.givenRows.length ≤ counts.length) :
    kept.keptRows counts = kept.givenRows := by
  rw [keptRows_eq_take]
  exact List.take_of_length_le (Nat.le_succ_of_le few)

theorem length_givenRows_le (few : (kept.keptRows counts).length ≤ counts.length) :
    kept.givenRows.length ≤ counts.length := by
  rw [keptRows_eq_take, List.length_take] at few
  omega

theorem givenRows_stacked {s : Shape} (all : ∀ row ∈ rows, row.WellFormed ∧ row.shape = s) :
    (stacked s rows).givenRows = rows := by
  have axes : (stacked s rows).rank ≠ 0 := Nat.succ_ne_zero s.length
  rw [givenRows_of_axes axes, rows_stacked all]

/-- The rows of one grid have been put back into another where they are counted. -/
structure IsMerged (counts : List Nat) (kept into r : Grid α) : Prop where
  wellFormed : r.WellFormed
  shape : r.shape = into.shape
  merged : Merged counts into.rows kept.givenRows r.rows

/-- Merged rows can be stacked. -/
theorem exists_isMerged (hk : kept.WellFormed) (h : into.WellFormed) (axes : into.rank ≠ 0)
    (same : ∀ new ∈ kept.givenRows, new.shape = into.rowShape)
    (merged : Merged counts into.rows kept.givenRows rows) :
    ∃ r, ofRows into.rowShape rows = .ok r ∧ IsMerged counts kept into r := by
  have all : ∀ row ∈ rows, row.WellFormed ∧ row.shape = into.rowShape := by
    intro row mem
    rcases merged.mem mem with own | new
    · exact ⟨h.rows own, shape_of_mem_rows own⟩
    · exact ⟨hk.rows (mem_rows_of_mem_givenRows new), same row new⟩
  refine ⟨_, ofRows_eq_stacked fun row mem => (all row mem).2,
    .stacked h.natural_rowShape all, ?_, (rows_stacked all).symm ▸ merged⟩
  have count : Int.ofNat rows.length = into.rowCount := by
    rw [merged.length_merged, length_rows]
    exact Int.toNat_of_nonneg h.rowCount_nonneg
  rw [stacked, count, shape_of_axes axes]

/-- What has to be right for rows to be put back: of the counts, only those that are given. -/
structure CanUnkeep (counts full : List Nat) (kept into : Grid α) : Prop where
  axes : into.rank ≠ 0
  boolean : ∀ n ∈ counts, n ≤ 1
  fits : Shape.FitsBack (counted full) kept.shape into.shape

theorem CanUnkeep.rowShape_eq (can : CanUnkeep counts full kept into) (axes : kept.rank ≠ 0)
    (some : 0 < kept.rowCount) : kept.rowShape = into.rowShape := by
  obtain ⟨length, same⟩ := can.fits
  rw [shape_of_axes axes] at length
  have count : kept.rowCount = Int.ofNat (counted full) := length
  refine same ?_
  simp only [Int.ofNat_eq_natCast] at count
  omega

/-- The rows are merged if they are as many as were counted and have the shape of the others. -/
theorem mergeKept_keptRows (hk : kept.WellFormed) (length : full.length = into.rows.length) :
    Outcome
      (fun rows => Shape.FitsBack (counted full) kept.shape into.shape ∧
        Merged full into.rows kept.givenRows rows)
      (fun e => e.IsInverse ∧ ¬ Shape.FitsBack (counted full) kept.shape into.shape)
      (mergeKept full into.rows (kept.keptRows full)) := by
  rw [fitsBack_iff hk]
  refine (mergeKept_spec length fun _ => shape_of_mem_rows).mono ?_ ?_
  · rintro rows ⟨same, merged⟩
    have few := length_givenRows_le (merged.length_kept ▸ counted_le_length full)
    rw [keptRows_of_length_le few] at same merged
    exact ⟨⟨merged.length_kept, same⟩, merged⟩
  · rintro e ⟨inverse, other⟩
    refine ⟨inverse, fun fits => other ?_⟩
    rw [keptRows_of_length_le (fits.1 ▸ counted_le_length full)]
    exact fits

theorem any_one_lt_iff : counts.any (1 < ·) = true ↔ ¬ ∀ n ∈ counts, n ≤ 1 := by
  simp only [List.any_eq_true, decide_eq_true_eq, not_forall, Nat.not_le, exists_prop]

theorem unkeep_of_nonboolean (many : ¬ ∀ n ∈ counts, n ≤ 1) :
    kept.unkeep fill counts into = .error (.inverse .nonBooleanCounts) :=
  if_pos (any_one_lt_iff.mpr many)

theorem unkeep_into_scalar (boolean : ∀ n ∈ counts, n ≤ 1) (scalar : into.rank = 0) :
    kept.unkeep fill counts into = .error (.inverse .keepIntoScalar) := by
  rw [unkeep, if_neg (any_one_lt_iff.not.mpr (not_not_intro boolean)), if_pos scalar]

theorem unkeep_of_completes (boolean : ∀ n ∈ counts, n ≤ 1) (axes : into.rank ≠ 0)
    (completed : fill.Completes into.rowCount counts full) : kept.unkeep fill counts into =
      mergeKept full into.rows (kept.keptRows full) >>= ofRows into.rowShape := by
  rw [unkeep, if_neg (any_one_lt_iff.not.mpr (not_not_intro boolean)), if_neg axes,
    fillCounts_eq_ok_iff.mpr completed]
  rfl

/-- If there are counts for all rows, nothing else can go wrong. -/
theorem unkeep_spec (hk : kept.WellFormed) (h : into.WellFormed)
    (completed : fill.Completes into.rowCount counts full) :
    Outcome (fun r => CanUnkeep counts full kept into ∧ IsMerged full kept into r)
      (fun e => e.IsInverse ∧ ¬ CanUnkeep counts full kept into)
      (kept.unkeep fill counts into) := by
  by_cases boolean : ∀ n ∈ counts, n ≤ 1
  · by_cases axes : into.rank = 0
    · rw [unkeep_into_scalar boolean axes]
      exact ⟨trivial, fun can => can.axes axes⟩
    · have length : full.length = into.rows.length :=
        completed.length_eq.trans (length_rows into).symm
      rw [unkeep_of_completes boolean axes completed]
      refine Outcome.bind ((mergeKept_keptRows hk length).mono (fun _ => id) ?_) ?_
      · rintro e ⟨inverse, other⟩
        exact ⟨inverse, fun can => other can.fits⟩
      · rintro rows ⟨fits, merged⟩
        have same := ((fitsBack_iff hk).mp fits).2
        obtain ⟨r, put, isMerged⟩ := exists_isMerged hk h axes same merged
        rw [put]
        exact ⟨⟨axes, boolean, fits⟩, isMerged⟩
  · rw [unkeep_of_nonboolean boolean]
    exact ⟨trivial, fun can => boolean can.boolean⟩

theorem exists_completes_of_unkeep (accepted : kept.unkeep fill counts into = .ok r) :
    ∃ full, fill.Completes into.rowCount counts full := by
  rw [unkeep] at accepted
  split at accepted
  · cases accepted
  · split at accepted
    · cases accepted
    · cases completed : fillCounts fill into.shape into.rowCount counts with
      | error e =>
          rw [completed] at accepted
          cases accepted
      | ok full => exact ⟨full, fillCounts_eq_ok_iff.mp completed⟩

/-- The rows that were put back stand where they are counted. -/
theorem IsMerged.getElem?_counted {i : Nat} (put : IsMerged full kept into r)
    (boolean : ∀ n ∈ full, n ≤ 1) (here : full[i]? = some 1) :
    r.rows[i]? = kept.rows[(full.take i).count 1]? := by
  have before : ∀ n ∈ full.take i, n ≤ 1 := fun n mem => boolean n (List.mem_of_mem_take mem)
  have some : 0 < kept.givenRows.length := by
    rw [put.merged.length_kept, counted_eq_count_one boolean]
    exact List.count_pos_iff.mpr (List.mem_of_getElem? here)
  have axes : kept.rank ≠ 0 := by
    intro scalar
    rw [givenRows, if_pos scalar] at some
    exact absurd some (Nat.lt_irrefl 0)
  rw [put.merged.getElem?_kept here Nat.one_pos, counted_eq_count_one before,
    givenRows_of_axes axes]

theorem keep_eq (completed : fill.Completes a.rowCount counts full) :
    a.keep fill counts = .ok (stacked a.rowShape (copies full a.rows)) := by
  have length : full.length = a.rows.length := completed.length_eq.trans (length_rows a).symm
  rw [keep, fillCounts_eq_ok_iff.mpr completed, ← keepRows_eq_stacked length]
  rfl

theorem eq_of_rows (h : a.WellFormed) (hr : r.WellFormed) (axes : a.rank ≠ 0)
    (shape : r.shape = a.shape) (rows : r.rows = a.rows) : r = a := by
  have cons := shape_of_axes axes
  rw [← stacked_rows h cons, ← stacked_rows hr (shape.trans cons), rows]

/-- The rows that were kept fit back. -/
theorem fitsBack_copies (h : a.WellFormed) (length : full.length = a.rows.length)
    (boolean : ∀ n ∈ full, n ≤ 1) :
    (stacked a.rowShape (copies full a.rows)).WellFormed ∧
      (stacked a.rowShape (copies full a.rows)).givenRows = copies full a.rows ∧
      Shape.FitsBack (counted full) (stacked a.rowShape (copies full a.rows)).shape a.shape := by
  have all : ∀ row ∈ copies full a.rows, row.WellFormed ∧ row.shape = a.rowShape := by
    intro row mem
    have mem := mem_of_mem_copies mem
    exact ⟨h.rows mem, shape_of_mem_rows mem⟩
  have hk := WellFormed.stacked h.natural_rowShape all
  refine ⟨hk, givenRows_stacked all, ?_⟩
  rw [fitsBack_iff hk, givenRows_stacked all]
  exact ⟨(merged_copies length boolean).length_kept, fun row mem => (all row mem).2⟩

/-- What was kept goes back to where it came from. -/
theorem unkeep_keep (h : a.WellFormed) (axes : a.rank ≠ 0)
    (completed : fill.Completes a.rowCount counts full) (boolean : ∀ n ∈ full, n ≤ 1) :
    (stacked a.rowShape (copies full a.rows)).unkeep fill counts a = .ok a := by
  have length : full.length = a.rows.length := completed.length_eq.trans (length_rows a).symm
  obtain ⟨hk, given, fits⟩ := fitsBack_copies h length boolean
  have can : CanUnkeep counts full (stacked a.rowShape (copies full a.rows)) a :=
    ⟨axes, fun n mem => boolean n (completed.mem mem), fits⟩
  obtain ⟨r, undone, -, put⟩ | ⟨e, -, -, other⟩ := (unkeep_spec hk h completed).ok_or_error
  · have merged := put.merged
    rw [given] at merged
    rw [undone, eq_of_rows h put.wellFormed axes put.shape
      (merged.unique (merged_copies length boolean))]
  · exact absurd can other

/-- What was put back is kept again. -/
theorem IsMerged.keep_eq (put : IsMerged full kept into r) (hk : kept.WellFormed)
    (axes : kept.rank ≠ 0) (completed : fill.Completes into.rowCount counts full)
    (boolean : ∀ n ∈ full, n ≤ 1) (rowShape : kept.rowShape = into.rowShape) :
    r.keep fill counts = .ok kept := by
  have count : r.rowCount = into.rowCount := by rw [rowCount, put.shape, rowCount]
  have rows : r.rowShape = kept.rowShape := by rw [rowShape, Grid.rowShape, put.shape]; rfl
  rw [Grid.keep_eq (count ▸ completed), put.merged.copies_eq boolean, givenRows_of_axes axes, rows,
    stacked_rows hk (shape_of_axes axes)]

/-- What could be put back is kept again if all counts turn out to be zero or one. -/
theorem keep_of_unkeep (hk : kept.WellFormed) (h : into.WellFormed) (axes : kept.rank ≠ 0)
    (boolean : ∀ full, fill.Completes into.rowCount counts full → CanUnkeep counts full kept into →
      ∀ n ∈ full, n ≤ 1)
    (accepted : kept.unkeep fill counts into = .ok r) (some : 0 < kept.rowCount) :
    r.keep fill counts = .ok kept := by
  obtain ⟨full, completed⟩ := exists_completes_of_unkeep accepted
  have spec := unkeep_spec hk h completed
  rw [accepted] at spec
  obtain ⟨can, put⟩ := spec
  exact put.keep_eq hk axes completed (boolean full completed can) (can.rowShape_eq axes some)

end Grid

/-- The operand is a vector of natural numbers. -/
def Operand.ListsCounts (counts : Operand) (ns : List Nat) : Prop :=
  ∃ amount, counts.toValue = .ok amount ∧ amount.rank ≠ 0 ∧ amount.naturalList .counts = .ok ns

section Operations

variable {counts : Operand} {ns : List Nat} {f : Form}

theorem keep_ofGrid (listed : counts.ListsCounts ns) (a : Grid f.Element) :
    keep counts (.value (.ofGrid f a)) fill = (do .ok (.ofGrid f (← a.keep fill ns))) := by
  obtain ⟨amount, read, axes, list⟩ := listed
  have onGrid : (Value.ofGrid f a).keep fill ns = (do .ok (.ofGrid f (← a.keep fill ns))) :=
    Value.form_grid_ofGrid (γ := Except Error Value) (fun g b => do
      .ok (.ofGrid g (← b.keep fill ns))) a
  have whole : keep counts (.value (.ofGrid f a)) fill =
      counts.toValue >>= fun amount => amount.naturalList .counts >>= fun list =>
        if amount.rank = 0 then .ok ((Value.ofGrid f a).repeatRows (list.headD 0))
        else (Value.ofGrid f a).keep fill list := rfl
  rw [whole, read]
  show amount.naturalList .counts >>= _ = _
  rw [list]
  exact (if_neg axes).trans onGrid

theorem unkeep_ofGrid (listed : counts.ListsCounts ns) (kept into : Grid f.Element) :
    unkeep (.value (.ofGrid f kept)) counts (.value (.ofGrid f into)) fill = (do
      .ok (.ofGrid f (← kept.unkeep fill ns into))) := by
  obtain ⟨amount, read, axes, list⟩ := listed
  have whole : unkeep (.value (.ofGrid f kept)) counts (.value (.ofGrid f into)) fill =
      counts.toValue >>= fun amount => amount.naturalList .counts >>= fun list =>
        if amount.rank = 0 then .error (.inverse .scalarCounts)
        else Value.unkeep fill list (.ofGrid f kept) (.ofGrid f into) := rfl
  rw [whole, read]
  show amount.naturalList .counts >>= _ = _
  rw [list]
  refine (if_neg axes).trans ?_
  rw [Value.unkeep, Value.unify_ofGrid]
  rfl

/-- Rows that were kept by counts of zero and one can be put back, and so can just as many others
of their shape: these then stand in the places that are counted, and no other row has changed. -/
theorem unkeep_undoes_keep {a : Value} (listed : counts.ListsCounts ns) (h : a.grid.WellFormed)
    (axes : a.rank ≠ 0) (completed : fill.Completes a.rowCount ns full)
    (boolean : ∀ n ∈ full, n ≤ 1) :
    (∃ kept, keep counts (.value a) fill = .ok kept ∧
      unkeep (.value kept) counts (.value a) fill = .ok a) ∧
    ∀ k : Value, k.grid.WellFormed → k.form = a.form →
      (Shape.FitsBack (full.count 1) k.shape a.shape →
        ∃ r, unkeep (.value k) counts (.value a) fill = .ok r ∧ r.shape = a.shape ∧
          (∀ i : Nat, full[i]? = some 1 → r.rows[i]? = k.rows[(full.take i).count 1]?) ∧
          ∀ i : Nat, full[i]? = some 0 → r.rows[i]? = a.rows[i]?) ∧
      (¬ Shape.FitsBack (full.count 1) k.shape a.shape →
        ∃ cause, unkeep (.value k) counts (.value a) fill = .error (.inverse cause)) := by
  obtain ⟨f, a, rfl⟩ := a.exists_form
  rw [Value.grid_ofGrid_wellFormed] at h
  rw [Value.rank, Value.shape_ofGrid] at axes
  rw [Value.rowCount_ofGrid] at completed
  constructor
  · refine ⟨.ofGrid f (Grid.stacked a.rowShape (copies full a.rows)), ?_, ?_⟩
    · rw [keep_ofGrid listed, Grid.keep_eq completed]
      rfl
    · rw [unkeep_ofGrid listed, Grid.unkeep_keep h axes completed boolean]
      rfl
  · intro k hk sameForm
    obtain ⟨k, rfl⟩ := Value.exists_grid (sameForm.trans (Value.form_ofGrid f a))
    rw [Value.grid_ofGrid_wellFormed] at hk
    rw [unkeep_ofGrid listed, Value.shape_ofGrid, Value.shape_ofGrid,
      ← counted_eq_count_one boolean]
    have spec := Grid.unkeep_spec hk h completed
    constructor
    · intro fits
      have can : Grid.CanUnkeep ns full k a :=
        ⟨axes, fun n mem => boolean n (completed.mem mem), fits⟩
      obtain ⟨r, undone, -, put⟩ | ⟨e, -, -, other⟩ := spec.ok_or_error
      · refine ⟨.ofGrid f r, ?_, ?_, ?_, ?_⟩
        · rw [undone]
          rfl
        · rw [Value.shape_ofGrid, put.shape]
        · intro i here
          exact Value.getElem?_rows_ofGrid (put.getElem?_counted boolean here)
        · intro i here
          exact Value.getElem?_rows_ofGrid (put.merged.getElem?_own here)
      · exact absurd can other
    · intro other
      obtain ⟨r, -, can, -⟩ | ⟨e, refused, inverse, -⟩ := spec.ok_or_error
      · exact absurd can.fits other
      · obtain ⟨cause, rfl⟩ := Error.isInverse_iff.mp inverse
        rw [refused]
        exact ⟨cause, rfl⟩

/-- Three letters of four are kept, the last two of them because the fill value counts them. -/
theorem unkeep_letters :
    let counts : Operand := .value (.byte ⟨[2], [1, 0]⟩)
    let fill : Fill := ⟨some (.byte ⟨[], [1]⟩)⟩
    let a : Value := .character ⟨[4], ['a', 'b', 'c', 'd']⟩
    let c : Value := .character ⟨[3], ['a', 'c', 'd']⟩
    counts.ListsCounts [1, 0] ∧ a.grid.WellFormed ∧ a.rank ≠ 0 ∧
      fill.Completes a.rowCount [1, 0] [1, 0, 1, 1] ∧ (∀ n ∈ [1, 0, 1, 1], n ≤ 1) ∧
      keep counts (.value a) fill = .ok c ∧ unkeep (.value c) counts (.value a) fill = .ok a ∧
      ∀ k : Value, k.grid.WellFormed → k.form = a.form →
        (Shape.FitsBack ([1, 0, 1, 1].count 1) k.shape a.shape →
          ∃ r, unkeep (.value k) counts (.value a) fill = .ok r ∧ r.shape = a.shape ∧
            (∀ i : Nat, [1, 0, 1, 1][i]? = some 1 →
              r.rows[i]? = k.rows[([1, 0, 1, 1].take i).count 1]?) ∧
            ∀ i : Nat, [1, 0, 1, 1][i]? = some 0 → r.rows[i]? = a.rows[i]?) ∧
        (¬ Shape.FitsBack ([1, 0, 1, 1].count 1) k.shape a.shape →
          ∃ cause, unkeep (.value k) counts (.value a) fill = .error (.inverse cause)) := by
  intro counts fill a c
  have listed : counts.ListsCounts [1, 0] := ⟨_, rfl, by decide, rfl⟩
  have h : a.grid.WellFormed := by decide
  have axes : a.rank ≠ 0 := by decide
  have one : (Binary64.ofByte 1).toNat? = some 1 := by decide +kernel
  have completed : fill.Completes 4 [1, 0] [1, 0, 1, 1] := .filled (by decide) rfl one
  have boolean : ∀ n ∈ [1, 0, 1, 1], n ≤ 1 := by decide
  have found : keep counts (.value a) fill = .ok c := by
    refine (keep_ofGrid (f := .uniform .character) listed ⟨[4], ['a', 'b', 'c', 'd']⟩).trans ?_
    rw [Grid.keep_eq completed]
    rfl
  obtain ⟨⟨_, kept, undone⟩, others⟩ := unkeep_undoes_keep listed h axes completed boolean
  obtain rfl := Except.ok.inj (found.symm.trans kept)
  exact ⟨listed, h, axes, completed, boolean, found, undone, others⟩

/-- What was put back is kept again, and counts larger than one are refused, exactly if no such
count is one that the fill value supplies for rows that could otherwise be put back. -/
theorem keep_undoes_unkeep_iff {kept into : Value} (listed : counts.ListsCounts ns)
    (hk : kept.grid.WellFormed) (h : into.grid.WellFormed) (sameForm : kept.form = into.form)
    (axes : kept.rank ≠ 0) :
    ((∀ r, unkeep (.value kept) counts (.value into) fill = .ok r → 0 < kept.rowCount →
        keep counts (.value r) fill = .ok kept) ∧
      ∀ full, fill.Completes into.rowCount ns full → (∃ n ∈ full, 1 < n) →
        ∃ cause, unkeep (.value kept) counts (.value into) fill = .error (.inverse cause)) ↔
      ¬ (into.rank ≠ 0 ∧ (∀ n ∈ ns, n ≤ 1) ∧ ∃ full, fill.Completes into.rowCount ns full ∧
        (∃ n ∈ full, 1 < n) ∧ Shape.FitsBack (counted full) kept.shape into.shape) := by
  obtain ⟨f, into, rfl⟩ := into.exists_form
  obtain ⟨kept, rfl⟩ := Value.exists_grid (sameForm.trans (Value.form_ofGrid f into))
  rw [Value.grid_ofGrid_wellFormed] at hk h
  rw [Value.rank, Value.shape_ofGrid] at axes
  simp only [unkeep_ofGrid listed, Value.rank, Value.rowCount_ofGrid, Value.shape_ofGrid]
  constructor
  · rintro ⟨-, refuses⟩ ⟨intoAxes, given, full, completed, many, fits⟩
    obtain ⟨cause, refused⟩ := refuses full completed many
    obtain ⟨r, accepted, -⟩ | ⟨e, -, -, other⟩ :=
      (Grid.unkeep_spec hk h completed).ok_or_error
    · rw [accepted] at refused
      cases refused
    · exact other ⟨intoAxes, given, fits⟩
  · intro other
    have boolean : ∀ full, fill.Completes into.rowCount ns full →
        Grid.CanUnkeep ns full kept into → ∀ n ∈ full, n ≤ 1 := by
      intro full completed can n mem
      by_contra many
      exact other ⟨can.axes, can.boolean, full, completed, ⟨n, mem, Nat.not_le.mp many⟩, can.fits⟩
    constructor
    · intro r accepted some
      cases undone : kept.unkeep fill ns into with
      | error e =>
          rw [undone] at accepted
          cases accepted
      | ok b =>
          rw [undone] at accepted
          cases accepted
          rw [keep_ofGrid listed, Grid.keep_of_unkeep hk h axes boolean undone some]
          rfl
    · intro full completed many
      obtain ⟨r, -, can, -⟩ | ⟨e, refused, inverse, -⟩ :=
        (Grid.unkeep_spec hk h completed).ok_or_error
      · obtain ⟨n, mem, more⟩ := many
        exact absurd (boolean full completed can n mem) (Nat.not_le.mpr more)
      · obtain ⟨cause, rfl⟩ := Error.isInverse_iff.mp inverse
        rw [refused]
        exact ⟨cause, rfl⟩

/-- The fill value counts two rows once each, and three bytes are put back and kept again. -/
theorem unkept_bytes_kept :
    let counts : Operand := .value (.byte ⟨[1], [1]⟩)
    let fill : Fill := ⟨some (.byte ⟨[], [1]⟩)⟩
    let kept : Value := .byte ⟨[3], [1, 2, 3]⟩
    let into : Value := .byte ⟨[3], [5, 6, 7]⟩
    counts.ListsCounts [1] ∧ kept.grid.WellFormed ∧ into.grid.WellFormed ∧
      kept.form = into.form ∧ kept.rank ≠ 0 ∧ 0 < kept.rowCount ∧
      unkeep (.value kept) counts (.value into) fill = .ok kept ∧
      (∀ r, unkeep (.value kept) counts (.value into) fill = .ok r → 0 < kept.rowCount →
        keep counts (.value r) fill = .ok kept) ∧
      ∀ full, fill.Completes into.rowCount [1] full → (∃ n ∈ full, 1 < n) →
        ∃ cause, unkeep (.value kept) counts (.value into) fill = .error (.inverse cause) := by
  intro counts fill kept into
  have listed : counts.ListsCounts [1] := ⟨_, rfl, by decide, rfl⟩
  have hk : kept.grid.WellFormed := by decide
  have h : into.grid.WellFormed := by decide
  have axes : kept.rank ≠ 0 := by decide
  have one : (Binary64.ofByte 1).toNat? = some 1 := by decide +kernel
  have completed : fill.Completes 3 [1] [1, 1, 1] := .filled (by decide) rfl one
  have undone : unkeep (.value kept) counts (.value into) fill = .ok kept := by
    refine (unkeep_ofGrid (f := .uniform .byte) listed ⟨[3], [1, 2, 3]⟩ ⟨[3], [5, 6, 7]⟩).trans ?_
    rw [Grid.unkeep_of_completes (by decide) (by decide) completed]
    rfl
  refine ⟨listed, hk, h, rfl, axes, by decide, undone,
    (keep_undoes_unkeep_iff listed hk h rfl axes).mpr ?_⟩
  rintro ⟨-, -, full, filled, many, -⟩
  rw [filled.unique completed] at many
  exact absurd many (by decide)

/-- The fill value counts two rows twice each. Three bytes are put back all the same, but five are
kept. -/
theorem unkept_bytes_not_kept :
    let counts : Operand := .value (.byte ⟨[1], [1]⟩)
    let fill : Fill := ⟨some (.byte ⟨[], [2]⟩)⟩
    let kept : Value := .byte ⟨[3], [1, 2, 3]⟩
    let into : Value := .byte ⟨[3], [5, 6, 7]⟩
    counts.ListsCounts [1] ∧ kept.form = into.form ∧ kept.rank ≠ 0 ∧ 0 < kept.rowCount ∧
      fill.Completes into.rowCount [1] [1, 2, 2] ∧
      unkeep (.value kept) counts (.value into) fill = .ok kept ∧
      keep counts (.value kept) fill = .ok (.byte ⟨[5], [1, 2, 2, 3, 3]⟩) ∧
      keep counts (.value kept) fill ≠ .ok kept ∧
      ¬ ∃ cause, unkeep (.value kept) counts (.value into) fill = .error (.inverse cause) := by
  intro counts fill kept into
  have listed : counts.ListsCounts [1] := ⟨_, rfl, by decide, rfl⟩
  have two : (Binary64.ofByte 2).toNat? = some 2 := by decide +kernel
  have completed : fill.Completes 3 [1] [1, 2, 2] := .filled (by decide) rfl two
  have undone : unkeep (.value kept) counts (.value into) fill = .ok kept := by
    refine (unkeep_ofGrid (f := .uniform .byte) listed ⟨[3], [1, 2, 3]⟩ ⟨[3], [5, 6, 7]⟩).trans ?_
    rw [Grid.unkeep_of_completes (by decide) (by decide) completed]
    rfl
  have again : keep counts (.value kept) fill = .ok (.byte ⟨[5], [1, 2, 2, 3, 3]⟩) := by
    refine (keep_ofGrid (f := .uniform .byte) listed ⟨[3], [1, 2, 3]⟩).trans ?_
    rw [Grid.keep_eq completed]
    rfl
  have longer : Value.byte ⟨[5], [1, 2, 2, 3, 3]⟩ ≠ .byte ⟨[3], [1, 2, 3]⟩ := nofun
  refine ⟨listed, rfl, by decide, by decide, completed, undone, again, ?_, ?_⟩
  · rw [again]
    exact fun same => longer (Except.ok.inj same)
  · rw [undone]
    rintro ⟨cause, ⟨⟩⟩

end Operations

end RowMajor
