import RowMajor.Proofs.Grid.Rows
import RowMajor.Proofs.Value.Reading
import RowMajor.Select

/-!
# Selected rows are well formed

Every index gives one row, from the array or of fill elements, so rows stand for the indices
one for one, although they are gathered row by row of the index array. Rows that are written back
belong to indices within bounds.
-/

namespace RowMajor

variable {α : Type} {valid : α → Prop}

/-- A row within bounds ends before the array does. An array without axes is its only row. -/
theorem Shape.offset_row_add_le {s : Shape} {p : Nat} (natural : s.Natural)
    (bound : Int.ofNat p < s.headD 1) : s.offset [p] + cellCount s.tail ≤ cellCount s := by
  cases s with
  | nil => exact Nat.le_refl 1
  | cons d s =>
      refine offset_add_cellCount_le natural (Nat.succ_le_succ (Nat.zero_le _)) ?_
      refine Bool.and_eq_true_iff.mpr ⟨decide_eq_true bound, ?_⟩
      cases s <;> rfl

namespace Grid

variable {index : Grid Int} {a : Grid α}

theorem selectRow_yields {filler : Filler α} (h : a.Holds valid)
    (fills : ∀ x, filler = .ok x → valid x) (i : Int) :
    Yields (Fills valid a.rowShape.cellCount) (a.selectRow filler i) := by
  have size := h.wellFormed.rowSize_eq
  have nonneg : ¬ Shape.size a.rowShape < 0 := Int.not_lt.mpr (Shape.size_nonneg h.natural.tail)
  simp only [selectRow, if_neg nonneg]
  cases resolved : resolveIndex i a.rowCount with
  | some p =>
      have bound := resolveIndex_lt resolved
      have below : p < a.rowCount.toNat := by
        simp only [Int.ofNat_eq_natCast] at bound
        omega
      exact size ▸ h.fillsRows.piece below
  | none =>
      cases filler with
      | error why => trivial
      | ok x => exact size ▸ fills_replicate (fills x rfl) _

/-- Parts of one shape, each of them made of rows, are stacked to all the rows. -/
theorem ofRows_flatten (s : Shape) (parts : List (List (List α))) :
    ofRows s (parts.map fun rows => ⟨s, rows.flatten⟩) =
      .ok ⟨Int.ofNat parts.length :: s, parts.flatten.flatten⟩ := by
  have same : ∀ part ∈ parts.map fun rows => Grid.mk s rows.flatten, part.shape = s := by
    intro part mem
    obtain ⟨rows, -, rfl⟩ := List.mem_map.mp mem
    rfl
  rw [ofRows_eq_stacked same, stacked, List.length_map, List.flatMap_map, List.flatMap_def,
    List.flatten_flatten]

/-- Row by row of the index array, the rows are gathered that its indices name one after the
other. The induction is on the shape of the index array. -/
theorem selectNested_eq (filler : Filler α) (a : Grid α) {s : Shape} (natural : s.Natural)
    {index : List Int} (length : index.length = s.cellCount) :
    selectNested filler a s index = index.mapM (a.selectRow filler) >>= fun rows =>
      .ok ⟨s ++ a.rowShape, rows.flatten⟩ := by
  induction s generalizing index with
  | nil =>
      rw [selectNested, selectRows]
      cases index.mapM (a.selectRow filler) <;> rfl
  | cons d s ih =>
      obtain ⟨nonneg, below⟩ := (Shape.natural_cons d s).mp natural
      cases s with
      | nil =>
          have count : Int.ofNat index.length = d := by
            rw [length, Shape.cellCount, Shape.cellCount, Nat.mul_one]
            exact Int.toNat_of_nonneg nonneg
          rw [selectNested, selectRows, count]
          rfl
      | cons e s =>
          rw [Shape.cellCount, Shape.cellCount_eq_volume below] at length
          rw [selectNested]
          split
          · rename_i empty
            have none : index = [] := by
              rw [← List.length_eq_zero_iff, length, Shape.volume, empty]
              rfl
            rw [none]
            rfl
          · rename_i some
            have positive : 0 < Shape.volume (e :: s) := by
              have := Shape.size_nonneg below
              rw [Shape.volume]
              omega
            have count : index.length / Shape.volume (e :: s) = d.toNat := by
              rw [length, Nat.mul_div_cancel _ positive]
            have whole : (pieces (Shape.volume (e :: s)) d.toNat index).flatten = index :=
              flatten_pieces (Nat.le_of_eq length)
            have parts : (pieces (Shape.volume (e :: s)) d.toNat index).mapM
                (selectNested filler a (e :: s)) =
                (pieces (Shape.volume (e :: s)) d.toNat index).mapM
                  (·.mapM (a.selectRow filler)) >>= fun parts =>
                    .ok (parts.map fun rows => ⟨e :: s ++ a.rowShape, rows.flatten⟩) := by
              rw [← Outcome.mapM_bind_ok]
              refine Outcome.mapM_congr fun piece mem => ih below ?_
              rw [length_of_mem_pieces (Nat.le_of_eq length.symm) mem,
                Shape.cellCount_eq_volume below]
            simp only [count, parts]
            conv_rhs => rw [← whole, Outcome.mapM_flatten]
            cases gathered : (pieces (Shape.volume (e :: s)) d.toNat index).mapM
                (·.mapM (a.selectRow filler)) with
            | error e => rfl
            | ok parts =>
                have lead : Int.ofNat parts.length = d := by
                  rw [Outcome.length_of_mapM_eq_ok gathered, length_pieces]
                  exact Int.toNat_of_nonneg nonneg
                exact (ofRows_flatten _ parts).trans (by rw [lead]; rfl)

theorem select_eq_mapM (filler : Filler α) (a : Grid α) (wf : index.WellFormed) :
    select filler index a = index.items.mapM (a.selectRow filler) >>= fun rows =>
      .ok ⟨index.shape ++ a.rowShape, rows.flatten⟩ :=
  selectNested_eq filler a wf.natural wf.length_eq

theorem select_yields {filler : Filler α} (wf : index.WellFormed) (h : a.Holds valid)
    (fills : ∀ x, filler = .ok x → valid x) :
    Yields (Grid.Holds valid) (select filler index a) := by
  rw [select_eq_mapM filler a wf]
  refine (Outcome.mapM fun i _ => selectRow_yields h fills i).bind fun rows ⟨count, filled⟩ => ?_
  have together : Fills valid (rows.length * a.rowShape.cellCount) rows.flatten := by
    rw [← List.flatMap_id]
    exact Fills.flatMap filled
  refine (together.cast ?_).holds (wf.natural.append h.natural.tail)
  rw [count, wf.length_eq]
  exact (Shape.cellCount_append ..).symm

theorem rowPlace_yields (a : Grid α) (i : Int) :
    Yields (fun p => Int.ofNat p < a.rowCount) (a.rowPlace i) := by
  rw [rowPlace]
  cases resolved : resolveIndex i a.rowCount with
  | none => trivial
  | some p => exact resolveIndex_lt resolved

theorem unselect_yields {selected into : Grid α} (hs : selected.Holds valid)
    (h : into.Holds valid) : Yields (Grid.Holds valid) (unselect index selected into) := by
  refine (Outcome.mapM fun i _ => rowPlace_yields into i).bind fun places ⟨_, bounds⟩ => ?_
  simp only
  split
  · trivial
  · split
    · trivial
    · refine h.writeCells (fun w hw => ?_) fun row hr x hx => hs.all x (mem_of_mem_pieces hr hx)
      obtain ⟨place, row⟩ := List.of_mem_zip hw
      obtain ⟨p, hp, point⟩ := List.mem_map.mp place
      have inside := Shape.offset_row_add_le h.natural (bounds p hp)
      rw [← point, h.length_eq]
      refine Nat.le_trans (Nat.add_le_add_left ?_ _) inside
      exact h.wellFormed.rowSize_eq ▸ length_le_of_mem_pieces row

end Grid

variable {index v selected : Value} {fill : Fill}

theorem select_yields (hi : index.WellFormed) (hv : v.WellFormed) (hf : fill.WellFormed) :
    Yields Value.WellFormed (select (.value index) (.value v) fill) := by
  apply (Value.integerGrid_yields .indexTable hi).bind
  intro index wf
  apply Value.promoteFor_yields hf hv
  intro w hw fills
  exact hw.yields_map fun h => Grid.select_yields wf h fills

theorem unselect_yields (hs : selected.WellFormed) (hi : index.WellFormed) (hv : v.WellFormed) :
    Yields Value.WellFormed (unselect (.value selected) (.value index) (.value v)) := by
  apply (Value.integerGrid_yields .indexTable hi).bind
  intro index _
  exact Value.unify_yields .unselect hs hv fun f x y hx hy => Grid.unselect_yields hx hy

end RowMajor
