import RowMajor.Proofs.Grid.Building
import RowMajor.Proofs.Value.Reading
import RowMajor.Section

/-!
# Sections are well formed

Taking and dropping are followed by induction on the counts, together with the shape of
the result: rows cut alike have one shape, so they can be put one behind another and
padded to the number that was asked for. Putting a section back joins and stacks rows,
which gives a well-formed grid or is refused.
-/

namespace RowMajor

variable {α : Type} {valid : α → Prop}

namespace Shape

@[simp] theorem taken_nil (s : Shape) : taken [] s = s := by
  cases s <;> rfl

/-- Counts that take every axis as it is leave the shape alone. -/
theorem taken_of_isTakenWhole {counts : List Int} {s : Shape}
    (whole : isTakenWhole counts s = true) : taken counts s = s := by
  induction counts generalizing s with
  | nil => cases s <;> rfl
  | cons n counts ih =>
      cases s with
      | nil => rfl
      | cons d s =>
          obtain ⟨here, below⟩ := Bool.and_eq_true_iff.mp whole
          rw [taken, of_decide_eq_true here, ih below]

theorem natural_taken (counts : List Int) {s : Shape} (h : s.Natural) :
    (taken counts s).Natural := by
  induction counts generalizing s with
  | nil => cases s <;> exact h
  | cons n counts ih =>
      cases s with
      | nil => exact h
      | cons d s =>
          have rest := ih ((natural_cons d s).mp h).2
          exact (natural_cons ..).mpr ⟨Int.natCast_nonneg _, rest⟩

theorem dropped_nil (s : Shape) : dropped [] s = s := by
  cases s <;> rfl

theorem length_dropped (counts : List Int) (s : Shape) :
    (dropped counts s).length = s.length := by
  induction counts generalizing s with
  | nil => rw [dropped_nil]
  | cons n counts ih =>
      cases s with
      | nil => rfl
      | cons d s => exact congrArg Nat.succ (ih s)

theorem natural_dropped {counts : List Int} {s : Shape} (h : s.Natural) :
    (dropped counts s).Natural := by
  induction counts generalizing s with
  | nil => exact (dropped_nil s).symm ▸ h
  | cons n counts ih =>
      cases s with
      | nil => exact h
      | cons d s =>
          have rest := ih ((natural_cons d s).mp h).2
          exact (natural_cons ..).mpr ⟨Int.le_max_right .., rest⟩

end Shape

namespace Grid

variable {a row : Grid α} {kind : Kind} {filler : Filler α} {n : Int} {counts : List Int}

theorem length_takeRows (n : Int) (a : Grid α) :
    (a.takeRows n).length = min n.natAbs a.rowCount.toNat := by
  simp only [takeRows]
  split <;> exact length_rowsFrom ..

theorem Holds.takeRows (h : a.Holds valid) (mem : row ∈ a.takeRows n) :
    row.Holds valid ∧ row.shape = a.rowShape := by
  simp only [Grid.takeRows] at mem
  split at mem
  · exact ⟨h.rowsFrom (by omega) mem, shape_of_mem_rowsFrom mem⟩
  · exact ⟨h.rowsFrom (by omega) mem, shape_of_mem_rowsFrom mem⟩

theorem length_dropRows (n : Int) (a : Grid α) :
    (a.dropRows n).length = a.rowCount.toNat - n.natAbs := by
  simp only [dropRows]
  split <;> exact length_rowsFrom ..

theorem Holds.dropRows (h : a.Holds valid) (mem : row ∈ a.dropRows n) :
    row.Holds valid ∧ row.shape = a.rowShape := by
  simp only [Grid.dropRows] at mem
  split at mem
  · exact ⟨h.rowsFrom (by omega) mem, shape_of_mem_rowsFrom mem⟩
  · exact ⟨h.rowsFrom (by omega) mem, shape_of_mem_rowsFrom mem⟩

/-- The rows that are there and the missing ones make up the count. -/
theorem padRows_yields {rowShape : Shape} {missing : Int} {items : List α} (present : Nat)
    (natural : rowShape.Natural) (fills : ∀ x, filler = .ok x → valid x)
    (h : Fills valid (present * rowShape.cellCount) items)
    (count : Int.ofNat n.natAbs = Int.ofNat present + missing) (nonneg : 0 ≤ missing) :
    Yields (fun b => b.Holds valid ∧ b.shape = Int.ofNat n.natAbs :: rowShape)
      (a.padRows kind filler n rowShape missing items) := by
  cases filler with
  | error why => trivial
  | ok x =>
      have padding : (missing * rowShape.size).toNat = missing.toNat * rowShape.cellCount := by
        rw [Int.toNat_mul nonneg (Shape.size_nonneg natural), Shape.cellCount_eq_volume natural]
        rfl
      have total : n.natAbs = present + missing.toNat := by
        simp only [Int.ofNat_eq_natCast] at count
        omega
      have filled := fills_replicate (fills x rfl) (missing * rowShape.size).toNat
      have whole : Fills valid ((Int.ofNat n.natAbs).toNat * rowShape.cellCount)
          (padItems n (List.replicate (missing * rowShape.size).toNat x) items) := by
        show Fills valid (n.natAbs * rowShape.cellCount) _
        rw [padItems, total, Nat.add_mul, ← padding]
        split
        · exact h.append filled
        · exact (filled.append h).cast (Nat.add_comm ..)
      have padded := whole.holds_cons (Int.natCast_nonneg _) natural
      simp only [padRows]
      rw [fit_eq_ok padded.wellFormed.fits]
      exact ⟨padded, rfl⟩

theorem takeLeading_yields (h : a.Holds valid) (fills : ∀ x, filler = .ok x → valid x) :
    Yields (fun b => b.Holds valid ∧ b.shape = Int.ofNat n.natAbs :: a.rowShape)
      (a.takeLeading kind filler n) := by
  have items := h.fillsRows
  have rows := h.wellFormed.rowCount_nonneg
  simp only [takeLeading, Int.ofNat_eq_natCast, h.wellFormed.rowSize_eq]
  split
  · rename_i enough
    have within : n.natAbs * a.rowShape.cellCount ≤ a.rowCount.toNat * a.rowShape.cellCount :=
      Nat.mul_le_mul_right _ (by omega)
    refine ⟨Fills.holds_cons ?_ (Int.natCast_nonneg _) h.natural.tail, rfl⟩
    rw [Int.toNat_natCast]
    split
    · exact (items.take _).cast (Nat.min_eq_left within)
    · refine (items.drop _).cast ?_
      rw [← Nat.sub_mul]
      congr 1
      omega
  · rename_i short
    refine padRows_yields a.rowCount.toNat h.natural.tail fills items ?_ ?_
    · simp only [Int.ofNat_eq_natCast]
      omega
    · omega

/-- The section has the shape that the counts ask for. -/
theorem take_yields (h : a.Holds valid) (fills : ∀ x, filler = .ok x → valid x)
    (rank : counts.length ≤ a.rank) :
    Yields (fun b => b.Holds valid ∧ b.shape = Shape.taken counts a.shape)
      (take kind filler counts a) := by
  induction counts generalizing a with
  | nil => exact ⟨h, (Shape.taken_nil a.shape).symm⟩
  | cons n counts ih =>
      have target : Shape.taken (n :: counts) a.shape =
          Int.ofNat n.natAbs :: Shape.taken counts a.rowShape := congrArg _ (shape_eq_cons rank)
      rw [target, take]
      split
      · rename_i whole
        rw [Shape.taken_of_isTakenWhole whole]
        exact takeLeading_yields h fills
      · have natural := Shape.natural_taken counts h.natural.tail
        have each : ∀ row ∈ a.takeRows n, Yields (fun b => b.Holds valid ∧
            b.shape = Shape.taken counts a.rowShape) (take kind filler counts row) := by
          intro row mem
          obtain ⟨holds, shape⟩ := h.takeRows mem
          have cut := ih holds (by rw [Grid.rank, shape]; exact rank_rowShape rank)
          rwa [shape] at cut
        apply (Outcome.mapM each).bind
        rintro rows ⟨length, cut⟩
        rw [length_takeRows] at length
        have together := holds_rows natural cut
        split
        · rename_i enough
          have count : rows.length = n.natAbs := by omega
          exact ⟨count ▸ together, rfl⟩
        · refine padRows_yields rows.length natural fills together.fills ?_ ?_
          · simp only [Int.ofNat_eq_natCast]
            omega
          · simp only [Int.ofNat_eq_natCast]
            omega

theorem dropLeading_holds (h : a.Holds valid) (n : Int) : (a.dropLeading n).Holds valid := by
  have items := h.fillsRows
  have rows := h.wellFormed.rowCount_nonneg
  simp only [dropLeading, Int.ofNat_eq_natCast]
  generalize kept_eq : max (a.rowCount - n.natAbs) 0 = kept
  have nonneg : 0 ≤ kept := by omega
  have fewer : kept ≤ a.rowCount := by omega
  have natural : a.rowShape.Natural := h.natural.tail
  refine Fills.holds_cons ?_ nonneg natural
  split
  · have skipped : ((a.rowCount - kept) * Shape.size a.rowShape).toNat =
        (a.rowCount.toNat - kept.toNat) * a.rowShape.cellCount := by
      rw [Int.toNat_mul (Int.sub_nonneg.mpr fewer) (Shape.size_nonneg natural),
        Shape.cellCount_eq_volume natural]
      congr 1
      omega
    refine (items.drop _).cast ?_
    rw [skipped, ← Nat.sub_mul]
    congr 1
    omega
  · have within : kept.toNat * a.rowShape.cellCount ≤ a.rowCount.toNat * a.rowShape.cellCount :=
      Nat.mul_le_mul_right _ (by omega)
    rw [h.wellFormed.rowSize_eq]
    exact (items.take _).cast (Nat.min_eq_left within)

/-- What is left has the shape that the counts leave. -/
theorem drop_holds (h : a.Holds valid) (rank : counts.length ≤ a.rank) :
    (drop counts a).Holds valid ∧ (drop counts a).shape = Shape.dropped counts a.shape := by
  induction counts generalizing a with
  | nil => exact ⟨h, (Shape.dropped_nil _).symm⟩
  | cons n counts ih =>
      have target : Shape.dropped (n :: counts) a.shape =
          max (a.rowCount - Int.ofNat n.natAbs) 0 :: Shape.dropped counts a.rowShape :=
        congrArg _ (shape_eq_cons rank)
      cases counts with
      | nil =>
          rw [target, Shape.dropped_nil]
          exact ⟨dropLeading_holds h n, rfl⟩
      | cons m counts =>
          refine ⟨?_, rfl⟩
          have each : ∀ row ∈ (a.dropRows n).map (drop (m :: counts)), row.Holds valid ∧
              row.shape = Shape.dropped (m :: counts) a.rowShape := by
            intro row mem
            obtain ⟨old, there, rfl⟩ := List.mem_map.mp mem
            obtain ⟨holds, shape⟩ := h.dropRows there
            have rest := ih holds (by rw [Grid.rank, shape]; exact rank_rowShape rank)
            rwa [shape] at rest
          have together := holds_rows (Shape.natural_dropped h.natural.tail) each
          have kept : max (a.rowCount - Int.ofNat n.natAbs) 0 =
              Int.ofNat ((a.dropRows n).map (drop (m :: counts))).length := by
            rw [List.length_map, length_dropRows]
            simp only [Int.ofNat_eq_natCast]
            omega
          show (Grid.mk (Shape.dropped (n :: m :: counts) a.shape) _).Holds valid
          rw [target, kept]
          exact together

theorem replaceSection_yields {cut : Section} {part into : Grid α} (hp : part.Holds valid)
    (h : into.Holds valid) : Yields (Grid.Holds valid) (replaceSection cut counts part into) := by
  induction counts generalizing part into with
  | nil => exact hp
  | cons n counts ih =>
      cases counts with
      | nil =>
          have rest := dropLeading_holds h n
          simp only [replaceSection]
          split
          · exact join_yields hp rest
          · exact join_yields rest hp
      | cons m counts =>
          simp only [replaceSection]
          split
          · trivial
          · generalize (if 0 ≤ n then 0 else into.rows.length - n.natAbs) = start
            have each : ∀ pair ∈ part.rows.zip ((into.rows.drop start).take n.natAbs),
                Yields (Grid.Holds valid) (replaceSection cut (m :: counts) pair.1 pair.2) := by
              intro pair mem
              obtain ⟨new, old⟩ := List.of_mem_zip mem
              exact ih (hp.rows new) (h.rows (List.mem_of_mem_drop (List.mem_of_mem_take old)))
            apply (Outcome.mapM each).bind
            rintro renewed ⟨_, renewals⟩
            refine ofRows_yields h.natural.tail fun row mem => ?_
            rcases List.mem_append.mp mem with mem | after
            · rcases List.mem_append.mp mem with before | renewal
              · exact h.rows (List.mem_of_mem_take before)
              · exact renewals row renewal
            · exact h.rows (List.mem_of_mem_drop after)

theorem checkCounts_yields (cause : Nat → Nat → ShapeError) (counts : List Int) (a : Grid α) :
    Yields (fun _ => counts.length ≤ a.rank) (a.checkCounts cause counts) := by
  rw [checkCounts]
  split
  · trivial
  · rename_i few
    exact Nat.not_lt.mp few

theorem undoSection_yields {cut : Section} {part into : Grid α} (hp : part.Holds valid)
    (h : into.Holds valid) : Yields (Grid.Holds valid) (undoSection cut counts part into) := by
  simp only [undoSection]
  split
  · trivial
  · exact replaceSection_yields hp h

theorem untake_yields {taken into : Grid α} (ht : taken.Holds valid) (h : into.Holds valid) :
    Yields (Grid.Holds valid) (untake counts taken into) :=
  (checkCounts_yields _ counts into).bind fun _ _ => undoSection_yields ht h

theorem undrop_yields {dropped into : Grid α} (hd : dropped.Holds valid) (h : into.Holds valid) :
    Yields (Grid.Holds valid) (undrop counts dropped into) :=
  (checkCounts_yields _ counts into).bind fun _ _ => undoSection_yields hd h

end Grid

variable {counts v part : Value} {fill : Fill}

theorem take_yields (hc : counts.WellFormed) (hv : v.WellFormed) (hf : fill.WellFormed) :
    Yields Value.WellFormed (take (.value counts) (.value v) fill) := by
  show Yields _ (if v.rank = 0 then _ else _)
  split
  · trivial
  · apply (Value.integerList_yields .indexList hc).bind
    intro counts _
    apply Value.promoteFor_yields hf hv
    intro w hw fills
    apply (Grid.checkCounts_yields _ counts w.grid).bind
    intro _ rank
    refine hw.yields_map fun h => ?_
    exact (Grid.take_yields h fills rank).mono (fun _ taken => taken.1) fun _ refused => refused

theorem drop_yields (hc : counts.WellFormed) (hv : v.WellFormed) :
    Yields Value.WellFormed (drop (.value counts) (.value v)) := by
  show Yields _ (if v.rank = 0 then _ else _)
  split
  · trivial
  · apply (Value.integerList_yields .indexList hc).bind
    intro counts _
    apply (Grid.checkCounts_yields _ counts v.grid).bind
    intro _ rank
    exact Value.wellFormed_ofGrid hv.isUniform (Grid.drop_holds hv.holds rank).1

theorem untake_yields (hp : part.WellFormed) (hc : counts.WellFormed) (hv : v.WellFormed) :
    Yields Value.WellFormed (untake (.value part) (.value counts) (.value v)) := by
  apply (Value.integerList_yields .indexList hc).bind
  intro counts _
  exact Value.unify_yields .untake hp hv fun f x y hx hy => Grid.untake_yields hx hy

theorem undrop_yields (hp : part.WellFormed) (hc : counts.WellFormed) (hv : v.WellFormed) :
    Yields Value.WellFormed (undrop (.value part) (.value counts) (.value v)) := by
  apply (Value.integerList_yields .indexList hc).bind
  intro counts _
  exact Value.unify_yields .undrop hp hv fun f x y hx hy => Grid.undrop_yields hx hy

end RowMajor
