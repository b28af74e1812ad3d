import RowMajor.Proofs.Keep.Merging
import RowMajor.Proofs.Value.Reading

/-!
# Keeping yields well-formed values

Once there is a count for every row, the rows of the result are as many as the counts say
in total. Undoing puts every kept row in the place of one of the same shape, and stacking
the rows is then checked as always.
-/

namespace RowMajor

variable {α : Type} {valid : α → Prop} {fill : Fill}

theorem fillCounts_yields {shape : Shape} {rows : Int} (nonneg : 0 ≤ rows) (counts : List Nat) :
    Yields (fun full => full.length = rows.toNat) (fillCounts fill shape rows counts) := by
  rw [fillCounts]
  by_cases exactly : Int.ofNat counts.length = rows
  · rw [if_pos exactly, ← exactly]
    rfl
  · rw [if_neg exactly]
    by_cases fewer : Int.ofNat counts.length < rows
    · rw [if_pos fewer]
      have padded (n : Nat) :
          (counts ++ List.replicate (rows.toNat - counts.length) n).length = rows.toNat := by
        rw [List.length_append, List.length_replicate]
        simp only [Int.ofNat_eq_natCast] at fewer
        omega
      split
      · trivial
      · split
        · exact padded _
        · trivial
    · rw [if_neg fewer]
      split <;> trivial

namespace Grid

variable {a kept into : Grid α}

theorem Holds.repeatRows (h : a.Holds valid) (count : Nat) : (a.repeatRows count).Holds valid := by
  have rows := h.wellFormed.rowCount_nonneg
  have counted : (a.rowCount * Int.ofNat count).toNat = a.rowCount.toNat * count :=
    Int.toNat_mul rows (Int.natCast_nonneg count)
  have copies := h.fillsRows.repeated count
  rw [h.wellFormed.repeatRows_eq]
  refine (copies.cast ?_).holds_cons (Int.mul_nonneg rows (Int.natCast_nonneg count)) h.natural.tail
  rw [counted, ← Nat.mul_assoc, Nat.mul_comm count]

theorem Holds.keepRows {counts : List Nat} (h : a.Holds valid)
    (length : counts.length = a.rowCount.toNat) : (a.keepRows counts).Holds valid := by
  rw [keepRows_eq_stacked (length.trans (length_rows a).symm)]
  refine holds_rows h.natural.tail fun row copied => ?_
  have mem := mem_of_mem_copies copied
  exact ⟨h.rows mem, shape_of_mem_rows mem⟩

theorem keep_yields (h : a.Holds valid) (counts : List Nat) :
    Yields (Grid.Holds valid) (a.keep fill counts) :=
  (fillCounts_yields h.wellFormed.rowCount_nonneg counts).bind fun _ length => h.keepRows length

theorem mergeKept_yields {counts : List Nat} {rows kept : List (Grid α)}
    (hr : ∀ row ∈ rows, row.Holds valid) (hk : ∀ row ∈ kept, row.Holds valid) :
    Yields (fun merged => ∀ row ∈ merged, row.Holds valid) (mergeKept counts rows kept) := by
  have put : ∀ {row : Grid α} {rest : List (Grid α)}, row.Holds valid →
      (∀ r ∈ rest, r.Holds valid) → ∀ r ∈ row :: rest, r.Holds valid := by
    intro row rest h all r mem
    rcases List.mem_cons.mp mem with rfl | mem
    · exact h
    · exact all r mem
  induction counts generalizing rows kept with
  | nil =>
      cases kept with
      | nil => exact fun _ h => absurd h List.not_mem_nil
      | cons _ _ => trivial
  | cons n counts ih =>
      cases rows with
      | nil =>
          cases kept with
          | nil => exact fun _ h => absurd h List.not_mem_nil
          | cons _ _ => trivial
      | cons row rows =>
          have here := hr row List.mem_cons_self
          have below : ∀ r ∈ rows, r.Holds valid := fun r h => hr r (List.mem_cons_of_mem _ h)
          rw [mergeKept.eq_def]
          simp only
          split
          · exact (ih below hk).bind fun rest all => put here all
          · cases kept with
            | nil => trivial
            | cons new kept =>
                simp only
                split
                · have others : ∀ r ∈ kept, r.Holds valid := fun r h =>
                    hk r (List.mem_cons_of_mem _ h)
                  exact (ih below others).bind fun rest all => put (hk new List.mem_cons_self) all
                · trivial

theorem Holds.keptRows {counts : List Nat} {row : Grid α} (h : kept.Holds valid)
    (mem : row ∈ kept.keptRows counts) : row.Holds valid := by
  rw [Grid.keptRows] at mem
  split at mem
  · cases mem
  · refine h.rowsFrom ?_ mem
    omega

theorem unkeep_yields (counts : List Nat) (hk : kept.Holds valid) (hi : into.Holds valid) :
    Yields (Grid.Holds valid) (kept.unkeep fill counts into) := by
  rw [unkeep]
  split
  · trivial
  · split
    · trivial
    · apply (fillCounts_yields hi.wellFormed.rowCount_nonneg counts).bind
      intro full _
      refine (mergeKept_yields (fun _ => hi.rows) fun _ => hk.keptRows).bind fun rows all => ?_
      exact ofRows_yields hi.natural.tail all

end Grid

variable {c v w : Value}

theorem keep_yields (hc : c.WellFormed) (hv : v.WellFormed) :
    Yields Value.WellFormed (keep (.value c) (.value v) fill) := by
  apply (Value.naturalList_yields .counts hc).bind
  intro counts _
  split
  · exact hv.ofGrid_of_holds (hv.holds.repeatRows _)
  · exact hv.yields_map fun h => Grid.keep_yields h counts

theorem unkeep_yields (hv : v.WellFormed) (hc : c.WellFormed) (hw : w.WellFormed) :
    Yields Value.WellFormed (unkeep (.value v) (.value c) (.value w) fill) := by
  apply (Value.naturalList_yields .counts hc).bind
  intro counts _
  split
  · trivial
  · exact Value.unify_yields .unkeep hv hw fun f x y hx hy =>
      Grid.unkeep_yields counts hx hy

end RowMajor
