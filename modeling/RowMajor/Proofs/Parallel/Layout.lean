import RowMajor.Keep
import RowMajor.Proofs.Parallel.Basic
import RowMajor.Reshape
import RowMajor.Section
import RowMajor.Windows

/-!
# Alike grids laid out anew

Reshaping, keeping, taking, dropping and forming windows go by the shape, by the number of
the elements and by their order, and supply fill elements. So alike grids with alike fill
elements become alike grids again or are refused together. Taking and dropping descend
along the counts, and what they do to the rows of a grid is an instance of what is shown.
-/

namespace RowMajor

variable {α β : Type} {R : α → β → Prop} {xs : List α} {ys : List β}

theorem forall₂_cycle (h : List.Forall₂ R xs ys) (count : Nat) :
    List.Forall₂ R (Grid.cycle count xs) (Grid.cycle count ys) := by
  rw [Grid.cycle, Grid.cycle, h.length_eq]
  exact List.forall₂_take _ (List.rel_flatten (forall₂_replicate h _))

theorem forall₂_padItems {padding : List α} {padding' : List β}
    (pads : List.Forall₂ R padding padding') (h : List.Forall₂ R xs ys) (n : Int) :
    List.Forall₂ R (Grid.padItems n padding xs) (Grid.padItems n padding' ys) := by
  rw [Grid.padItems, Grid.padItems]
  split
  · exact List.rel_append h pads
  · exact List.rel_append pads h

namespace Grid.Alike

variable {a : Grid α} {b : Grid β} {filler : Filler α} {filler' : Filler β}

theorem copies (h : Alike R a b) (count : Nat) : Alike R (a.copies count) (b.copies count) := by
  obtain ⟨items⟩ := h
  exact ⟨forall₂_multiplied items count⟩

theorem reshape (h : Alike R a b) (fillers : Filler.Alike R filler filler') (dims : List Int) :
    InStep (Alike R) (a.reshape filler dims) (b.reshape filler' dims) := by
  obtain ⟨items⟩ := h
  have length := items.length_eq
  simp only [Grid.reshape, fillers.isOk_eq]
  refine InStep.after fun shape _ => ?_
  rw [length]
  refine Parallel.ite (fun _ => ⟨List.forall₂_take _ items⟩) fun _ => ?_
  rcases fillers.ok_or_error with ⟨x, y, rfl, rfl, related⟩ | ⟨why, why', rfl, rfl, -⟩
  · exact ⟨List.rel_append items (forall₂_replicate related _)⟩
  · rw [isEmpty_eq_of_forall₂ items]
    exact Parallel.ite (fun _ => rfl) fun _ => ⟨forall₂_cycle items _⟩

theorem repeatRows (h : Alike R a b) (count : Nat) :
    Alike R (a.repeatRows count) (b.repeatRows count) := by
  obtain ⟨items⟩ := h
  rw [Grid.repeatRows.eq_def, Grid.repeatRows.eq_def, rank, rank]
  split
  · exact ⟨forall₂_repeated (List.forall₂_take 1 items) count⟩
  · split
    · exact ⟨.nil⟩
    · exact ⟨items⟩
    · exact ⟨forall₂_multiplied items _⟩

/-- What is taken of each row goes by the number that stands beside it. -/
theorem flatMap_rows (h : Alike R a b) (counts : List Nat) (part : Nat → List α → List α)
    (part' : Nat → List β → List β)
    (parts : ∀ n xs ys, List.Forall₂ R xs ys → List.Forall₂ R (part n xs) (part' n ys)) :
    List.Forall₂ R ((counts.zip a.rows).flatMap fun (n, row) => part n row.items)
      ((counts.zip b.rows).flatMap fun (n, row) => part' n row.items) := by
  have rows := h.rows
  generalize a.rows = as at rows
  generalize b.rows = bs at rows
  induction rows generalizing counts with
  | nil => rw [List.zip_nil_right, List.zip_nil_right]; exact .nil
  | cons row _ ih =>
      cases counts with
      | nil => exact .nil
      | cons n counts => exact List.rel_append (parts n _ _ row.items) (ih counts)

theorem keepRows (h : Alike R a b) (counts : List Nat) :
    Alike R (a.keepRows counts) (b.keepRows counts) := by
  have masked : List.Forall₂ R (a.maskedItems counts) (b.maskedItems counts) :=
    h.flatMap_rows counts (fun n xs => if n = 0 then [] else xs)
      (fun n ys => if n = 0 then [] else ys) fun n xs ys items => by
        split
        · exact .nil
        · exact items
  have counted : List.Forall₂ R (a.countedItems counts) (b.countedItems counts) :=
    h.flatMap_rows counts repeated repeated fun n xs ys items => forall₂_repeated items n
  obtain ⟨items⟩ := h
  rw [Grid.keepRows, Grid.keepRows, rank, rank]
  split
  · exact ⟨forall₂_repeated (List.forall₂_take 1 items) _⟩
  · split
    · exact ⟨masked⟩
    · exact ⟨counted⟩

/-- How the counts are completed has nothing to do with the elements. -/
theorem keep (h : Alike R a b) (fill : Fill) (counts : List Nat) :
    InStep (Alike R) (a.keep fill counts) (b.keep fill counts) := by
  have kept := h.keepRows
  rw [Grid.keep, Grid.keep, Grid.rowCount, Grid.rowCount, h.shape_eq]
  exact InStep.after fun counts _ => kept counts

theorem padRows (fillers : Filler.Alike R filler filler') (kind kind' : Kind) (n : Int)
    (rowShape : Shape) (missing : Int) (items : List.Forall₂ R xs ys) :
    InStep (Alike R) (a.padRows kind filler n rowShape missing xs)
      (b.padRows kind' filler' n rowShape missing ys) := by
  rcases fillers.ok_or_error with ⟨x, y, rfl, rfl, related⟩ | ⟨why, why', rfl, rfl, -⟩
  · have padding := forall₂_replicate related (missing * rowShape.size).toNat
    exact Alike.fit ⟨forall₂_padItems padding items n⟩ kind kind'
  · rfl

theorem takeLeading (h : Alike R a b) (fillers : Filler.Alike R filler filler')
    (kind kind' : Kind) (n : Int) :
    InStep (Alike R) (a.takeLeading kind filler n) (b.takeLeading kind' filler' n) := by
  obtain ⟨items⟩ := h
  refine Parallel.ite (fun _ => ⟨?_⟩) fun _ => padRows fillers kind kind' n _ _ items
  split
  · exact List.forall₂_take _ items
  · exact List.forall₂_drop _ items

theorem takeRows (h : Alike R a b) (n : Int) :
    List.Forall₂ (Alike R) (a.takeRows n) (b.takeRows n) := by
  simp only [Grid.takeRows, Grid.rowCount, h.shape_eq]
  split <;> exact h.rowsFrom _ _

theorem take (h : Alike R a b) (fillers : Filler.Alike R filler filler') (kind kind' : Kind)
    (counts : List Int) :
    InStep (Alike R) (Grid.take kind filler counts a) (Grid.take kind' filler' counts b) := by
  induction counts generalizing a b with
  | nil => exact h
  | cons n counts ih =>
      have shape : a.rowShape = b.rowShape := congrArg List.tail h.shape_eq
      rw [Grid.take, Grid.take, shape]
      refine Parallel.ite (fun _ => h.takeLeading fillers kind kind' n) fun _ => ?_
      refine (Parallel.mapM (h.takeRows n) fun _ _ row => ih row).bind fun as bs rows => ?_
      have items := flatMap_items rows
      rw [rows.length_eq]
      exact Parallel.ite (fun _ => ⟨items⟩) fun _ => padRows fillers kind kind' n _ _ items

theorem dropLeading (h : Alike R a b) (n : Int) : Alike R (a.dropLeading n) (b.dropLeading n) := by
  obtain ⟨items⟩ := h
  refine ⟨?_⟩
  simp only [Grid.rowCount, Grid.rowShape, Grid.rowSize]
  split
  · exact List.forall₂_drop _ items
  · exact List.forall₂_take _ items

theorem dropRows (h : Alike R a b) (n : Int) :
    List.Forall₂ (Alike R) (a.dropRows n) (b.dropRows n) := by
  simp only [Grid.dropRows, Grid.rowCount, h.shape_eq]
  split <;> exact h.rowsFrom _ _

theorem drop (h : Alike R a b) (counts : List Int) :
    Alike R (Grid.drop counts a) (Grid.drop counts b) := by
  induction counts generalizing a b with
  | nil => exact h
  | cons n counts ih =>
      cases counts with
      | nil => exact h.dropLeading n
      | cons m counts =>
          rw [Grid.drop, Grid.drop, h.shape_eq]
          · exact ⟨flatMap_items (List.rel_map (fun _ _ row => ih row) (h.dropRows n))⟩
          · exact List.cons_ne_nil m counts
          · exact List.cons_ne_nil m counts

theorem windows (h : Alike R a b) (kind kind' : Kind) (sizes : List Int) :
    InStep (Alike R) (a.windows kind sizes) (b.windows kind' sizes) := by
  obtain ⟨items⟩ := h
  refine InStep.after fun window _ => ?_
  refine Parallel.ite (fun _ => ⟨items⟩) fun _ => ?_
  exact Alike.fit ⟨forall₂_gather items _⟩ kind kind'

end Grid.Alike

end RowMajor
