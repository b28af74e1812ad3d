import RowMajor.Pick
import RowMajor.Proofs.Grid.Rows
import RowMajor.Proofs.Parallel.Basic
import RowMajor.Select

/-!
# Cells gathered from alike grids

Picking and selecting look at indices and at the lengths of axes, never at an element. An
index finds the same cell in alike grids, or it lies outside both and the cell consists of
fill elements. The induction is on the point for a single cell and on the shape of the
index array for all of them.
-/

namespace RowMajor.Grid.Alike

variable {α β : Type} {R : α → β → Prop} {a : Grid α} {b : Grid β}
  {filler : Filler α} {filler' : Filler β}

theorem descend (fillers : Filler.Alike R filler filler') (whole : Shape) (axis : Nat) (s : Shape)
    (point : List Int) {xs : List α} {ys : List β} (items : List.Forall₂ R xs ys) :
    InStep (List.Forall₂ R) (Grid.descend filler whole axis s point xs)
      (Grid.descend filler' whole axis s point ys) := by
  induction point generalizing axis s xs ys with
  | nil => cases s <;> exact items
  | cons i point ih =>
      cases s with
      | nil => exact items
      | cons d s =>
          simp only [Grid.descend, items.length_eq]
          cases resolveIndex i d with
          | some p =>
              refine Parallel.ite (fun _ => rfl) fun _ => ih _ _ ?_
              exact List.forall₂_take _ (List.forall₂_drop _ items)
          | none =>
              rcases fillers.ok_or_error with ⟨x, y, rfl, rfl, related⟩ | ⟨_, _, rfl, rfl, -⟩
              · exact ih _ _ (forall₂_replicate related _)
              · rfl

theorem pickPoint (h : Alike R a b) (fillers : Filler.Alike R filler filler') (kind kind' : Kind)
    (point : List Int) :
    InStep (Alike R) (a.pickPoint kind filler point) (b.pickPoint kind' filler' point) := by
  obtain ⟨items⟩ := h
  refine InStep.after fun _ _ => ?_
  refine (descend fillers _ 0 _ point items).bind fun cell cell' picked => ?_
  exact Alike.fit ⟨picked⟩ kind kind'

theorem pickedShape (h : Alike R a b) (batch : Shape) (width : Int) :
    a.pickedShape batch width = b.pickedShape batch width := by
  rw [Grid.pickedShape, Grid.pickedShape, h.shape_eq]

theorem pickRows {pickRow : List Int → Except Error (Grid α)}
    {pickRow' : List Int → Except Error (Grid β)}
    (each : ∀ row, InStep (Alike R) (pickRow row) (pickRow' row)) (s : Shape) (count : Nat)
    (index : List Int) :
    InStep (List.Forall₂ (Alike R)) (Grid.pickRows pickRow s count index)
      (Grid.pickRows pickRow' s count index) := by
  refine Parallel.ite (fun _ => ?_) fun _ => Parallel.mapM_same fun row _ => each row
  exact (each index).bind fun cell cell' alike => forall₂_replicate alike count

theorem pickNested (h : Alike R a b) (fillers : Filler.Alike R filler filler')
    (kind kind' : Kind) (s : Shape) (index : List Int) :
    InStep (Alike R) (Grid.pickNested kind filler a s index)
      (Grid.pickNested kind' filler' b s index) := by
  induction s generalizing index with
  | nil => exact h.pickPoint fillers kind kind' index
  | cons d s ih =>
      cases s with
      | nil => exact h.pickPoint fillers kind kind' index
      | cons e s =>
          rw [Grid.pickNested, Grid.pickNested, h.pickedShape]
          refine (pickRows ih (e :: s) d.toNat index).bind fun cells cells' alike => ?_
          exact Alike.fit ⟨flatMap_items alike⟩ kind kind'

theorem pick (h : Alike R a b) (fillers : Filler.Alike R filler filler') (kind kind' : Kind)
    (index : Grid Int) :
    InStep (Alike R) (Grid.pick kind filler index a) (Grid.pick kind' filler' index b) :=
  h.pickNested fillers kind kind' index.shape index.items

theorem selectRow (h : Alike R a b) (fillers : Filler.Alike R filler filler') (i : Int) :
    InStep (List.Forall₂ R) (a.selectRow filler i) (b.selectRow filler' i) := by
  obtain ⟨items⟩ := h
  refine Parallel.ite (fun _ => rfl) fun _ => ?_
  simp only [Grid.rowCount, Grid.rowSize, Grid.rowShape]
  split
  · exact List.forall₂_take _ (List.forall₂_drop _ items)
  · rcases fillers.ok_or_error with ⟨x, y, rfl, rfl, related⟩ | ⟨_, _, rfl, rfl, -⟩
    · exact forall₂_replicate related _
    · rfl

theorem selectRows (h : Alike R a b) (fillers : Filler.Alike R filler filler')
    (index : List Int) :
    InStep (Alike R) (a.selectRows filler index) (b.selectRows filler' index) := by
  have shape : a.rowShape = b.rowShape := congrArg List.tail h.shape_eq
  rw [Grid.selectRows, Grid.selectRows, shape]
  refine (Parallel.mapM_same fun i _ => h.selectRow fillers i).bind ?_
  exact fun rows rows' alike => ⟨List.rel_flatten alike⟩

/-- The shapes of the rows are compared, and those of alike rows are the same. -/
theorem ofRows {rows : List (Grid α)} {rows' : List (Grid β)}
    (alike : List.Forall₂ (Alike R) rows rows') (s : Shape) :
    InStep (Alike R) (Grid.ofRows s rows) (Grid.ofRows s rows') := by
  cases alike with
  | nil => exact ⟨.nil⟩
  | @cons row row' rows rows' head tail =>
      have items := flatMap_items (List.Forall₂.cons head tail)
      have shapes : rows.map (·.shape) = rows'.map (·.shape) :=
        map_eq_map_of_forall₂ (tail.imp fun _ _ same => same.shape_eq)
      have found : (rows.find? fun other => other.shape ≠ row'.shape).map (·.shape) =
          (rows'.find? fun other => other.shape ≠ row'.shape).map (·.shape) := by
        have first := congrArg (List.find? fun other => other ≠ row'.shape) shapes
        rwa [List.find?_map, List.find?_map] at first
      rw [Grid.ofRows, Grid.ofRows, Grid.stack, Grid.stack, head.shape_eq, tail.length_eq]
      cases here : rows.find? fun other => other.shape ≠ row'.shape with
      | some other =>
          rw [here] at found
          obtain ⟨other', there, -⟩ := Option.map_eq_some_iff.mp found.symm
          rw [there]
          rfl
      | none =>
          rw [here] at found
          rw [Option.map_eq_none_iff.mp found.symm]
          exact ⟨items⟩

theorem selectNested (h : Alike R a b) (fillers : Filler.Alike R filler filler') (s : Shape)
    (index : List Int) :
    InStep (Alike R) (Grid.selectNested filler a s index)
      (Grid.selectNested filler' b s index) := by
  have shape : a.rowShape = b.rowShape := congrArg List.tail h.shape_eq
  induction s generalizing index with
  | nil =>
      rw [Grid.selectNested, Grid.selectNested, shape]
      exact (h.selectRows fillers index).bind fun rows rows' alike => alike.withShape _
  | cons d s ih =>
      cases s with
      | nil => exact h.selectRows fillers index
      | cons e s =>
          rw [Grid.selectNested, Grid.selectNested, shape]
          refine Parallel.ite (fun _ => ⟨.nil⟩) fun _ => ?_
          refine (Parallel.mapM_same fun row _ => ih row).bind fun rows rows' alike => ?_
          exact ofRows alike _

theorem select (h : Alike R a b) (fillers : Filler.Alike R filler filler') (index : Grid Int) :
    InStep (Alike R) (Grid.select filler index a) (Grid.select filler' index b) :=
  h.selectNested fillers index.shape index.items

end RowMajor.Grid.Alike
