import RowMajor.Operand.Integers
import RowMajor.Proofs.Grid.Coordinates
import RowMajor.Proofs.Value.WellFormed
import RowMajor.Value.Key

/-!
# Cells of values

An operation and its inverse meet in values of one form, so nothing has to be converted
between them: bringing two such values together gives their grids as they are. What is proved
of grids therefore holds of values, as long as they have the same form.
-/

namespace RowMajor

variable {f : Form} {v w : Value}

theorem Kind.item_injective (k : Kind) : Function.Injective k.item := by
  cases k
  all_goals
    rintro x y ⟨⟩
    rfl

theorem Form.item_injective : (f : Form) → Function.Injective f.item
  | .uniform k => k.item_injective
  | .mixed _ => Function.injective_id

namespace Value

/-- What goes by the form and the grid of a value goes by those that it was made of. -/
theorem form_grid_ofGrid {γ : Type} (result : (f : Form) → Grid f.Element → γ)
    (a : Grid f.Element) : result (ofGrid f a).form (ofGrid f a).grid = result f a := by
  match f with
  | .uniform k => cases k <;> rfl
  | .mixed _ => rfl

theorem exists_form (v : Value) : ∃ (f : Form) (a : Grid f.Element), v = ofGrid f a :=
  ⟨v.form, v.grid, (ofGrid_grid v).symm⟩

/-- A value is a grid of its form. -/
theorem exists_grid (h : v.form = f) : ∃ a : Grid f.Element, v = ofGrid f a := by
  subst h
  exact ⟨v.grid, (ofGrid_grid v).symm⟩

theorem ofGrid_injective (f : Form) : Function.Injective (ofGrid f) := by
  intro a b same
  match f with
  | .uniform k =>
      cases k
      all_goals
        cases same
        rfl
  | .mixed _ =>
      cases same
      rfl

theorem elementCount_ofGrid (a : Grid f.Element) : (ofGrid f a).elementCount = a.items.length :=
  form_grid_ofGrid (fun _ b => b.items.length) a

theorem withShape_ofGrid (s : Shape) (a : Grid f.Element) :
    (ofGrid f a).withShape s = ofGrid f (a.withShape s) :=
  form_grid_ofGrid (fun g b => ofGrid g (b.withShape s)) a

theorem shape_withShape (s : Shape) (v : Value) : (v.withShape s).shape = s :=
  shape_ofGrid ..

theorem withShape_withShape (s t : Shape) (v : Value) :
    (v.withShape s).withShape t = v.withShape t := by
  obtain ⟨f, a, rfl⟩ := v.exists_form
  rw [withShape_ofGrid, withShape_ofGrid, withShape_ofGrid]
  rfl

theorem withShape_shape (v : Value) : v.withShape v.shape = v := by
  obtain ⟨f, a, rfl⟩ := v.exists_form
  rw [withShape_ofGrid, shape_ofGrid]
  rfl

/-- Without a fill value there is nothing to promote for. -/
theorem promoteFor_none (v : Value) : v.promoteFor .none = .ok v := by
  cases v with
  | mixed k a => cases k <;> rfl
  | _ => rfl

theorem itemGrid_ofGrid (a : Grid f.Element) : (ofGrid f a).itemGrid = a.map f.item :=
  form_grid_ofGrid (fun g b => b.map g.item) a

/-- The element at a coordinate vector, as one of any kind. -/
def cell? (v : Value) (index : List Nat) : Option (Item Value) :=
  v.itemGrid.get? index

theorem cell?_ofGrid (a : Grid f.Element) (index : List Nat) :
    (ofGrid f a).cell? index = (a.get? index).map f.item := by
  rw [cell?, itemGrid_ofGrid, Grid.get?_map]

/-- Well-formed values of one form and shape are equal if their elements are. -/
theorem WellFormed.ext (hv : v.WellFormed) (hw : w.WellFormed) (form : v.form = w.form)
    (shape : v.shape = w.shape)
    (same : ∀ index ∈ v.shape.coordinates, v.cell? index = w.cell? index) : v = w := by
  obtain ⟨f, a, rfl⟩ := v.exists_form
  obtain ⟨b, rfl⟩ := exists_grid (form.symm.trans (form_ofGrid f a))
  rw [shape_ofGrid, shape_ofGrid] at shape
  congr 1
  apply (wellFormed_ofGrid_iff.mp hv).2.wellFormed.ext (wellFormed_ofGrid_iff.mp hw).2.wellFormed
    shape
  intro index mem
  have here := same index (by rwa [shape_ofGrid])
  rw [cell?_ofGrid, cell?_ofGrid] at here
  exact Option.map_injective f.item_injective here

/-- The length of the leading axis; a value without axes counts as one row. -/
def rowCount (v : Value) : Int :=
  v.grid.rowCount

@[simp] theorem rowCount_ofGrid (a : Grid f.Element) : (ofGrid f a).rowCount = a.rowCount :=
  form_grid_ofGrid (fun _ b => b.rowCount) a

theorem rows_ofGrid (a : Grid f.Element) : (ofGrid f a).rows = a.rows.map (ofGrid f) :=
  form_grid_ofGrid (fun g b => b.rows.map (ofGrid g)) a

/-- Grids that have a row in common are values that have it in common. -/
theorem getElem?_rows_ofGrid {a b : Grid f.Element} {i j : Nat} (same : a.rows[i]? = b.rows[j]?) :
    (ofGrid f a).rows[i]? = (ofGrid f b).rows[j]? := by
  rw [rows_ofGrid, rows_ofGrid, List.getElem?_map, List.getElem?_map, same]

@[simp] theorem grid_ofGrid_wellFormed (a : Grid f.Element) :
    (ofGrid f a).grid.WellFormed ↔ a.WellFormed :=
  iff_of_eq (form_grid_ofGrid (fun _ b => b.WellFormed) a)

theorem key_ofGrid (a : Grid f.Element) :
    (ofGrid f a).key = .value f.kind.family a.shape (a.items.map f.key) := by
  rw [key_eq, kind_ofGrid, shape_ofGrid]
  exact congrArg _ (form_grid_ofGrid (fun g b => b.items.map g.key) a)

/-- The keys of the elements, in their places. -/
def keyGrid (v : Value) : Grid Key :=
  v.grid.map v.form.key

theorem keyGrid_ofGrid (a : Grid f.Element) : (ofGrid f a).keyGrid = a.map f.key :=
  form_grid_ofGrid (fun g b => b.map g.key) a

theorem rank_ofGrid (a : Grid f.Element) : (ofGrid f a).rank = a.rank := by
  rw [rank, shape_ofGrid, Grid.rank]

/-- Well-formed values of one kind are grids of one form. -/
theorem exists_grids {a b : Value} (ha : a.WellFormed) (hb : b.WellFormed)
    (same : a.kind = b.kind) :
    ∃ (f : Form) (x y : Grid f.Element), a = ofGrid f x ∧ b = ofGrid f y := by
  have form : b.form = a.form := by
    rw [ha.isUniform, hb.isUniform]
    exact congrArg Form.uniform same.symm
  obtain ⟨y, here⟩ := exists_grid form
  exact ⟨a.form, a.grid, y, (ofGrid_grid a).symm, here⟩

/-- The cell below some leading coordinates. -/
def cellAt (place : List Nat) (v : Value) : Value :=
  .ofGrid v.form (v.grid.cellAt place)

theorem cellAt_ofGrid (place : List Nat) (a : Grid f.Element) :
    (ofGrid f a).cellAt place = ofGrid f (a.cellAt place) :=
  form_grid_ofGrid (fun g b => ofGrid g (b.cellAt place)) a

theorem unify_ofGrid (pairing : Pairing) (a b : Grid f.Element) :
    unify pairing (ofGrid f a) (ofGrid f b) = .ok ⟨f, a, b⟩ := by
  match f with
  | .uniform k => cases k <;> rfl
  | .mixed k => cases k <;> rfl

end Value

end RowMajor
