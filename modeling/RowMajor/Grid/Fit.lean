import RowMajor.Error

/-!
# Grids that fit

Where a shape and elements come from different places, they are put together by `Grid.fit`,
which refuses a shape that does not account for the elements.
-/

namespace RowMajor.Grid

variable {α : Type}

/-- The grid itself, if its shape accounts for its elements. The kind is named in the refusal. -/
def fit (kind : Kind) (a : Grid α) : Except Error (Grid α) :=
  if a.Fits then .ok a else .error (.mismatch kind a.shape a.items.length)

theorem fit_eq_ok {kind : Kind} {a : Grid α} (h : a.Fits) : a.fit kind = .ok a := by
  simp [fit, h]

/-- Nothing but the grid itself comes out. -/
theorem fit_eq_ok_iff {kind : Kind} {a b : Grid α} : a.fit kind = .ok b ↔ a.Fits ∧ a = b := by
  unfold fit
  split <;> simp_all

end RowMajor.Grid
