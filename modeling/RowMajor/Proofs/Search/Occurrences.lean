import Mathlib.Data.List.Basic
import RowMajor.Proofs.Search.Agreement
import RowMajor.Proofs.Value.Cells

/-!
# Occurrences of rows

The rows of a value are compared by their keys. The dictionary of a search holds for every
key the positions at which it occurs, in order, so what a search does is said in terms of the
occurrences of a key in a list. It makes no difference whether rows are keyed as values or,
where all have the same shape, by the keys of their elements.
-/

namespace RowMajor

section

/-- The places at which a predicate holds, one after the other. -/
theorem getElem?_findIdxs_getD {α : Type} (p : α → Bool) (items : List α) (n : Nat) :
    (items.findIdxs p)[n]?.getD items.length = items.findIdxNth p n := by
  by_cases there : n < (items.findIdxs p).length
  · rw [List.getElem?_eq_getElem there, Option.getD_some, List.getElem_findIdxs_eq_findIdxNth]
  · rw [List.getElem?_eq_none (Nat.not_lt.mp there), Option.getD_none]
    rw [List.length_findIdxs] at there
    exact (List.findIdxNth_eq_length_of_ge_countP (Nat.not_lt.mp there)).symm

variable {κ κ' : Type} [DecidableEq κ] [DecidableEq κ'] {φ : κ → κ'} (injective : φ.Injective)
include injective

theorem eq_comp_of_injective (key : κ) :
    (fun other => decide (other = φ key)) ∘ φ = fun other => decide (other = key) :=
  funext fun _ => decide_eq_decide.mpr injective.eq_iff

theorem findIdx_map_of_injective (keys : List κ) (key : κ) :
    (keys.map φ).findIdx (· = φ key) = keys.findIdx (· = key) := by
  rw [List.findIdx_map, eq_comp_of_injective injective]

theorem findIdxNth_map_of_injective (keys : List κ) (key : κ) (n : Nat) :
    (keys.map φ).findIdxNth (· = φ key) n = keys.findIdxNth (· = key) n := by
  rw [← getElem?_findIdxs_getD, List.findIdxs_map, eq_comp_of_injective injective,
    List.length_map, getElem?_findIdxs_getD]

theorem countPBefore_map_of_injective (keys : List κ) (key : κ) (j : Nat) :
    (keys.map φ).countPBefore (· = φ key) j = keys.countPBefore (· = key) j := by
  rw [List.countPBefore_eq_countP_take, ← List.map_take, List.countP_map,
    eq_comp_of_injective injective, List.countPBefore_eq_countP_take]

end

namespace Value

/-- The keys of the rows, in order. -/
def rowKeys (v : Value) : List Key :=
  v.rows.map key

theorem length_rowKeys (v : Value) : v.rowKeys.length = v.rows.length :=
  List.length_map key

theorem getElem?_rowKeys_of_row {v row : Value} {i : Nat} (here : v.rows[i]? = some row) :
    v.rowKeys[i]? = some row.key := by
  rw [rowKeys, List.getElem?_map, here]
  rfl

end Value

namespace Search

variable {κ : Type} [DecidableEq κ] {f : Form} {b : Grid f.Element}

theorem rows_length_ofGrid (b : Grid f.Element) :
    (Value.ofGrid f b).rows.length = b.rows.length := by
  rw [Value.rows_ofGrid, List.length_map]

/-- The number of rows of a well-formed grid. -/
theorem ofNat_length_rows (h : b.WellFormed) : Int.ofNat b.rows.length = b.rowCount := by
  rw [Grid.length_rows]
  exact Int.toNat_of_nonneg h.rowCount_nonneg

/-- Rows of one shape are told apart by the keys of their elements. -/
theorem rowKeys_ofGrid (b : Grid f.Element) :
    (Value.ofGrid f b).rowKeys =
      (rowItems (b.map f.key)).map (Key.value f.kind.family b.rowShape) := by
  rw [Value.rowKeys, Value.rows_ofGrid, rowItems_map, rowItems, List.map_map, List.map_map,
    List.map_map]
  refine List.map_congr_left fun row mem => ?_
  rw [Function.comp_apply, Value.key_ofGrid, Grid.shape_of_mem_rows mem]
  rfl

theorem injective_value (family : Family) (shape : Shape) : (Key.value family shape).Injective :=
  fun _ _ same => (Key.value.inj same).2.2

/-- A row of another shape is not among those of a grid. -/
theorem key_notMem_rowKeys {row : Grid f.Element} (apart : row.shape ≠ b.rowShape) :
    (Value.ofGrid f row).key ∉ (Value.ofGrid f b).rowKeys := by
  rw [rowKeys_ofGrid, Value.key_ofGrid]
  intro mem
  obtain ⟨items, -, same⟩ := List.mem_map.mp mem
  exact apart (Key.value.inj same).2.1.symm

/-- A line for a key is true where the key occurs. -/
theorem truePlaces_lineOf (keys : List κ) (key : κ) :
    truePlaces (lineOf keys key) = keys.findIdxs (· = key) := by
  induction keys using List.reverseRecOn with
  | nil => rfl
  | append_singleton keys last ih =>
      rw [lineOf, List.map_append, List.map_singleton, truePlaces_concat, List.length_map,
        ← lineOf, ih, List.findIdxs_append, List.findIdxs_singleton, Nat.zero_add]
      simp only [eq_comm]

theorem placesOf_ofKeys_eq (keys : List κ) (key : κ) :
    (Positions.ofKeys keys).placesOf key = keys.findIdxs (· = key) := by
  rw [placesOf_ofKeys, truePlaces_lineOf]

end Search

end RowMajor
