import RowMajor.Proofs.Search.Consumption
import RowMajor.Proofs.Search.Positions
import RowMajor.Proofs.Search.Windows

/-!
# Searches do not depend on the names of keys

A search compares keys and does nothing else with them. If every key is renamed, and
different keys get different names, the same rows and windows are found at the same
places. The elements behind the keys may be of another form after the renaming.
-/

namespace RowMajor.Search

variable {ψ : Key → Key} {f g : Form}

theorem membersByKey_map_of_injective {κ κ' : Type} [DecidableEq κ] [DecidableEq κ'] {φ : κ → κ'}
    (injective : φ.Injective) (queries searched : List κ) :
    membersByKey (queries.map φ) (searched.map φ) = membersByKey queries searched := by
  rw [membersByKey_eq, membersByKey_eq, List.map_map]
  refine List.map_congr_left fun query _ => ?_
  rw [Function.comp_apply, findIdx_map_of_injective injective, List.length_map]

theorem firstByKey_map_of_injective {κ κ' : Type} [DecidableEq κ] [DecidableEq κ'] {φ : κ → κ'}
    (injective : φ.Injective) (queries searched : List κ) :
    firstByKey (queries.map φ) (searched.map φ) = firstByKey queries searched := by
  rw [firstByKey_eq, firstByKey_eq, List.map_map]
  refine List.map_congr_left fun query _ => ?_
  rw [Function.comp_apply, findIdx_map_of_injective injective]

theorem Question.byKey_map_of_injective (question : Question) (injective : ψ.Injective)
    (queries searched : List (List Key)) :
    question.byKey (queries.map (List.map ψ)) (searched.map (List.map ψ)) =
      question.byKey queries searched := by
  have rows := List.map_injective_iff.mpr injective
  cases question with
  | member => exact membersByKey_map_of_injective rows queries searched
  | first => exact firstByKey_map_of_injective rows queries searched
  | next => exact nextByKey_map_of_injective rows queries searched

/-- The keys of one grid are those of another under new names. -/
def Renamed (ψ : Key → Key) (a : Grid f.Element) (a' : Grid g.Element) : Prop :=
  a'.map g.key = (a.map f.key).map ψ

namespace Renamed

variable {a b : Grid f.Element} {a' b' : Grid g.Element}

theorem shape_eq (h : Renamed ψ a a') : a'.shape = a.shape :=
  congrArg Grid.shape h

theorem map_key_eq (h : Renamed ψ a a') : a'.items.map g.key = (a.items.map f.key).map ψ :=
  congrArg Grid.items h

theorem length_eq (h : Renamed ψ a a') : a'.items.length = a.items.length := by
  have lengths := congrArg List.length h.map_key_eq
  rwa [List.length_map, List.length_map, List.length_map] at lengths

theorem cells (h : Renamed ψ a a') (depth : Nat) :
    List.Forall₂ (Renamed ψ) (a.cells depth) (a'.cells depth) := by
  have keys : (a'.cells depth).map (Grid.map g.key) =
      (a.cells depth).map fun cell => (cell.map f.key).map ψ := by
    rw [← Grid.cells_map, h, Grid.cells_map, Grid.cells_map, List.map_map]
    rfl
  rw [← List.forall₂_eq_eq_eq, List.forall₂_map_left_iff, List.forall₂_map_right_iff] at keys
  exact keys.flip

theorem rowItems (h : Renamed ψ a a') :
    rowItems (a'.map g.key) = (rowItems (a.map f.key)).map (List.map ψ) := by
  rw [h, rowItems_map]

theorem rowShape_eq (h : Renamed ψ a a') : a'.rowShape = a.rowShape :=
  congrArg List.tail h.shape_eq

theorem rowCount_eq (h : Renamed ψ a a') : a'.rowCount = a.rowCount :=
  congrArg (List.headD · 1) h.shape_eq

theorem rank_eq (h : Renamed ψ a a') : a'.rank = a.rank :=
  congrArg List.length h.shape_eq

theorem amongRows (injective : ψ.Injective) (question : Question) (ha : Renamed ψ a a')
    (hb : Renamed ψ b b') :
    amongRows question .keysOnly g a' b' = amongRows question .keysOnly f a b := by
  rw [Search.amongRows, Search.amongRows, ha.rowShape_eq, hb.rowShape_eq, ha.rowCount_eq,
    hb.rowCount_eq, amongEqualRows_keysOnly, amongEqualRows_keysOnly, ha.rowItems, hb.rowItems,
    question.byKey_map_of_injective injective]

theorem rowPosition (injective : ψ.Injective) (ha : Renamed ψ a a') (hb : Renamed ψ b b') :
    rowPosition g a' b' = rowPosition f a b := by
  have sizes : b'.rowSize = b.rowSize := congrArg Shape.volume hb.rowShape_eq
  rw [Search.rowPosition, Search.rowPosition, ha.shape_eq, hb.rowShape_eq, hb.rowCount_eq, sizes,
    hb.rowItems, ha.map_key_eq, findIdx_map_of_injective (List.map_injective_iff.mpr injective)]

theorem storedRows (injective : ψ.Injective) (question : Question) (ha : Renamed ψ a a')
    (hb : Renamed ψ b b') :
    storedRows question .keysOnly g a' b' = storedRows question .keysOnly f a b := by
  rw [Search.storedRows, Search.storedRows, ha.rowShape_eq, hb.rowShape_eq, hb.rowCount_eq,
    ha.amongRows injective question hb]

/-- Every question has the same answers. -/
theorem answers (injective : ψ.Injective) (question : Question) (ha : Renamed ψ a a')
    (hb : Renamed ψ b b') :
    answers question .keysOnly g a' b' = answers question .keysOnly f a b := by
  have parts (depth : Nat) : (a'.cells depth).mapM (fun cell =>
        Search.storedRows question .keysOnly g cell b' >>= fun items =>
          Grid.fit question.kind ⟨cell.shape.take 1, items⟩) =
      (a.cells depth).mapM (fun cell =>
        Search.storedRows question .keysOnly f cell b >>= fun items =>
          Grid.fit question.kind ⟨cell.shape.take 1, items⟩) := by
    refine (Outcome.mapM_eq_of_forall₂ ((ha.cells depth).imp fun cell cell' renamed => ?_)).symm
    rw [renamed.shape_eq, renamed.storedRows injective question hb]
  have positions (depth : Nat) : (b'.cells depth).mapM (fun cell =>
        question.store (question.answerAt (Search.rowPosition g a' cell) cell.rowCount)) =
      (b.cells depth).mapM (fun cell =>
        question.store (question.answerAt (Search.rowPosition f a cell) cell.rowCount)) := by
    refine (Outcome.mapM_eq_of_forall₂ ((hb.cells depth).imp fun cell cell' renamed => ?_)).symm
    rw [ha.rowPosition injective renamed, renamed.rowCount_eq]
  simp only [Search.answers, parts, positions]
  rw [ha.rank_eq, hb.rank_eq, ha.shape_eq, hb.shape_eq]

theorem wellFormed (h : Renamed ψ a a') (wf : a.WellFormed) : a'.WellFormed := by
  rw [Grid.wellFormed_iff, h.shape_eq, h.length_eq]
  exact Grid.wellFormed_iff.mp wf

/-- The same windows are found. -/
theorem find (injective : ψ.Injective) (ha : Renamed ψ a a') (hb : Renamed ψ b b')
    (wf : b.WellFormed) :
    find .keysOnly g none a' b' = find .keysOnly f none a b := by
  by_cases fits : FitsIn a.shape b.shape
  · have fits' : FitsIn a'.shape b'.shape := ha.shape_eq ▸ hb.shape_eq ▸ fits
    have windows : matchWindows ((a.map f.key).map ψ) ((b.map f.key).map ψ) =
        matchWindows ((a.map f.key).map id) ((b.map f.key).map id) :=
      matchWindows_map fun _ _ _ _ => injective.eq_iff
    rw [find_of_fitsIn wf fits, find_of_fitsIn (hb.wellFormed wf) fits', ha, hb, windows,
      Grid.map_id, Grid.map_id]
  · have apart : ¬ FitsIn a'.shape b'.shape := ha.shape_eq ▸ hb.shape_eq ▸ fits
    rw [find_without_fill fits, find_without_fill apart, hb.length_eq, hb.shape_eq]

end Renamed

end RowMajor.Search
