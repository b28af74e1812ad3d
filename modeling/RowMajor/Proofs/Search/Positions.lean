import RowMajor.Proofs.Grid.Tables
import RowMajor.Proofs.Search.Answers

/-!
# First positions of rows

Where a row stands first among the rows of a value is found in three ways: by a table of
the rows' keys, by comparing one row after the other, and not at all where the shapes of the
rows cannot agree. All of them come to `Value.firstRow`, and `member` only compares it with
the number of rows. What remains is which cells are looked for in which: if the first value
has enough axes, its cells are the rows of the second, and otherwise it is looked for itself
in the cells of the second. The positions are stored as numbers, and these equal them as long as
they are not too large.
-/

namespace RowMajor

namespace Value

/-- The position is that of the first row equal to a value, or the number of rows if there is
none. -/
structure IsFirstRow (row v : Value) (i : Nat) : Prop where
  bound : i ≤ v.rows.length
  equal : ∀ other, v.rows[i]? = some other → other.key = row.key
  before : ∀ j < i, ∀ other, v.rows[j]? = some other → other.key ≠ row.key

/-- The position of the first row that is equal to a value, or the number of rows. -/
def firstRow (row v : Value) : Nat :=
  v.rowKeys.findIdx (· = row.key)

theorem isFirstRow_firstRow (row v : Value) : IsFirstRow row v (row.firstRow v) where
  bound := v.length_rowKeys ▸ List.findIdx_le_length
  equal := by
    intro other here
    obtain ⟨there, same⟩ := List.getElem?_eq_some_iff.mp (getElem?_rowKeys_of_row here)
    rw [← same]
    exact of_decide_eq_true (List.findIdx_getElem (w := there))
  before := by
    intro j early other here
    obtain ⟨there, same⟩ := List.getElem?_eq_some_iff.mp (getElem?_rowKeys_of_row here)
    rw [← same]
    exact of_decide_eq_false (List.not_of_lt_findIdx early)

end Value

namespace Search

variable {κ : Type} [DecidableEq κ] {k : Kind} {f : Form} {question : Question}

theorem firstByKey_eq (queries searched : List κ) :
    firstByKey queries searched = queries.map fun query => searched.findIdx (· = query) := by
  rw [firstByKey]
  refine List.map_congr_left fun query _ => ?_
  rw [placesOf_ofKeys_eq, List.headD_eq_head?_getD, List.head?_eq_getElem?,
    getElem?_findIdxs_getD, List.findIdxNth_zero]

theorem membersByKey_eq (queries searched : List κ) :
    membersByKey queries searched = queries.map fun query =>
      if searched.findIdx (· = query) < searched.length then 1 else 0 := by
  rw [membersByKey]
  refine List.map_congr_left fun query _ => ?_
  simp only [List.findIdx_lt_length, decide_eq_true_eq, exists_eq_right]
  by_cases mem : query ∈ searched <;> simp [mem]

theorem Question.byKey_eq_map (single : question ≠ .next) (queries searched : List (List Key)) :
    (question.byKey queries searched).map Int.ofNat = queries.map fun query =>
      question.answerAt (Int.ofNat (searched.findIdx (· = query))) (Int.ofNat searched.length) := by
  cases question with
  | member =>
      rw [byKey, membersByKey_eq, List.map_map]
      refine List.map_congr_left fun query _ => ?_
      simp only [Function.comp_apply, answerAt, Int.ofNat_eq_natCast, Int.ofNat_lt]
      split <;> rfl
  | first =>
      rw [byKey, firstByKey_eq, List.map_map]
      rfl
  | next => exact absurd rfl single

section

variable {row a b : Grid f.Element}

/-- Rows of another shape are not among those of a grid. -/
theorem firstRow_of_shape_ne (apart : row.shape ≠ b.rowShape) :
    (Value.ofGrid f row).firstRow (.ofGrid f b) = b.rows.length := by
  rw [Value.firstRow, ← rows_length_ofGrid, ← Value.length_rowKeys]
  refine List.findIdx_eq_length_of_false fun other mem => decide_eq_false ?_
  rintro rfl
  exact key_notMem_rowKeys apart mem

theorem isFirstRow_of_shape_ne (apart : row.shape ≠ b.rowShape) :
    (Value.ofGrid f row).IsFirstRow (.ofGrid f b) b.rowCount.toNat := by
  have first := Value.isFirstRow_firstRow (.ofGrid f row) (.ofGrid f b)
  rwa [firstRow_of_shape_ne apart, Grid.length_rows] at first

/-- Of rows of the right shape only the elements are compared. -/
theorem firstRow_of_shape_eq (same : row.shape = b.rowShape) :
    (Value.ofGrid f row).firstRow (.ofGrid f b) =
      (rowItems (b.map f.key)).findIdx (· = row.items.map f.key) := by
  rw [Value.firstRow, rowKeys_ofGrid, Value.key_ofGrid, same]
  exact findIdx_map_of_injective (injective_value ..) _ _

/-- Rows without elements are all equal. -/
theorem findIdx_rowItems_of_empty (h : b.WellFormed) (empty : b.rowShape.cellCount = 0) :
    (rowItems (b.map f.key)).findIdx (· = []) = 0 := by
  cases rows : rowItems (b.map f.key) with
  | nil => rfl
  | cons first rest =>
      have mem : first ∈ rowItems (b.map f.key) := rows ▸ List.mem_cons_self
      have length := length_of_mem_rowItems (h.map f.key) mem
      have none : first = [] := List.length_eq_zero_iff.mp (length.trans empty)
      rw [none, List.findIdx_cons, decide_eq_true rfl]
      rfl

theorem rowPosition_eq (hr : row.WellFormed) (hb : b.WellFormed) :
    rowPosition f row b = Int.ofNat ((Value.ofGrid f row).firstRow (.ofGrid f b)) := by
  rw [rowPosition]
  split
  · rename_i apart
    rcases apart with apart | negative
    · rw [firstRow_of_shape_ne apart, ofNat_length_rows hb]
    · exact absurd hb.rowCount_nonneg (Int.not_le.mpr negative)
  · rename_i comparable
    have same : row.shape = b.rowShape := not_not.mp (not_or.mp comparable).1
    rw [firstRow_of_shape_eq same]
    split
    · rename_i empty
      rw [hb.rowSize_eq] at empty
      have none : row.items = [] := by
        rw [← List.length_eq_zero_iff, hr.length_eq, same, empty]
      rw [none, List.map_nil, findIdx_rowItems_of_empty hb empty]
      rfl
    · rfl

/-- Asked about several rows at once, the answers are those for the rows one by one. -/
theorem amongRows_eq_map (single : question ≠ .next) (ha : a.WellFormed) (hb : b.WellFormed) :
    amongRows question .keysOnly f a b = a.rows.map fun row =>
      question.answerAt (rowPosition f row b) b.rowCount := by
  rw [amongRows]
  split
  · rename_i apart
    have apart : a.rowShape ≠ b.rowShape := apart.resolve_right (Int.not_lt.mpr hb.rowCount_nonneg)
    rw [← Grid.length_rows, ← List.map_const']
    refine List.map_congr_left fun row mem => ?_
    have other : row.shape ≠ b.rowShape := Grid.shape_of_mem_rows mem ▸ apart
    rw [rowPosition, if_pos (.inl other)]
  · rename_i comparable
    have same : a.rowShape = b.rowShape := not_not.mp (not_or.mp comparable).1
    have count : Int.ofNat (rowItems (b.map f.key)).length = b.rowCount := by
      rw [rowItems_map, List.length_map, rowItems, List.length_map, ofNat_length_rows hb]
    have queries : rowItems (a.map f.key) = a.rows.map fun row => row.items.map f.key := by
      rw [rowItems_map, rowItems, List.map_map]
      rfl
    simp only [amongEqualRows, codePair?_keysOnly, ite_self]
    rw [question.byKey_eq_map single, count, queries, List.map_map]
    refine List.map_congr_left fun row mem => ?_
    rw [rowPosition_eq (ha.rows mem) hb,
      firstRow_of_shape_eq ((Grid.shape_of_mem_rows mem).trans same)]
    rfl

/-- If the first grid has as many axes as the second or more, every cell of it that has the rank of
a row is answered for. -/
theorem exactAnswers_eq_of_rank_le (single : question ≠ .next) (ha : a.WellFormed)
    (hb : b.WellFormed) (rank : b.rank ≤ a.rank) :
    exactAnswers question f a b =
      .tabulate (a.shape.take (a.rank - b.rank + 1)) fun place =>
        question.answerAt (rowPosition f (a.cellAt place) b) b.rowCount := by
  have each : ∀ cell ∈ a.cells (a.rank - b.rank), amongRows question .keysOnly f cell b =
      cell.rows.map fun row => question.answerAt (rowPosition f row b) b.rowCount :=
    fun cell mem => amongRows_eq_map single (ha.cells mem) hb
  rw [exactAnswers_of_rank_le rank, List.flatMap_congr each, ← List.map_flatMap,
    Grid.flatMap_rows_cells ha, Grid.cells_eq_map ha.natural, List.map_map]
  rfl

/-- If it has fewer, it is looked for itself, in every cell of the second that has one axis more. -/
theorem exactAnswers_eq_of_rank_lt (hb : b.WellFormed) (rank : a.rank < b.rank) :
    exactAnswers question f a b = .tabulate (b.shape.take (b.rank - a.rank - 1)) fun place =>
      question.answerAt (rowPosition f a (b.cellAt place)) (b.cellAt place).rowCount := by
  rw [exactAnswers_of_rank_lt rank, Grid.cells_eq_map hb.natural, List.map_map]
  rfl

end

end Search

/-- What is answered for a row that is looked for in a value: its first position, and a byte that is
one if there is such a position. -/
def Located (row v : Value) (position : Option Int) (found : Option UInt8) : Prop :=
  ∃ i, row.IsFirstRow v i ∧ position = some (Int.ofNat i) ∧
    found = some (if i < v.rows.length then 1 else 0)

namespace Search

variable {f : Form} {row a b : Grid f.Element}

theorem located_of_rowPosition (hr : row.WellFormed) (hb : b.WellFormed) :
    Located (.ofGrid f row) (.ofGrid f b) (some (rowPosition f row b))
      (some (.ofNat (Question.member.answerAt (rowPosition f row b) b.rowCount).toNat)) := by
  rw [rowPosition_eq hr hb, ← ofNat_length_rows hb]
  refine ⟨_, Value.isFirstRow_firstRow _ _, rfl, ?_⟩
  simp only [Question.answerAt, Int.ofNat_eq_natCast, Int.ofNat_lt, rows_length_ofGrid]
  split <;> rfl

/-- Where both questions are answered cell by cell, the answers locate rows. -/
theorem located_of_exactAnswers {s : Shape} {query searched : List Nat → Grid f.Element}
    (natural : s.Natural)
    (cells : ∀ place ∈ s.coordinates, (query place).WellFormed ∧ (searched place).WellFormed)
    (answered : ∀ question ≠ .next, exactAnswers question f a b =
      .tabulate s fun place => question.answerAt (rowPosition f (query place) (searched place))
        (searched place).rowCount) :
    (exactAnswers .first f a b).shape = s ∧ ∀ place ∈ s.coordinates,
      Located (.ofGrid f (query place)) (.ofGrid f (searched place))
        ((exactAnswers .first f a b).get? place)
        (((exactAnswers .member f a b).map fun n => UInt8.ofNat n.toNat).get? place) := by
  rw [answered .first (by decide), answered .member (by decide), Grid.map_tabulate]
  refine ⟨Grid.shape_tabulate .., fun place mem => ?_⟩
  rw [Grid.get?_tabulate natural mem, Grid.get?_tabulate natural mem]
  obtain ⟨hq, hs⟩ := cells place mem
  exact located_of_rowPosition hq hs

theorem shape_exactAnswers (question question' : Question) (f : Form) (a b : Grid f.Element) :
    (exactAnswers question f a b).shape = (exactAnswers question' f a b).shape := by
  rw [exactAnswers, exactAnswers]
  split <;> rfl

end Search

/-- Every row is located among the rows of the other value, whichever of the two has more axes. If
the first has as many or more, its cells of the rank of a row are located, and otherwise it is
located itself in every cell of the second with one axis more. The positions are given out as
numbers, and these equal them as long as every position is a number. -/
theorem indexOf_locates_rows {a b : Value} (ha : a.WellFormed) (hb : b.WellFormed)
    (same : a.kind = b.kind) (options : Search.Options) :
    ∃ (positions : Grid Int) (found : Grid UInt8),
      Search.PositionsGiven a.shape b.shape positions
        (indexOf (.value a) (.value b) options) ∧
      (Search.PositionsExact positions (indexOf (.value a) (.value b) options) ↔
        (Search.CountStored a.shape b.shape →
          (Binary64.rounded? (Search.searchedCount a.shape b.shape)).isSome) ∧
        ∀ n ∈ positions.items, Binary64.rounded? n = some n) ∧
      member (.value a) (.value b) options = .ok (.byte found) ∧
      positions.WellFormed ∧ found.WellFormed ∧ found.shape = positions.shape ∧
      (b.rank ≤ a.rank → positions.shape = a.shape.take (a.rank - b.rank + 1) ∧
        ∀ place ∈ positions.shape.coordinates,
          Located (a.cellAt place) b (positions.get? place) (found.get? place)) ∧
      (a.rank < b.rank → positions.shape = b.shape.take (b.rank - a.rank - 1) ∧
        ∀ place ∈ positions.shape.coordinates,
          Located a (b.cellAt place) (positions.get? place) (found.get? place)) := by
  obtain ⟨f, a, b, rfl, rfl⟩ := Value.exists_grids ha hb same
  have wfA := (Value.wellFormed_ofGrid_iff.mp ha).2.wellFormed
  have wfB := (Value.wellFormed_ofGrid_iff.mp hb).2.wellFormed
  have given : Search.PositionsGiven a.shape b.shape (Search.exactAnswers .first f a b)
      (Search.given .first f a b) := Search.given_positions (by decide) wfA wfB
  rw [indexOf_ofGrid ha hb options, member_ofGrid ha hb options, Search.given_member wfA wfB]
  simp only [Value.rank_ofGrid, Value.shape_ofGrid, Value.cellAt_ofGrid]
  refine ⟨_, _, given, given.exact_iff, rfl, Search.exactAnswers_wellFormed .first wfA wfB,
    (Search.exactAnswers_wellFormed .member wfA wfB).map _,
    Search.shape_exactAnswers .member .first f a b, fun enough => ?_, fun less => ?_⟩
  · have cells : ∀ place ∈ Shape.coordinates (a.shape.take (a.rank - b.rank + 1)),
        (a.cellAt place).WellFormed ∧ b.WellFormed := fun place mem =>
      ⟨wfA.cellAt (Shape.length_le_of_mem_take mem) (Shape.contains_of_mem_take mem), wfB⟩
    obtain ⟨shape, located⟩ := Search.located_of_exactAnswers (wfA.natural.take _) cells
      fun question single => Search.exactAnswers_eq_of_rank_le single wfA wfB enough
    exact ⟨shape, shape.symm ▸ located⟩
  · have cells : ∀ place ∈ Shape.coordinates (b.shape.take (b.rank - a.rank - 1)),
        a.WellFormed ∧ (b.cellAt place).WellFormed := fun place mem =>
      ⟨wfA, wfB.cellAt (Shape.length_le_of_mem_take mem) (Shape.contains_of_mem_take mem)⟩
    obtain ⟨shape, located⟩ := Search.located_of_exactAnswers (wfB.natural.take _) cells
      fun question _ => Search.exactAnswers_eq_of_rank_lt wfB less
    exact ⟨shape, shape.symm ▸ located⟩

/-- The letters of a table are located in a word. -/
theorem letters_located :
    let a : Value := .character ⟨[2, 2], ['a', 'b', 'c', 'd']⟩
    let b : Value := .character ⟨[3], ['d', 'a', 'd']⟩
    a.WellFormed ∧ b.WellFormed ∧ a.kind = b.kind ∧
      ∃ (positions : Grid Int) (found : Grid UInt8),
        Search.PositionsGiven a.shape b.shape positions
          (indexOf (.value a) (.value b) .standard) ∧
        member (.value a) (.value b) .standard = .ok (.byte found) ∧
        positions.shape = [2, 2] ∧ found.shape = [2, 2] ∧
        ∀ place ∈ positions.shape.coordinates,
          Located (a.cellAt place) b (positions.get? place) (found.get? place) := by
  intro a b
  have ha : a.WellFormed := .character (by decide)
  have hb : b.WellFormed := .character (by decide)
  obtain ⟨positions, found, given, -, members, -, -, shapes, cells, -⟩ :=
    indexOf_locates_rows ha hb rfl .standard
  obtain ⟨shape, located⟩ := cells (by decide)
  exact ⟨ha, hb, rfl, positions, found, given, members, shape, shapes.trans shape, located⟩

/-- A row that is none of `2 ^ 53 + 1` empty ones is answered with the position of the last. -/
theorem absent_row_given_position :
    let row : Value := .byte ⟨[1, 1], [1]⟩
    let table : Value := .byte ⟨[9007199254740993, 0], []⟩
    row.WellFormed ∧ table.WellFormed ∧ row.kind = table.kind ∧ table.rank ≤ row.rank ∧
      (row.cellAt [0]).IsFirstRow table 9007199254740993 ∧
      member (.value row) (.value table) .standard = .ok (.byte ⟨[1], [0]⟩) ∧
      ∃ x, indexOf (.value row) (.value table) .standard = .ok (.number ⟨[1], [x]⟩) ∧
        x.toInt? = some 9007199254740992 := by
  intro row table
  have wfR : Grid.WellFormed (⟨[1, 1], [1]⟩ : Grid UInt8) := by decide
  have wfT : Grid.WellFormed (⟨[9007199254740993, 0], []⟩ : Grid UInt8) := by decide
  have apart : (⟨[1], [1]⟩ : Grid UInt8).shape ≠
      (⟨[9007199254740993, 0], []⟩ : Grid UInt8).rowShape := by decide
  have absent := Search.isFirstRow_of_shape_ne (f := .uniform .byte) apart
  have count : (Grid.rowCount (⟨[9007199254740993, 0], []⟩ : Grid UInt8)).toNat =
      9007199254740993 := rfl
  rw [count] at absent
  have asked := indexOf_ofGrid (f := .uniform .byte) (.byte wfR) (.byte wfT) .standard
  have asPosition : Search.Question.first ≠ .member := by decide
  have given := Search.given_positions (f := .uniform .byte) asPosition wfR wfT
  have counted : Search.exactAnswers .first (.uniform .byte) (⟨[1, 1], [1]⟩ : Grid UInt8)
      (⟨[9007199254740993, 0], []⟩ : Grid UInt8) = ⟨[1], [9007199254740993]⟩ := rfl
  have rounded : Binary64.rounded? 9007199254740993 = some 9007199254740992 := by decide +kernel
  rw [counted] at given
  obtain ⟨⟨s, numbers⟩, stored, rfl, equal⟩ :=
    given.of_rounds (fun _ => Option.isSome_of_eq_some rounded) (.cons rounded .nil)
  obtain ⟨x, _, first, rest, rfl⟩ := List.forall₂_cons_right_iff.mp equal
  cases rest
  exact ⟨.byte wfR, .byte wfT, rfl, Nat.le_refl 2, absent, rfl, x, asked.trans stored, first⟩

end RowMajor
