import RowMajor.Proofs.Grid.Assembly
import RowMajor.Proofs.Search.Positions
import RowMajor.Proofs.Select.Undo

/-!
# Selecting rows that were found

The positions of rows among the rows of another value are indices of this value. If every row
occurs, the rows that are selected at the positions are equal to the rows that were looked for, and
they stand in the same order. So the selected rows make up an equal value, if the rows of both have
the same shape, and it does not matter how the first value arranges its rows.

A position is stored as a number, and as itself if it lies below `2 ^ 53`. Rows without elements are
all found at position zero, so in a value of `2 ^ 53` elements or fewer no row stands first at a
position that would be stored as another one.
-/

namespace RowMajor

namespace Operand

theorem asIntegerGrid_number (role : Role) (a : Grid Binary64) :
    asIntegerGrid role (.value (.number a)) =
      a.items.mapM (Binary64.integer role) >>= fun ints => .ok ⟨a.shape, ints⟩ := rfl

/-- Positions that are stored as numbers are read as they are. -/
theorem asIntegerGrid_positions (role : Role) {s : Shape} {places : List Nat}
    (small : ∀ p ∈ places, p < 2 ^ 53) :
    asIntegerGrid role (.value (.number ((Grid.mk s (places.map Int.ofNat)).map .ofSmallInt))) =
      .ok ⟨s, places.map Int.ofNat⟩ := by
  have read : ((places.map Int.ofNat).map Binary64.ofSmallInt).mapM (Binary64.integer role) =
      .ok (places.map Int.ofNat) := by
    rw [List.map_map, List.mapM_map]
    refine Outcome.mapM_eq_ok fun p mem => ?_
    rw [Function.comp_apply, Function.comp_apply, Binary64.ofSmallInt_ofNat, Binary64.integer,
      Binary64.toInt?_ofSmallNat (small p mem)]
  rw [asIntegerGrid_number, Grid.items_map, read]
  rfl

end Operand

namespace Search

variable {f : Form} {row a b : Grid f.Element} {question : Question} {depth : Nat}

/-- Whatever has the rank of a row or a higher one is looked for cell by cell, where the cells have
the rank of a row. -/
theorem exactAnswers_eq_of_rank_le_succ (single : question ≠ .next) (ha : a.WellFormed)
    (hb : b.WellFormed) (rank : b.rank ≤ a.rank + 1) :
    exactAnswers question f a b =
      .tabulate (a.shape.take (a.rank + 1 - b.rank)) fun place =>
        question.answerAt (rowPosition f (a.cellAt place) b) b.rowCount := by
  rcases Nat.lt_or_ge a.rank b.rank with less | enough
  · have alone : b.rank = a.rank + 1 := Nat.le_antisymm rank less
    have noRows : b.rank - a.rank - 1 = 0 := by omega
    have noCells : a.rank + 1 - b.rank = 0 := by omega
    rw [exactAnswers_eq_of_rank_lt hb less, noRows, noCells]
    show Grid.mk [] [question.answerAt (rowPosition f a (b.cellAt [])) (b.cellAt []).rowCount] =
      Grid.mk [] [question.answerAt (rowPosition f (a.cellAt []) b) b.rowCount]
    rw [Grid.cellAt_nil ha, Grid.cellAt_nil hb]
  · rw [exactAnswers_eq_of_rank_le single ha hb enough, Nat.sub_add_comm enough]

/-- Where the rows have the same shape, their number is not stored beforehand. -/
theorem not_countStored (alike : a.shape.drop (a.rank + 1 - b.rank) = b.rowShape) :
    ¬ CountStored a.shape b.shape := by
  rintro ⟨enough, -, apart⟩
  refine apart ?_
  rw [← Nat.sub_add_comm enough]
  exact alike

/-- A row that is found is equal to the row at its position. -/
theorem key_cellAt_firstRow (row : Value)
    (found : row.firstRow (.ofGrid f b) < b.rows.length) :
    (Value.ofGrid f (b.asRows.cellAt [row.firstRow (.ofGrid f b)])).key = row.key := by
  refine (Value.isFirstRow_firstRow row (.ofGrid f b)).equal _ ?_
  rw [← Grid.rows_asRows, Grid.rows_eq_map (a := b.asRows) rfl, List.length_map,
    List.length_range] at found
  rw [Value.rows_ofGrid, List.getElem?_map, ← Grid.rows_asRows,
    Grid.rows_eq_map (a := b.asRows) rfl, List.getElem?_map, List.getElem?_range found]
  rfl

/-- The position of a row that is found is at most the number of elements. -/
theorem firstRow_lt (hr : row.WellFormed) (hb : b.WellFormed) (same : row.shape = b.rowShape)
    (found : (Value.ofGrid f row).firstRow (.ofGrid f b) < b.rows.length)
    (small : b.items.length ≤ 2 ^ 53) : (Value.ofGrid f row).firstRow (.ofGrid f b) < 2 ^ 53 := by
  by_cases empty : b.rowShape.cellCount = 0
  · have none : row.items = [] := by
      rw [← List.length_eq_zero_iff, hr.length_eq, same, empty]
    rw [firstRow_of_shape_eq same, none, List.map_nil, findIdx_rowItems_of_empty hb empty]
    exact Nat.two_pow_pos 53
  · calc (Value.ofGrid f row).firstRow (.ofGrid f b)
        < b.rows.length := found
      _ ≤ b.rows.length * b.rowShape.cellCount := Nat.le_mul_of_pos_right _ (by omega)
      _ = b.items.length := by rw [hb.length_eq_rows, hb.rowSize_eq, Grid.length_rows]
      _ ≤ 2 ^ 53 := small

section

variable (f a b)

/-- Where the cell below a place stands first among the rows of the other grid. -/
def position (place : List Nat) : Nat :=
  (Value.ofGrid f (a.cellAt place)).firstRow (.ofGrid f b)

/-- The positions of the cells at a depth. -/
def positions (depth : Nat) : List Nat :=
  (Shape.coordinates (a.shape.take depth)).map (position f a b)

/-- The same positions as indices, arranged like the cells. -/
def positionTable (depth : Nat) : Grid Int :=
  ⟨a.shape.take depth, (positions f a b depth).map Int.ofNat⟩

end

/-- Selected at the positions of the cells, the rows make up an equal grid. -/
theorem key_rowsAt_positions (ha : a.WellFormed) (alike : a.shape.drop depth = b.rowShape)
    (found : ∀ p ∈ positions f a b depth, p < b.rows.length) :
    (Value.ofGrid f (b.rowsAt (positionTable f a b depth) (positions f a b depth))).key =
      (Value.ofGrid f a).key := by
  have whole : a.items = (Shape.coordinates (a.shape.take depth)).flatMap fun place =>
      (a.cellAt place).items := (congrArg Grid.items (ha.assemble_cellAt depth)).symm
  rw [Value.key_ofGrid, Value.key_ofGrid, Grid.shape_rowsAt, positionTable, ← alike,
    List.take_append_drop]
  refine congrArg (Key.value f.kind.family a.shape) ?_
  rw [Grid.items_rowsAt, positions, List.flatMap_map, whole, List.map_flatMap, List.map_flatMap]
  refine List.flatMap_congr fun place mem => ?_
  have same := key_cellAt_firstRow (.ofGrid f (a.cellAt place))
    (found _ (List.mem_map_of_mem mem))
  rw [Value.key_ofGrid, Value.key_ofGrid] at same
  exact (Key.value.inj same).2.2

/-- A position that is answered with one is that of a row. -/
theorem lt_of_answerAt {p count : Nat}
    (one : UInt8.ofNat (Question.member.answerAt (Int.ofNat p) (Int.ofNat count)).toNat = 1) :
    p < count := by
  rw [Question.answerAt] at one
  split at one
  · rename_i before
    exact Int.ofNat_lt.mp before
  · exact absurd one (by decide)

section

variable (ha : a.WellFormed)
include ha

theorem wellFormed_positionTable (depth : Nat) : (positionTable f a b depth).WellFormed := by
  refine Grid.wellFormed_iff.mpr ⟨ha.natural.take depth, ?_⟩
  rw [positionTable, List.length_map, positions, List.length_map, Shape.length_coordinates]

variable (hb : b.WellFormed)
include hb

/-- If every row occurs, the positions are small enough to be stored. -/
theorem positions_lt (alike : a.shape.drop depth = b.rowShape)
    (found : ∀ p ∈ positions f a b depth, p < b.rows.length) (small : b.items.length ≤ 2 ^ 53) :
    ∀ p ∈ positions f a b depth, p < 2 ^ 53 := by
  intro p mem
  obtain ⟨place, there, rfl⟩ := List.mem_map.mp mem
  have cell := ha.cellAt (Shape.length_le_of_mem_take there) (Shape.contains_of_mem_take there)
  have shape : (a.cellAt place).shape = b.rowShape :=
    (Shape.drop_length_of_mem_take there).trans alike
  exact firstRow_lt cell hb shape (found _ mem) small

variable (depth : Nat)

/-- What is answered for the cells one by one is their positions. -/
theorem tabulate_rowPosition :
    Grid.tabulate (a.shape.take depth) (fun place =>
        Question.first.answerAt (rowPosition f (a.cellAt place) b) b.rowCount) =
      positionTable f a b depth := by
  refine congrArg (Grid.mk _) ?_
  rw [positions, List.map_map]
  refine List.map_congr_left fun place mem => ?_
  exact rowPosition_eq (ha.cellAt (Shape.length_le_of_mem_take mem)
    (Shape.contains_of_mem_take mem)) hb

/-- If it is answered for every cell that it is a row, every position is that of a row. -/
theorem lt_of_members
    (all : ∀ x ∈ ((Grid.tabulate (a.shape.take depth) fun place =>
      Question.member.answerAt (rowPosition f (a.cellAt place) b) b.rowCount).map
        fun n => UInt8.ofNat n.toNat).items, x = 1) :
    ∀ p ∈ positions f a b depth, p < b.rows.length := by
  intro p mem
  obtain ⟨place, there, rfl⟩ := List.mem_map.mp mem
  have one := all _ (List.mem_map_of_mem (List.mem_map_of_mem there))
  rw [rowPosition_eq (ha.cellAt (Shape.length_le_of_mem_take there)
    (Shape.contains_of_mem_take there)) hb, ← ofNat_length_rows hb] at one
  exact lt_of_answerAt one

end

end Search

/-- If every row of a value is found among those of another one, the rows at the positions make up a
value that equals the first. The positions themselves always do as indices, and the numbers that
they are stored as do so as long as there are no more than `2 ^ 53` elements. -/
theorem select_indexOf_gives_back {elems rows : Value} {asked options : Search.Options}
    {found : Grid UInt8} (ha : elems.WellFormed) (hb : rows.WellFormed)
    (same : elems.kind = rows.kind) (rank : rows.rank ≤ elems.rank + 1)
    (alike : elems.shape.drop (elems.rank + 1 - rows.rank) = rows.shape.tail)
    (members : member (.value elems) (.value rows) asked = .ok (.byte found))
    (all : ∀ x ∈ found.items, x = 1) :
    ∃ (positions : Grid Int) (r : Value),
      (indexOf (.value elems) (.value rows) options = .ok (.number (positions.map .ofSmallInt)) ∨
        (∃ p ∈ positions.items, Binary64.rounded? p = none) ∧
          indexOf (.value elems) (.value rows) options = .error .tooLarge) ∧
      (∀ index : Operand, index.asIntegerGrid .indexTable = .ok positions →
        select index (.value rows) .none = .ok r) ∧
      (rows.elementCount ≤ 2 ^ 53 →
        indexOf (.value elems) (.value rows) options =
            .ok (.number (positions.map .ofSmallInt)) ∧
          select (.value (.number (positions.map .ofSmallInt))) (.value rows) .none = .ok r) ∧
      r.shape = elems.shape ∧ r.key = elems.key := by
  obtain ⟨f, a, b, rfl, rfl⟩ := Value.exists_grids ha hb same
  rw [member_ofGrid ha hb asked] at members
  rw [indexOf_ofGrid ha hb options]
  replace ha := (Value.wellFormed_ofGrid_iff.mp ha).2.wellFormed
  replace hb := (Value.wellFormed_ofGrid_iff.mp hb).2.wellFormed
  rw [Value.rank_ofGrid, Value.rank_ofGrid] at rank alike
  rw [Value.shape_ofGrid, Value.shape_ofGrid] at alike
  have given : Search.PositionsGiven a.shape b.shape (Search.exactAnswers .first f a b)
      (Search.given .first f a b) := Search.given_positions (by decide) ha hb
  have uncounted := Search.not_countStored alike
  rw [Search.given_member ha hb,
    Search.exactAnswers_eq_of_rank_le_succ (by decide) ha hb rank] at members
  rw [Search.exactAnswers_eq_of_rank_le_succ (by decide) ha hb rank,
    Search.tabulate_rowPosition ha hb] at given
  generalize a.rank + 1 - b.rank = depth at members alike given
  obtain rfl := Value.byte.inj (Except.ok.inj members)
  have below := Search.lt_of_members ha hb depth all
  have named : Names b.rowCount (Search.positionTable f a b depth).items
      (Search.positions f a b depth) := Names.map_ofNat fun p mem => by
    rw [← Search.ofNat_length_rows hb]
    exact Int.ofNat_lt.mpr (below p mem)
  have wf : (Search.positionTable f a b depth).WellFormed :=
    Search.wellFormed_positionTable ha depth
  have selected (index : Operand)
      (read : index.asIntegerGrid .indexTable = .ok (Search.positionTable f a b depth)) :=
    select_ofGrid (f := f) read wf hb named
  refine ⟨Search.positionTable f a b depth, _, given.ok_or_large uncounted, selected,
    fun small => ?_, ?_, Search.key_rowsAt_positions ha alike below⟩
  · rw [Value.elementCount_ofGrid] at small
    have exact_ := Search.positions_lt ha hb alike below small
    refine ⟨(given.ok_or_large uncounted).resolve_right ?_,
      selected _ (Operand.asIntegerGrid_positions _ exact_)⟩
    rintro ⟨⟨p, mem, large⟩, -⟩
    obtain ⟨n, there, rfl⟩ := List.mem_map.mp mem
    have some := Binary64.exists_stores_iff.mp ⟨_, Binary64.stores_ofSmallNat (exact_ n there)⟩
    rw [large] at some
    cases some
  · rw [Value.shape_ofGrid, Value.shape_ofGrid, Grid.shape_rowsAt, Grid.rowShape, ← alike]
    exact List.take_append_drop depth a.shape

/-- Two words are found among three, and are read again where they were found. -/
theorem words_selected_again :
    let elems : Value := .character ⟨[1, 2, 2], ['n', 'o', 'o', 'n']⟩
    let rows : Value := .character ⟨[3, 2], ['o', 'n', 'i', 'n', 'n', 'o']⟩
    elems.WellFormed ∧ rows.WellFormed ∧ elems.kind = rows.kind ∧
      rows.rank ≤ elems.rank + 1 ∧
      elems.shape.drop (elems.rank + 1 - rows.rank) = rows.shape.tail ∧
      member (.value elems) (.value rows) .standard = .ok (.byte ⟨[1, 2], [1, 1]⟩) ∧
      (∀ x ∈ [(1 : UInt8), 1], x = 1) ∧
      ∃ (positions : Grid Int) (r : Value),
        indexOf (.value elems) (.value rows) .standard = .ok (.number (positions.map .ofSmallInt)) ∧
        select (.value (.number (positions.map .ofSmallInt))) (.value rows) .none = .ok r ∧
        r.shape = elems.shape ∧ r.key = elems.key := by
  intro elems rows
  have ha : elems.WellFormed := .character (by decide)
  have hb : rows.WellFormed := .character (by decide)
  have same : elems.kind = rows.kind := by decide
  have rank : rows.rank ≤ elems.rank + 1 := by decide
  have alike : elems.shape.drop (elems.rank + 1 - rows.rank) = rows.shape.tail := by decide
  have members : member (.value elems) (.value rows) .standard =
      .ok (.byte ⟨[1, 2], [1, 1]⟩) := rfl
  have all : ∀ x ∈ [(1 : UInt8), 1], x = 1 := by simp
  obtain ⟨positions, r, -, -, few, shape, equal⟩ :=
    @select_indexOf_gives_back elems rows .standard .standard _ ha hb same rank alike members all
  obtain ⟨found, again⟩ := few (by decide)
  exact ⟨ha, hb, same, rank, alike, members, all, positions, r, found, again, shape, equal⟩

end RowMajor
