import RowMajor.Proofs.Binary64.Integers
import RowMajor.Proofs.Grid.Building
import RowMajor.Proofs.Operand.Lists
import RowMajor.Proofs.Search.Occurrences

/-!
# Answers and what is given out for them

What is answered to a question about rows is an integer, a truth value or a position, and the
answers form a grid of integers (`exactAnswers`). They are given out as bytes or numbers. A byte has
room for a truth value, but a position is stored as the number nearest to it, and refused if it lies
beyond all numbers (`PositionsGiven`). No position exceeds the number of searched rows, so nothing
is refused if that is stored.
-/

namespace RowMajor

namespace Search

variable {question : Question} {f : Form} {a b : Grid f.Element}

section

variable {κ : Type} [DecidableEq κ] {queries searched : List κ} {n : Nat}

theorem length_takeByKey (missing : Nat) (table : Positions κ) (queries : List κ) :
    (takeByKey missing table queries).length = queries.length := by
  induction queries generalizing table with
  | nil => rfl
  | cons query queries ih => exact congrArg Nat.succ (ih _)

theorem headD_le {places : List Nat} {missing : Nat} (bound : ∀ i ∈ places, i ≤ missing) :
    places.headD missing ≤ missing := by
  cases places with
  | nil => exact Nat.le_refl missing
  | cons i places => exact bound i List.mem_cons_self

/-- The answers come from the dictionary, and the dictionary only loses positions. -/
theorem le_of_mem_takeByKey {missing : Nat} {table : Positions κ}
    (bound : ∀ key, ∀ i ∈ table.placesOf key, i ≤ missing)
    (mem : n ∈ takeByKey missing table queries) : n ≤ missing := by
  induction queries generalizing table with
  | nil => cases mem
  | cons query queries ih =>
      rcases List.mem_cons.mp mem with rfl | later
      · exact headD_le (bound query)
      · refine ih (fun key i there => bound key i ?_) later
        rw [Positions.placesOf_removeFirst] at there
        split at there
        · exact List.mem_of_mem_tail there
        · exact there

theorem le_of_mem_placesOf {key : κ} (mem : n ∈ (Positions.ofKeys searched).placesOf key) :
    n ≤ searched.length := by
  rw [placesOf_ofKeys, mem_truePlaces] at mem
  obtain ⟨there, -⟩ := List.getElem?_eq_some_iff.mp mem
  rw [lineOf, List.length_map] at there
  exact Nat.le_of_lt there

end

namespace Question

theorem length_byKey (question : Question) (queries searched : List (List Key)) :
    (question.byKey queries searched).length = queries.length := by
  cases question with
  | member => exact List.length_map _
  | first => exact List.length_map _
  | next => exact length_takeByKey ..

/-- A position is that of a searched row, or their number. -/
theorem le_of_mem_byKey (asked : question ≠ .member) {queries searched : List (List Key)} {n : Nat}
    (mem : n ∈ question.byKey queries searched) : n ≤ searched.length := by
  cases question with
  | member => exact absurd rfl asked
  | first =>
      obtain ⟨query, -, rfl⟩ := List.mem_map.mp mem
      exact headD_le fun i there => le_of_mem_placesOf there
  | next => exact le_of_mem_takeByKey (fun key i there => le_of_mem_placesOf there) mem

theorem answerAt_eq (asked : question ≠ .member) (position count : Int) :
    question.answerAt position count = position := by
  cases question with
  | member => exact absurd rfl asked
  | first => rfl
  | next => rfl

end Question

theorem length_amongRows (question : Question) (f : Form) (a b : Grid f.Element) :
    (amongRows question .keysOnly f a b).length = a.rowCount.toNat := by
  rw [amongRows]
  split
  · exact List.length_replicate ..
  · rw [List.length_map, amongEqualRows_keysOnly, question.length_byKey, rowItems, List.length_map,
      Grid.length_rows]
    rfl

/-- The answers for every cell of whichever grid has more axes than the question needs, before they
are stored. -/
def exactAnswers (question : Question) (f : Form) (a b : Grid f.Element) : Grid Int :=
  if b.rank ≤ a.rank then
    let depth := a.rank - b.rank
    ⟨a.shape.take (depth + 1),
      (a.cells depth).flatMap fun cell => amongRows question .keysOnly f cell b⟩
  else
    let depth := b.rank - a.rank - 1
    ⟨b.shape.take depth,
      (b.cells depth).map fun cell => question.answerAt (rowPosition f a cell) cell.rowCount⟩

theorem exactAnswers_of_rank_le (rank : b.rank ≤ a.rank) :
    exactAnswers question f a b = ⟨a.shape.take (a.rank - b.rank + 1),
      (a.cells (a.rank - b.rank)).flatMap fun cell => amongRows question .keysOnly f cell b⟩ :=
  if_pos rank

theorem exactAnswers_of_rank_lt (rank : a.rank < b.rank) :
    exactAnswers question f a b = ⟨b.shape.take (b.rank - a.rank - 1),
      (b.cells (b.rank - a.rank - 1)).map fun cell =>
        question.answerAt (rowPosition f a cell) cell.rowCount⟩ :=
  if_neg (Nat.not_le.mpr rank)

/-- There is one answer for every row that is asked about. -/
theorem exactAnswers_wellFormed (question : Question) (ha : a.WellFormed) (hb : b.WellFormed) :
    (exactAnswers question f a b).WellFormed := by
  rcases Nat.lt_or_ge a.rank b.rank with less | enough
  · rw [exactAnswers_of_rank_lt less]
    refine Grid.wellFormed_iff.mpr ⟨hb.natural.take _, ?_⟩
    rw [List.length_map, Grid.length_cells]
  · rw [exactAnswers_of_rank_le enough]
    refine Grid.wellFormed_iff.mpr ⟨ha.natural.take _, ?_⟩
    have each : ∀ cell ∈ a.cells (a.rank - b.rank),
        (amongRows question .keysOnly f cell b).length =
          Shape.cellCount ((a.shape.drop (a.rank - b.rank)).take 1) := by
      intro cell mem
      rw [length_amongRows, Shape.cellCount_take_one, ← Grid.shape_of_mem_cells mem]
      rfl
    rw [length_flatMap_eq each, Grid.length_cells, ← Shape.cellCount_append, ← List.take_add]

/-- The number of rows among which a row is looked for. -/
def searchedCount (s t : Shape) : Int :=
  (t.drop (t.length - s.length - 1)).headD 1

/-- A position lies between zero and the number of searched rows. -/
def IsPosition (count n : Int) : Prop :=
  0 ≤ n ∧ n ≤ count

theorem isPosition_amongRows (asked : question ≠ .member) (hb : b.WellFormed) {n : Int}
    (mem : n ∈ amongRows question .keysOnly f a b) : IsPosition b.rowCount n := by
  have nonneg := hb.rowCount_nonneg
  rw [amongRows] at mem
  split at mem
  · rw [List.eq_of_mem_replicate mem, question.answerAt_eq asked]
    exact ⟨nonneg, Int.le_refl _⟩
  · obtain ⟨i, there, rfl⟩ := List.mem_map.mp mem
    rw [amongEqualRows_keysOnly] at there
    have bound := question.le_of_mem_byKey asked there
    rw [rowItems, List.length_map, Grid.length_rows] at bound
    exact ⟨Int.natCast_nonneg i, Int.le_trans (Int.ofNat_le.mpr bound)
      (Int.le_of_eq (Int.toNat_of_nonneg nonneg))⟩

theorem isPosition_rowPosition (row : Grid f.Element) (hb : b.WellFormed) :
    IsPosition b.rowCount (rowPosition f row b) := by
  have nonneg := hb.rowCount_nonneg
  rw [rowPosition]
  split
  · exact ⟨nonneg, Int.le_refl _⟩
  · split
    · exact ⟨Int.le_refl 0, nonneg⟩
    · have bound :
          (rowItems (b.map f.key)).findIdx (· = row.items.map f.key) ≤ b.rowCount.toNat := by
        refine Nat.le_trans List.findIdx_le_length (Nat.le_of_eq ?_)
        rw [rowItems, List.length_map, Grid.length_rows]
        rfl
      exact ⟨Int.natCast_nonneg _, Int.le_trans (Int.ofNat_le.mpr bound)
        (Int.le_of_eq (Int.toNat_of_nonneg nonneg))⟩

theorem isPosition_exactAnswers (asked : question ≠ .member) (hb : b.WellFormed) :
    ∀ n ∈ (exactAnswers question f a b).items, IsPosition (searchedCount a.shape b.shape) n := by
  intro n mem
  rcases Nat.lt_or_ge a.rank b.rank with less | enough
  · rw [exactAnswers_of_rank_lt less] at mem
    obtain ⟨cell, there, rfl⟩ := List.mem_map.mp mem
    have count : searchedCount a.shape b.shape = cell.rowCount :=
      congrArg (List.headD · 1) (Grid.shape_of_mem_cells there).symm
    rw [count, question.answerAt_eq asked]
    exact isPosition_rowPosition a (hb.cells there)
  · rw [exactAnswers_of_rank_le enough] at mem
    obtain ⟨cell, -, there⟩ := List.mem_flatMap.mp mem
    have whole : b.shape.length - a.shape.length = 0 := Nat.sub_eq_zero_of_le enough
    rw [searchedCount, whole]
    exact isPosition_amongRows asked hb there

/-- Whether rows are compared with rows of another shape. Their number is stored then, before any
row is answered. -/
def CountStored (s t : Shape) : Prop :=
  t.length ≤ s.length ∧ 0 ∉ s.take (s.length - t.length) ∧
    s.drop (s.length - t.length + 1) ≠ t.tail

instance (s t : Shape) : Decidable (CountStored s t) :=
  inferInstanceAs (Decidable (_ ∧ _))

theorem CountStored.searchedCount_eq (early : CountStored a.shape b.shape) :
    searchedCount a.shape b.shape = b.rowCount := by
  have whole : b.shape.length - a.shape.length - 1 = 0 := by
    have enough := early.1
    omega
  rw [searchedCount, whole, List.drop_zero, Grid.rowCount]

theorem countStored_of_mem_cells {cell : Grid f.Element}
    (rank : b.rank ≤ a.rank) (mem : cell ∈ a.cells (a.rank - b.rank))
    (apart : cell.rowShape ≠ b.rowShape) : CountStored a.shape b.shape := by
  refine ⟨rank, fun zero => ?_, ?_⟩
  · change 0 ∈ a.shape.take (a.rank - b.rank) at zero
    have count := Grid.length_cells a (a.rank - b.rank)
    rw [Shape.cellCount_eq_zero zero (Int.le_refl 0)] at count
    rw [List.eq_nil_of_length_eq_zero count] at mem
    cases mem
  · rw [Grid.rowShape, Grid.shape_of_mem_cells mem, List.tail_drop] at apart
    exact apart

theorem CountStored.exists_cell (ha : a.WellFormed) (early : CountStored a.shape b.shape) :
    ∃ cell rest, a.cells (a.rank - b.rank) = cell :: rest ∧ cell.rowShape ≠ b.rowShape := by
  obtain ⟨-, nonzero, apart⟩ := early
  have cells : a.cells (a.rank - b.rank) ≠ [] := by
    intro none
    have count := Grid.length_cells a (a.rank - b.rank)
    rw [none] at count
    obtain ⟨d, mem, empty⟩ := Shape.exists_of_cellCount_eq_zero count.symm
    have zero : d = 0 := Int.le_antisymm empty (ha.natural.take _ d mem)
    exact nonzero (zero ▸ mem)
  obtain ⟨cell, rest, split⟩ := List.exists_cons_of_ne_nil cells
  have mem : cell ∈ a.cells (a.rank - b.rank) := split ▸ List.mem_cons_self
  refine ⟨cell, rest, split, ?_⟩
  rw [Grid.rowShape, Grid.shape_of_mem_cells mem, List.tail_drop]
  exact apart

/-- Answers that are stored one by one, in the order of the rows. -/
def Question.storeAll (question : Question) (answers : Grid Int) :
    Except Error (Grid question.kind.Element) := do
  .ok ⟨answers.shape, ← answers.items.mapM question.store⟩

/-- If the answer of all rows of another shape is stored, this makes no difference. -/
theorem storedRows_eq_mapM (stores : a.rowShape ≠ b.rowShape →
      ∃ x, question.store (question.answerAt b.rowCount b.rowCount) = .ok x) :
    storedRows question .keysOnly f a b =
      (amongRows question .keysOnly f a b).mapM question.store := by
  rw [storedRows]
  split
  · rename_i apart
    obtain ⟨x, stored⟩ := stores apart
    rw [stored]
    rfl
  · rfl

/-- The answers for a cell account for its rows. -/
theorem fit_storedRows {cell : Grid f.Element} (hc : cell.WellFormed)
    (stores : cell.rowShape ≠ b.rowShape →
      ∃ x, question.store (question.answerAt b.rowCount b.rowCount) = .ok x) :
    (storedRows question .keysOnly f cell b >>= fun items =>
      Grid.fit question.kind ⟨cell.shape.take 1, items⟩) =
        (amongRows question .keysOnly f cell b).mapM question.store >>= fun items =>
          .ok ⟨cell.shape.take 1, items⟩ := by
  rw [storedRows_eq_mapM stores]
  cases given : (amongRows question .keysOnly f cell b).mapM question.store with
  | error e => rfl
  | ok items =>
      have length := Outcome.length_of_mapM_eq_ok given
      rw [length_amongRows] at length
      refine Grid.fit_eq_ok (Grid.wellFormed_iff.mpr ⟨hc.natural.take 1, ?_⟩).fits
      rw [length, Shape.cellCount_take_one]
      rfl

/-- Where the first grid has enough axes, the answers for all rows of its cells are stored one after
the other. -/
theorem answers_of_rank_le (ha : a.WellFormed) (rank : b.rank ≤ a.rank)
    (stores : CountStored a.shape b.shape →
      ∃ x, question.store (question.answerAt b.rowCount b.rowCount) = .ok x) :
    answers question .keysOnly f a b = question.storeAll (exactAnswers question f a b) := by
  rw [answers, if_pos rank, exactAnswers_of_rank_le rank, Question.storeAll, List.flatMap_def,
    Outcome.mapM_flatten, List.mapM_map, Function.comp_def]
  have each : ∀ cell ∈ a.cells (a.rank - b.rank),
      (storedRows question .keysOnly f cell b >>= fun items =>
        Grid.fit question.kind ⟨cell.shape.take 1, items⟩) =
      (amongRows question .keysOnly f cell b).mapM question.store >>= fun items =>
        .ok ⟨(a.shape.drop (a.rank - b.rank)).take 1, items⟩ := by
    intro cell mem
    have allowed := fun apart => stores (countStored_of_mem_cells rank mem apart)
    rw [fit_storedRows (ha.cells mem) allowed, Grid.shape_of_mem_cells mem]
  simp only [Outcome.mapM_congr each, Outcome.mapM_bind_ok]
  generalize a.rank - b.rank = depth
  cases (a.cells depth).mapM fun cell =>
      (amongRows question .keysOnly f cell b).mapM question.store with
  | error e => rfl
  | ok parts =>
      show Except.ok (Grid.mk _ _) = .ok (Grid.mk _ _)
      rw [Shape.endAtEmpty_eq_self (ha.natural.take _), ← List.take_add, List.flatMap_map]
      exact congrArg (fun items => Except.ok (Grid.mk _ items)) List.flatMap_id'

theorem answers_of_rank_lt (hb : b.WellFormed) (rank : a.rank < b.rank) :
    answers question .keysOnly f a b = question.storeAll (exactAnswers question f a b) := by
  rw [answers, if_neg (Nat.not_le.mpr rank), exactAnswers_of_rank_lt rank, Question.storeAll,
    List.mapM_map]
  simp only [Shape.endAtEmpty_eq_self (hb.natural.take _)]
  rfl

/-- Answers are given out as they are, provided that the number of rows is stored where that is
done beforehand. -/
theorem answers_eq_storeAll (ha : a.WellFormed) (hb : b.WellFormed)
    (stores : CountStored a.shape b.shape →
      ∃ x, question.store (question.answerAt b.rowCount b.rowCount) = .ok x) :
    answers question .keysOnly f a b = question.storeAll (exactAnswers question f a b) := by
  rcases Nat.lt_or_ge a.rank b.rank with less | enough
  · exact answers_of_rank_lt hb less
  · exact answers_of_rank_le ha enough stores

theorem answers_of_count {e : Error} (ha : a.WellFormed) (early : CountStored a.shape b.shape)
    (refused : question.store (question.answerAt b.rowCount b.rowCount) = .error e) :
    answers question .keysOnly f a b = .error e := by
  obtain ⟨cell, rest, split, apart⟩ := early.exists_cell ha
  have enough : b.rank ≤ a.rank := early.1
  have first : storedRows question .keysOnly f cell b = .error e := by
    rw [storedRows, if_pos apart, refused]
    rfl
  simp only [answers, if_pos enough, split, List.mapM_cons, first]
  rfl

namespace Question

/-- The value that answers are given out as. -/
def give (question : Question) (answers : Grid Int) : Except Error Value := do
  .ok (.ofGrid (.uniform question.kind) (← question.storeAll answers))

theorem give_member (answers : Grid Int) :
    give .member answers = .ok (.byte (answers.map fun n => .ofNat n.toNat)) := by
  have stored : answers.items.mapM (store .member) =
      .ok (answers.items.map fun n => .ofNat n.toNat) := Outcome.mapM_eq_ok fun _ _ => rfl
  rw [give, storeAll, stored]
  rfl

theorem exists_store {n : Int} (asked : question ≠ .member)
    (stored : (Binary64.rounded? n).isSome) : ∃ x, question.store n = .ok x := by
  obtain ⟨x, stores⟩ := Binary64.exists_stores_iff.mpr stored
  have coerced := Kind.coerceNumber_integer_eq_ok_iff.mpr stores
  cases question with
  | member => exact absurd rfl asked
  | first => exact ⟨x, coerced⟩
  | next => exact ⟨x, coerced⟩

theorem store_of_large {n : Int} (asked : question ≠ .member)
    (large : Binary64.rounded? n = none) : question.store n = .error .tooLarge := by
  have refused := Kind.coerceNumber_integer_of_large large
  cases question with
  | member => exact absurd rfl asked
  | first => exact refused
  | next => exact refused

theorem give_position (asked : question ≠ .member) (positions : Grid Int) :
    question.give positions =
      positions.items.mapM (fun n => Kind.coerceNumber (.integer n)) >>= fun xs =>
        .ok (.number ⟨positions.shape, xs⟩) := by
  cases question with
  | member => exact absurd rfl asked
  | first => exact bind_assoc ..
  | next => exact bind_assoc ..

end Question

/-- Every position has a number, and so has the number of rows where it is stored beforehand. -/
structure Storable (s t : Shape) (positions : Grid Int) : Prop where
  count : CountStored s t → (Binary64.rounded? (searchedCount s t)).isSome
  positions : ∀ n ∈ positions.items, (Binary64.rounded? n).isSome

/-- Positions among the rows of an array are given out as the numbers that store them, unless one
lies beyond all numbers. -/
structure PositionsGiven (s t : Shape) (positions : Grid Int) (given : Except Error Value) :
    Prop where
  stored : Storable s t positions → ∃ numbers : Grid Binary64, given = .ok (.number numbers) ∧
    numbers.shape = positions.shape ∧ List.Forall₂ Binary64.Stores numbers.items positions.items
  refused : ¬ Storable s t positions → given = .error .tooLarge

/-- Positions are given out as numbers that equal them. -/
def PositionsExact (positions : Grid Int) (given : Except Error Value) : Prop :=
  ∃ numbers : Grid Binary64, given = .ok (.number numbers) ∧ numbers.shape = positions.shape ∧
    List.Forall₂ (fun x n => x.toInt? = some n) numbers.items positions.items

namespace PositionsGiven

variable {s t : Shape} {positions : Grid Int} {result : Except Error Value}

/-- The numbers equal the rounded positions. -/
theorem of_rounds {ms : List Int} (h : PositionsGiven s t positions result)
    (count : CountStored s t → (Binary64.rounded? (searchedCount s t)).isSome)
    (rounds : Rounds positions.items ms) :
    ∃ numbers : Grid Binary64, result = .ok (.number numbers) ∧ numbers.shape = positions.shape ∧
      List.Forall₂ (fun x m => x.toInt? = some m) numbers.items ms := by
  have storable : Storable s t positions := ⟨count, exists_rounds_iff.mp ⟨ms, rounds⟩⟩
  obtain ⟨numbers, stored, shape, stores⟩ := h.stored storable
  exact ⟨numbers, stored, shape, (Binary64.forall₂_toInt?_iff stores).mpr rounds⟩

/-- They equal the positions if every position is a number, and the number of rows has one where it
is stored beforehand. -/
theorem exact_iff (h : PositionsGiven s t positions result) :
    PositionsExact positions result ↔
      (CountStored s t → (Binary64.rounded? (searchedCount s t)).isSome) ∧
        ∀ n ∈ positions.items, Binary64.rounded? n = some n := by
  constructor
  · rintro ⟨numbers, done, -, equal⟩
    have storable : Storable s t positions := by
      by_contra unstorable
      cases done.symm.trans (h.refused unstorable)
    obtain ⟨_, stored, -, stores⟩ := h.stored storable
    cases done.symm.trans stored
    exact ⟨storable.count, rounds_self_iff.mp ((Binary64.forall₂_toInt?_iff stores).mp equal)⟩
  · rintro ⟨count, whole⟩
    exact h.of_rounds count (rounds_self_iff.mpr whole)

/-- If the number of rows is not stored beforehand, only a position can be too large. -/
theorem ok_or_large (h : PositionsGiven s t positions result) (uncounted : ¬ CountStored s t) :
    result = .ok (.number (positions.map .ofSmallInt)) ∨
      (∃ n ∈ positions.items, Binary64.rounded? n = none) ∧ result = .error .tooLarge := by
  by_cases storable : Storable s t positions
  · obtain ⟨⟨_, xs⟩, stored, rfl, stores⟩ := h.stored storable
    obtain rfl : xs = positions.items.map .ofSmallInt := Binary64.eq_map_of_forall₂_stores stores
    exact .inl stored
  · refine .inr ⟨?_, h.refused storable⟩
    by_contra none
    refine storable ⟨fun early => absurd early uncounted, fun n mem => ?_⟩
    exact Option.isSome_iff_ne_none.mpr fun large => none ⟨n, mem, large⟩

end PositionsGiven

/-- What a search of grids gives out. -/
def given (question : Question) (f : Form) (a b : Grid f.Element) : Except Error Value := do
  .ok (.ofGrid (.uniform question.kind) (← answers question .keysOnly f a b))

theorem given_member (ha : a.WellFormed) (hb : b.WellFormed) :
    given .member f a b =
      .ok (.byte ((exactAnswers .member f a b).map fun n => .ofNat n.toNat)) := by
  rw [given, answers_eq_storeAll ha hb fun _ => ⟨_, rfl⟩]
  exact Question.give_member _

/-- No position exceeds the number of rows, so all are stored if that is. -/
theorem storable_of_isSome {positions : Grid Int} {s t : Shape}
    (bound : ∀ n ∈ positions.items, IsPosition (searchedCount s t) n)
    (count : (Binary64.rounded? (searchedCount s t)).isSome) : Storable s t positions where
  count := fun _ => count
  positions := by
    intro n mem
    obtain ⟨nonneg, le⟩ := bound n mem
    by_contra large
    have size : n.natAbs ≤ (searchedCount s t).natAbs := by omega
    rw [Option.not_isSome_iff_eq_none] at large
    rw [Binary64.rounded?_eq_none_of_le size large] at count
    cases count

theorem positionsGiven_give (asked : question ≠ .member) {s t : Shape} {positions : Grid Int}
    (count : CountStored s t → (Binary64.rounded? (searchedCount s t)).isSome) :
    PositionsGiven s t positions (question.give positions) where
  stored := by
    intro storable
    obtain ⟨xs, stores⟩ := exists_forall₂ fun n mem =>
      Binary64.exists_stores_iff.mpr (storable.positions n mem)
    rw [question.give_position asked, Kind.mapM_coerceNumber_eq_ok_iff.mpr stores]
    exact ⟨_, rfl, rfl, stores⟩
  refused := by
    intro unstorable
    obtain ⟨n, mem, large⟩ : ∃ n ∈ positions.items, Binary64.rounded? n = none := by
      by_contra all
      refine unstorable ⟨count, fun n mem => Option.isSome_iff_ne_none.mpr fun none => ?_⟩
      exact all ⟨n, mem, none⟩
    rw [question.give_position asked, Kind.mapM_coerceNumber_of_large mem large]
    rfl

/-- If the number of rows is stored beforehand, and cannot be, no position is given out. -/
theorem given_of_large (asked : question ≠ .member) (ha : a.WellFormed)
    (early : CountStored a.shape b.shape) (large : Binary64.rounded? b.rowCount = none) :
    given question f a b = .error .tooLarge := by
  have refused : question.store (question.answerAt b.rowCount b.rowCount) = .error .tooLarge := by
    rw [question.answerAt_eq asked]
    exact question.store_of_large asked large
  rw [given, answers_of_count ha early refused]
  rfl

theorem given_positions (asked : question ≠ .member) (ha : a.WellFormed) (hb : b.WellFormed) :
    PositionsGiven a.shape b.shape (exactAnswers question f a b) (given question f a b) := by
  by_cases beyond : CountStored a.shape b.shape ∧ Binary64.rounded? b.rowCount = none
  · obtain ⟨early, large⟩ := beyond
    constructor
    · intro storable
      have some := storable.count early
      rw [early.searchedCount_eq, large] at some
      cases some
    · exact fun _ => given_of_large asked ha early large
  · have count (early : CountStored a.shape b.shape) : (Binary64.rounded? b.rowCount).isSome :=
      Option.isSome_iff_ne_none.mpr fun none => beyond ⟨early, none⟩
    have stores (early : CountStored a.shape b.shape) :
        ∃ x, question.store (question.answerAt b.rowCount b.rowCount) = .ok x := by
      rw [question.answerAt_eq asked]
      exact question.exists_store asked (count early)
    rw [given, answers_eq_storeAll ha hb stores]
    exact positionsGiven_give asked fun early => early.searchedCount_eq ▸ count early

/-- Positions are given out unless there are more rows than any number counts. -/
theorem given_outcome (asked : question ≠ .member) (ha : a.WellFormed) (hb : b.WellFormed) :
    Outcome Value.WellFormed (fun e => e = .tooLarge ∧
      Binary64.rounded? (searchedCount a.shape b.shape) = none) (given question f a b) := by
  have wf := exactAnswers_wellFormed (f := f) question ha hb
  have out := given_positions (f := f) asked ha hb
  by_cases storable : Storable a.shape b.shape (exactAnswers question f a b)
  · obtain ⟨numbers, stored, shape, each⟩ := out.stored storable
    rw [stored]
    refine .number (Grid.wellFormed_iff.mpr ⟨shape ▸ wf.natural, ?_⟩)
    rw [each.length_eq, shape, wf.length_eq]
  · rw [out.refused storable]
    refine ⟨rfl, ?_⟩
    by_contra some
    exact storable (storable_of_isSome (isPosition_exactAnswers asked hb)
      (Option.isSome_iff_ne_none.mpr some))

end Search

/-- Values are searched as the grids that they meet in. -/
theorem Value.searchRows_of_unify {question : Search.Question} {pairing : Pairing} {a b : Value}
    {both : Unified} (ha : a.WellFormed) (hb : b.WellFormed)
    (unified : unify pairing a b = .ok both) (options : Search.Options) :
    searchRows question pairing options a b =
      Search.given question both.form both.first both.second := by
  rw [searchRows_eq question pairing options ha hb, searchRows, unified]
  rfl

section

variable {f : Form} {x y : Grid f.Element} (hx : (Value.ofGrid f x).WellFormed)
  (hy : (Value.ofGrid f y).WellFormed)
include hx hy

theorem Value.searchRows_ofGrid (question : Search.Question) (pairing : Pairing)
    (options : Search.Options) :
    searchRows question pairing options (ofGrid f x) (ofGrid f y) = Search.given question f x y :=
  searchRows_of_unify hx hy (unify_ofGrid pairing x y) options

theorem member_ofGrid (options : Search.Options) :
    member (.value (.ofGrid f x)) (.value (.ofGrid f y)) options = Search.given .member f x y :=
  Value.searchRows_ofGrid hx hy .member .members options

theorem indexOf_ofGrid (options : Search.Options) :
    indexOf (.value (.ofGrid f x)) (.value (.ofGrid f y)) options = Search.given .first f x y :=
  Value.searchRows_ofGrid hx hy .first .indices options

theorem progressiveIndexOf_ofGrid (options : Search.Options) :
    progressiveIndexOf (.value (.ofGrid f x)) (.value (.ofGrid f y)) options =
      Search.given .next f x y :=
  Value.searchRows_ofGrid hx hy .next .indices options

end

end RowMajor
