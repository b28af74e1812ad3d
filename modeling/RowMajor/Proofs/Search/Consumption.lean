import RowMajor.Proofs.Grid.Tables
import RowMajor.Proofs.Search.Answers

/-!
# Rows given out one at a time

A search in which every position answers at most once takes positions out of the dictionary
as it goes. What a query finds there is its key's list of positions without as many of them
as there were earlier queries for the same key, so the answer to a query is determined by
its number among the queries equal to it. The occurrences of a key on both sides are thereby
matched in order until one side has no more. The positions are stored as numbers, and these equal
them as long as they are not too large.
-/

namespace RowMajor

namespace Search

variable {κ : Type} [DecidableEq κ] {queries searched : List κ} {i j : Nat}

/-- A query is answered with what its predecessors have left of its key's positions. -/
theorem getElem?_takeByKey (missing : Nat) (table : Positions κ) (queries : List κ) (j : Nat) :
    (takeByKey missing table queries)[j]? = queries[j]?.map fun key =>
      (table.placesOf key)[queries.countPBefore (· = key) j]?.getD missing := by
  induction queries generalizing table j with
  | nil => rfl
  | cons query queries ih =>
      cases j with
      | zero =>
          rw [takeByKey, List.headD_eq_head?_getD, List.head?_eq_getElem?]
          rfl
      | succ j =>
          rw [takeByKey, List.getElem?_cons_succ, List.getElem?_cons_succ, ih]
          refine congrArg (Option.map · _) (funext fun key => ?_)
          rw [Positions.placesOf_removeFirst, List.countPBefore_cons_succ]
          by_cases same : key = query
          · rw [if_pos same, if_pos (decide_eq_true same.symm), List.getElem?_tail]
          · rw [if_neg same, if_neg (by simpa using Ne.symm same)]

/-- The queries for a key are answered with its occurrences, one after the other. -/
theorem getElem?_nextByKey (queries searched : List κ) (j : Nat) :
    (nextByKey queries searched)[j]? = queries[j]?.map fun key =>
      searched.findIdxNth (· = key) (queries.countPBefore (· = key) j) := by
  rw [nextByKey, getElem?_takeByKey]
  refine congrArg (Option.map · _) (funext fun key => ?_)
  rw [placesOf_ofKeys_eq, getElem?_findIdxs_getD]

/-- An answer that is a position was given to a query for the key that stands there. -/
theorem getElem?_of_getElem?_nextByKey (answered : (nextByKey queries searched)[j]? = some i)
    (there : i < searched.length) :
    ∃ key, queries[j]? = some key ∧ searched[i]? = some key ∧
      searched.countPBefore (· = key) i = queries.countPBefore (· = key) j := by
  rw [getElem?_nextByKey] at answered
  obtain ⟨key, here, rfl⟩ := Option.map_eq_some_iff.mp answered
  have found := List.pos_findIdxNth_getElem (h := there)
  refine ⟨key, here, ?_, ?_⟩
  · rw [List.getElem?_eq_getElem there, of_decide_eq_true found]
  · exact List.countPBefore_findIdxNth_of_lt_countP (List.findIdxNth_lt_length_iff.mp there)

/-- A query stands where its key occurs for the number of its predecessors. -/
theorem findIdxNth_countPBefore {key : κ} (here : queries[j]? = some key) :
    queries.findIdxNth (· = key) (queries.countPBefore (· = key) j) = j := by
  obtain ⟨there, rfl⟩ := List.getElem?_eq_some_iff.mp here
  exact List.findIdxNth_countPBefore_of_lt_length_of_pos (decide_eq_true rfl)

/-- No position answers twice. -/
theorem nextByKey_injective {j' : Nat} (there : i < searched.length)
    (answered : (nextByKey queries searched)[j]? = some i)
    (answered' : (nextByKey queries searched)[j']? = some i) : j = j' := by
  obtain ⟨key, here, atPlace, count⟩ := getElem?_of_getElem?_nextByKey answered there
  obtain ⟨key', here', atPlace', count'⟩ := getElem?_of_getElem?_nextByKey answered' there
  obtain rfl : key = key' := Option.some.inj (atPlace.symm.trans atPlace')
  rw [← findIdxNth_countPBefore here, ← count, count', findIdxNth_countPBefore here']

/-- If a query is left without an answer, the positions of its key have answered earlier ones. -/
theorem exists_earlier_answer {key : κ} (here : queries[j]? = some key)
    (missed : (nextByKey queries searched)[j]? = some searched.length)
    (atPlace : searched[i]? = some key) :
    ∃ j' < j, (nextByKey queries searched)[j']? = some i := by
  rw [getElem?_nextByKey, here, Option.map_some, Option.some.injEq,
    List.findIdxNth_eq_length_iff] at missed
  have place := findIdxNth_countPBefore atPlace
  generalize searched.countPBefore (· = key) i = n at place
  have left : n < searched.countP (· = key) := by
    rw [← List.findIdxNth_lt_length_iff, place]
    exact (List.getElem?_eq_some_iff.mp atPlace).1
  -- as many queries for the key come first as there are occurrences at all
  have least : n < queries.countPBefore (· = key) j := Nat.lt_of_lt_of_le left missed
  have enough : n < queries.countP (· = key) :=
    Nat.lt_of_lt_of_le least (List.countPBefore_le_countP _)
  have there : queries.findIdxNth (· = key) n < queries.length :=
    List.findIdxNth_lt_length_iff.mpr enough
  refine ⟨queries.findIdxNth (· = key) n, ?_, ?_⟩
  · have earlier := (List.findIdxNth_lt_findIdxNth_iff_of_lt_countP enough).mpr least
    rwa [findIdxNth_countPBefore here] at earlier
  · have asked : queries[queries.findIdxNth (· = key) n]? = some key := by
      rw [List.getElem?_eq_getElem there,
        of_decide_eq_true (List.pos_findIdxNth_getElem (h := there))]
    rw [getElem?_nextByKey, asked, Option.map_some,
      List.countPBefore_findIdxNth_of_lt_countP enough, place]

/-- Searched for among themselves, the rows count up. -/
theorem nextByKey_self (keys : List κ) : nextByKey keys keys = List.range keys.length := by
  refine List.ext_getElem? fun j => ?_
  rw [getElem?_nextByKey]
  cases here : keys[j]? with
  | none =>
      rw [List.getElem?_eq_none (by simpa using List.getElem?_eq_none_iff.mp here)]
      rfl
  | some key =>
      rw [Option.map_some, findIdxNth_countPBefore here,
        List.getElem?_range (List.getElem?_eq_some_iff.mp here).1]

theorem nextByKey_map_of_injective {κ' : Type} [DecidableEq κ'] {φ : κ → κ'}
    (injective : φ.Injective) (queries searched : List κ) :
    nextByKey (queries.map φ) (searched.map φ) = nextByKey queries searched := by
  refine List.ext_getElem? fun j => ?_
  rw [getElem?_nextByKey, getElem?_nextByKey, List.getElem?_map, Option.map_map]
  refine congrArg (Option.map · _) (funext fun key => ?_)
  rw [Function.comp_apply, countPBefore_map_of_injective injective,
    findIdxNth_map_of_injective injective]

/-- Queries that do not occur are left without an answer. -/
theorem nextByKey_of_disjoint (apart : ∀ key ∈ queries, key ∉ searched) :
    nextByKey queries searched = List.replicate queries.length searched.length := by
  refine List.eq_replicate_iff.mpr ⟨length_takeByKey .., fun i mem => ?_⟩
  obtain ⟨j, answered⟩ := List.mem_iff_getElem?.mp mem
  rw [getElem?_nextByKey] at answered
  obtain ⟨key, here, rfl⟩ := Option.map_eq_some_iff.mp answered
  have none : searched.countP (· = key) = 0 := by
    refine List.countP_eq_zero.mpr fun other there => ?_
    rintro equal
    exact apart key (List.mem_of_getElem? here) (of_decide_eq_true equal ▸ there)
  exact List.findIdxNth_eq_length_iff.mpr (none ▸ Nat.zero_le _)

section

variable {f : Form} {a b : Grid f.Element}

/-- Whatever their shapes, the rows are matched by the keys that they have as values. -/
theorem amongRows_next (hb : b.WellFormed) :
    amongRows .next .keysOnly f a b =
      (nextByKey (Value.ofGrid f a).rowKeys (Value.ofGrid f b).rowKeys).map Int.ofNat := by
  rw [amongRows]
  split
  · rename_i apart
    have apart : a.rowShape ≠ b.rowShape := apart.resolve_right (Int.not_lt.mpr hb.rowCount_nonneg)
    have disjoint : ∀ key ∈ (Value.ofGrid f a).rowKeys, key ∉ (Value.ofGrid f b).rowKeys := by
      intro key mem
      rw [Value.rowKeys, Value.rows_ofGrid, List.map_map] at mem
      obtain ⟨row, there, rfl⟩ := List.mem_map.mp mem
      exact key_notMem_rowKeys (Grid.shape_of_mem_rows there ▸ apart)
    rw [nextByKey_of_disjoint disjoint, Value.length_rowKeys, Value.length_rowKeys,
      rows_length_ofGrid, rows_length_ofGrid, List.map_replicate, ofNat_length_rows hb,
      Grid.length_rows]
    rfl
  · rename_i comparable
    have same : a.rowShape = b.rowShape := not_not.mp (not_or.mp comparable).1
    simp only [amongEqualRows, codePair?_keysOnly, ite_self]
    rw [rowKeys_ofGrid, rowKeys_ofGrid, same, nextByKey_map_of_injective (injective_value ..)]
    rfl

/-- Between grids of equal rank there is one answer for every row. -/
theorem exactAnswers_next (ha : a.WellFormed) (hb : b.WellFormed) (rank : a.rank = b.rank) :
    exactAnswers .next f a b = ⟨a.shape.take 1,
      (nextByKey (Value.ofGrid f a).rowKeys (Value.ofGrid f b).rowKeys).map Int.ofNat⟩ := by
  have whole : a.cells 0 = [a] := by
    rw [Grid.cells_eq_map ha.natural]
    exact congrArg (fun cell => [cell]) (Grid.cellAt_nil ha)
  rw [exactAnswers_of_rank_le (Nat.le_of_eq rank.symm), rank, Nat.sub_self, whole,
    List.flatMap_singleton, amongRows_next hb]

end

end Search

namespace Value

/-- How many rows before a position are equal to a value. -/
def equalBefore (row v : Value) (i : Nat) : Nat :=
  (v.rows.take i).countP fun other => other.key = row.key

/-- The position is that of the row equal to a value which comes after so many others that are, or
the number of rows if there are not enough of them. -/
structure IsNthRow (row v : Value) (n i : Nat) : Prop where
  bound : i ≤ v.rows.length
  equal : ∀ other, v.rows[i]? = some other → other.key = row.key ∧ row.equalBefore v i = n
  missing : i = v.rows.length → row.equalBefore v i ≤ n

theorem equalBefore_eq (row v : Value) (i : Nat) :
    row.equalBefore v i = v.rowKeys.countPBefore (· = row.key) i := by
  rw [List.countPBefore_eq_countP_take, rowKeys, ← List.map_take, List.countP_map]
  rfl

theorem isNthRow_findIdxNth (row v : Value) (n : Nat) :
    row.IsNthRow v n (v.rowKeys.findIdxNth (· = row.key) n) where
  bound := v.length_rowKeys ▸ List.findIdxNth_le_length
  equal := by
    intro other here
    obtain ⟨there, same⟩ := List.getElem?_eq_some_iff.mp (getElem?_rowKeys_of_row here)
    rw [← same, equalBefore_eq]
    exact ⟨of_decide_eq_true (List.pos_findIdxNth_getElem (h := there)),
      List.countPBefore_findIdxNth_of_lt_countP (List.findIdxNth_lt_length_iff.mp there)⟩
  missing := by
    intro last
    rw [← length_rowKeys] at last
    rw [equalBefore_eq, last, List.countPBefore_length]
    exact List.findIdxNth_eq_length_iff.mp last

end Value

/-- The positions of matched rows, as many as there are rows to be matched. -/
def matchedPositions (a b : Value) : List Nat :=
  Search.nextByKey a.rowKeys b.rowKeys

theorem progressiveIndexOf_positions {a b : Value} (ha : a.WellFormed) (hb : b.WellFormed)
    (same : a.kind = b.kind) (rank : a.rank = b.rank) (options : Search.Options) :
    Search.PositionsGiven a.shape b.shape
      ⟨a.shape.take 1, (matchedPositions a b).map Int.ofNat⟩
      (progressiveIndexOf (.value a) (.value b) options) := by
  obtain ⟨f, a, b, rfl, rfl⟩ := Value.exists_grids ha hb same
  rw [Value.rank_ofGrid, Value.rank_ofGrid] at rank
  have wfA := (Value.wellFormed_ofGrid_iff.mp ha).2.wellFormed
  have wfB := (Value.wellFormed_ofGrid_iff.mp hb).2.wellFormed
  rw [progressiveIndexOf_ofGrid ha hb options, Value.shape_ofGrid, Value.shape_ofGrid,
    matchedPositions, ← Search.exactAnswers_next wfA wfB rank]
  exact Search.given_positions (by decide) wfA wfB

/-- The rows of two values are matched occurrence by occurrence. -/
structure MatchesRows (a b : Value) (positions : List Nat) : Prop where
  length : positions.length = a.rows.length
  /-- A row is answered with the row equal to it that has as many equal rows before it. -/
  nth : ∀ (j : Nat) (row : Value), a.rows[j]? = some row →
    ∃ i, positions[j]? = some i ∧ row.IsNthRow b (row.equalBefore a j) i
  /-- No position answers twice. -/
  once : ∀ i j j' : Nat, i < b.rows.length → positions[j]? = some i → positions[j']? = some i →
    j = j'
  /-- If a row is left unanswered, all rows equal to it have answered earlier ones. -/
  exhausted : ∀ (i j : Nat) (row other : Value), a.rows[j]? = some row →
    positions[j]? = some b.rows.length → b.rows[i]? = some other → other.key = row.key →
      ∃ j' < j, positions[j']? = some i

theorem matchesRows_matchedPositions (a b : Value) : MatchesRows a b (matchedPositions a b) where
  length := by
    rw [matchedPositions, Search.nextByKey, Search.length_takeByKey, Value.length_rowKeys]
  nth := by
    intro j row here
    refine ⟨_, ?_, Value.isNthRow_findIdxNth row b (row.equalBefore a j)⟩
    rw [matchedPositions, Search.getElem?_nextByKey, Value.getElem?_rowKeys_of_row here,
      Value.equalBefore_eq]
    rfl
  once := by
    intro i j j' there answered answered'
    rw [← Value.length_rowKeys] at there
    exact Search.nextByKey_injective there answered answered'
  exhausted := by
    intro i j row other here missed atPlace equal
    rw [← Value.length_rowKeys] at missed
    have place := Value.getElem?_rowKeys_of_row atPlace
    exact Search.exists_earlier_answer (Value.getElem?_rowKeys_of_row here) missed (equal ▸ place)

theorem matchedPositions_self (v : Value) : matchedPositions v v = List.range v.rows.length := by
  rw [matchedPositions, Search.nextByKey_self, Value.length_rowKeys]

/-- The number of rows is not stored beforehand where they are compared with themselves. -/
theorem Search.not_countStored_self (s : Shape) : ¬ CountStored s s := by
  rintro ⟨-, -, apart⟩
  rw [Nat.sub_self] at apart
  exact apart List.drop_one

/-- The rows of two values of one kind and of equal rank are matched occurrence by occurrence.
Searched for in the value itself, every row is found where it is. The positions are given out as
numbers, and these equal them as long as every position is a number. -/
theorem progressiveIndexOf_matches_rows {a b : Value} (ha : a.WellFormed) (hb : b.WellFormed)
    (same : a.kind = b.kind) (rank : a.rank = b.rank) (options : Search.Options) :
    (∃ positions : List Nat, MatchesRows a b positions ∧
      Search.PositionsGiven a.shape b.shape ⟨a.shape.take 1, positions.map Int.ofNat⟩
        (progressiveIndexOf (.value a) (.value b) options) ∧
      (Search.PositionsExact ⟨a.shape.take 1, positions.map Int.ofNat⟩
          (progressiveIndexOf (.value a) (.value b) options) ↔
        (Search.CountStored a.shape b.shape →
          (Binary64.rounded? (Search.searchedCount a.shape b.shape)).isSome) ∧
        ∀ i ∈ positions, Binary64.rounded? (Int.ofNat i) = some (Int.ofNat i))) ∧
    Search.PositionsGiven a.shape a.shape
      ⟨a.shape.take 1, (List.range a.rows.length).map Int.ofNat⟩
      (progressiveIndexOf (.value a) (.value a) options) ∧
    (Search.PositionsExact ⟨a.shape.take 1, (List.range a.rows.length).map Int.ofNat⟩
        (progressiveIndexOf (.value a) (.value a) options) ↔
      ∀ i < a.rows.length, Binary64.rounded? (Int.ofNat i) = some (Int.ofNat i)) := by
  have given := progressiveIndexOf_positions ha hb same rank options
  have own := progressiveIndexOf_positions ha ha rfl rfl options
  rw [matchedPositions_self] at own
  refine ⟨⟨_, matchesRows_matchedPositions a b, given, ?_⟩, own, ?_⟩
  · rw [given.exact_iff, List.forall_mem_map]
  · rw [own.exact_iff, List.forall_mem_map]
    simp only [List.mem_range, Search.not_countStored_self, false_implies, true_and]

/-- Zeros of either sign and NaNs, some of them more than once. -/
theorem zeros_and_nans_matched :
    let a : Value := .number ⟨[4], [.zero, .nan, .negativeZero, .nan]⟩
    let b : Value := .number ⟨[3], [.negativeZero, .zero, .nan]⟩
    a.WellFormed ∧ b.WellFormed ∧ a.kind = b.kind ∧ a.rank = b.rank ∧
      (∃ positions : List Nat, MatchesRows a b positions ∧
        Search.PositionsGiven a.shape b.shape ⟨[4], positions.map Int.ofNat⟩
          (progressiveIndexOf (.value a) (.value b) .standard)) ∧
      Search.PositionsExact ⟨[4], [0, 1, 2, 3]⟩
        (progressiveIndexOf (.value a) (.value a) .standard) := by
  intro a b
  have ha : a.WellFormed := .number (by decide)
  have hb : b.WellFormed := .number (by decide)
  obtain ⟨⟨positions, matched, given, -⟩, -, exact_⟩ :=
    progressiveIndexOf_matches_rows ha hb rfl rfl .standard
  refine ⟨ha, hb, rfl, rfl, ⟨positions, matched, given⟩, exact_.mpr ?_⟩
  decide +kernel

/-- A row that is none of `2 ^ 53 + 1` empty ones is answered with the position of the last. -/
theorem unmatched_row_given_position :
    let row : Value := .byte ⟨[1, 1], [1]⟩
    let table : Value := .byte ⟨[9007199254740993, 0], []⟩
    row.WellFormed ∧ table.WellFormed ∧ row.kind = table.kind ∧ row.rank = table.rank ∧
      row.rows = [.byte ⟨[1], [1]⟩] ∧
      (∀ other ∈ table.rows, other.key ≠ (Value.byte ⟨[1], [1]⟩).key) ∧
      table.rows.length = 9007199254740993 ∧
      ∃ x, progressiveIndexOf (.value row) (.value table) .standard =
          .ok (.number ⟨[1], [x]⟩) ∧ x.toInt? = some 9007199254740992 := by
  intro row table
  have wfR : Grid.WellFormed (⟨[1, 1], [1]⟩ : Grid UInt8) := by decide
  have wfT : Grid.WellFormed (⟨[9007199254740993, 0], []⟩ : Grid UInt8) := by decide
  have apart : (⟨[1], [1]⟩ : Grid UInt8).shape ≠
      (⟨[9007199254740993, 0], []⟩ : Grid UInt8).rowShape := by decide
  have absent := Search.key_notMem_rowKeys (f := .uniform .byte) apart
  have count := Search.rows_length_ofGrid (f := .uniform .byte)
    (⟨[9007199254740993, 0], []⟩ : Grid UInt8)
  have counted : (Grid.rowCount (⟨[9007199254740993, 0], []⟩ : Grid UInt8)).toNat =
      9007199254740993 := rfl
  rw [Grid.length_rows, counted] at count
  have asked := progressiveIndexOf_ofGrid (f := .uniform .byte) (.byte wfR) (.byte wfT) .standard
  have asPosition : Search.Question.next ≠ .member := by decide
  have given := Search.given_positions (f := .uniform .byte) asPosition wfR wfT
  have position : Search.exactAnswers .next (.uniform .byte) (⟨[1, 1], [1]⟩ : Grid UInt8)
      (⟨[9007199254740993, 0], []⟩ : Grid UInt8) = ⟨[1], [9007199254740993]⟩ := rfl
  have rounded : Binary64.rounded? 9007199254740993 = some 9007199254740992 := by decide +kernel
  rw [position] at given
  obtain ⟨⟨s, numbers⟩, stored, rfl, equal⟩ :=
    given.of_rounds (fun _ => Option.isSome_of_eq_some rounded) (.cons rounded .nil)
  obtain ⟨x, _, first, rest, rfl⟩ := List.forall₂_cons_right_iff.mp equal
  cases rest
  exact ⟨.byte wfR, .byte wfT, rfl, rfl, rfl, fun other mem same => absent
    (List.mem_map.mpr ⟨other, mem, same⟩), count, x, asked.trans stored, first⟩

end RowMajor
