import RowMajor.Proofs.Keep.Undo
import RowMajor.Proofs.Operand.Lists
import RowMajor.Proofs.Select.Undo

/-!
# Kept rows as selected rows

Keeping rows by a list of counts is selecting them by their numbers, each of them as often as its
count says and all in order. Whether the counts are a mask makes no difference, nor does it whether
the fill value supplied some of them, and an array without axes counts as its only row.

There is no such list of numbers if there are more counts than rows, or if those that are missing
cannot be supplied. Counts that are rounded keep the same rows only if these are copied alike.
-/

namespace RowMajor

variable {α : Type}

section Counts

variable {fill : Fill} {shape : Shape} {rows : Int} {counts : List Nat}

theorem fillCounts_of_more (fill : Fill) (shape : Shape) (more : rows < Int.ofNat counts.length) :
    ∃ why, fillCounts fill shape rows counts =
      .error (.shape (.tooManyCounts shape counts.length why)) := by
  rw [fillCounts, if_neg (Int.ne_of_gt more), if_neg (Int.not_lt.mpr (Int.le_of_lt more))]
  split
  · exact ⟨_, rfl⟩
  · exact ⟨_, rfl⟩

theorem fillCounts_of_missing (fewer : Int.ofNat counts.length < rows)
    (missing : fill.element? (.uniform .number) = none) :
    fillCounts fill shape rows counts =
      .error (.shape (.tooFewCounts shape counts.length (fill.missing .number))) := by
  have none : fill.filler (.uniform .number) = .error (fill.missing .number) :=
    Fill.filler_eq_error_iff.mpr ⟨missing, rfl⟩
  rw [fillCounts, if_neg (Int.ne_of_lt fewer), if_pos fewer, none]

/-- A number to fill with has to be one that counts. -/
theorem fillCounts_of_toNat?_eq_none {x : Binary64} (fewer : Int.ofNat counts.length < rows)
    (given : fill.element? (.uniform .number) = some x) (fraction : x.toNat? = none) :
    fillCounts fill shape rows counts = .error (.kind (.keepFill x)) := by
  have some : fill.filler (.uniform .number) = .ok x := Fill.filler_eq_ok_iff.mpr given
  rw [fillCounts, if_neg (Int.ne_of_lt fewer), if_pos fewer, some]
  simp only [fraction]

end Counts

namespace Grid

variable {a : Grid α} {places : List Nat}

/-- The rows that a vector of indices names, one behind another. -/
theorem rowsAt_vector {indices : List Int} (length : indices.length = places.length) :
    a.rowsAt (vector indices) places =
      stacked a.rowShape (places.map fun p => a.asRows.cellAt [p]) := by
  have shape := shape_rowsAt a (vector indices) places
  have items : (a.rowsAt (vector indices) places).items =
      (places.map fun p => a.asRows.cellAt [p]).flatMap (·.items) := by
    rw [items_rowsAt, List.flatMap_map]
  rw [stacked, List.length_map, ← length]
  exact congr (congrArg Grid.mk shape) items

/-- The numbers of the rows, each as often as its count says, name the copies of the rows. -/
theorem select_copies {full : List Nat} {why : MissingFill} (h : a.WellFormed)
    (length : full.length = a.rowCount.toNat) :
    select (.error why) (vector ((RowMajor.copies full (List.range full.length)).map Int.ofNat)) a =
      .ok (stacked a.rowShape (RowMajor.copies full a.rows)) := by
  have rows : a.rows = (List.range full.length).map fun p => a.asRows.cellAt [p] := by
    rw [← rows_asRows, rows_eq_map (a := a.asRows) rfl, length]
  have named : Names a.rowCount ((RowMajor.copies full (List.range full.length)).map Int.ofNat)
      (RowMajor.copies full (List.range full.length)) := by
    refine Names.map_ofNat fun p mem => ?_
    have below := List.mem_range.mp (mem_of_mem_copies mem)
    have nonneg := h.rowCount_nonneg
    simp only [Int.ofNat_eq_natCast]
    omega
  rw [select_eq (wellFormed_vector _) h named, rowsAt_vector (List.length_map _), rows, copies_map]

end Grid

/-- Keeping rows by counts that are as many, or are completed by the fill value, is selecting each
row as often as its count says. Where there are more counts than rows, or fewer and no number to
fill with, the shapes do not match, and a number to fill with that counts nothing is refused as
such. -/
def Value.KeepsRows (a : Value) (fill : Fill) (counts : Operand) (ns : List Nat) : Prop :=
  (∀ full, fill.Completes a.rowCount ns full →
    ∃ r, RowMajor.keep counts (.value a) fill = .ok r ∧ r.form = a.form ∧
      r.shape = Int.ofNat (full.foldr (· + ·) 0) :: a.shape.tail ∧
      r.rows = RowMajor.copies full a.rows ∧
      ∀ index : Operand, index.asIntegerGrid .indexTable =
          .ok (.vector ((RowMajor.copies full (List.range full.length)).map Int.ofNat)) →
        RowMajor.select index (.value a) .none = .ok r) ∧
  (a.rowCount < Int.ofNat ns.length → ∃ why,
    RowMajor.keep counts (.value a) fill = .error (.shape (.tooManyCounts a.shape ns.length why))) ∧
  (Int.ofNat ns.length < a.rowCount → fill.element? (.uniform .number) = none →
    RowMajor.keep counts (.value a) fill =
      .error (.shape (.tooFewCounts a.shape ns.length (fill.missing .number)))) ∧
  (Int.ofNat ns.length < a.rowCount → ∀ x : Binary64,
    fill.element? (.uniform .number) = some x → x.toNat? = none →
    RowMajor.keep counts (.value a) fill = .error (.kind (.keepFill x)))

section Operations

variable {counts : Operand} {ns ms : List Nat} {a : Value} {fill : Fill}

/-- What is kept by some counts is what other counts keep, if there are as many of them and they
copy the rows in the same way. -/
theorem keepsRows_of_copies (listed : counts.ListsCounts ms) (h : a.grid.WellFormed)
    (same : ms.length = ns.length)
    (alike : ∀ full other, fill.Completes a.rowCount ns full → fill.Completes a.rowCount ms other →
      copies other a.rows = copies full a.rows) : a.KeepsRows fill counts ns := by
  obtain ⟨f, a, rfl⟩ := a.exists_form
  rw [Value.grid_ofGrid_wellFormed] at h
  rw [Value.rowCount_ofGrid, Value.rows_ofGrid] at alike
  simp only [Value.KeepsRows, keep_ofGrid listed, Value.rowCount_ofGrid, Value.shape_ofGrid,
    Value.rows_ofGrid, Grid.keep]
  refine ⟨fun full completed => ?_, fun more => ?_, fun fewer missing => ?_,
    fun fewer x given fraction => ?_⟩
  · obtain ⟨other, stored⟩ := completed.exists_of_length same
    have length := completed.length_eq
    have gathered : a.keepRows other = Grid.stacked a.rowShape (copies full a.rows) := by
      have rows := alike full other completed stored
      rw [copies_map, copies_map] at rows
      rw [Grid.keepRows_eq_stacked (stored.length_eq.trans (Grid.length_rows a).symm),
        List.map_injective_iff.mpr (Value.ofGrid_injective f) rows]
    have good : ∀ row ∈ copies full a.rows, row.WellFormed ∧ row.shape = a.rowShape := by
      intro row mem
      have there := mem_of_mem_copies mem
      exact ⟨h.rows there, Grid.shape_of_mem_rows there⟩
    rw [fillCounts_eq_ok_iff.mpr stored]
    refine ⟨.ofGrid f (a.keepRows other), rfl, ?_, ?_, ?_, fun index read => ?_⟩
    · rw [Value.form_ofGrid, Value.form_ofGrid]
    · rw [Value.shape_ofGrid, gathered, Grid.stacked,
        length_copies (length.trans (Grid.length_rows a).symm)]
      rfl
    · rw [Value.rows_ofGrid, gathered, Grid.rows_stacked good, copies_map]
    · have absent : Fill.none.filler f = .error .absent := rfl
      rw [select_promoted read (Value.promoteFor_none _), absent, Grid.select_copies h length,
        gathered]
      rfl
  · rw [← same] at more ⊢
    obtain ⟨why, refused⟩ := fillCounts_of_more fill a.shape more
    exact ⟨why, by rw [refused]; rfl⟩
  · rw [← same] at fewer ⊢
    rw [fillCounts_of_missing fewer missing]
    rfl
  · rw [← same] at fewer
    rw [fillCounts_of_toNat?_eq_none fewer given fraction]
    rfl

theorem keepsRows_of_lists (listed : counts.ListsCounts ns) (h : a.grid.WellFormed) :
    a.KeepsRows fill counts ns :=
  keepsRows_of_copies listed h rfl fun _ _ completed other => by rw [completed.unique other]

theorem listsCounts_listed (rounds : Rounds (ns.map Int.ofNat) (ms.map Int.ofNat)) :
    (Operand.listed (ns.map Int.ofNat)).ListsCounts ms := by
  obtain ⟨xs, value, read⟩ := Operand.exists_vector_of_natural rounds (Shape.natural_ofNats ns)
  refine ⟨_, value, Nat.one_ne_zero, (read .counts).trans ?_⟩
  rw [List.map_map]
  exact congrArg Except.ok (List.map_id ms)

theorem keep_listed_of_large {n : Int} (mem : n ∈ ns.map Int.ofNat)
    (large : Binary64.rounded? n = none) :
    keep (.listed (ns.map Int.ofNat)) (.value a) fill = .error .tooLarge := by
  rw [keep, Operand.toValue_listed_of_large mem large]
  rfl

/-- That counts are too large to be stored is not said of rows that are kept, nor is it a reason
for which counts and rows do not match. -/
theorem Value.KeepsRows.ne_tooLarge (keeps : a.KeepsRows fill counts ns) :
    RowMajor.keep counts (.value a) fill ≠ .error .tooLarge := by
  intro failed
  obtain ⟨kept, more, missing, fraction⟩ := keeps
  rcases Int.lt_trichotomy (Int.ofNat ns.length) a.rowCount with fewer | same | many
  · cases given : fill.element? (.uniform .number) with
    | none => cases failed.symm.trans (missing fewer given)
    | some x =>
        cases natural : x.toNat? with
        | none => cases failed.symm.trans (fraction fewer x given natural)
        | some n =>
            obtain ⟨r, found, -⟩ :=
              kept _ (.filled fewer (Fill.filler_eq_ok_iff.mpr given) natural)
            cases failed.symm.trans found
  · obtain ⟨r, found, -⟩ := kept ns (.exactly same)
    cases failed.symm.trans found
  · obtain ⟨why, refused⟩ := more many
    cases failed.symm.trans refused

/-- A list of counts keeps the rows as it says if the rounded counts copy them in the same way. -/
theorem keepsRows_listed_iff (h : a.grid.WellFormed) :
    a.KeepsRows fill (.listed (ns.map Int.ofNat)) ns ↔
      ∃ ms : List Nat, Rounds (ns.map Int.ofNat) (ms.map Int.ofNat) ∧
        ∀ full other, fill.Completes a.rowCount ns full → fill.Completes a.rowCount ms other →
          copies other a.rows = copies full a.rows := by
  constructor
  · intro keeps
    obtain ⟨ms, rounds⟩ | ⟨n, mem, large⟩ := exists_rounds_or_large (ns.map Int.ofNat)
    · rw [← Shape.ofNats_toNat (rounds.natural (Shape.natural_ofNats ns))] at rounds
      refine ⟨ms.map Int.toNat, rounds, fun full other completed stored => ?_⟩
      obtain ⟨r, kept, -, -, rows, -⟩ := keeps.1 full completed
      obtain ⟨_, same, -, -, copied, -⟩ :=
        (keepsRows_of_lists (listsCounts_listed rounds) h).1 other stored
      obtain rfl := Except.ok.inj (kept.symm.trans same)
      exact copied.symm.trans rows
    · exact absurd (keep_listed_of_large mem large) keeps.ne_tooLarge
  · rintro ⟨ms, rounds, alike⟩
    have same := rounds.length_eq.symm
    rw [List.length_map, List.length_map] at same
    exact keepsRows_of_copies (listsCounts_listed rounds) h same alike

/-- Whatever counts are listed, the rows are kept that have the numbers which the counts repeat. The
list may be one of integers if these copy the rows in the same way when they are rounded. -/
theorem keep_selects_repeated (h : a.grid.WellFormed) :
    (∀ counts : Operand, counts.ListsCounts ns → a.KeepsRows fill counts ns) ∧
    (a.KeepsRows fill (.listed (ns.map Int.ofNat)) ns ↔
      ∃ ms : List Nat, Rounds (ns.map Int.ofNat) (ms.map Int.ofNat) ∧
        ∀ full other, fill.Completes a.rowCount ns full → fill.Completes a.rowCount ms other →
          copies other a.rows = copies full a.rows) :=
  ⟨fun _ listed => keepsRows_of_lists listed h, keepsRows_listed_iff h⟩

/-- Two letters are kept by a mask, the last one because the fill value counts it. They are those
with the numbers zero and two. -/
theorem letters_kept_and_selected :
    let counts : Operand := .value (.byte ⟨[2], [1, 0]⟩)
    let fill : Fill := ⟨some (.byte ⟨[], [1]⟩)⟩
    let a : Value := .character ⟨[3], ['a', 'b', 'c']⟩
    let index : Operand := .value (.byte ⟨[2], [0, 2]⟩)
    let kept : Value := .character ⟨[2], ['a', 'c']⟩
    counts.ListsCounts [1, 0] ∧ a.grid.WellFormed ∧
      fill.Completes a.rowCount [1, 0] [1, 0, 1] ∧
      index.asIntegerGrid .indexTable = .ok (.vector [0, 2]) ∧
      keep counts (.value a) fill = .ok kept ∧ select index (.value a) .none = .ok kept ∧
      a.KeepsRows fill (.listed [1, 0]) [1, 0] := by
  intro counts fill a index kept
  have listed : counts.ListsCounts [1, 0] := ⟨_, rfl, by decide, rfl⟩
  have h : a.grid.WellFormed := by decide
  have one : (Binary64.ofByte 1).toNat? = some 1 := by decide +kernel
  have completed : fill.Completes a.rowCount [1, 0] [1, 0, 1] := .filled (by decide) rfl one
  have read : index.asIntegerGrid .indexTable = .ok (.vector [0, 2]) := rfl
  have selected : select index (.value a) .none = .ok kept := rfl
  have stored : Rounds [1, 0] [1, 0] := .cons (by decide +kernel) (.cons (by decide +kernel) .nil)
  obtain ⟨reads, integers⟩ := @keep_selects_repeated [1, 0] a fill h
  obtain ⟨_, found, -, -, -, same⟩ := (reads counts listed).1 _ completed
  obtain rfl := Except.ok.inj (selected.symm.trans (same index read))
  exact ⟨listed, h, completed, read, found, selected, integers.mpr ⟨[1, 0], stored,
    fun full other completed also => by rw [completed.unique also]⟩⟩

/-- The only row of an array is empty, and should be kept more than `2 ^ 53` times. But the count is
odd, so the row is kept once less. -/
theorem odd_count_keeps_fewer_rows :
    let a : Value := .byte ⟨[1, 0], []⟩
    a.grid.WellFormed ∧ Fill.none.Completes a.rowCount [2 ^ 53 + 1] [2 ^ 53 + 1] ∧
      (∃ r, keep (.listed [2 ^ 53 + 1]) (.value a) .none = .ok r ∧ r.shape = [2 ^ 53, 0]) ∧
      ¬ a.KeepsRows .none (.listed [2 ^ 53 + 1]) [2 ^ 53 + 1] := by
  intro a
  have h : a.grid.WellFormed := by decide
  have rounds : Rounds [2 ^ 53 + 1] [2 ^ 53] := .cons (by decide +kernel) .nil
  have listed : (Operand.listed [2 ^ 53 + 1]).ListsCounts [2 ^ 53] :=
    @listsCounts_listed [2 ^ 53 + 1] [2 ^ 53] rounds
  have fewer : a.KeepsRows .none (.listed [2 ^ 53 + 1]) [2 ^ 53] := keepsRows_of_lists listed h
  obtain ⟨r, kept, -, shape, -⟩ := fewer.1 [2 ^ 53] (.exactly rfl)
  refine ⟨h, .exactly rfl, ⟨r, kept, shape⟩, fun keeps => ?_⟩
  obtain ⟨_, same, -, other, -⟩ := keeps.1 [2 ^ 53 + 1] (.exactly rfl)
  obtain rfl := Except.ok.inj (kept.symm.trans same)
  have differ := (List.cons.inj (shape.symm.trans other)).1
  exact absurd differ (by decide)

end Operations

end RowMajor
