import RowMajor.Proofs.Grid.Rows
import RowMajor.Proofs.Operations.Section

/-!
# Sections by coordinates

Taking a section goes row by row down the axes, with a shortcut where the remaining axes are
taken whole. The shortcut changes nothing (`take_cons`), so one induction on the counts
tells where every element of a section comes from: from the element at the same distance
from the side that the count takes from, or from the fill element where the section reaches
past the array.
-/

namespace RowMajor

variable {α : Type}

namespace Shape

/-- Where along an axis of length `d` the section that `n` takes begins. A section from the back
that is longer than the axis begins before it. -/
def sectionStart (n d : Int) : Int :=
  if 0 ≤ n then 0 else d - Int.ofNat n.natAbs

/-- The coordinates that an element of a section has in the array it is taken from. -/
def sectionSource : List Int → Shape → List Nat → List Int
  | n :: counts, d :: s, i :: index =>
    (sectionStart n d + Int.ofNat i) :: sectionSource counts s index
  | _, _, index => index.map Int.ofNat

/-- A section reaches past no axis, unless it has no elements because of a count before. -/
def HasSection : List Int → Shape → Prop
  | n :: counts, d :: s => Int.ofNat n.natAbs ≤ d ∧ (n = 0 ∨ HasSection counts s)
  | _, _ => True

@[simp] theorem sectionSource_nil (s : Shape) (index : List Nat) :
    sectionSource [] s index = index.map Int.ofNat := by
  cases s <;> rfl

/-- A section from the front begins where the array does. -/
theorem sectionSource_natural {counts s : Shape} {index : List Nat} (natural : counts.Natural) :
    sectionSource counts s index = index.map Int.ofNat := by
  induction counts generalizing s index with
  | nil => exact sectionSource_nil s index
  | cons n counts ih =>
      obtain ⟨nonneg, natural⟩ := (natural_cons n counts).mp natural
      cases s with
      | nil => rfl
      | cons d s =>
          cases index with
          | nil => rfl
          | cons i index =>
              rw [sectionSource, sectionStart, if_pos nonneg, Int.zero_add, ih natural]
              rfl

theorem hasSection_nil (s : Shape) : HasSection [] s := by
  cases s <;> trivial

theorem isTakenWhole_cons {n d : Int} {counts : List Int} {s : Shape} :
    isTakenWhole (n :: counts) (d :: s) = true ↔
      Int.ofNat n.natAbs = d ∧ isTakenWhole counts s = true := by
  refine Bool.and_eq_true_iff.trans (and_congr_left fun _ => ?_)
  exact decide_eq_true_iff

end Shape

namespace Grid

variable {a : Grid α} {kind : Kind} {filler : Filler α} {n d : Int} {counts : List Int}
  {s : Shape}

/-- The elements of the rows that a count takes. -/
theorem flatMap_takeRows (h : a.WellFormed) (n : Int) :
    (a.takeRows n).flatMap (·.items) =
      if 0 ≤ n then a.items.take (n.natAbs * a.rowSize)
      else a.items.drop ((a.rowCount - Int.ofNat n.natAbs).toNat * a.rowSize) := by
  have total := h.length_eq_rows
  have start : (a.rowCount - Int.ofNat n.natAbs).toNat = a.rowCount.toNat - n.natAbs := by
    simp only [Int.ofNat_eq_natCast]
    omega
  simp only [takeRows, start]
  split
  · rw [flatMap_rowsFrom, Nat.zero_mul, List.drop_zero, List.take_eq_take_iff, total,
      Nat.mul_min_mul_right, Nat.mul_min_mul_right, Nat.min_assoc, Nat.min_self]
  · rw [flatMap_rowsFrom]
    refine List.take_of_length_le ?_
    rw [List.length_drop, total, ← Nat.sub_mul]
    exact Nat.mul_le_mul_right _ (by omega)

/-- A count that is no smaller than the number of rows takes all elements. -/
theorem flatMap_takeRows_of_le (h : a.WellFormed) (all : a.rowCount ≤ Int.ofNat n.natAbs) :
    (a.takeRows n).flatMap (·.items) = a.items := by
  have most : a.rowCount.toNat ≤ n.natAbs := Int.toNat_le.mpr all
  rw [flatMap_takeRows h]
  split
  · refine List.take_of_length_le ?_
    rw [h.length_eq_rows]
    exact Nat.mul_le_mul_right _ most
  · rw [Int.toNat_of_nonpos (Int.sub_nonpos_of_le all), Nat.zero_mul, List.drop_zero]

/-- Counts that take every axis as it is take the whole grid. -/
theorem take_of_isTakenWhole (h : a.WellFormed) (rank : counts.length ≤ a.rank)
    (whole : Shape.isTakenWhole counts a.shape = true) :
    take kind filler counts a = .ok a := by
  cases counts with
  | nil => rfl
  | cons n counts =>
      have shape := shape_eq_cons rank
      rw [shape] at whole
      obtain ⟨count, below⟩ := Shape.isTakenWhole_cons.mp whole
      have items := flatMap_takeRows_of_le h (Int.le_of_eq count.symm)
      rw [flatMap_takeRows h] at items
      rw [take, if_pos below]
      simp only [takeLeading]
      rw [if_pos (Int.le_of_eq count), items, count, ← shape]

/-- The shortcut for axes that are taken whole gives what going by rows does. -/
theorem take_cons (h : a.WellFormed) (rank : (n :: counts).length ≤ a.rank) :
    take kind filler (n :: counts) a = (do
      let rowShape := Shape.taken counts a.rowShape
      let rows ← (a.takeRows n).mapM (take kind filler counts)
      let items := rows.flatMap (·.items)
      if n.natAbs ≤ rows.length then .ok ⟨Int.ofNat n.natAbs :: rowShape, items⟩
      else
        a.padRows kind filler n rowShape (Int.ofNat n.natAbs - Int.ofNat rows.length) items) := by
  rw [take]
  split
  · rename_i whole
    -- The other counts take every row as it is, so the rows need not be looked at.
    have each : ∀ row ∈ a.takeRows n, take kind filler counts row = pure row := by
      intro row mem
      obtain ⟨holds, shape⟩ := h.holds_trivial.takeRows mem
      refine take_of_isTakenWhole holds.wellFormed ?_ (shape ▸ whole)
      rw [Grid.rank, shape]
      exact rank_rowShape rank
    rw [Outcome.mapM_congr each, List.mapM_pure, List.map_id',
      Shape.taken_of_isTakenWhole whole]
    have count := h.rowCount_nonneg
    show _ = (if n.natAbs ≤ (a.takeRows n).length then _ else _)
    simp only [takeLeading]
    rw [length_takeRows]
    by_cases enough : Int.ofNat n.natAbs ≤ a.rowCount
    · rw [if_pos enough, if_pos (Nat.le_min.mpr ⟨Nat.le_refl _, (Int.le_toNat count).mpr enough⟩),
        flatMap_takeRows h]
    · have few : a.rowCount ≤ Int.ofNat n.natAbs := Int.le_of_not_le enough
      have present : min n.natAbs a.rowCount.toNat = a.rowCount.toNat :=
        Nat.min_eq_right (Int.toNat_le.mpr few)
      have short : ¬ n.natAbs ≤ min n.natAbs a.rowCount.toNat :=
        fun most => enough ((Int.le_toNat count).mp (Nat.le_min.mp most).2)
      have missing : Int.ofNat a.rowCount.toNat = a.rowCount := Int.toNat_of_nonneg count
      rw [if_neg enough, if_neg short, flatMap_takeRows_of_le h few, present, missing]
  · rfl

theorem takeRows_eq_map (shape : a.shape = d :: s) (nonneg : 0 ≤ d) (n : Int) :
    a.takeRows n = (List.range (min n.natAbs d.toNat)).map fun i =>
      a.cellAt [(Shape.sectionStart n d).toNat + i] := by
  have count := rowCount_of_shape shape
  have start : (Shape.sectionStart n d).toNat = if 0 ≤ n then 0 else d.toNat - n.natAbs := by
    simp only [Shape.sectionStart, Int.ofNat_eq_natCast]
    split <;> omega
  simp only [takeRows, count, start]
  split <;> exact rowsFrom_eq_map shape _ _

/-- A grid is the section that the counts take: each of its elements is the one at the place it
comes from, or the fill element if that place is not in the array. -/
structure IsSection (filler : Filler α) (counts : List Int) (a t : Grid α) : Prop where
  wellFormed : t.WellFormed
  shape : t.shape = Shape.taken counts a.shape
  get? : ∀ index ∈ Shape.coordinates t.shape,
    t.get? index = (a.at? (Shape.sectionSource counts a.shape index)).or filler.toOption

theorem isSection_nil (h : a.WellFormed) : IsSection filler [] a a := by
  refine ⟨h, (Shape.taken_nil a.shape).symm, fun index mem => ?_⟩
  obtain ⟨x, found⟩ := h.exists_get? mem
  rw [Shape.sectionSource_nil, at?_ofNat, found]
  rfl

theorem padItems_nil {β : Type} (n : Int) (rows : List β) : padItems n [] rows = rows := by
  rw [padItems, List.append_nil, List.nil_append, ite_self]

theorem length_padItems {β : Type} (n : Int) (padding rows : List β) :
    (padItems n padding rows).length = padding.length + rows.length := by
  rw [padItems]
  split
  · rw [List.length_append, Nat.add_comm]
  · exact List.length_append

theorem mem_padItems {β : Type} {padding rows : List β} {x : β} :
    x ∈ padItems n padding rows ↔ x ∈ padding ∨ x ∈ rows := by
  rw [padItems]
  split
  · rw [List.mem_append, or_comm]
  · exact List.mem_append

/-- A row of a padded section is one that is there, at the place it comes from, or padding where
nothing is there. -/
theorem getElem?_padItems {β : Type} {rows padding : List β} (nonneg : 0 ≤ d)
    (present : rows.length = min n.natAbs d.toNat) (missing : padding.length = n.natAbs - d.toNat)
    {i : Nat} (there : i < n.natAbs) :
    (∃ j, j < min n.natAbs d.toNat ∧ (padItems n padding rows)[i]? = rows[j]? ∧
      Shape.sectionStart n d + Int.ofNat i =
        Int.ofNat ((Shape.sectionStart n d).toNat + j)) ∨
    (∃ row ∈ padding, (padItems n padding rows)[i]? = some row ∧
      (Shape.sectionStart n d + Int.ofNat i < 0 ∨ d ≤ Shape.sectionStart n d + Int.ofNat i)) := by
  simp only [padItems, Shape.sectionStart, Int.ofNat_eq_natCast]
  split
  · by_cases inside : i < rows.length
    · exact .inl ⟨i, by omega, List.getElem?_append_left inside, by omega⟩
    · have position : i - rows.length < padding.length := by omega
      refine .inr ⟨_, List.getElem_mem position, ?_, by omega⟩
      rw [List.getElem?_append_right (Nat.not_lt.mp inside), List.getElem?_eq_getElem position]
  · by_cases outside : i < padding.length
    · refine .inr ⟨_, List.getElem_mem outside, ?_, by omega⟩
      rw [List.getElem?_append_left outside, List.getElem?_eq_getElem outside]
    · refine .inl ⟨i - padding.length, by omega, ?_, by omega⟩
      exact List.getElem?_append_right (Nat.not_lt.mp outside)

theorem alike_of_sections (h : a.WellFormed) (shape : a.shape = d :: s) {rows : List (Grid α)}
    {t : Grid α} (sections : List.Forall₂ (IsSection filler counts) (a.takeRows n) rows)
    (mem : t ∈ rows) : t.WellFormed ∧ t.shape = Shape.taken counts s := by
  obtain ⟨row, there, cut⟩ := exists_of_forall₂_right sections mem
  obtain ⟨-, rowShape⟩ := h.holds_trivial.takeRows there
  rw [cut.shape, rowShape, rowShape_of_shape shape]
  exact ⟨cut.wellFormed, rfl⟩

/-- Sections of the rows that a count takes, with rows of fill elements for those that are
missing, make up a section. -/
theorem isSection_stacked (h : a.WellFormed) (shape : a.shape = d :: s)
    {rows padding : List (Grid α)}
    (sections : List.Forall₂ (IsSection filler counts) (a.takeRows n) rows)
    (missing : padding.length = n.natAbs - d.toNat)
    (filled : ∀ row ∈ padding, row.WellFormed ∧ row.shape = Shape.taken counts s ∧
      ∀ index ∈ Shape.coordinates row.shape, row.get? index = filler.toOption) :
    IsSection filler (n :: counts) a
      (stacked (Shape.taken counts s) (padItems n padding rows)) := by
  obtain ⟨nonneg, natural⟩ := h.natural_of_shape shape
  have row {i : Nat} (there : i < min n.natAbs d.toNat) :
      ∃ t, rows[i]? = some t ∧
        IsSection filler counts (a.cellAt [(Shape.sectionStart n d).toNat + i]) t :=
    getElem?_of_forall₂_range (takeRows_eq_map shape nonneg n ▸ sections) there
  have present : rows.length = min n.natAbs d.toNat := by
    rw [← sections.length_eq, length_takeRows, rowCount_of_shape shape]
  have length : (padItems n padding rows).length = n.natAbs := by
    rw [length_padItems, present, missing]
    omega
  have alike : ∀ t ∈ padItems n padding rows,
      t.WellFormed ∧ t.shape = Shape.taken counts s := by
    intro t mem
    rcases mem_padItems.mp mem with mem | mem
    · exact ⟨(filled t mem).1, (filled t mem).2.1⟩
    · exact alike_of_sections h shape sections mem
  have below := Shape.natural_taken counts natural
  constructor
  · exact WellFormed.stacked below alike
  · rw [stacked, length, shape]
    rfl
  · intro index mem
    rw [stacked, length] at mem
    obtain ⟨i, rest, rfl, there, inside⟩ := Shape.mem_coordinates_cons.mp mem
    rw [shape, Shape.sectionSource]
    -- Either the row is there and the rest of the coordinates decides, or it is padding.
    rcases getElem?_padItems nonneg present missing there with ⟨j, hj, here, place⟩ | beyond
    · obtain ⟨t, found, cut⟩ := row hj
      have room : (Shape.sectionStart n d).toNat + j < d.toNat := by
        simp only [Shape.sectionStart, Int.ofNat_eq_natCast]
        split <;> omega
      have source := cut.get? rest (by rwa [cut.shape, shape_row shape])
      rw [get?_stacked below alike (here.trans found), source, place, shape_row shape,
        at?_row h.natural shape room]
    · obtain ⟨t, mem, here, outside⟩ := beyond
      obtain ⟨-, cut, fill⟩ := filled t mem
      rw [get?_stacked below alike here, fill rest (cut ▸ inside), at?_of_no_row shape outside]
      rfl

/-- A grid with the same element everywhere. -/
def filled (s : Shape) (x : α) : Grid α :=
  ⟨s, List.replicate s.volume x⟩

theorem filled_spec {x : α} (natural : s.Natural) :
    (filled s x).WellFormed ∧
      ∀ index ∈ Shape.coordinates s, (filled s x).get? index = some x := by
  have volume := Shape.cellCount_eq_volume natural
  constructor
  · exact wellFormed_iff.mpr ⟨natural, List.length_replicate.trans volume.symm⟩
  · intro index mem
    have below := Shape.offset_lt natural mem
    rw [get?_of_mem (a := filled s x) mem]
    exact List.getElem?_replicate_of_lt (volume ▸ below)

/-- Padding a section is stacking its rows with rows of fill elements. -/
theorem padRows_eq_stacked {x : α} {rows : List (Grid α)} (natural : s.Natural)
    (short : rows.length ≤ n.natAbs) (each : ∀ row ∈ rows, row.WellFormed ∧ row.shape = s) :
    a.padRows kind (.ok x) n s (Int.ofNat n.natAbs - Int.ofNat rows.length)
        (rows.flatMap (·.items)) =
      .ok (stacked s (padItems n (List.replicate (n.natAbs - rows.length) (filled s x)) rows)) := by
  have count : (Int.ofNat n.natAbs - Int.ofNat rows.length).toNat = n.natAbs - rows.length := by
    simp only [Int.ofNat_eq_natCast]
    omega
  have missing : 0 ≤ Int.ofNat n.natAbs - Int.ofNat rows.length := by
    simp only [Int.ofNat_eq_natCast]
    omega
  have padding : (List.replicate (n.natAbs - rows.length) (filled s x)).flatMap (·.items) =
      List.replicate ((Int.ofNat n.natAbs - Int.ofNat rows.length) * s.size).toNat x := by
    rw [List.flatMap_replicate, filled, List.flatten_replicate_replicate,
      Int.toNat_mul missing (Shape.size_nonneg natural), count]
    rfl
  have padded : (⟨Int.ofNat n.natAbs :: s, padItems n
        (List.replicate ((Int.ofNat n.natAbs - Int.ofNat rows.length) * s.size).toNat x)
        (rows.flatMap (·.items))⟩ : Grid α) =
      stacked s (padItems n (List.replicate (n.natAbs - rows.length) (filled s x)) rows) := by
    rw [stacked, length_padItems, List.length_replicate, Nat.sub_add_cancel short, ← padding]
    simp only [padItems]
    split <;> rw [List.flatMap_append]
  have alike : ∀ row ∈ padItems n (List.replicate (n.natAbs - rows.length) (filled s x)) rows,
      row.WellFormed ∧ row.shape = s := by
    intro row mem
    rcases mem_padItems.mp mem with mem | mem
    · rw [List.eq_of_mem_replicate mem]
      exact ⟨(filled_spec natural).1, rfl⟩
    · exact each row mem
  rw [padRows]
  show fit kind _ = _
  rw [padded, fit_eq_ok (WellFormed.stacked natural alike).fits]

/-- Where there are enough rows, their sections make up the section. -/
theorem isSection_of_enough (h : a.WellFormed) (shape : a.shape = d :: s)
    {rows : List (Grid α)}
    (sections : List.Forall₂ (IsSection filler counts) (a.takeRows n) rows)
    (enough : n.natAbs ≤ rows.length) :
    Int.ofNat n.natAbs ≤ d ∧ IsSection filler (n :: counts) a
      ⟨Int.ofNat n.natAbs :: Shape.taken counts s, rows.flatMap (·.items)⟩ := by
  have nonneg := (h.natural_of_shape shape).1
  have length : rows.length = min n.natAbs d.toNat := by
    rw [← sections.length_eq, length_takeRows, rowCount_of_shape shape]
  have missing : ([] : List (Grid α)).length = n.natAbs - d.toNat := by
    rw [List.length_nil]
    omega
  have cut := isSection_stacked h shape sections missing
    fun _ mem => absurd mem List.not_mem_nil
  have all : rows.length = n.natAbs := by omega
  rw [padItems_nil, stacked, all] at cut
  refine ⟨?_, cut⟩
  simp only [Int.ofNat_eq_natCast]
  omega

/-- Where there are not enough rows, rows of fill elements make up for them. -/
theorem isSection_padRows {x : α} (h : a.WellFormed) (shape : a.shape = d :: s)
    {rows : List (Grid α)}
    (sections : List.Forall₂ (IsSection (.ok x) counts) (a.takeRows n) rows)
    (short : rows.length < n.natAbs) :
    ∃ t, a.padRows kind (.ok x) n (Shape.taken counts s)
        (Int.ofNat n.natAbs - Int.ofNat rows.length) (rows.flatMap (·.items)) = .ok t ∧
      IsSection (.ok x) (n :: counts) a t := by
  have natural := Shape.natural_taken counts (h.natural_of_shape shape).2
  have length : rows.length = min n.natAbs d.toNat := by
    rw [← sections.length_eq, length_takeRows, rowCount_of_shape shape]
  have missing : (List.replicate (n.natAbs - rows.length)
      (filled (Shape.taken counts s) x)).length = n.natAbs - d.toNat := by
    rw [List.length_replicate]
    omega
  have alike : ∀ t ∈ rows, t.WellFormed ∧ t.shape = Shape.taken counts s :=
    fun t mem => alike_of_sections h shape sections mem
  refine ⟨_, padRows_eq_stacked natural (Nat.le_of_lt short) alike, ?_⟩
  refine isSection_stacked h shape sections missing fun row mem => ?_
  obtain ⟨wf, same⟩ := filled_spec (x := x) natural
  rw [List.eq_of_mem_replicate mem]
  exact ⟨wf, rfl, same⟩

/-- Taking gives a section of the array. Without a fill element it is refused exactly if the
section reaches past an axis. -/
theorem take_isSection (h : a.WellFormed) (rank : counts.length ≤ a.rank) :
    Outcome
      (fun t => IsSection filler counts a t ∧
        (Shape.HasSection counts a.shape ∨ ∃ x, filler = .ok x))
      (fun _ => ¬ Shape.HasSection counts a.shape ∧ ∀ x, filler ≠ .ok x)
      (take kind filler counts a) := by
  induction counts generalizing a with
  | nil =>
      exact ⟨isSection_nil h, .inl (Shape.hasSection_nil a.shape)⟩
  | cons n counts ih =>
      have shape := shape_eq_cons rank
      have each : ∀ row ∈ a.takeRows n, Outcome
          (fun t => IsSection filler counts row t ∧
            (Shape.HasSection counts a.rowShape ∨ ∃ x, filler = .ok x))
          (fun _ => ¬ Shape.HasSection (n :: counts) a.shape ∧ ∀ x, filler ≠ .ok x)
          (take kind filler counts row) := by
        intro row mem
        obtain ⟨holds, rowShape⟩ := h.holds_trivial.takeRows mem
        have nonzero : n ≠ 0 := by
          rintro rfl
          have some := List.length_pos_of_mem mem
          rw [length_takeRows] at some
          exact absurd some (by simp)
        have cut := ih holds.wellFormed (by rw [Grid.rank, rowShape]; exact rank_rowShape rank)
        rw [rowShape] at cut
        refine cut.mono (fun _ found => found) ?_
        rintro _ ⟨beyond, unfilled⟩
        refine ⟨?_, unfilled⟩
        rw [shape]
        rintro ⟨-, zero | below⟩
        · exact nonzero zero
        · exact beyond below
      rw [take_cons h rank]
      apply (Outcome.mapM_forall₂ each).bind
      intro rows sections
      have cuts : List.Forall₂ (IsSection filler counts) (a.takeRows n) rows :=
        sections.imp fun _ _ found => found.1
      show Outcome _ _ (if n.natAbs ≤ rows.length then _ else _)
      split
      · rename_i enough
        obtain ⟨fits, cut⟩ := isSection_of_enough h shape cuts enough
        refine ⟨cut, ?_⟩
        rw [shape]
        -- Whether the section reaches past an axis below is known from any row there is.
        generalize a.takeRows n = sources at sections
        cases sections with
        | nil => exact .inl ⟨fits, .inl (Int.natAbs_eq_zero.mp (Nat.le_zero.mp enough))⟩
        | cons first _ => exact first.2.imp_left fun below => ⟨fits, .inr below⟩
      · rename_i short
        cases filler with
        | error why =>
            refine ⟨?_, by rintro x ⟨⟩⟩
            have length : rows.length = min n.natAbs a.rowCount.toNat := by
              rw [← sections.length_eq, length_takeRows]
            rw [shape]
            rintro ⟨fits, -⟩
            simp only [Int.ofNat_eq_natCast] at fits
            omega
        | ok x =>
            obtain ⟨t, padded, cut⟩ := isSection_padRows h shape cuts (Nat.not_le.mp short)
            rw [padded]
            exact ⟨cut, .inr ⟨x, rfl⟩⟩

end Grid

end RowMajor
