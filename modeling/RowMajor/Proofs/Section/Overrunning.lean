import RowMajor.Proofs.Section.Undo

/-!
# Sections that reach past the array

A section of an array that has been taken with a fill element can have more rows than the
array. Putting it back is refused where it reaches past one of the axes whose rows are put
back one by one. The last of the axes is not looked at in this way: the section is joined to
what is left of the array, which is nothing, and takes its place. So it is exactly the
sections that reach past this axis, and past none before it, that change the shape.
-/

namespace RowMajor

variable {α : Type}

namespace Shape

/-- Along some axis of a region that is not empty, the section has more rows than the array. There
is no such section if there are more counts than axes. -/
def ReachesPast (counts : List Int) (s : Shape) : Prop :=
  counts.length ≤ s.length ∧ ∃ (k : Nat) (n d : Int), counts[k]? = some n ∧ s[k]? = some d ∧
    d < Int.ofNat n.natAbs ∧ ∀ j < k, counts[j]? ≠ some 0

/-- Along the last of its axes the section has more rows than the array, and along the others it
has rows, but no more than the array. -/
def OverrunsLast : List Int → Shape → Prop
  | [n], d :: _ => d < Int.ofNat n.natAbs
  | n :: counts, d :: s => n ≠ 0 ∧ Int.ofNat n.natAbs ≤ d ∧ OverrunsLast counts s
  | _, _ => False

variable {counts : List Int} {s : Shape} {n d : Int}

theorem overrunsLast_cons (more : counts ≠ []) :
    OverrunsLast (n :: counts) (d :: s) ↔
      n ≠ 0 ∧ Int.ofNat n.natAbs ≤ d ∧ OverrunsLast counts s := by
  cases counts with
  | nil => exact absurd rfl more
  | cons m counts => exact Iff.rfl

theorem OverrunsLast.length_le (h : OverrunsLast counts s) : counts.length ≤ s.length := by
  induction counts generalizing s with
  | nil => cases s <;> exact h.elim
  | cons n counts ih =>
      cases s with
      | nil => cases counts <;> exact h.elim
      | cons d s =>
          cases counts with
          | nil => exact Nat.succ_le_succ (Nat.zero_le _)
          | cons m counts => exact Nat.succ_le_succ (ih h.2.2)

theorem OverrunsLast.not_hasSection (h : OverrunsLast counts s) : ¬ HasSection counts s := by
  induction counts generalizing s with
  | nil => cases s <;> exact h.elim
  | cons n counts ih =>
      cases s with
      | nil => cases counts <;> exact h.elim
      | cons d s =>
          rintro ⟨fits, below⟩
          cases counts with
          | nil => exact absurd fits (Int.not_le.mpr h)
          | cons m counts =>
              obtain ⟨some, -, rest⟩ := h
              exact ih rest (below.resolve_left some)

/-- A section that the array does not have reaches past it. -/
theorem reachesPast_iff : ReachesPast counts s ↔
    counts.length ≤ s.length ∧ ¬ HasSection counts s := by
  refine and_congr_right fun rank => ?_
  induction counts generalizing s with
  | nil =>
      constructor
      · rintro ⟨k, n, d, here, -⟩
        cases here
      · intro without
        exact absurd (hasSection_nil s) without
  | cons n counts ih =>
      cases s with
      | nil => cases rank
      | cons d s =>
          have ih := ih (Nat.le_of_succ_le_succ rank)
          constructor
          · rintro ⟨k, m, e, here, axis, past, before⟩ ⟨fits, below⟩
            cases k with
            | zero =>
                cases here
                cases axis
                exact absurd fits (Int.not_le.mpr past)
            | succ k =>
                rcases below with zero | below
                · exact before 0 (Nat.succ_pos k) (congrArg some zero)
                · exact ih.mp ⟨k, m, e, here, axis, past,
                    fun j bound => before (j + 1) (Nat.succ_lt_succ bound)⟩ below
          · intro without
            by_cases fits : Int.ofNat n.natAbs ≤ d
            · have nonzero : n ≠ 0 := fun zero => without ⟨fits, .inl zero⟩
              obtain ⟨k, m, e, here, axis, past, before⟩ :=
                ih.mpr fun below => without ⟨fits, .inr below⟩
              refine ⟨k + 1, m, e, here, axis, past, fun j bound => ?_⟩
              cases j with
              | zero => exact fun zero => nonzero (Option.some.inj zero)
              | succ j => exact before j (Nat.lt_of_succ_lt_succ bound)
            · refine ⟨0, n, d, rfl, rfl, Int.not_le.mp fits, fun j bound => ?_⟩
              exact absurd bound (Nat.not_lt_zero j)

end Shape

namespace Grid

variable {part into : Grid α} {n d : Int} {counts : List Int} {s : Shape} {cut : Section}

/-- Along the last axis a section that is too long takes the place of the rows. -/
theorem replaceSection_last_overrun (cut : Section) (hp : part.WellFormed) (h : into.WellFormed)
    (shape : into.shape = d :: s) (partShape : part.shape = Int.ofNat n.natAbs :: s)
    (past : d < Int.ofNat n.natAbs) :
    ∃ r, replaceSection cut [n] part into = .ok r ∧ r.shape ≠ into.shape := by
  have rest := (dropLeading_holds h.holds_trivial n).wellFormed
  have restShape : (into.dropLeading n).shape = max (d - Int.ofNat n.natAbs) 0 :: s := by
    simp only [dropLeading, rowCount, Grid.rowShape, shape, List.headD_cons, List.tail_cons]
  have count : part.rows.length = n.natAbs := length_rows_of_shape partShape
  have longer (rows : List (Grid α)) (all : part.rows.length ≤ rows.length) :
      (stacked s rows).shape ≠ into.shape := by
    rw [shape]
    intro same
    have lengths : Int.ofNat rows.length = d := (List.cons.inj same).1
    simp only [Int.ofNat_eq_natCast] at past lengths
    omega
  simp only [replaceSection]
  split
  · rw [join_eq_stacked hp rest partShape restShape]
    refine ⟨_, rfl, longer _ ?_⟩
    rw [List.length_append]
    exact Nat.le_add_right ..
  · rw [join_eq_stacked rest hp restShape partShape]
    refine ⟨_, rfl, longer _ ?_⟩
    rw [List.length_append]
    exact Nat.le_add_left ..

/-- Rows can only be put together to a grid that has just these rows. -/
theorem ofRows_rowShape {rows : List (Grid α)} :
    Outcome (fun r => ∀ row ∈ rows, r.rowShape = row.shape) (fun e => ¬ e.IsInverse)
      (ofRows s rows) := by
  refine (ofRows_spec s rows).mono (fun r ⟨alike, stacked⟩ row mem => ?_) fun e differ => ?_
  · rw [stacked]
    exact (alike.eq_headD (List.mem_map_of_mem mem)).symm
  · obtain ⟨first, other, -, -, -, rfl⟩ := differ
    exact id

/-- Along the other axes it is refused. -/
theorem replaceSection_of_more_rows {m : Int} (h : into.WellFormed) (shape : into.shape = d :: s)
    (past : d < Int.ofNat n.natAbs) :
    replaceSection cut (n :: m :: counts) part into =
      .error (.inverse (.sectionRows cut n.natAbs into.rows.length)) := by
  have nonneg := (h.natural_of_shape shape).1
  have few : into.rows.length < n.natAbs := by
    rw [length_rows_of_shape shape]
    simp only [Int.ofNat_eq_natCast] at past
    omega
  simp only [replaceSection]
  rw [if_pos few]

/-- If none of the rows that a section goes back into keeps its shape, neither does the array. -/
theorem replaceSection_of_rows {start : Nat} {last : Prop} (hp : part.WellFormed)
    (h : into.WellFormed) (shape : into.shape = d :: s)
    (begins : Shape.sectionStart n d = Int.ofNat start) (room : start + n.natAbs ≤ d.toNat)
    (partShape : part.shape = Int.ofNat n.natAbs :: Shape.taken counts s) (nonzero : n ≠ 0)
    (each : ∀ pair ∈ (List.range n.natAbs).map fun i =>
      (part.cellAt [i], into.cellAt [start + i]),
      Outcome (fun r => last ∧ r.shape ≠ s) (fun e => e.IsInverse ↔ ¬ last)
        (replaceSection cut counts pair.1 pair.2)) :
    Outcome (fun r => last ∧ r.shape ≠ into.shape) (fun e => e.IsInverse ↔ ¬ last)
      (replaceSection cut (n :: counts) part into) := by
  rw [replaceSection_cons hp h shape begins room partShape]
  apply (Outcome.mapM each).bind
  rintro renewed ⟨length, changed⟩
  rw [List.length_map, List.length_range] at length
  obtain ⟨row, mem⟩ := List.exists_mem_of_length_pos
    (length ▸ Int.natAbs_pos.mpr nonzero : 0 < renewed.length)
  obtain ⟨past, other⟩ := changed row mem
  refine ofRows_rowShape.mono (fun r same => ⟨past, fun unchanged => other ?_⟩)
    fun e shapes => iff_of_false shapes (not_not_intro past)
  rw [← same row (List.mem_append_left _ (List.mem_append_right _ mem)), Grid.rowShape,
    unchanged, shape, List.tail_cons]

/-- A section that reaches past the array is refused, unless it does so just along the last of
its axes. Then it changes the shape, or does not go together with the rows around it. -/
theorem replaceSection_of_not_hasSection (hp : part.WellFormed) (h : into.WellFormed)
    (rank : counts.length ≤ into.rank) (partShape : part.shape = Shape.taken counts into.shape)
    (without : ¬ Shape.HasSection counts into.shape) :
    Outcome (fun r => Shape.OverrunsLast counts into.shape ∧ r.shape ≠ into.shape)
      (fun e => e.IsInverse ↔ ¬ Shape.OverrunsLast counts into.shape)
      (replaceSection cut counts part into) := by
  induction counts generalizing part into with
  | nil => exact absurd (Shape.hasSection_nil into.shape) without
  | cons n counts ih =>
      have shape := shape_eq_cons rank
      rw [shape] at without partShape
      -- A count that fits leaves it to the rows, all of which end alike. One that does not is
      -- noticed unless it is the last.
      by_cases fits : Int.ofNat n.natAbs ≤ into.rowCount
      · have nonzero : n ≠ 0 := fun zero => without ⟨fits, .inl zero⟩
        have below : ¬ Shape.HasSection counts into.rowShape :=
          fun below => without ⟨fits, .inr below⟩
        have more : counts ≠ [] := by
          rintro rfl
          exact below (Shape.hasSection_nil into.rowShape)
        have overruns : Shape.OverrunsLast (n :: counts) into.shape ↔
            Shape.OverrunsLast counts into.rowShape := by
          rw [shape, Shape.overrunsLast_cons more]
          exact ⟨fun past => past.2.2, fun past => ⟨nonzero, fits, past⟩⟩
        obtain ⟨start, begins, room⟩ := Shape.exists_sectionStart fits
        refine replaceSection_of_rows hp h shape begins room partShape nonzero fun pair mem => ?_
        obtain ⟨-, new, old, newShape, oldShape⟩ :=
          covered_pair hp h shape room partShape mem
        have inRow := ih new old (by rw [Grid.rank, oldShape]; exact rank_rowShape rank)
          (newShape.trans (congrArg _ oldShape.symm)) (oldShape.symm ▸ below)
        rwa [oldShape, ← overruns] at inRow
      · have past := Int.not_le.mp fits
        cases counts with
        | nil =>
            rw [Shape.taken, Shape.taken_nil] at partShape
            obtain ⟨r, joined, changed⟩ :=
              replaceSection_last_overrun cut hp h shape partShape past
            rw [joined, shape]
            exact ⟨past, shape ▸ changed⟩
        | cons m counts =>
            rw [replaceSection_of_more_rows h shape past, shape]
            exact iff_of_true trivial fun within => fits within.2.1

/-- A section is put back without a change of shape, or refused with good reason, unless it is
one that reaches past just the last of its axes. -/
theorem untake_keeps_shape (hp : part.WellFormed) (h : into.WellFormed)
    (other : ¬ (part.shape = Shape.taken counts into.shape ∧
      Shape.OverrunsLast counts into.shape)) :
    Outcome (fun r => r.shape = into.shape ∧ ¬ Shape.ReachesPast counts into.shape)
      (fun e => Shape.ReachesPast counts into.shape → e.IsInverse) (untake counts part into) := by
  by_cases rank : counts.length ≤ into.rank
  · by_cases partShape : part.shape = Shape.taken counts into.shape
    · by_cases within : Shape.HasSection counts into.shape
      · obtain ⟨r, undone, replaced⟩ := untake_isReplaced hp h rank within partShape
        rw [undone]
        exact ⟨replaced.shape, fun past => (Shape.reachesPast_iff.mp past).2 within⟩
      · have before : ¬ Shape.OverrunsLast counts into.shape := fun last => other ⟨partShape, last⟩
        rw [untake_of_shape_eq rank partShape]
        refine (replaceSection_of_not_hasSection hp h rank partShape within).mono ?_ ?_
        · rintro r ⟨last, -⟩
          exact absurd last before
        · exact fun e refused _ => refused.mpr before
    · rw [untake_of_shape_ne rank partShape]
      exact fun _ => trivial
  · rw [untake_of_rank_lt (Nat.not_le.mp rank)]
    exact fun past => absurd past.1 rank

/-- A section that reaches past just the last of its axes changes the shape, or is refused for
another reason. -/
theorem untake_overruns (hp : part.WellFormed) (h : into.WellFormed)
    (partShape : part.shape = Shape.taken counts into.shape)
    (last : Shape.OverrunsLast counts into.shape) :
    Outcome (fun r => r.shape ≠ into.shape) (fun e => ¬ e.IsInverse)
      (untake counts part into) := by
  rw [untake_of_shape_eq last.length_le partShape]
  refine (replaceSection_of_not_hasSection hp h last.length_le partShape
    last.not_hasSection).mono ?_ ?_
  · exact fun r changed => changed.2
  · exact fun e refused inverse => refused.mp inverse last

end Grid

/-- Putting a section back keeps the shape, and refuses a section that reaches past the array,
exactly if the section does not just reach past the last of its axes. -/
theorem untake_keeps_shape_iff {counts : Operand} {ns : List Int} {part into : Value}
    (read : counts.asIntegers .indexList = .ok ns) (hp : part.grid.WellFormed)
    (h : into.grid.WellFormed) (sameForm : part.form = into.form) :
    ((∀ r, untake (.value part) counts (.value into) = .ok r → r.shape = into.shape) ∧
      (Shape.ReachesPast ns into.shape →
        ∃ cause, untake (.value part) counts (.value into) = .error (.inverse cause))) ↔
      ¬ (part.shape = Shape.taken ns into.shape ∧ Shape.OverrunsLast ns into.shape) := by
  obtain ⟨f, into, rfl⟩ := into.exists_form
  obtain ⟨part, rfl⟩ := Value.exists_grid (sameForm.trans (Value.form_ofGrid f into))
  rw [Value.grid_ofGrid_wellFormed] at hp h
  rw [untake_ofGrid read, Value.shape_ofGrid, Value.shape_ofGrid]
  constructor
  · rintro ⟨keeps, refuses⟩ ⟨partShape, last⟩
    have changes := Grid.untake_overruns hp h partShape last
    cases undone : Grid.untake ns part into with
    | ok r =>
        rw [undone] at keeps changes
        exact changes ((Value.shape_ofGrid f r).symm.trans (keeps _ rfl))
    | error e =>
        rw [undone] at refuses changes
        obtain ⟨cause, inverse⟩ :=
          refuses (Shape.reachesPast_iff.mpr ⟨last.length_le, last.not_hasSection⟩)
        cases inverse
        exact changes trivial
  · intro other
    have keeps := Grid.untake_keeps_shape hp h other
    cases undone : Grid.untake ns part into with
    | ok r =>
        rw [undone] at keeps
        refine ⟨?_, fun past => absurd past keeps.2⟩
        rintro _ ⟨⟩
        exact (Value.shape_ofGrid f r).trans keeps.1
    | error e =>
        rw [undone] at keeps
        refine ⟨?_, fun past => ?_⟩
        · rintro _ ⟨⟩
        · cases e with
          | inverse cause => exact ⟨cause, rfl⟩
          | _ => exact (keeps past).elim

/-- Three rows do not go back into an array of two. -/
theorem longer_section_refused :
    let counts : Operand := .value (.byte ⟨[2], [3, 1]⟩)
    let part : Value := .character ⟨[3, 1], ['x', 'y', 'z']⟩
    let into : Value := .character ⟨[2, 2], ['a', 'b', 'c', 'd']⟩
    counts.asIntegers .indexList = .ok [3, 1] ∧ part.grid.WellFormed ∧ into.grid.WellFormed ∧
      part.form = into.form ∧
      untake (.value part) counts (.value into) = .error (.inverse (.sectionRows .take 3 2)) ∧
      (∀ r, untake (.value part) counts (.value into) = .ok r → r.shape = into.shape) ∧
      (Shape.ReachesPast [3, 1] into.shape →
        ∃ cause, untake (.value part) counts (.value into) = .error (.inverse cause)) := by
  intro counts part into
  have hp : part.grid.WellFormed := by decide
  have h : into.grid.WellFormed := by decide
  refine ⟨rfl, hp, h, rfl, rfl, (untake_keeps_shape_iff rfl hp h rfl).mpr ?_⟩
  rintro ⟨-, -, fits, -⟩
  exact absurd fits (by decide)

/-- Three elements take the place of an array of two. -/
theorem longer_section_replaces :
    let counts : Operand := .value (.byte ⟨[1], [3]⟩)
    let part : Value := .character ⟨[3], ['a', 'b', 'c']⟩
    let into : Value := .character ⟨[2], ['a', 'b']⟩
    counts.asIntegers .indexList = .ok [3] ∧ Shape.ReachesPast [3] into.shape ∧
      untake (.value part) counts (.value into) = .ok part ∧ part.shape ≠ into.shape := by
  intro counts part into
  refine ⟨rfl, ⟨Nat.le_refl 1, 0, 3, 2, rfl, rfl, by decide, ?_⟩, rfl, by decide⟩
  exact fun j bound => absurd bound (Nat.not_lt_zero j)

end RowMajor
