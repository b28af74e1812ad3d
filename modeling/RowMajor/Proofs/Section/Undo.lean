import RowMajor.Proofs.Section.Replacing
import RowMajor.Proofs.Value.Cells

/-!
# Taking and putting back

Putting a section back is the inverse of taking it, as an edit: what was taken can be put
back without a change, and whatever else of the same shape is put back instead is what
taking finds afterwards, with nothing changed around it.
-/

namespace RowMajor

variable {α : Type}

namespace Grid

variable {a part t : Grid α} {kind : Kind} {filler : Filler α} {counts : List Int}

/-- The counts determine a section. -/
theorem IsSection.unique {u : Grid α} (h : IsSection filler counts a t)
    (h' : IsSection filler counts a u) : t = u := by
  refine h.wellFormed.ext h'.wellFormed (h.shape.trans h'.shape.symm) fun index mem => ?_
  rw [h.get? index mem, h'.get? index (by rwa [h'.shape, ← h.shape])]

/-- Without a fill element just the sections that reach past no axis are taken. -/
theorem take_eq_ok_iff {why : MissingFill} (h : a.WellFormed) (rank : counts.length ≤ a.rank) :
    take kind (.error why) counts a = .ok t ↔
      Shape.HasSection counts a.shape ∧ IsSection (.error why) counts a t := by
  have outcome : Outcome _ _ (take kind (.error why) counts a) := take_isSection h rank
  constructor
  · intro taken
    rw [taken] at outcome
    obtain ⟨cut, within | ⟨x, given⟩⟩ := outcome
    · exact ⟨within, cut⟩
    · cases given
  · rintro ⟨within, cut⟩
    obtain ⟨u, taken, found, -⟩ | ⟨e, -, beyond, -⟩ := outcome.ok_or_error
    · rw [taken, found.unique cut]
    · exact absurd within beyond

theorem untake_of_rank_lt (few : a.rank < counts.length) :
    untake counts t a = .error (.shape (.undoIndexLength .take a.rank counts.length)) := by
  rw [untake, checkCounts, if_pos few]
  rfl

theorem untake_of_shape_ne (rank : counts.length ≤ a.rank)
    (changed : t.shape ≠ Shape.taken counts a.shape) :
    untake counts t a =
      .error (.inverse (.sectionShape .take (Shape.taken counts a.shape) t.shape)) := by
  rw [untake, checkCounts, if_neg (Nat.not_lt.mpr rank)]
  exact if_pos changed

theorem untake_of_shape_eq (rank : counts.length ≤ a.rank)
    (shape : t.shape = Shape.taken counts a.shape) :
    untake counts t a = replaceSection .take counts t a := by
  rw [untake, checkCounts, if_neg (Nat.not_lt.mpr rank)]
  exact if_neg (not_not_intro shape)

theorem untake_isReplaced (ht : t.WellFormed) (h : a.WellFormed)
    (rank : counts.length ≤ a.rank) (within : Shape.HasSection counts a.shape)
    (shape : t.shape = Shape.taken counts a.shape) :
    ∃ r, untake counts t a = .ok r ∧ IsReplaced counts t a r := by
  rw [untake_of_shape_eq rank shape]
  have outcome := replaceSection_isReplaced .take ht h rank within shape
  obtain found | ⟨e, -, never⟩ := outcome.ok_or_error
  · exact found
  · exact never.elim

/-- A section that was put back is what is taken afterwards. -/
theorem IsReplaced.isSection {r : Grid α} (replaced : IsReplaced counts t a r)
    (ht : t.WellFormed) (shape : t.shape = Shape.taken counts a.shape) :
    IsSection filler counts r t := by
  refine ⟨ht, shape.trans (congrArg _ replaced.shape.symm), fun index mem => ?_⟩
  obtain ⟨x, found⟩ := ht.exists_get? mem
  rw [replaced.shape, replaced.inside index mem, found]
  rfl

/-- Putting back what was taken changes nothing. -/
theorem IsReplaced.eq_of_isSection {r : Grid α} (replaced : IsReplaced counts t a r)
    (h : a.WellFormed) (within : Shape.HasSection counts a.shape)
    (cut : IsSection filler counts a t) : r = a := by
  refine replaced.wellFormed.ext h replaced.shape fun index mem => ?_
  rw [replaced.shape] at mem
  by_cases covered : Shape.Covers counts a.shape index
  · obtain ⟨inner, there, source⟩ := covered.exists_source within mem
    rw [← cut.shape] at there
    have new := replaced.inside inner there
    obtain ⟨x, found⟩ := h.exists_get? mem
    rw [cut.get? inner there, source, at?_ofNat, at?_ofNat, found] at new
    exact new.trans found.symm
  · exact replaced.outside index mem covered

end Grid

section Operations

variable {counts : Operand} {ns : List Int} {f : Form} {a : Grid f.Element}

theorem Value.take_promoted {v : Value} {fill : Fill}
    (promoted : v.promoteFor fill = .ok (ofGrid f a)) (ns : List Int) :
    v.take fill ns = (do
      a.checkCounts (.indexLength .take) ns
      .ok (ofGrid f (← Grid.take f.kind (fill.filler f) ns a))) := by
  rw [take, promoted]
  exact form_grid_ofGrid (γ := Except Error Value) (fun g b => do
    b.checkCounts (.indexLength .take) ns
    .ok (ofGrid g (← Grid.take g.kind (fill.filler g) ns b))) a

/-- An operation is carried out with the counts that its operand gives. -/
theorem take_value (read : counts.asIntegers .indexList = .ok ns) (v : Value) (fill : Fill) :
    take counts (.value v) fill =
      if v.rank = 0 then .error (.shape (.scalarSection .take)) else v.take fill ns := by
  have whole : take counts (.value v) fill =
      if v.rank = 0 then .error (.shape (.scalarSection .take))
      else counts.asIntegers .indexList >>= fun ns => v.take fill ns := rfl
  rw [whole, read]
  rfl

theorem take_of_unread {e : Error} {v : Value} (unread : counts.asIntegers .indexList = .error e)
    (axes : v.rank ≠ 0) (fill : Fill) : take counts (.value v) fill = .error e := by
  have whole : take counts (.value v) fill =
      if v.rank = 0 then .error (.shape (.scalarSection .take))
      else counts.asIntegers .indexList >>= fun ns => v.take fill ns := rfl
  rw [whole, if_neg axes, unread]
  rfl

/-- Where there are axes, and as many as counts, the section is that of the grid. -/
theorem take_promoted {v : Value} {fill : Fill} (read : counts.asIntegers .indexList = .ok ns)
    (promoted : v.promoteFor fill = .ok (.ofGrid f a)) (axes : v.rank ≠ 0)
    (rank : ns.length ≤ a.rank) :
    take counts (.value v) fill = (do
      .ok (.ofGrid f (← Grid.take f.kind (fill.filler f) ns a))) := by
  rw [take_value read, if_neg axes, Value.take_promoted promoted, Grid.checkCounts,
    if_neg (Nat.not_lt.mpr rank)]
  rfl

theorem take_ofGrid (read : counts.asIntegers .indexList = .ok ns) (a : Grid f.Element) :
    take counts (.value (.ofGrid f a)) .none = (
      if a.rank = 0 then .error (.shape (.scalarSection .take))
      else do
        a.checkCounts (.indexLength .take) ns
        .ok (.ofGrid f (← Grid.take f.kind (.error .absent) ns a))) := by
  have absent : Fill.none.filler f = .error .absent := rfl
  rw [take_value read, Value.rank_ofGrid, Value.take_promoted (Value.promoteFor_none _), absent]

theorem untake_ofGrid (read : counts.asIntegers .indexList = .ok ns) (t a : Grid f.Element) :
    untake (.value (.ofGrid f t)) counts (.value (.ofGrid f a)) = (do
      .ok (.ofGrid f (← t.untake ns a))) := by
  have whole : untake (.value (.ofGrid f t)) counts (.value (.ofGrid f a)) =
      counts.asIntegers .indexList >>= fun ns =>
        Value.untake ns (.ofGrid f t) (.ofGrid f a) := rfl
  rw [whole, read]
  show Value.untake ns (.ofGrid f t) (.ofGrid f a) = _
  rw [Value.untake, Value.unify_ofGrid]
  rfl

/-- The sections that are taken of a value without a fill value. -/
theorem take_ofGrid_eq_ok_iff {part : Value} (read : counts.asIntegers .indexList = .ok ns)
    (h : a.WellFormed) :
    take counts (.value (.ofGrid f a)) .none = .ok part ↔
      a.rank ≠ 0 ∧ ns.length ≤ a.rank ∧ Shape.HasSection ns a.shape ∧
        ∃ t, Grid.IsSection (.error .absent) ns a t ∧ part = .ofGrid f t := by
  rw [take_ofGrid read]
  constructor
  · intro taken
    split at taken
    · cases taken
    · rename_i axes
      by_cases rank : ns.length ≤ a.rank
      · rw [Grid.checkCounts, if_neg (Nat.not_lt.mpr rank)] at taken
        cases cut : Grid.take f.kind (.error .absent) ns a with
        | error e => rw [cut] at taken; cases taken
        | ok t =>
            rw [cut] at taken
            obtain ⟨within, section_⟩ := (Grid.take_eq_ok_iff h rank).mp cut
            exact ⟨axes, rank, within, t, section_, (Except.ok.inj taken).symm⟩
      · rw [Grid.checkCounts, if_pos (Nat.not_le.mp rank)] at taken
        cases taken
  · rintro ⟨axes, rank, within, t, cut, rfl⟩
    rw [if_neg axes, Grid.checkCounts, if_neg (Nat.not_lt.mpr rank),
      (Grid.take_eq_ok_iff h rank).mpr ⟨within, cut⟩]
    rfl

/-- What was taken can be put back, and so can any other section of its shape: it is then what
taking finds, and nothing around it changes. -/
theorem untake_undoes_take {counts : Operand} {ns : List Int} {a part : Value}
    (read : counts.asIntegers .indexList = .ok ns) (wf : a.grid.WellFormed)
    (taken : take counts (.value a) .none = .ok part) :
    untake (.value part) counts (.value a) = .ok a ∧
      ∀ t : Value, t.grid.WellFormed → t.form = part.form → t.shape = part.shape →
        ∃ r, untake (.value t) counts (.value a) = .ok r ∧ r.shape = a.shape ∧
          take counts (.value r) .none = .ok t ∧
          ∀ index ∈ a.shape.coordinates, ¬ Shape.Covers ns a.shape index →
            r.cell? index = a.cell? index := by
  obtain ⟨f, a, rfl⟩ := a.exists_form
  rw [Value.grid_ofGrid_wellFormed] at wf
  obtain ⟨axes, rank, within, part, cut, rfl⟩ := (take_ofGrid_eq_ok_iff read wf).mp taken
  simp only [Value.shape_ofGrid]
  constructor
  · obtain ⟨r, undone, replaced⟩ := Grid.untake_isReplaced cut.wellFormed wf rank within cut.shape
    rw [untake_ofGrid read, undone, replaced.eq_of_isSection wf within cut]
    rfl
  · intro t ht sameForm sameShape
    obtain ⟨t, rfl⟩ := Value.exists_grid (sameForm.trans (Value.form_ofGrid f part))
    rw [Value.grid_ofGrid_wellFormed] at ht
    rw [Value.shape_ofGrid, cut.shape] at sameShape
    obtain ⟨r, undone, replaced⟩ := Grid.untake_isReplaced ht wf rank within sameShape
    refine ⟨.ofGrid f r, ?_, ?_, ?_, ?_⟩
    · rw [untake_ofGrid read, undone]
      rfl
    · exact (Value.shape_ofGrid f r).trans replaced.shape
    · refine (take_ofGrid_eq_ok_iff read replaced.wellFormed).mpr ?_
      rw [Grid.rank, replaced.shape]
      exact ⟨axes, rank, within, t, replaced.isSection ht sameShape, rfl⟩
    · intro index mem apart
      rw [Value.cell?_ofGrid, Value.cell?_ofGrid, replaced.outside index mem apart]

/-- A corner of a table is taken, and other elements are put in its place. -/
theorem untake_corner :
    let counts : Operand := .value (.byte ⟨[2], [1, 2]⟩)
    let a : Value := .character ⟨[2, 3], ['a', 'b', 'c', 'd', 'e', 'f']⟩
    let part : Value := .character ⟨[1, 2], ['a', 'b']⟩
    counts.asIntegers .indexList = .ok [1, 2] ∧ a.grid.WellFormed ∧
      take counts (.value a) .none = .ok part ∧
      untake (.value part) counts (.value a) = .ok a ∧
      ∀ t : Value, t.grid.WellFormed → t.form = part.form → t.shape = part.shape →
        ∃ r, untake (.value t) counts (.value a) = .ok r ∧ r.shape = a.shape ∧
          take counts (.value r) .none = .ok t ∧
          ∀ index ∈ a.shape.coordinates, ¬ Shape.Covers [1, 2] a.shape index →
            r.cell? index = a.cell? index := by
  intro counts a part
  have wf : a.grid.WellFormed := by decide
  exact ⟨rfl, wf, rfl, untake_undoes_take rfl wf rfl⟩

end Operations

end RowMajor
