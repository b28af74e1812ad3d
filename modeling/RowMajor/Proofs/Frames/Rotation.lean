import RowMajor.Proofs.Frames.Visiting
import RowMajor.Proofs.Rotation.Turning
import RowMajor.Proofs.Value.Cells

/-!
# Rows rotated by offsets of their own

With the rows aligned along frames, every one of them is rotated by the offsets at its place: they
are visited in order, and each is put back rotated. What a rotation does to the elements of one
array then says which element of a value stands where, cell by cell of the longer frame.
-/

namespace RowMajor

variable {α : Type}

theorem length_rotateSection_whole {s : Shape} {items : List α} (offsets : List Int)
    (natural : s.Natural) (length : items.length = s.cellCount) :
    (rotateSection offsets s 0 items).length = s.cellCount := by
  rw [rotateSection_whole offsets natural length]
  exact length_rotateItems offsets natural length

namespace Grid

variable {a : Grid α} {offsets : Grid Int}

/-- Rows along a frame, every one rotated by the offsets at its place. -/
theorem rotate_along {frame rowShape : Shape} {depth offsetDepth : Nat} {c : Grid α}
    (h : a.Reached frame depth) (natural : frame.Natural) (shape : a.shape.drop depth = rowShape)
    (whole : Shape)
    (result : c = (along whole frame depth offsetDepth a offsets).mapRows fun row offsets =>
      rotateSection offsets rowShape 0 row) :
    c.items.length = Shape.cellCount (frame ++ rowShape) ∧
      ∀ place ∈ frame.coordinates, ∀ index ∈ rowShape.coordinates,
        (c.withShape (frame ++ rowShape)).get? (place ++ index) =
          a.get? (place.take depth ++
            rowShape.turned (offsets.cellAt (place.take offsetDepth)).items index) := by
  subst shape result
  have rowNatural := h.wellFormed.natural.drop depth
  have keeps (row : List α) (offsets : List Int)
      (length : row.length = Shape.cellCount (a.shape.drop depth)) :=
    length_rotateSection_whole offsets rowNatural length
  have cells (place : List Nat) (mem : place ∈ frame.coordinates) :
      (Grid.mk (a.shape.drop depth)
          (rotateSection (offsets.cellAt (place.take offsetDepth)).items (a.shape.drop depth) 0
            (a.cellAt (place.take depth)).items)).WellFormed ∧ _ = a.shape.drop depth :=
    ⟨wellFormed_iff.mpr ⟨rowNatural, keeps _ _ (h.length_cell mem)⟩, rfl⟩
  have rows := mapRows_along h whole offsetDepth offsets keeps
  refine ⟨?_, fun place mem index inRow => ?_⟩
  · rw [Shape.cellCount_append, ← length_assemble cells, ← rows]
    rfl
  · have source := Shape.turned_mem (offsets.cellAt (place.take offsetDepth)).items inRow
    rw [rows, get?_assemble natural rowNatural cells mem inRow, ← h.get?_cell mem,
      get?_of_mem (by exact inRow), get?_of_mem (by rw [(h.cell mem).2]; exact source),
      (h.cell mem).2, rotateSection_whole _ rowNatural (h.length_cell mem)]
    exact getElem?_rotateItems _ rowNatural (h.length_cell mem) inRow

/-- Every row is rotated by the offsets at its place in the longer frame, unless the frames cannot
be matched. -/
theorem rotateRows_spec (h : a.WellFormed) (ho : offsets.WellFormed) (kind : Kind)
    (depth offsetDepth : Nat) :
    let frames := Shape.matched (a.shape.take depth) (offsets.shape.take offsetDepth)
    let frame := Shape.longer frames.1 frames.2
    let rowShape : Shape := a.shape.drop depth
    let offsetShape : Shape := offsets.shape.drop offsetDepth
    let first := a.withShape (frames.1 ++ rowShape)
    let second := offsets.withShape (frames.2 ++ offsetShape)
    let result := rotateRows kind (Int.ofNat depth) offsets (Int.ofNat offsetDepth) a
    if Shape.Compatible frames.1 frames.2 then
      offsetShape.length ≤ 1 → ∃ c, result = .ok c ∧
        c.items.length = Shape.cellCount (frame ++ rowShape) ∧
        ∀ place ∈ frame.coordinates, ∀ index ∈ rowShape.coordinates,
          (c.withShape (frame ++ rowShape)).get? (place ++ index) =
            first.get? (place.take frames.1.length ++
              rowShape.turned (second.cellAt (place.take frames.2.length)).items index)
    else result = .error (.shape (.frames first.shape second.shape frames.1 frames.2)) := by
  intro frames frame rowShape offsetShape first second result
  have aligned := align_eq h ho (kind, .number) depth offsetDepth
  change a.align (kind, .number) (Int.ofNat depth) offsets (Int.ofNat offsetDepth) =
    if Shape.Compatible frames.1 frames.2 then
      .ok (along a.shape frame frames.1.length frames.2.length first second)
    else .error ⟨.shape (.frames first.shape second.shape frames.1 frames.2), first⟩ at aligned
  split
  · rename_i agree
    rw [if_pos agree] at aligned
    intro few
    have back : first.shape.drop frames.1.length = rowShape := List.drop_left
    have back' : second.shape.drop frames.2.length = offsetShape := List.drop_left
    have reached : first.Reached frame frames.1.length := h.reached_matched depth agree
    have natural : Shape.Natural frame :=
      (h.natural.take depth).longer_matched (ho.natural.take offsetDepth)
    refine ⟨_, ?_, rotate_along reached natural back a.shape rfl⟩
    simp only [result, rotateRows, aligned, along, back, back']
    rw [if_neg fun many => Nat.not_lt.mpr few many.1]
  · rename_i disagree
    rw [if_neg disagree] at aligned
    simp only [result, rotateRows, aligned]

/-- Rotating the rows is visiting them one after the other and putting each of them, rotated, in
the place where it is found. -/
theorem rotateRows_eq_visits {x : Aligned α Int} {kind : Kind} {depth offsetDepth : Nat}
    (h : a.WellFormed) (ho : offsets.WellFormed)
    (aligned : a.align (kind, .number) (Int.ofNat depth) offsets (Int.ofNat offsetDepth) = .ok x)
    (few : x.otherShape.length ≤ 1) :
    ∃ c, rotateRows kind (Int.ofNat depth) offsets (Int.ofNat offsetDepth) a = .ok c ∧
      c.items = writeAll (x.visits (.rewriting fun row offsets =>
        rotateSection offsets x.rowShape 0 row) ()).writes x.items := by
  obtain ⟨natural, rows⟩ := align_rows h ho aligned
  refine ⟨_, ?_, (Aligned.writeAll_visits_rewriting rows fun pair mem => ?_).symm⟩
  · simp only [rotateRows, aligned]
    exact if_neg fun many => Nat.not_lt.mpr few many.1
  · have length := rows pair mem
    rw [← Shape.cellCount_eq_volume natural] at length ⊢
    exact length_rotateSection_whole pair.2 natural length

end Grid

variable {o v : Value} {fill : Fill} {offsets : Grid Int}

theorem shape_of_integerGrid {role : Role} (read : o.integerGrid role = .ok offsets) :
    offsets.shape = o.shape := by
  rw [Value.integerGrid] at read
  cases ints : o.integers role with
  | error e =>
      rw [ints] at read
      cases read
  | ok xs =>
      rw [ints] at read
      cases read
      rfl

theorem rotateDepth_eq {f : Form} {a : Grid f.Element}
    (integers : o.integerGrid .offsetTable = .ok offsets)
    (promoted : v.promoteFor fill = .ok (.ofGrid f a)) (offsetDepth depth : Nat) :
    rotateDepth (.value o) (.value v) offsetDepth depth fill =
      Grid.rotateRows f.kind (Int.ofNat depth) offsets (Int.ofNat offsetDepth) a >>= fun c =>
        .ok (.ofGrid f c) := by
  have onGrid := Value.form_grid_ofGrid (γ := Except Error Value) (fun g b =>
    Grid.rotateRows g.kind depth offsets offsetDepth b >>= fun c => .ok (.ofGrid g c)) a
  have first : rotateDepth (.value o) (.value v) offsetDepth depth fill =
      (o.integerGrid .offsetTable >>= fun offsets =>
        v.rotateRows fill depth offsets offsetDepth) := rfl
  rw [first, integers]
  show v.rotateRows fill depth offsets offsetDepth = _
  rw [Value.rotateRows, promoted]
  exact onGrid

/-- Every row of a value is rotated by the row of offsets at its place in the longer frame. The
rotation is refused if the frames cannot be matched, also without leading axes of length one. -/
theorem rotateDepth_rotates_rows (ho : o.WellFormed) (hv : v.WellFormed) (hf : fill.WellFormed)
    (integers : o.integerGrid .offsetTable = .ok offsets) (offsetDepth depth : Nat) :
    let frames := Shape.matched (v.shape.take depth) (o.shape.take offsetDepth)
    let frame := Shape.longer frames.1 frames.2
    let rowShape : Shape := v.shape.drop depth
    let offsetShape : Shape := o.shape.drop offsetDepth
    let result := rotateDepth (.value o) (.value v) offsetDepth depth fill
    if Shape.Compatible frames.1 frames.2 then
      offsetShape.length ≤ 1 → ∃ w r, v.promoteFor fill = .ok w ∧ result = .ok r ∧
        r.form = w.form ∧ r.elementCount = Shape.cellCount (frame ++ rowShape) ∧
        ∀ place ∈ frame.coordinates, ∀ index ∈ rowShape.coordinates,
          let row := (offsets.withShape (frames.2 ++ offsetShape)).cellAt
            (place.take frames.2.length)
          (r.withShape (frame ++ rowShape)).cell? (place ++ index) =
            (w.withShape (frames.1 ++ rowShape)).cell?
              (place.take frames.1.length ++ rowShape.turned row.items index)
    else
      result = .error (.shape (.frames (frames.1 ++ rowShape) (frames.2 ++ offsetShape)
        frames.1 frames.2)) := by
  intro frames frame rowShape offsetShape result
  obtain ⟨w, promoted, wf, shape⟩ := Value.promoteFor_wellFormed hf hv
  obtain ⟨f, a, rfl⟩ := w.exists_form
  have offsetsWf : offsets.WellFormed := by
    have yields := Value.integerGrid_yields .offsetTable ho
    rw [integers] at yields
    exact yields
  have h : a.WellFormed := (Value.grid_ofGrid_wellFormed a).mp wf.holds.wellFormed
  have same : a.shape = v.shape := (Value.shape_ofGrid f a).symm.trans shape
  have same' := shape_of_integerGrid integers
  have rows := Grid.rotateRows_spec h offsetsWf f.kind depth offsetDepth
  rw [same, same'] at rows
  have whole := rotateDepth_eq integers promoted offsetDepth depth
  split
  · rename_i agree
    intro few
    obtain ⟨c, rotated, count, cells⟩ := (if_pos agree).mp rows few
    refine ⟨_, .ofGrid f c, promoted, ?_, ?_, ?_, fun place mem index inRow => ?_⟩
    · simp only [result, whole, rotated]
      rfl
    · rw [Value.form_ofGrid, Value.form_ofGrid]
    · rw [Value.elementCount_ofGrid]
      exact count
    · simp only [Value.withShape_ofGrid, Value.cell?_ofGrid]
      rw [cells place mem index inRow]
  · rename_i disagree
    rw [if_neg disagree] at rows
    simp only [result, whole, rows]
    rfl

/-- One row of letters serves two offsets and stands there in two rotations. -/
theorem letters_rotated_twice :
    let offsets : Value := .byte ⟨[2], [1, 2]⟩
    let letters : Value := .character ⟨[3], ['a', 'b', 'c']⟩
    offsets.WellFormed ∧ letters.WellFormed ∧ Fill.none.WellFormed ∧
      offsets.integerGrid .offsetTable = .ok ⟨[2], [1, 2]⟩ ∧
      ∃ r, rotateDepth (.value offsets) (.value letters) 1 0 .none = .ok r ∧
        r.elementCount = 6 ∧ (r.withShape [2, 3]).cell? [1, 0] = some (.character 'c') := by
  intro offsets letters
  have ho : offsets.WellFormed := .byte (by decide)
  have hv : letters.WellFormed := .character (by decide)
  have hf : Fill.none.WellFormed := by
    rintro v ⟨⟩
  have rows := rotateDepth_rotates_rows ho hv hf rfl 1 0
  obtain ⟨w, r, promoted, rotated, -, count, cells⟩ := (if_pos (by decide)).mp rows (by decide)
  cases promoted
  exact ⟨ho, hv, hf, rfl, r, rotated, count, cells [1] (by decide) [0] (by decide)⟩

end RowMajor
