import RowMajor.Proofs.Pick.Places
import RowMajor.Proofs.Pick.Writing
import RowMajor.Proofs.Value.Cells

/-!
# Picking and writing back

Cells are written back if their points lead to different places, and then picking finds just
what was written. The check for repeated points takes a shortcut for points without
components, which all mean the whole array: it goes by the axes of their arrangement one by
one. An arrangement that has no points because of one axis, and room for several along
another, is refused for that reason alone (`Points.LookRepeated`).
-/

namespace RowMajor

variable {α : Type}

/-- Points without components look as if they were repeated if there is more than one of them
along some axis. -/
def Points.LookRepeated (p : Points) : Prop :=
  p.width = 0 ∧ ∃ d ∈ p.batch, 1 < d

namespace Grid

variable {index : Grid Int} {picked into : Grid α}

/-- The points lead to different places, and to none of those that were there before. -/
def LeadApart (s : Shape) (seen : List (List Nat)) (points : List (List Int)) : Prop :=
  ∃ places, s.Lead points places ∧ (places ++ seen).Nodup

theorem distinctPlaces_spec {seen : List (List Nat)} (points : List (List Int)) (a : Grid α)
    (before : seen.Nodup) :
    Outcome (fun places => a.shape.Lead points places ∧ (places ++ seen).Nodup)
      (fun _ => ¬ LeadApart a.shape seen points) (a.distinctPlaces seen points) := by
  -- The place of the first point moves over to those seen, which keeps all of them together.
  induction points generalizing seen with
  | nil => exact ⟨rfl, before⟩
  | cons point points ih =>
      have here : Outcome (fun place => a.shape.place? point = some place)
          (fun _ => ¬ LeadApart a.shape seen (point :: points)) (a.placeOf point) := by
        refine (placeOf_spec a point).mono (fun _ leads => leads) ?_
        rintro _ nowhere ⟨places, lead, -⟩
        obtain ⟨place, rest, -, leads, -⟩ := lead.exists_cons
        rw [nowhere] at leads
        cases leads
      rw [distinctPlaces]
      apply here.bind
      intro place leads
      have first {places : List (List Nat)} (lead : a.shape.Lead (point :: points) places) :
          ∃ rest, places = place :: rest ∧ a.shape.Lead points rest := by
        obtain ⟨other, rest, rfl, others, below⟩ := lead.exists_cons
        obtain rfl : place = other := Option.some.inj (leads.symm.trans others)
        exact ⟨rest, rfl, below⟩
      split
      · rename_i again
        rintro ⟨places, lead, nodup⟩
        obtain ⟨rest, rfl, -⟩ := first lead
        exact (List.nodup_cons.mp nodup).1 (List.mem_append_right _ again)
      · rename_i new
        have later : Outcome (fun rest => a.shape.Lead points rest ∧ (rest ++ place :: seen).Nodup)
            (fun _ => ¬ LeadApart a.shape seen (point :: points))
            (a.distinctPlaces (place :: seen) points) := by
          refine (ih (List.nodup_cons.mpr ⟨new, before⟩)).mono (fun _ found => found) ?_
          rintro _ none ⟨places, lead, nodup⟩
          obtain ⟨rest, rfl, below⟩ := first lead
          exact none ⟨rest, below, List.nodup_middle.mpr nodup⟩
        apply later.bind
        rintro rest ⟨below, nodup⟩
        exact ⟨Shape.lead_cons.mpr ⟨leads, below⟩, List.nodup_middle.mp nodup⟩

/-- What has to be right for cells to be written back to the given places. -/
structure CanUnpick (p : Points) (picked into : Grid α) (places : List (List Nat)) : Prop where
  not_repeated : ¬ p.LookRepeated
  shape : picked.shape = into.pickedShape p.batch p.width
  lead : into.shape.Lead p.toList places
  nodup : places.Nodup

theorem checkPicked_spec (p : Points) (picked into : Grid α) :
    Outcome (fun _ => picked.shape = into.pickedShape p.batch p.width)
      (fun _ => ∀ places, ¬ CanUnpick p picked into places) (checkPicked p picked into) := by
  simp only [checkPicked]
  split
  · rename_i same
    exact same
  · rename_i changed
    exact fun places can => changed can.shape

/-- An arrangement with an axis of length zero has no points. -/
theorem toList_toPoints_eq_nil (wf : index.WellFormed)
    (empty : index.toPoints.batch.any (· ≤ 0) = true) : index.toPoints.toList = [] := by
  obtain ⟨d, mem, none⟩ := List.any_eq_true.mp empty
  refine List.length_eq_zero_iff.mp ?_
  rw [length_toList_toPoints wf]
  exact Shape.cellCount_eq_zero mem (of_decide_eq_true none)

/-- If all axes of an arrangement have length one, it has one point. -/
theorem toList_toPoints_eq_singleton (wf : index.WellFormed) (none : index.toPoints.width = 0)
    (ones : ∀ d ∈ index.toPoints.batch, d = 1) : index.toPoints.toList = [[]] := by
  have length : index.toPoints.toList.length = 1 := by
    rw [length_toList_toPoints wf, List.eq_replicate_of_mem ones, Shape.cellCount_replicate_one]
  obtain ⟨point, only⟩ := List.length_eq_one_iff.mp length
  have width := length_of_mem_toPoints wf (only ▸ List.mem_singleton_self point)
  rw [none] at width
  rw [only, List.length_eq_zero_iff.mp width]

theorem placesOf_spec (wf : index.WellFormed) :
    Outcome (CanUnpick index.toPoints picked into)
      (fun _ => ∀ places, ¬ CanUnpick index.toPoints picked into places)
      (placesOf index.toPoints picked into) := by
  simp only [placesOf]
  split
  · rename_i repeated
    obtain ⟨d, mem, several⟩ := List.any_eq_true.mp repeated.2
    exact fun places can => can.not_repeated ⟨repeated.1, d, mem, of_decide_eq_true several⟩
  · rename_i single
    have not_repeated : ¬ index.toPoints.LookRepeated := by
      rintro ⟨none, d, mem, several⟩
      exact single ⟨none, List.any_eq_true.mpr ⟨d, mem, decide_eq_true several⟩⟩
    have rest (places : List (List Nat)) (nodup : places.Nodup)
        (lead : index.toPoints.batch.any (· ≤ 0) = false →
          into.shape.Lead index.toPoints.toList places) :
        Outcome (CanUnpick index.toPoints picked into)
          (fun _ => ∀ places, ¬ CanUnpick index.toPoints picked into places)
          (checkPicked index.toPoints picked into >>= fun _ =>
            .ok (if index.toPoints.batch.any (· ≤ 0) then [] else places)) := by
      apply (checkPicked_spec index.toPoints picked into).bind
      intro _ shape
      cases empty : index.toPoints.batch.any (· ≤ 0) with
      | true =>
          refine ⟨not_repeated, shape, ?_, List.nodup_nil⟩
          rw [toList_toPoints_eq_nil wf empty]
          rfl
      | false => exact ⟨not_repeated, shape, lead empty, nodup⟩
    split
    · rename_i none
      refine rest [[]] (List.nodup_singleton []) fun positive => ?_
      have ones : ∀ d ∈ index.toPoints.batch, d = 1 := by
        intro d mem
        have some : ¬ d ≤ 0 := fun empty =>
          List.any_eq_false.mp positive d mem (decide_eq_true empty)
        have most : ¬ 1 < d := fun several => not_repeated ⟨none, d, mem, several⟩
        omega
      rw [toList_toPoints_eq_singleton wf none ones]
      exact congrArg (fun place => [place]) (Shape.place?_nil into.shape)
    · have found : Outcome
          (fun places => into.shape.Lead index.toPoints.toList places ∧ (places ++ []).Nodup)
          (fun _ => ∀ places, ¬ CanUnpick index.toPoints picked into places)
          (into.distinctPlaces [] index.toPoints.toList) := by
        refine (distinctPlaces_spec _ into List.nodup_nil).mono (fun _ found => found) ?_
        exact fun _ apart places can =>
          apart ⟨places, can.lead, (List.append_nil places).symm ▸ can.nodup⟩
      apply found.bind
      rintro places ⟨lead, nodup⟩
      rw [List.append_nil] at nodup
      exact rest places nodup fun _ => lead

theorem placeOfSingle_spec (wf : index.WellFormed) (single : index.rank ≤ 1) :
    Outcome (CanUnpick index.toPoints picked into)
      (fun _ => ∀ places, ¬ CanUnpick index.toPoints picked into places)
      (placeOfSingle index.toPoints picked into) := by
  have frame : index.toPoints.batch = [] := by
    refine List.length_eq_zero_iff.mp ?_
    rw [toPoints, List.length_dropLast]
    exact Nat.sub_eq_zero_of_le single
  have points : index.toPoints.toList = [index.toPoints.components] := by
    rw [Points.toList, frame, ← length_components_of_rank_le wf single]
    exact congrArg (fun point => [point]) (List.take_length ..)
  have not_repeated : ¬ index.toPoints.LookRepeated := by
    rintro ⟨-, d, mem, -⟩
    rw [frame] at mem
    exact List.not_mem_nil mem
  have nowhere (none : into.shape.place? index.toPoints.components = none)
      (places : List (List Nat)) : ¬ CanUnpick index.toPoints picked into places := by
    intro can
    obtain ⟨place, -, leads⟩ := can.lead.exists_place (points ▸ List.mem_singleton_self _)
    rw [none] at leads
    cases leads
  simp only [placeOfSingle, checkWidth]
  split
  · rename_i long
    exact nowhere (Shape.place?_of_length_lt long)
  · rename_i short
    apply (checkPicked_spec index.toPoints picked into).bind
    intro _ shape
    have resolved := (resolvePoint_spec into.shape 0 (Nat.not_lt.mp short)).mono
      (fun _ leads => leads) fun _ none => nowhere none
    apply resolved.bind
    intro place leads
    refine ⟨not_repeated, shape, ?_, List.nodup_singleton place⟩
    rw [points]
    exact Shape.lead_cons.mpr ⟨leads, rfl⟩

/-- Writing back is refused exactly if there are no places to which the cells can be written. -/
theorem unpick_spec (wf : index.WellFormed) :
    Outcome
      (fun r => ∃ places, CanUnpick index.toPoints picked into places ∧
        r = into.writeCells places
          (pieces (Shape.volume (into.shape.back index.toPoints.width)) places.length picked.items))
      (fun _ => ∀ places, ¬ CanUnpick index.toPoints picked into places)
      (unpick index picked into) := by
  simp only [unpick]
  split
  · apply (placesOf_spec wf).bind
    exact fun places can => ⟨places, can, rfl⟩
  · rename_i several
    apply (placeOfSingle_spec wf (Nat.not_lt.mp several)).bind
    exact fun places can => ⟨places, can, rfl⟩

variable {places : List (List Nat)}

theorem back_toPoints (wf : index.WellFormed) (s : Shape) :
    s.back index.toPoints.width = s.drop index.toPoints.width.toNat := by
  rw [Shape.back, Shape.cut_of_nonneg _ (toPoints_width_nonneg wf)]

theorem lies_of_lead {a : Grid α} (wf : index.WellFormed)
    (lead : a.shape.Lead index.toPoints.toList places) :
    ∀ place ∈ places, LiesIn a.shape index.toPoints.width.toNat place :=
  fun _ mem => lead.liesIn (fun _ there => length_of_mem_toPoints wf there) mem

/-- The elements of picked cells can be cut into these cells again. -/
theorem pieces_cellsAt {a : Grid α} (wf : index.WellFormed) (h : a.WellFormed)
    (lead : a.shape.Lead index.toPoints.toList places) :
    pieces (Shape.volume (a.shape.back index.toPoints.width)) places.length
        (a.cellsAt index.toPoints places).items =
      places.map fun place => (a.cellAt place).items := by
  have sizes : ∀ cell ∈ places.map fun place => (a.cellAt place).items,
      cell.length = Shape.volume (a.shape.back index.toPoints.width) := by
    intro cell mem
    obtain ⟨place, there, rfl⟩ := List.mem_map.mp mem
    have lies := lies_of_lead wf lead place there
    have whole := h.cellAt (lies.length ▸ lies.rank) lies.within
    rw [whole.length_eq, Shape.cellCount_eq_volume whole.natural, shape_cellAt, lies.length,
      back_toPoints wf]
  have again := pieces_flatten sizes
  rwa [List.length_map, ← List.flatMap_def] at again

/-- The picked elements are just enough for a cell at every place. -/
theorem CanUnpick.length_items (can : CanUnpick index.toPoints picked into places)
    (wf : index.WellFormed) (hp : picked.WellFormed) (h : into.WellFormed) :
    picked.items.length =
      places.length * Shape.volume (into.shape.back index.toPoints.width) := by
  rw [hp.length_eq, can.shape, pickedShape, Shape.cellCount_append, can.lead.length_eq,
    length_toList_toPoints wf, back_toPoints wf, Shape.cellCount_eq_volume (h.natural.drop _)]

theorem CanUnpick.fits (can : CanUnpick index.toPoints picked into places)
    (wf : index.WellFormed) (hp : picked.WellFormed) (h : into.WellFormed) :
    List.Forall₂ (FitsAt into.shape index.toPoints.width.toNat) places
      (pieces (Shape.volume (into.shape.back index.toPoints.width)) places.length
        picked.items) := by
  have total := can.length_items wf hp h
  refine List.forall₂_iff_zip.mpr ⟨(length_pieces ..).symm, fun {place cell} mem => ?_⟩
  obtain ⟨there, here⟩ := List.of_mem_zip mem
  refine ⟨lies_of_lead wf can.lead place there, ?_⟩
  rw [length_of_mem_pieces (Nat.le_of_eq total.symm) here, back_toPoints wf,
    Shape.cellCount_eq_volume (h.natural.drop _)]

/-- What was written is what is picked. -/
theorem CanUnpick.cellsAt_writeCells (can : CanUnpick index.toPoints picked into places)
    (wf : index.WellFormed) (hp : picked.WellFormed) (h : into.WellFormed) :
    (into.writeCells places (pieces (Shape.volume (into.shape.back index.toPoints.width))
      places.length picked.items)).cellsAt index.toPoints places = picked := by
  have written := cellAt_writeCells h (can.fits wf hp h) can.nodup
  have whole := flatten_pieces (Nat.le_of_eq (can.length_items wf hp h))
  generalize pieces (Shape.volume (into.shape.back index.toPoints.width)) places.length
    picked.items = cells at written whole
  have found : places.map (fun place => ((into.writeCells places cells).cellAt place).items) =
      cells := by
    rw [← List.forall₂_eq_eq_eq, List.forall₂_map_left_iff]
    exact written.imp fun place cell same => congrArg items same
  have items : ((into.writeCells places cells).cellsAt index.toPoints places).items =
      picked.items := by
    rw [cellsAt, List.flatMap_def, found, whole]
  exact congr (congrArg Grid.mk can.shape.symm) items

end Grid

section Operations

variable {index : Operand} {table : Grid Int} {f : Form} {a : Grid f.Element}

/-- Picking goes by the grid that is left after promotion. -/
theorem pick_promoted {v : Value} {fill : Fill}
    (read : index.asIntegerGrid .indexTable = .ok table)
    (promoted : v.promoteFor fill = .ok (.ofGrid f a)) :
    pick index (.value v) fill = (do
      .ok (.ofGrid f (← Grid.pick f.kind (fill.filler f) table a))) := by
  have whole : pick index (.value v) fill =
      index.asIntegerGrid .indexTable >>= fun table => v.pick fill table := rfl
  rw [whole, read]
  show v.pick fill table = _
  rw [Value.pick, promoted]
  exact Value.form_grid_ofGrid (γ := Except Error Value) (fun g b => do
    .ok (.ofGrid g (← Grid.pick g.kind (fill.filler g) table b))) a

theorem pick_ofGrid (read : index.asIntegerGrid .indexTable = .ok table) (a : Grid f.Element) :
    pick index (.value (.ofGrid f a)) .none = (do
      .ok (.ofGrid f (← Grid.pick f.kind (.error .absent) table a))) :=
  pick_promoted read (Value.promoteFor_none _)

theorem unpick_ofGrid (read : index.asIntegerGrid .indexTable = .ok table)
    (picked into : Grid f.Element) :
    unpick (.value (.ofGrid f picked)) index (.value (.ofGrid f into)) = (do
      .ok (.ofGrid f (← Grid.unpick table picked into))) := by
  have whole : unpick (.value (.ofGrid f picked)) index (.value (.ofGrid f into)) =
      index.asIntegerGrid .indexTable >>= fun table =>
        Value.unpick table (.ofGrid f picked) (.ofGrid f into) := rfl
  rw [whole, read]
  show Value.unpick table (.ofGrid f picked) (.ofGrid f into) = _
  rw [Value.unpick, Value.unify_ofGrid]
  rfl

/-- What is picked of a value without a fill value. -/
theorem pick_ofGrid_eq_ok_iff {c : Value} (read : index.asIntegerGrid .indexTable = .ok table)
    (wf : table.WellFormed) (h : a.WellFormed) :
    pick index (.value (.ofGrid f a)) .none = .ok c ↔
      ∃ places, a.shape.Lead table.toPoints.toList places ∧
        c = .ofGrid f (a.cellsAt table.toPoints places) := by
  rw [pick_ofGrid read]
  exact (Grid.pick_spec wf h).map_eq_ok_iff fun _ _ lead lead' => lead.unique lead'

/-- The coordinates of a cell pick this cell. -/
theorem pick_ofGrid_place {place : List Nat}
    (read : index.asIntegerGrid .indexTable = .ok (.vector (place.map Int.ofNat)))
    (h : a.WellFormed) (rank : place.length ≤ a.rank) (within : a.shape.contains place = true) :
    pick index (.value (.ofGrid f a)) .none = .ok (.ofGrid f (a.cellAt place)) := by
  have lead : a.shape.Lead (Grid.vector (place.map Int.ofNat)).toPoints.toList [place] := by
    rw [Grid.toList_toPoints_vector]
    exact Shape.lead_cons.mpr ⟨Shape.place?_ofNat rank within, rfl⟩
  refine (pick_ofGrid_eq_ok_iff read (Grid.wellFormed_vector _) h).mpr ⟨[place], lead, ?_⟩
  rw [Grid.cellsAt_vector]

/-- What is written back into a value. -/
theorem unpick_ofGrid_eq_ok_iff {picked into : Grid f.Element} {r : Value}
    (read : index.asIntegerGrid .indexTable = .ok table) (wf : table.WellFormed) :
    unpick (.value (.ofGrid f picked)) index (.value (.ofGrid f into)) = .ok r ↔
      ∃ places, Grid.CanUnpick table.toPoints picked into places ∧
        r = .ofGrid f (into.writeCells places
          (pieces (Shape.volume (into.shape.back table.toPoints.width)) places.length
            picked.items)) := by
  rw [unpick_ofGrid read]
  exact (Grid.unpick_spec wf).map_eq_ok_iff fun _ _ can can' => can.lead.unique can'.lead

/-- What was picked can be written back to where it was picked from, if no two points lead to
the same place, unless the points look as if they were repeated although there are none. -/
theorem unpick_undoes_pick_iff {index : Operand} {table : Grid Int} {a c : Value}
    (read : index.asIntegerGrid .indexTable = .ok table) (wf : table.WellFormed)
    (h : a.grid.WellFormed) (picked : pick index (.value a) .none = .ok c)
    (apart : (table.toPoints.toList.map a.shape.place?).Nodup) :
    unpick (.value c) index (.value a) = .ok a ↔ ¬ table.toPoints.LookRepeated := by
  obtain ⟨f, a, rfl⟩ := a.exists_form
  rw [Value.grid_ofGrid_wellFormed] at h
  rw [Value.shape_ofGrid] at apart
  obtain ⟨places, lead, rfl⟩ := (pick_ofGrid_eq_ok_iff read wf h).mp picked
  rw [unpick_ofGrid_eq_ok_iff read wf]
  constructor
  · rintro ⟨places, can, -⟩
    exact can.not_repeated
  · intro not_repeated
    refine ⟨places, ⟨not_repeated, rfl, lead, lead.nodup_iff.mp apart⟩, ?_⟩
    rw [Grid.pieces_cellsAt wf h lead, Grid.writeCells_cellAt h (Grid.lies_of_lead wf lead)]

/-- Two letters are picked and written back. -/
theorem unpick_letters :
    let index : Operand := .value (.byte ⟨[2, 1], [2, 0]⟩)
    let table : Grid Int := ⟨[2, 1], [2, 0]⟩
    let a : Value := .character ⟨[3], ['a', 'b', 'c']⟩
    let c : Value := .character ⟨[2], ['c', 'a']⟩
    index.asIntegerGrid .indexTable = .ok table ∧ table.WellFormed ∧ a.grid.WellFormed ∧
      pick index (.value a) .none = .ok c ∧ (table.toPoints.toList.map a.shape.place?).Nodup ∧
      unpick (.value c) index (.value a) = .ok a := by
  intro index table a c
  have wf : table.WellFormed := by decide
  have h : a.grid.WellFormed := by decide
  have apart : (table.toPoints.toList.map a.shape.place?).Nodup := by decide
  refine ⟨rfl, wf, h, rfl, apart, (unpick_undoes_pick_iff rfl wf h rfl apart).mpr ?_⟩
  rintro ⟨none, -⟩
  exact absurd none (by decide)

/-- No rows of two points without components are refused as if points were repeated. -/
theorem unpick_no_points_refused :
    let index : Operand := .value (.byte ⟨[0, 2, 0], []⟩)
    let table : Grid Int := ⟨[0, 2, 0], []⟩
    let a : Value := .byte ⟨[1], [1]⟩
    let c : Value := .byte ⟨[0, 2, 1], []⟩
    index.asIntegerGrid .indexTable = .ok table ∧ table.WellFormed ∧ a.grid.WellFormed ∧
      pick index (.value a) .none = .ok c ∧ (table.toPoints.toList.map a.shape.place?).Nodup ∧
      unpick (.value c) index (.value a) = .error (.inverse (.duplicates .pick)) := by
  intro index table a c
  exact ⟨rfl, by decide, by decide, rfl, List.nodup_nil, rfl⟩

/-- What is written back is what picking finds afterwards, no two points lead to the same place,
and nothing has changed but below these places. -/
theorem pick_finds_unpicked {index : Operand} {table : Grid Int} {picked into r : Value}
    (read : index.asIntegerGrid .indexTable = .ok table) (wf : table.WellFormed)
    (hp : picked.grid.WellFormed) (h : into.grid.WellFormed) (sameForm : picked.form = into.form)
    (written : unpick (.value picked) index (.value into) = .ok r) :
    r.shape = into.shape ∧ pick index (.value r) .none = .ok picked ∧
      (table.toPoints.toList.map into.shape.place?).Nodup ∧
      ∀ i ∈ into.shape.coordinates,
        (∀ point ∈ table.toPoints.toList, ∀ place, into.shape.place? point = some place →
          ¬ place <+: i) →
        r.cell? i = into.cell? i := by
  obtain ⟨f, into, rfl⟩ := into.exists_form
  obtain ⟨picked, rfl⟩ := Value.exists_grid (sameForm.trans (Value.form_ofGrid f into))
  rw [Value.grid_ofGrid_wellFormed] at hp h
  obtain ⟨places, can, rfl⟩ := (unpick_ofGrid_eq_ok_iff read wf).mp written
  have fits := can.fits wf hp h
  simp only [Value.shape_ofGrid]
  refine ⟨rfl, ?_, can.lead.nodup_iff.mpr can.nodup, fun i mem outside => ?_⟩
  · refine (pick_ofGrid_eq_ok_iff read wf (h.writeCells fits)).mpr ⟨places, can.lead, ?_⟩
    rw [can.cellsAt_writeCells wf hp h]
  · rw [Value.cell?_ofGrid, Value.cell?_ofGrid, Grid.get?_writeCells_of_not_prefix h fits mem]
    intro place there
    obtain ⟨point, here, leads⟩ := can.lead.exists_point there
    exact outside point here place leads

/-- Two letters are written over others. -/
theorem unpicked_letters_found :
    let index : Operand := .value (.byte ⟨[2, 1], [2, 0]⟩)
    let table : Grid Int := ⟨[2, 1], [2, 0]⟩
    let picked : Value := .character ⟨[2], ['x', 'y']⟩
    let into : Value := .character ⟨[3], ['a', 'b', 'c']⟩
    let r : Value := .character ⟨[3], ['y', 'b', 'x']⟩
    index.asIntegerGrid .indexTable = .ok table ∧ table.WellFormed ∧ picked.grid.WellFormed ∧
      into.grid.WellFormed ∧ picked.form = into.form ∧
      unpick (.value picked) index (.value into) = .ok r ∧
      r.shape = into.shape ∧ pick index (.value r) .none = .ok picked ∧
      (table.toPoints.toList.map into.shape.place?).Nodup ∧
      ∀ i ∈ into.shape.coordinates,
        (∀ point ∈ table.toPoints.toList, ∀ place, into.shape.place? point = some place →
          ¬ place <+: i) →
        r.cell? i = into.cell? i := by
  intro index table picked into r
  have wf : table.WellFormed := by decide
  have hp : picked.grid.WellFormed := by decide
  have h : into.grid.WellFormed := by decide
  exact ⟨rfl, wf, hp, h, rfl, rfl, pick_finds_unpicked rfl wf hp h rfl rfl⟩

end Operations

end RowMajor
