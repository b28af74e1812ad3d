import RowMajor.Proofs.Pick.Undo

/-!
# Picked cells with a fill element

Every point of an index array picks the cell below the place that it leads to. A component that is
out of bounds leads nowhere, and the whole cell is then one of fill elements, whatever the other
components are. Without a fill element the pick is refused. Points are followed in order, and the
components of a point in theirs, so the refusal tells of the component that is the first of all to
be out of bounds, as the components lie one behind another.

As with sections, bytes are promoted first if only numbers can be filled.
-/

namespace RowMajor

variable {α : Type}

theorem resolveIndex_eq_none_iff {i d : Int} :
    resolveIndex i d = none ↔ i < -d ∨ d ≤ i := by
  rw [resolveIndex]
  split
  · rename_i outside
    exact iff_of_true rfl outside
  · rename_i inside
    exact iff_of_false (Option.some_ne_none _) inside

namespace Shape

/-- The components are those of points of one width. The one at a position is out of the bounds of
its axis, which is of the given length. -/
structure Misses (s : Shape) (width : Nat) (components : List Int) (n : Nat) (i d : Int) :
    Prop where
  component : components[n]? = some i
  axis : s[n % width]? = some d
  outside : i < -d ∨ d ≤ i

/-- No component before is out of bounds. -/
structure MissesFirst (s : Shape) (width : Nat) (components : List Int) (n : Nat) (i d : Int) :
    Prop where
  misses : s.Misses width components n i d
  first : ∀ m < n, ∀ j e, ¬ s.Misses width components m j e

variable {s : Shape} {point : List Int} {place : List Nat} {k : Nat} {i d : Int}

/-- A point that leads to a place has no component out of bounds. -/
theorem resolveIndex_of_place? (leads : s.place? point = some place)
    (component : point[k]? = some i) (axis : s[k]? = some d) : resolveIndex i d ≠ none := by
  induction s generalizing point place k with
  | nil => cases axis
  | cons e s ih =>
      cases point with
      | nil => cases component
      | cons j point =>
          rw [place?] at leads
          cases resolved : resolveIndex j e with
          | none => rw [resolved] at leads; cases leads
          | some p =>
              rw [resolved] at leads
              obtain ⟨rest, below, -⟩ := Option.map_eq_some_iff.mp leads
              cases k with
              | zero =>
                  cases component
                  cases axis
                  rw [resolved]
                  exact Option.some_ne_none p
              | succ k => exact ih below component axis

/-- The first component out of bounds, its axis, and those before. -/
theorem FirstMiss.spec (misses : s.FirstMiss point k i d) :
    point[k]? = some i ∧ s[k]? = some d ∧ resolveIndex i d = none ∧
      ∀ l < k, ∀ j e, point[l]? = some j → s[l]? = some e → resolveIndex j e ≠ none := by
  induction misses with
  | here missed => exact ⟨rfl, rfl, missed, fun l before => absurd before (Nat.not_lt_zero l)⟩
  | there resolved _ ih =>
      obtain ⟨component, axis, missed, first⟩ := ih
      refine ⟨component, axis, missed, fun l before j e here there => ?_⟩
      cases l with
      | zero =>
          cases here
          cases there
          rw [resolved]
          exact Option.some_ne_none _
      | succ l => exact first l (Nat.lt_of_succ_lt_succ before) j e here there

end Shape

namespace Grid

variable {index : Grid Int} {a : Grid α} {kind : Kind} {filler : Filler α} {s : Shape} {k : Nat}
  {i d : Int}

/-- The points of an index array are its cells above the last axis. -/
theorem toList_toPoints (wf : index.WellFormed) :
    index.toPoints.toList =
      index.toPoints.batch.coordinates.map fun q => (index.cellAt q).items := by
  have front : index.shape.take index.toPoints.batch.length = index.toPoints.batch := by
    rw [toPoints, List.length_dropLast, ← List.dropLast_eq_take]
  have width : Shape.volume (index.shape.drop index.toPoints.batch.length) =
      index.toPoints.width.toNat := by
    rw [toPoints]
    rcases List.eq_nil_or_concat index.shape with none | ⟨batch, d, some⟩
    · rw [none]
      rfl
    · rw [some, List.concat_eq_append, List.dropLast_concat, List.getLastD_concat, List.drop_left]
      exact congrArg Int.toNat (Int.mul_one d)
  have items : (index.cells index.toPoints.batch.length).map (·.items) =
      index.toPoints.toList := by
    rw [cells, List.map_map, width, front, Shape.cellCount_eq_volume (toPoints_natural wf)]
    exact List.map_id _
  rw [← items, cells_eq_map wf.natural, front, List.map_map]
  rfl

theorem length_point {q : List Nat} (wf : index.WellFormed)
    (mem : q ∈ index.toPoints.batch.coordinates) :
    (index.cellAt q).items.length = index.toPoints.width.toNat := by
  refine length_of_mem_toPoints wf ?_
  rw [toList_toPoints wf]
  exact List.mem_map_of_mem mem

/-- The components of a point are some of those that lie one behind another. -/
theorem getElem?_point {t : Nat} {point : List Int}
    (here : index.toPoints.toList[t]? = some point) (below : k < index.toPoints.width.toNat) :
    point[k]? = index.items[t * index.toPoints.width.toNat + k]? := by
  have there : t < index.toPoints.batch.volume := by
    have bound := (List.getElem?_eq_some_iff.mp here).1
    rwa [Points.toList, length_pieces] at bound
  rw [Points.toList, getElem?_pieces there] at here
  obtain rfl := Option.some.inj here
  rw [List.getElem?_take_of_lt below, List.getElem?_drop]
  rfl

/-- A component that is out of bounds belongs to a point that leads nowhere. -/
theorem exists_point_of_misses {n : Nat} (wf : index.WellFormed)
    (misses : s.Misses index.toPoints.width.toNat index.items n i d) :
    ∃ point, index.toPoints.toList[n / index.toPoints.width.toNat]? = some point ∧
      point[n % index.toPoints.width.toNat]? = some i := by
  have length : index.items.length = _ := wf.length_toPoints
  have inside := (List.getElem?_eq_some_iff.mp misses.component).1
  rw [length] at inside
  have positive : 0 < index.toPoints.width.toNat :=
    Nat.pos_of_ne_zero fun none => by rw [none] at inside; exact Nat.not_lt_zero _ inside
  have there : n / index.toPoints.width.toNat < index.toPoints.toList.length := by
    rw [length_toList_toPoints wf]
    exact Nat.div_lt_of_lt_mul (Nat.mul_comm .. ▸ inside)
  refine ⟨_, List.getElem?_eq_getElem there, ?_⟩
  rw [getElem?_point (List.getElem?_eq_getElem there) (Nat.mod_lt n positive),
    Nat.div_add_mod', misses.component]

/-- The first component of all that is out of bounds is the first one of the first point that leads
nowhere. -/
theorem missesFirst_of_firstMiss {t : Nat} {point : List Int} (wf : index.WellFormed)
    (here : index.toPoints.toList[t]? = some point)
    (before : ∀ u < t, ∀ other, index.toPoints.toList[u]? = some other → s.place? other ≠ none)
    (misses : s.FirstMiss point k i d) :
    k < index.toPoints.width.toNat ∧ s.MissesFirst index.toPoints.width.toNat index.items
      (t * index.toPoints.width.toNat + k) i d := by
  obtain ⟨component, axis, missed, first⟩ := misses.spec
  have below : k < index.toPoints.width.toNat := by
    rw [← length_of_mem_toPoints wf (List.mem_of_getElem? here)]
    exact (List.getElem?_eq_some_iff.mp component).1
  have along : (t * index.toPoints.width.toNat + k) % index.toPoints.width.toNat = k := by
    rw [Nat.mul_add_mod_self_right, Nat.mod_eq_of_lt below]
  refine ⟨below, ⟨?_, ?_, ?_⟩, ?_⟩
  · rw [← getElem?_point here below, component]
  · rw [along, axis]
  · exact resolveIndex_eq_none_iff.mp missed
  · intro m earlier j e misses
    obtain ⟨other, there, component⟩ := exists_point_of_misses wf misses
    have outside := resolveIndex_eq_none_iff.mpr misses.outside
    have upTo : m / index.toPoints.width.toNat < t + 1 := by
      refine Nat.div_lt_of_lt_mul ?_
      rw [Nat.mul_succ, Nat.mul_comm]
      omega
    rcases Nat.lt_succ_iff_lt_or_eq.mp upTo with sooner | same
    · cases leads : s.place? other with
      | none => exact before _ sooner other there leads
      | some place => exact Shape.resolveIndex_of_place? leads component misses.axis outside
    · rw [same] at there
      obtain rfl := Option.some.inj (here.symm.trans there)
      have position := Nat.div_add_mod' m index.toPoints.width.toNat
      rw [same] at position
      exact first _ (by omega) j e component misses.axis outside

/-- What is picked at every point, or the refusal of the first component that is out of bounds. -/
theorem pick_cases (kind : Kind) (filler : Filler α) (wf : index.WellFormed) (h : a.WellFormed)
    (rank : index.toPoints.width.toNat ≤ a.rank) :
    Outcome
      (fun c => c.shape = index.toPoints.batch ++ a.shape.drop index.toPoints.width.toNat ∧
        ∀ q ∈ index.toPoints.batch.coordinates,
          a.IsPicked filler (index.cellAt q).items (c.cellAt q))
      (fun e => ∃ why n i d, filler = .error why ∧
        a.shape.MissesFirst index.toPoints.width.toNat index.items n i d ∧
        e = .outside i d (n % index.toPoints.width.toNat) a.shape why.note)
      (pick kind filler index a) := by
  have widths : ∀ point ∈ index.toPoints.toList, point.length = index.toPoints.width.toNat :=
    fun _ mem => length_of_mem_toPoints wf mem
  have each (point : List Int) (mem : point ∈ index.toPoints.toList) :=
    pickPoint_cases kind filler h ((widths point mem).symm ▸ rank)
  have shape : a.pickedShape index.toPoints.batch index.toPoints.width =
      index.toPoints.batch ++ a.shape.drop index.toPoints.width.toNat := by
    rw [pickedShape, back_toPoints wf]
  rw [pick_eq_pickPoints kind filler wf h, pickPoints, pickEach]
  simp only [shape]
  cases picked : index.toPoints.toList.mapM (a.pickPoint kind filler) with
  | ok cells =>
      have related : Outcome (List.Forall₂ (a.IsPicked filler) index.toPoints.toList)
          (fun _ => True) (index.toPoints.toList.mapM (a.pickPoint kind filler)) :=
        Outcome.mapM_forall₂ fun point mem => (each point mem).mono (fun _ here => here)
          fun _ _ => trivial
      rw [picked] at related
      replace related : List.Forall₂ (a.IsPicked filler) index.toPoints.toList cells := related
      refine ⟨rfl, forall_cellAt_of_forall₂ (toPoints_natural wf) (h.natural.drop _) ?_ ?_⟩
      · intro c mem
        obtain ⟨point, there, here⟩ := exists_of_forall₂_right related mem
        exact widths point there ▸ here.wellFormed h
      · rwa [toList_toPoints wf, List.forall₂_map_left_iff] at related
  | error e =>
      obtain ⟨t, point, here, failed, before⟩ := Outcome.mapM_eq_error picked
      have refused := each point (List.mem_of_getElem? here)
      rw [failed] at refused
      obtain ⟨why, k, i, d, rfl, misses, rfl⟩ := refused
      have lead : ∀ u < t, ∀ other, index.toPoints.toList[u]? = some other →
          a.shape.place? other ≠ none := by
        intro u earlier other there
        obtain ⟨cell, found⟩ := before u earlier other there
        have leads := each other (List.mem_of_getElem? there)
        rw [found] at leads
        obtain ⟨place, leads, -⟩ | ⟨-, -, ⟨⟩, -⟩ := leads
        rw [leads]
        exact Option.some_ne_none place
      obtain ⟨below, first⟩ := missesFirst_of_firstMiss wf here lead misses
      refine ⟨why, _, i, d, rfl, first, ?_⟩
      rw [Nat.mul_add_mod_self_right, Nat.mod_eq_of_lt below]

/-- If something is picked at every point, and a component is out of bounds, there is a fill
element. -/
theorem exists_filler_of_misses {cell : List Nat → Grid α} {n : Nat} (wf : index.WellFormed)
    (cells : ∀ q ∈ index.toPoints.batch.coordinates,
      a.IsPicked filler (index.cellAt q).items (cell q))
    (misses : a.shape.Misses index.toPoints.width.toNat index.items n i d) :
    ∃ x, filler = .ok x := by
  obtain ⟨point, there, component⟩ := exists_point_of_misses wf misses
  have mem := List.mem_of_getElem? there
  rw [toList_toPoints wf] at mem
  obtain ⟨q, inFrame, rfl⟩ := List.mem_map.mp mem
  obtain ⟨place, leads, -⟩ | ⟨-, x, given, -⟩ := cells q inFrame
  · have outside := resolveIndex_eq_none_iff.mpr misses.outside
    exact absurd outside (Shape.resolveIndex_of_place? leads component misses.axis)
  · exact ⟨x, given⟩

/-- The same of values: the cell that the point leads to, or one of fill elements. -/
theorem IsPicked.reads_or_fills {w : Value} {fill : Fill} {point : List Int}
    {cell : Grid w.form.Element} (picked : w.grid.IsPicked (fill.filler w.form) point cell) :
    (∀ place, w.grid.shape.place? point = some place →
      Value.ofGrid w.form cell = w.cellAt place) ∧
    (w.grid.shape.place? point = none → ∃ x, fill.element? w.form = some x ∧
      cell = tabulate (w.grid.shape.drop point.length) fun _ => x) := by
  obtain ⟨place, leads, rfl⟩ | ⟨nowhere, x, given, rfl⟩ := picked
  · refine ⟨fun other also => ?_, fun never => ?_⟩
    · rw [leads] at also
      cases also
      rfl
    · rw [leads] at never
      cases never
  · refine ⟨fun other leads => ?_, fun _ => ⟨x, Fill.filler_eq_ok_iff.mp given, rfl⟩⟩
    rw [nowhere] at leads
    cases leads

end Grid

/-- Bytes become numbers first if only numbers can be filled. Picking is then refused exactly if a
component is out of bounds and there is nothing to fill with, and the refusal tells of the first
such component. Otherwise there is a cell for every point: the one that the point leads to, or one
of fill elements. -/
theorem pick_reads_or_fills {index : Operand} {table : Grid Int} {v : Value} {fill : Fill}
    (read : index.asIntegerGrid .indexTable = .ok table) (wf : table.WellFormed)
    (hv : v.WellFormed) (hf : fill.WellFormed) (rank : table.toPoints.width.toNat ≤ v.rank) :
    ∃ w, v.promoteFor fill = .ok w ∧
      (w = v ∨ ∃ bytes, v = .byte bytes ∧ w = .number (bytes.map .ofByte) ∧
        fill.element? v.form = none ∧ fill.element? w.form ≠ none) ∧
      (fill.element? w.form = none →
        (∃ n i d, v.shape.Misses table.toPoints.width.toNat table.items n i d) →
        ∃ n i d, v.shape.MissesFirst table.toPoints.width.toNat table.items n i d ∧
          pick index (.value v) fill = .error (.outside i d (n % table.toPoints.width.toNat)
            v.shape (fill.missing w.kind).note)) ∧
      (¬ (fill.element? w.form = none ∧
          ∃ n i d, v.shape.Misses table.toPoints.width.toNat table.items n i d) →
        ∃ r, pick index (.value v) fill = .ok r ∧ r.WellFormed ∧ r.form = w.form ∧
          r.shape = table.toPoints.batch ++ v.shape.drop table.toPoints.width.toNat ∧
          ∀ q ∈ table.toPoints.batch.coordinates,
            (∀ place, v.shape.place? (table.cellAt q).items = some place →
              r.cellAt q = w.cellAt place) ∧
            (v.shape.place? (table.cellAt q).items = none →
              ∃ x, fill.element? w.form = some x ∧ r.cellAt q =
                .ofGrid w.form (.tabulate (v.shape.drop table.toPoints.width.toNat)
                  fun _ => x))) := by
  obtain ⟨w, promoted, hw, shape⟩ := Value.promoteFor_wellFormed hf hv
  have h : w.grid.WellFormed := hw.holds.wellFormed
  have same : v.shape = w.grid.shape := shape.symm
  have fewer : table.toPoints.width.toNat ≤ w.grid.rank := by
    rwa [Grid.rank, ← same]
  have result : pick index (.value v) fill = (do
      .ok (.ofGrid w.form (← Grid.pick w.form.kind (fill.filler w.form) table w.grid))) :=
    pick_promoted read (promoted.trans (congrArg _ (Value.ofGrid_grid w).symm))
  refine ⟨w, promoted, Value.eq_or_byte_of_promoted hf hv promoted, ?_⟩
  have outcome := Grid.pick_cases w.form.kind (fill.filler w.form) wf h fewer
  have holds := Grid.pick_yields w.form.kind wf hw.holds
    fun x given => hf.valid_of_filler hw.isUniform given
  rw [result, same]
  cases picked : Grid.pick w.form.kind (fill.filler w.form) table w.grid with
  | error e =>
      rw [picked] at outcome
      obtain ⟨why, n, i, d, missing, first, rfl⟩ := outcome
      obtain ⟨none, rfl⟩ := Fill.filler_eq_error_iff.mp missing
      exact ⟨fun _ _ => ⟨n, i, d, first, rfl⟩,
        fun filled => absurd ⟨none, n, i, d, first.misses⟩ filled⟩
  | ok c =>
      rw [picked] at outcome holds
      obtain ⟨shape, cells⟩ := outcome
      constructor
      · rintro none ⟨n, i, d, misses⟩
        obtain ⟨x, given⟩ := Grid.exists_filler_of_misses wf cells misses
        rw [Fill.filler_eq_ok_iff, none] at given
        cases given
      · intro _
        refine ⟨_, rfl, Value.wellFormed_ofGrid hw.isUniform holds, Value.form_ofGrid .., ?_, ?_⟩
        · rw [Value.shape_ofGrid, shape]
        · intro q mem
          obtain ⟨reads, fills⟩ := (cells q mem).reads_or_fills
          rw [Value.cellAt_ofGrid]
          refine ⟨reads, fun nowhere => ?_⟩
          obtain ⟨x, given, cell⟩ := fills nowhere
          rw [Grid.length_point wf mem] at cell
          exact ⟨x, given, congrArg (Value.ofGrid w.form) cell⟩

/-- The last line of a table is picked from the end, and one that the table does not have is made of
dots. -/
theorem line_of_dots_picked :
    let index : Operand := .value (.number ⟨[2, 1], [.ofBits 0xbff0000000000000,
      .ofBits 0x4008000000000000]⟩)
    let lines : Grid Int := ⟨[2, 1], [-1, 3]⟩
    let table : Value := .character ⟨[2, 2], ['a', 'b', 'c', 'd']⟩
    let fill : Fill := ⟨some (.character ⟨[], ['.']⟩)⟩
    index.asIntegerGrid .indexTable = .ok lines ∧ lines.WellFormed ∧ table.WellFormed ∧
      fill.WellFormed ∧ lines.toPoints.width.toNat ≤ table.rank ∧
      ∃ r, pick index (.value table) fill = .ok r ∧ r.shape = [2, 2] ∧
        r.cellAt [0] = .character ⟨[2], ['c', 'd']⟩ ∧
        r.cellAt [1] = .character ⟨[2], ['.', '.']⟩ := by
  intro index lines table fill
  have read : index.asIntegerGrid .indexTable = .ok lines := rfl
  have wf : lines.WellFormed := by decide
  have hv : table.WellFormed := .character (by decide)
  have hf : fill.WellFormed := by
    intro v given
    cases given
    exact .character (by decide)
  have rank : lines.toPoints.width.toNat ≤ table.rank := by decide
  obtain ⟨w, promoted, -, -, filled⟩ := pick_reads_or_fills read wf hv hf rank
  cases promoted
  obtain ⟨r, picked, -, -, shape, cells⟩ :=
    filled fun missing => absurd missing.1 (Option.some_ne_none _)
  obtain ⟨last, -⟩ := cells [0] (by decide)
  obtain ⟨-, nowhere⟩ := cells [1] (by decide)
  obtain ⟨x, given, dots⟩ := nowhere rfl
  cases given
  exact ⟨read, wf, hv, hf, rank, r, picked, shape, last [1] rfl, dots⟩

/-- A byte that is not there is not refused, although bytes cannot be filled with one half. What is
picked is the number. -/
theorem missing_byte_picked_as_number :
    let index : Operand := .value (.byte ⟨[1], [3]⟩)
    let table : Grid Int := ⟨[1], [3]⟩
    let bytes : Value := .byte ⟨[1], [1]⟩
    let half : Binary64 := .ofBits 0x3fe0000000000000
    let fill : Fill := ⟨some (.number ⟨[], [half]⟩)⟩
    index.asIntegerGrid .indexTable = .ok table ∧ table.WellFormed ∧ bytes.WellFormed ∧
      fill.WellFormed ∧ table.toPoints.width.toNat ≤ bytes.rank ∧
      fill.element? bytes.form = none ∧
      bytes.shape.Misses table.toPoints.width.toNat table.items 0 3 1 ∧
      pick index (.value bytes) fill = .ok (.number ⟨[], [half]⟩) := by
  intro index table bytes half fill
  have hf : fill.WellFormed := by
    intro v given
    cases given
    exact .number (by decide)
  exact ⟨rfl, by decide, .byte (by decide), hf, by decide, rfl, ⟨rfl, rfl, by decide⟩, rfl⟩

end RowMajor
