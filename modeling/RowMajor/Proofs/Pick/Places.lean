import RowMajor.Proofs.Grid.Tables
import RowMajor.Proofs.Operations.Pick

/-!
# Places that points lead to

A point leads to a place if each of its components is within the bounds of its axis. Picking
and writing back follow the components in different ways, but both along the same places: a
point without a place is refused by both, and the cell that is picked at a point is the one
below its place.
-/

namespace RowMajor

variable {α : Type}

namespace Shape

/-- The coordinates that a point means. -/
def place? : Shape → List Int → Option (List Nat)
  | d :: s, i :: point =>
    match resolveIndex i d with
    | some p => (place? s point).map (p :: ·)
    | none => none
  | _, [] => some []
  | [], _ :: _ => none

variable {s : Shape} {point : List Int} {place : List Nat}

@[simp] theorem place?_nil (s : Shape) : s.place? [] = some [] := by
  cases s <;> rfl

/-- Coordinates within the axes lead to the cell below them. -/
theorem place?_ofNat (rank : place.length ≤ s.length) (within : s.contains place = true) :
    s.place? (place.map Int.ofNat) = some place := by
  induction s generalizing place with
  | nil =>
      obtain rfl := List.length_eq_zero_iff.mp (Nat.le_zero.mp rank)
      rfl
  | cons d s ih =>
      cases place with
      | nil => rfl
      | cons i place =>
          obtain ⟨here, below⟩ := contains_cons.mp within
          have inBounds : ¬ (Int.ofNat i < -d ∨ d ≤ Int.ofNat i) := by
            simp only [Int.ofNat_eq_natCast]
            omega
          have resolved : resolveIndex (Int.ofNat i) d = some i := by
            rw [resolveIndex, if_neg inBounds]
            rfl
          rw [List.map_cons, place?, resolved]
          exact congrArg (Option.map (i :: ·)) (ih (Nat.le_of_succ_le_succ rank) below)

/-- A point leads to a cell that is there. -/
theorem liesIn_of_place? (leads : s.place? point = some place) :
    Grid.LiesIn s point.length place := by
  induction s generalizing point place with
  | nil =>
      cases point with
      | nil =>
          cases leads
          exact ⟨rfl, Nat.le_refl 0, rfl⟩
      | cons i point => cases leads
  | cons d s ih =>
      cases point with
      | nil =>
          cases leads
          exact ⟨rfl, Nat.zero_le _, contains_nil _⟩
      | cons i point =>
          rw [place?] at leads
          cases resolved : resolveIndex i d with
          | none => rw [resolved] at leads; cases leads
          | some p =>
              rw [resolved] at leads
              obtain ⟨rest, below, rfl⟩ := Option.map_eq_some_iff.mp leads
              have lies := ih below
              have here := decide_eq_true (resolveIndex_lt resolved)
              exact ⟨congrArg Nat.succ lies.length, Nat.succ_le_succ lies.rank,
                Bool.and_eq_true_iff.mpr ⟨here, lies.within⟩⟩

/-- A point with more components than axes leads nowhere. -/
theorem place?_of_length_lt (long : s.length < point.length) : s.place? point = none := by
  cases leads : s.place? point with
  | none => rfl
  | some place => exact absurd (liesIn_of_place? leads).rank (Nat.not_le.mpr long)

/-- The first component of a point that is out of bounds stands for the given axis, which is of
the given length. -/
inductive FirstMiss : Shape → List Int → Nat → Int → Int → Prop where
  | here {s : Shape} {point : List Int} {i d : Int} (missed : resolveIndex i d = none) :
    FirstMiss (d :: s) (i :: point) 0 i d
  | there {s : Shape} {point : List Int} {i d j e : Int} {p k : Nat}
    (resolved : resolveIndex i d = some p) (below : FirstMiss s point k j e) :
    FirstMiss (d :: s) (i :: point) (k + 1) j e

theorem FirstMiss.place?_eq_none {k : Nat} {i d : Int} (misses : s.FirstMiss point k i d) :
    s.place? point = none := by
  induction misses with
  | here missed => rw [place?, missed]
  | there resolved _ ih => rw [place?, resolved, ih]; rfl

/-- The points lead to the places, one by one. -/
def Lead (s : Shape) (points : List (List Int)) (places : List (List Nat)) : Prop :=
  points.map s.place? = places.map some

variable {points : List (List Int)} {places others : List (List Nat)}

theorem lead_cons : s.Lead (point :: points) (place :: places) ↔
    s.place? point = some place ∧ s.Lead points places :=
  List.cons.injEq .. ▸ Iff.rfl

/-- The first point leads to the first place. -/
theorem Lead.exists_cons (h : s.Lead (point :: points) places) :
    ∃ place rest, places = place :: rest ∧ s.place? point = some place ∧ s.Lead points rest := by
  cases places with
  | nil => cases h
  | cons place rest => exact ⟨place, rest, rfl, lead_cons.mp h⟩

theorem Lead.length_eq (h : s.Lead points places) : places.length = points.length := by
  have lengths := congrArg List.length h
  rw [List.length_map, List.length_map] at lengths
  exact lengths.symm

theorem Lead.unique (h : s.Lead points places) (h' : s.Lead points others) : places = others :=
  List.map_injective_iff.mpr (fun _ _ => Option.some.inj) (h.symm.trans h')

/-- Every point leads to one of the places. -/
theorem Lead.exists_place (h : s.Lead points places) (mem : point ∈ points) :
    ∃ place ∈ places, s.place? point = some place := by
  have there : s.place? point ∈ places.map some := h ▸ List.mem_map_of_mem mem
  obtain ⟨place, mem, same⟩ := List.mem_map.mp there
  exact ⟨place, mem, same.symm⟩

/-- Every place is one that a point leads to. -/
theorem Lead.exists_point (h : s.Lead points places) (mem : place ∈ places) :
    ∃ point ∈ points, s.place? point = some place := by
  have there : some place ∈ points.map s.place? := h ▸ List.mem_map_of_mem mem
  exact List.mem_map.mp there

/-- No two points lead to the same place if the places are all different. -/
theorem Lead.nodup_iff (h : s.Lead points places) :
    (points.map s.place?).Nodup ↔ places.Nodup := by
  rw [h]
  exact List.nodup_map_iff (fun _ _ => Option.some.inj)

/-- Points of one width lead to cells at one depth. -/
theorem Lead.liesIn {width : Nat} (h : s.Lead points places)
    (widths : ∀ point ∈ points, point.length = width) (mem : place ∈ places) :
    Grid.LiesIn s width place := by
  obtain ⟨point, there, leads⟩ := h.exists_point mem
  exact widths point there ▸ liesIn_of_place? leads

end Shape

namespace Grid

variable {a : Grid α} {kind : Kind} {why : MissingFill}

theorem resolvePoint_spec {s : Shape} {point : List Int} (whole : Shape) (axis : Nat)
    (rank : point.length ≤ s.length) :
    Outcome (fun place => s.place? point = some place) (fun _ => s.place? point = none)
      (resolvePoint whole axis s point) := by
  induction s generalizing axis point with
  | nil =>
      obtain rfl := List.length_eq_zero_iff.mp (Nat.le_zero.mp rank)
      exact rfl
  | cons d s ih =>
      cases point with
      | nil => exact rfl
      | cons i point =>
          simp only [resolvePoint, Shape.place?]
          cases resolved : resolveIndex i d with
          | none => exact rfl
          | some p =>
              simp only
              have rest := ih (axis + 1) (Nat.le_of_succ_le_succ rank)
              cases below : resolvePoint whole (axis + 1) s point with
              | ok place =>
                  rw [below] at rest
                  exact congrArg _ rest
              | error e =>
                  rw [below] at rest
                  exact congrArg _ rest

theorem placeOf_spec (a : Grid α) (point : List Int) :
    Outcome (fun place => a.shape.place? point = some place)
      (fun _ => a.shape.place? point = none) (a.placeOf point) := by
  rw [placeOf, checkWidth]
  split
  · rename_i long
    exact Shape.place?_of_length_lt long
  · rename_i short
    exact resolvePoint_spec a.shape 0 (Nat.not_lt.mp short)

/-- The cell below the place that a point leads to, or one of fill elements if it leads nowhere. -/
def IsPicked (filler : Filler α) (a : Grid α) (point : List Int) (cell : Grid α) : Prop :=
  (∃ place, a.shape.place? point = some place ∧ cell = a.cellAt place) ∨
    a.shape.place? point = none ∧ ∃ x, filler = .ok x ∧
      cell = tabulate (a.shape.drop point.length) fun _ => x

/-- A point that fails leaves nothing to descend into but fill elements. -/
theorem descend_replicate {s : Shape} {x : α} (whole : Shape) (axis : Nat) (natural : s.Natural)
    (point : List Int) :
    descend (.ok x) whole axis s point (List.replicate s.cellCount x) =
      .ok (List.replicate (Shape.cellCount (s.drop point.length)) x) := by
  induction s generalizing axis point with
  | nil => rw [List.drop_nil]; rfl
  | cons d s ih =>
      cases point with
      | nil => rfl
      | cons i point =>
          obtain ⟨-, natural⟩ := (Shape.natural_cons d s).mp natural
          have below := ih (axis + 1) natural point
          simp only [descend, if_neg (Int.not_lt.mpr (Shape.size_nonneg natural)),
            ← Shape.cellCount_eq_volume natural]
          cases resolved : resolveIndex i d with
          | none => exact below
          | some p =>
              have there : p + 1 ≤ d.toNat := by
                have bound := resolveIndex_lt resolved
                simp only [Int.ofNat_eq_natCast] at bound
                omega
              have room := Nat.mul_le_mul_right (Shape.cellCount s) there
              rw [Nat.succ_mul] at room
              have row : ((List.replicate (Shape.cellCount (d :: s)) x).drop
                  (p * Shape.cellCount s)).take (Shape.cellCount s) =
                    List.replicate (Shape.cellCount s) x := by
                rw [List.drop_replicate, List.take_replicate, Shape.cellCount]
                congr 1
                omega
              simp only [row]
              exact below

/-- What is picked of a row is picked of the grid by the longer point. -/
theorem IsPicked.of_row {filler : Filler α} {i : Int} {point : List Int} {p : Nat} {cell : Grid α}
    (h : a.WellFormed) (rank : (i :: point).length ≤ a.rank)
    (resolved : resolveIndex i a.rowCount = some p)
    (picked : (a.cellAt [p]).IsPicked filler point cell) : a.IsPicked filler (i :: point) cell := by
  have shape := shape_eq_cons rank
  have rowShape := shape_row shape p
  have there : p < a.rowCount.toNat := by
    have bound := resolveIndex_lt resolved
    simp only [Int.ofNat_eq_natCast] at bound
    omega
  have leads : a.shape.place? (i :: point) = (a.rowShape.place? point).map (p :: ·) := by
    rw [shape, Shape.place?, resolved]
  rw [IsPicked, rowShape] at picked
  obtain ⟨place, below, rfl⟩ | ⟨nowhere, x, given, rfl⟩ := picked
  · have lies := Shape.liesIn_of_place? below
    refine .inl ⟨p :: place, by rw [leads, below]; rfl, ?_⟩
    exact cellAt_cellAt_row h shape there (lies.length ▸ lies.rank) lies.within
  · refine .inr ⟨by rw [leads, nowhere]; rfl, x, given, ?_⟩
    rw [shape]
    rfl

/-- Descending gives the elements of the picked cell. It fails at the first component that is out
of bounds, if there is nothing to fill with. -/
theorem descend_spec {point : List Int} (filler : Filler α) (whole : Shape) (axis : Nat)
    (h : a.WellFormed) (rank : point.length ≤ a.rank) :
    Outcome (fun items => a.IsPicked filler point ⟨a.shape.drop point.length, items⟩)
      (fun e => ∃ why k i d, filler = .error why ∧ a.shape.FirstMiss point k i d ∧
        e = .outside i d (axis + k) whole why.note)
      (descend filler whole axis a.shape point a.items) := by
  induction point generalizing a axis with
  | nil =>
      rw [descend_nil]
      exact .inl ⟨[], Shape.place?_nil _, (cellAt_nil h).symm⟩
  | cons i point ih =>
      have shape := shape_eq_cons rank
      have natural := h.natural_rowShape
      rw [shape]
      simp only [descend]
      cases resolved : resolveIndex i a.rowCount with
      | none =>
          cases filler with
          | error why => exact ⟨why, 0, i, a.rowCount, rfl, .here resolved, rfl⟩
          | ok x =>
              simp only
              rw [← Shape.cellCount_eq_volume natural, descend_replicate whole _ natural,
                ← shape]
              refine .inr ⟨by rw [shape, Shape.place?, resolved], x, rfl, ?_⟩
              rw [tabulate_const, shape]
              rfl
      | some p =>
          have there : p < a.rowCount.toNat := by
            have bound := resolveIndex_lt resolved
            simp only [Int.ofNat_eq_natCast] at bound
            omega
          have row := h.cellAt_row shape there
          have rowShape := shape_row shape p
          have rowItems : (a.cellAt [p]).items =
              (a.items.drop (p * Shape.volume a.rowShape)).take (Shape.volume a.rowShape) :=
            items_row shape p
          have below := ih (axis + 1) row (by
            rw [Grid.rank, rowShape]
            exact rank_rowShape rank)
          rw [rowShape, rowItems] at below
          simp only
          rw [if_neg (Int.not_lt.mpr (Shape.size_nonneg natural))]
          refine below.mono (fun items picked => ?_) ?_
          · exact IsPicked.of_row h rank resolved picked
          · rintro e ⟨why, k, j, d, missing, misses, rfl⟩
            refine ⟨why, k + 1, j, d, missing, .there resolved misses, ?_⟩
            rw [Nat.add_assoc, Nat.add_comm 1 k]

theorem IsPicked.wellFormed {filler : Filler α} {point : List Int} {cell : Grid α}
    (picked : a.IsPicked filler point cell) (h : a.WellFormed) :
    cell.WellFormed ∧ cell.shape = a.shape.drop point.length := by
  obtain ⟨place, leads, rfl⟩ | ⟨-, x, -, rfl⟩ := picked
  · have lies := Shape.liesIn_of_place? leads
    refine ⟨h.cellAt (lies.length ▸ lies.rank) lies.within, ?_⟩
    rw [shape_cellAt, lies.length]
  · exact ⟨wellFormed_tabulate (h.natural.drop _) _, rfl⟩

/-- A point with as many components as there are axes, or fewer, picks a cell, unless a component
is out of bounds and there is nothing to fill with. -/
theorem pickPoint_cases {point : List Int} (kind : Kind) (filler : Filler α) (h : a.WellFormed)
    (rank : point.length ≤ a.rank) :
    Outcome (a.IsPicked filler point)
      (fun e => ∃ why k i d, filler = .error why ∧ a.shape.FirstMiss point k i d ∧
        e = .outside i d k a.shape why.note)
      (a.pickPoint kind filler point) := by
  rw [pickPoint, checkWidth, if_neg (Nat.not_lt.mpr rank)]
  have descended := descend_spec filler a.shape 0 h rank
  simp only [Nat.zero_add] at descended
  apply descended.bind
  intro items picked
  rw [fit_eq_ok (picked.wellFormed h).1.fits]
  exact picked

/-- Without a fill element a point picks the cell below the place that it leads to. -/
theorem pickPoint_spec (h : a.WellFormed) (point : List Int) :
    Outcome (fun cell => ∃ place, a.shape.place? point = some place ∧ cell = a.cellAt place)
      (fun _ => a.shape.place? point = none) (a.pickPoint kind (.error why) point) := by
  by_cases rank : point.length ≤ a.rank
  · refine (pickPoint_cases kind (.error why) h rank).mono ?_ ?_
    · rintro cell (leads | ⟨-, x, given, -⟩)
      · exact leads
      · cases given
    · rintro e ⟨-, k, i, d, -, misses, -⟩
      exact misses.place?_eq_none
  · have long := Nat.not_le.mp rank
    rw [pickPoint, checkWidth, if_pos long]
    exact Shape.place?_of_length_lt long

/-- The cells at some places, in the arrangement of the points that lead there. -/
def cellsAt (p : Points) (places : List (List Nat)) (a : Grid α) : Grid α :=
  ⟨a.pickedShape p.batch p.width, places.flatMap fun place => (a.cellAt place).items⟩

/-- Picking without a fill element gives the cells at the places that the points lead to, if each
of them leads somewhere. -/
theorem pick_spec {index : Grid Int} (wf : index.WellFormed) (h : a.WellFormed) :
    Outcome
      (fun c => ∃ places, a.shape.Lead index.toPoints.toList places ∧
        c = a.cellsAt index.toPoints places)
      (fun _ => ∀ places, ¬ a.shape.Lead index.toPoints.toList places)
      (pick kind (.error why) index a) := by
  have each : ∀ point ∈ index.toPoints.toList, Outcome
      (fun cell => ∃ place, a.shape.place? point = some place ∧ cell = a.cellAt place)
      (fun _ => ∀ places, ¬ a.shape.Lead index.toPoints.toList places)
      (a.pickPoint kind (.error why) point) := by
    intro point mem
    refine (pickPoint_spec h point).mono (fun _ picked => picked) fun _ nowhere places lead => ?_
    obtain ⟨place, -, leads⟩ := lead.exists_place mem
    rw [nowhere] at leads
    cases leads
  rw [pick_eq_pickPoints kind _ wf h]
  apply (Outcome.mapM_forall₂ each).bind
  intro cells picked
  have gathered : ∃ places, a.shape.Lead index.toPoints.toList places ∧
      cells = places.map (cellAt · a) := by
    generalize index.toPoints.toList = points at picked
    induction picked with
    | nil => exact ⟨[], rfl, rfl⟩
    | cons here _ ih =>
        obtain ⟨place, leads, rfl⟩ := here
        obtain ⟨places, others, rfl⟩ := ih
        exact ⟨place :: places, Shape.lead_cons.mpr ⟨leads, others⟩, rfl⟩
  obtain ⟨places, lead, rfl⟩ := gathered
  refine ⟨places, lead, ?_⟩
  rw [cellsAt, List.flatMap_map]

/-- A vector of indices is a single point. -/
theorem toList_toPoints_vector (point : List Int) : (vector point).toPoints.toList = [point] :=
  congrArg (fun point => [point]) (List.take_length ..)

/-- The cell at a single place. -/
theorem cellsAt_vector (place : List Nat) (a : Grid α) :
    a.cellsAt (vector (place.map Int.ofNat)).toPoints [place] = a.cellAt place := by
  have width : (place.map Int.ofNat).length = place.length := List.length_map ..
  have shape : a.pickedShape [] (Int.ofNat (place.map Int.ofNat).length) =
      a.shape.drop place.length := by
    rw [width]
    rfl
  show (⟨a.pickedShape [] (Int.ofNat (place.map Int.ofNat).length),
    [place].flatMap fun place => (a.cellAt place).items⟩ : Grid α) = _
  rw [shape, List.flatMap_singleton]
  rfl

end Grid

end RowMajor
