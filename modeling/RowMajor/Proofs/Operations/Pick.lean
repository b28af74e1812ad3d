import RowMajor.Pick
import RowMajor.Proofs.Grid.Rows
import RowMajor.Proofs.Value.Reading

/-!
# Picked cells are well formed

Descending along a point keeps the items of one cell at every step, whether they come from
the array or from the fill value. The points of a well-formed index array all have the
width of its last axis, so there are as many of them as the frame has cells, and what is
written back stays inside the array. The index array is gone through row by row, but that comes
to picking below one point after the other.
-/

namespace RowMajor

variable {α : Type} {valid : α → Prop}

theorem Shape.cellCount_dropLast (s : Shape) :
    cellCount s.dropLast * (s.getLastD 1).toNat = cellCount s := by
  rcases List.eq_nil_or_concat s with rfl | ⟨front, d, rfl⟩
  · rfl
  · rw [List.concat_eq_append, List.dropLast_concat, List.getLastD_concat, cellCount_append]
    exact congrArg _ (Nat.mul_one _).symm

theorem Shape.Natural.getLastD {s : Shape} (h : s.Natural) : 0 ≤ s.getLastD 1 := by
  rcases List.eq_nil_or_concat s with rfl | ⟨front, d, rfl⟩
  · decide
  · rw [List.concat_eq_append, List.getLastD_concat]
    exact h d (by simp)

theorem Shape.contains_nil (s : Shape) : s.contains [] = true := by
  cases s <;> rfl

theorem Shape.cut_of_nonneg (s : Shape) {depth : Int} (h : 0 ≤ depth) :
    s.cut depth = depth.toNat :=
  if_pos h

namespace Grid

variable {index : Grid Int} {a : Grid α}

theorem toPoints_natural (h : index.WellFormed) : index.toPoints.batch.Natural :=
  fun d hd => h.natural d (List.dropLast_subset _ hd)

theorem toPoints_width_nonneg (h : index.WellFormed) : 0 ≤ index.toPoints.width :=
  h.natural.getLastD

theorem WellFormed.length_toPoints (h : index.WellFormed) :
    index.toPoints.components.length =
      index.toPoints.batch.cellCount * index.toPoints.width.toNat :=
  h.length_eq.trans (Shape.cellCount_dropLast index.shape).symm

theorem length_toList_toPoints (h : index.WellFormed) :
    index.toPoints.toList.length = index.toPoints.batch.cellCount := by
  rw [Points.toList, length_pieces, Shape.cellCount_eq_volume (toPoints_natural h)]

theorem length_of_mem_toPoints {point : List Int} (h : index.WellFormed)
    (mem : point ∈ index.toPoints.toList) : point.length = index.toPoints.width.toNat := by
  refine length_of_mem_pieces ?_ mem
  rw [← Shape.cellCount_eq_volume (toPoints_natural h)]
  exact Nat.le_of_eq h.length_toPoints.symm

/-- An index array with at most one axis is a single point. -/
theorem length_components_of_rank_le {index : Grid Int} (h : index.WellFormed)
    (single : index.rank ≤ 1) : index.toPoints.components.length = index.toPoints.width.toNat := by
  have frame : index.toPoints.batch = [] := by
    refine List.length_eq_zero_iff.mp ?_
    rw [toPoints, List.length_dropLast]
    exact Nat.sub_eq_zero_of_le single
  rw [h.length_toPoints, frame]
  exact Nat.one_mul _

theorem checkWidth_yields (point : List Int) (a : Grid α) :
    Yields (fun _ => point.length ≤ a.shape.length) (a.checkWidth point) := by
  rw [checkWidth]
  split
  · trivial
  · rename_i short
    exact Nat.not_lt.mp short

@[simp] theorem descend_nil (filler : Filler α) (whole : Shape) (axis : Nat) (s : Shape)
    (items : List α) : descend filler whole axis s [] items = .ok items := by
  cases s <;> rfl

/-- At every step down there is one item for each place of the cell. -/
theorem descend_yields {filler : Filler α} {whole s : Shape} {point : List Int} {items : List α}
    (axis : Nat) (natural : s.Natural) (fills : ∀ x, filler = .ok x → valid x)
    (h : Fills valid s.cellCount items) :
    Yields (Fills valid (Shape.cellCount (s.drop point.length)))
      (descend filler whole axis s point items) := by
  induction s generalizing axis point items with
  | nil =>
      rw [List.drop_nil]
      exact h
  | cons d s ih =>
      cases point with
      | nil => exact h
      | cons i point =>
          obtain ⟨-, natural⟩ := (Shape.natural_cons d s).mp natural
          have volume := Shape.cellCount_eq_volume natural
          simp only [descend]
          cases resolved : resolveIndex i d with
          | some p =>
              simp only
              rw [if_neg (Int.not_lt.mpr (Shape.size_nonneg natural))]
              have bound := resolveIndex_lt resolved
              have below : p < d.toNat := by
                simp only [Int.ofNat_eq_natCast] at bound
                omega
              exact ih _ natural (volume ▸ h.piece below)
          | none =>
              cases filler with
              | error why => trivial
              | ok x => exact ih _ natural (volume ▸ fills_replicate (fills x rfl) _)

theorem pickPoint_yields {filler : Filler α} (kind : Kind) (h : a.Holds valid)
    (fills : ∀ x, filler = .ok x → valid x) (point : List Int) :
    Yields (fun cell => Fills valid (Shape.cellCount (a.shape.drop point.length)) cell.items)
      (a.pickPoint kind filler point) := by
  apply (checkWidth_yields point a).bind
  intro _ _
  apply (descend_yields 0 h.natural fills h.fills).bind
  intro items filled
  rw [fit_eq_ok (filled.holds (h.natural.drop _)).wellFormed.fits]
  exact filled

/-- The cells below points, one after the other. -/
def pickEach (kind : Kind) (filler : Filler α) (p : Points) (a : Grid α) :
    Except Error (List (Grid α)) :=
  p.toList.mapM (a.pickPoint kind filler)

/-- The cells below points, put together. -/
def pickPoints (kind : Kind) (filler : Filler α) (p : Points) (a : Grid α) :
    Except Error (Grid α) := do
  let cells ← a.pickEach kind filler p
  .ok ⟨a.pickedShape p.batch p.width, cells.flatMap (·.items)⟩

theorem pickPoints_yields {filler : Filler α} (kind : Kind) (wf : index.WellFormed)
    (h : a.Holds valid) (fills : ∀ x, filler = .ok x → valid x) :
    Yields (Grid.Holds valid) (pickPoints kind filler index.toPoints a) := by
  have each : ∀ point ∈ index.toPoints.toList,
      Yields (fun cell => Fills valid (Shape.cellCount (a.shape.drop index.toPoints.width.toNat))
        cell.items) (a.pickPoint kind filler point) := by
    intro point mem
    rw [← length_of_mem_toPoints wf mem]
    exact pickPoint_yields kind h fills point
  apply (Outcome.mapM each).bind
  rintro cells ⟨count, filled⟩
  rw [pickedShape, Shape.back, Shape.cut_of_nonneg _ (toPoints_width_nonneg wf)]
  refine ((Fills.flatMap filled).cast ?_).holds ((toPoints_natural wf).append (h.natural.drop _))
  rw [count, length_toList_toPoints wf, Shape.cellCount_append]

/-- A point without components picks the whole array. -/
theorem pickPoint_nil (kind : Kind) (filler : Filler α) (h : a.WellFormed) :
    a.pickPoint kind filler [] = .ok a := by
  have narrow : ¬ a.rank < ([] : List Int).length := Nat.not_lt_zero _
  rw [pickPoint, checkWidth, if_neg narrow, descend_nil]
  exact fit_eq_ok h.fits

theorem shape_of_pickPoint {kind : Kind} {filler : Filler α} {point : List Int} {cell : Grid α}
    (picked : a.pickPoint kind filler point = .ok cell) :
    cell.shape = a.shape.drop point.length := by
  have shape : Outcome (fun cell => cell.shape = a.shape.drop point.length) (fun _ => True)
      (a.pickPoint kind filler point) := by
    refine .bind_any (fun _ _ => trivial) fun _ _ => ?_
    refine .bind_any (fun _ _ => trivial) fun items _ => ?_
    rw [fit]
    split
    · rfl
    · trivial
  rw [picked] at shape
  exact shape

/-- An index array with at most one axis picks as its only point does. -/
theorem pickPoints_single {point : List Int} {w : Int} (kind : Kind) (filler : Filler α)
    (a : Grid α) (nonneg : 0 ≤ w) (length : point.length = w.toNat) :
    pickPoints kind filler ⟨[], w, point⟩ a = a.pickPoint kind filler point := by
  have points : Points.toList ⟨[], w, point⟩ = [point] :=
    congrArg (fun p => [p]) (List.take_of_length_le (Nat.le_of_eq length))
  have shape : a.pickedShape [] w = a.shape.drop point.length := by
    rw [pickedShape, List.nil_append, Shape.back, Shape.cut_of_nonneg _ nonneg, length]
  rw [pickPoints, pickEach, points, List.mapM_cons, List.mapM_nil]
  cases picked : a.pickPoint kind filler point with
  | error e => rfl
  | ok cell =>
      have items : [cell].flatMap (·.items) = cell.items := List.flatMap_singleton ..
      show Except.ok (Grid.mk (a.pickedShape [] w) ([cell].flatMap (·.items))) = _
      rw [shape, ← shape_of_pickPoint picked, items]

/-- The points of an index array are those of its rows, one row after the other. -/
theorem toList_toPoints_cons {d : Int} {s : Shape} (index : List Int) (natural : s.Natural)
    (nonneg : 0 ≤ d) (axes : s ≠ []) :
    (toPoints ⟨d :: s, index⟩).toList =
      ((pieces s.volume d.toNat index).map fun row => (toPoints ⟨s, row⟩).toList).flatten := by
  obtain ⟨e, s, rfl⟩ := List.exists_cons_of_ne_nil axes
  have front : Shape.Natural (e :: s).dropLast :=
    fun d mem => natural d (List.dropLast_subset _ mem)
  have volume : Shape.volume (d :: (e :: s).dropLast) =
      d.toNat * Shape.volume (e :: s).dropLast :=
    Int.toNat_mul nonneg (Shape.size_nonneg front)
  have size : Shape.volume (e :: s).dropLast * ((e :: s).getLastD 1).toNat =
      Shape.volume (e :: s) := by
    rw [← Shape.cellCount_eq_volume front, Shape.cellCount_dropLast,
      Shape.cellCount_eq_volume natural]
  show pieces ((e :: s).getLastD 1).toNat (Shape.volume (d :: (e :: s).dropLast)) index = _
  rw [volume, pieces_mul, size]
  rfl

/-- The cells below the points of an index array are those below the points of its rows. -/
theorem pickPoints_cons {d : Int} {s : Shape} {index : List Int} (kind : Kind) (filler : Filler α)
    (a : Grid α) (natural : s.Natural) (nonneg : 0 ≤ d) (axes : s ≠ []) :
    pickPoints kind filler (toPoints ⟨d :: s, index⟩) a =
      (pieces s.volume d.toNat index).mapM (fun row =>
        a.pickEach kind filler (toPoints ⟨s, row⟩)) >>= fun parts =>
          .ok ⟨a.pickedShape (d :: s).dropLast (s.getLastD 1),
            parts.flatten.flatMap (·.items)⟩ := by
  have width : (d :: s).getLastD 1 = s.getLastD 1 := by
    obtain ⟨e, s, rfl⟩ := List.exists_cons_of_ne_nil axes
    rfl
  rw [pickPoints, pickEach, toList_toPoints_cons index natural nonneg axes, Outcome.mapM_flatten,
    List.mapM_map, bind_assoc, ← width]
  rfl

/-- If rows are picked as they should be, the rows together are, even where they have no indices
and one is picked for all. -/
theorem pickRows_eq (kind : Kind) (filler : Filler α) (h : a.WellFormed) {s : Shape}
    (natural : s.Natural) {pickRow : List Int → Except Error (Grid α)}
    (below : ∀ row : List Int, row.length = s.cellCount →
      pickRow row = pickPoints kind filler (toPoints ⟨s, row⟩) a)
    {count : Nat} {index : List Int} (length : index.length = count * s.volume) :
    pickRows pickRow s count index =
      (pieces s.volume count index).mapM (fun row =>
        a.pickEach kind filler (toPoints ⟨s, row⟩)) >>= fun parts =>
          .ok (parts.map fun cells =>
            ⟨a.pickedShape s.dropLast (s.getLastD 1), cells.flatMap (·.items)⟩) := by
  have volume := Shape.cellCount_eq_volume natural
  rw [← Outcome.mapM_bind_ok]
  show _ = (pieces s.volume count index).mapM fun row =>
    pickPoints kind filler (toPoints ⟨s, row⟩) a
  rw [pickRows]
  split
  · rename_i empty
    have none : s.volume = 0 := by
      rw [Shape.volume, empty]
      rfl
    rw [none] at length
    obtain rfl : index = [] := List.length_eq_zero_iff.mp length
    have whole : a.pickEach kind filler (toPoints ⟨s, []⟩) =
        .ok (List.replicate (toPoints ⟨s, []⟩).batch.volume a) := by
      show (pieces _ _ []).mapM _ = _
      rw [pieces_of_nil]
      exact Outcome.mapM_replicate (pickPoint_nil kind filler h) _
    obtain ⟨cell, picked⟩ : ∃ cell, pickPoints kind filler (toPoints ⟨s, []⟩) a = .ok cell := by
      rw [pickPoints, whole]
      exact ⟨_, rfl⟩
    have all := Outcome.mapM_replicate (f := fun row =>
      pickPoints kind filler (toPoints ⟨s, row⟩) a) picked count
    rw [below [] (by rw [volume, none]; rfl), none, pieces_of_nil, picked, all]
    rfl
  · refine Outcome.mapM_congr fun row mem => below row ?_
    rw [length_of_mem_pieces (Nat.le_of_eq length.symm) mem, volume]

/-- Row by row of the index array, the cells are picked below its points one after the other. The
induction is on the shape of the index array. -/
theorem pickNested_eq (kind : Kind) (filler : Filler α) (h : a.WellFormed) {s : Shape}
    (natural : s.Natural) {index : List Int} (length : index.length = s.cellCount) :
    pickNested kind filler a s index =
      pickPoints kind filler (toPoints ⟨s, index⟩) a := by
  induction s generalizing index with
  | nil => exact (pickPoints_single kind filler a Int.one_nonneg length).symm
  | cons d s ih =>
      obtain ⟨nonneg, below⟩ := (Shape.natural_cons d s).mp natural
      cases s with
      | nil => exact (pickPoints_single kind filler a nonneg (length.trans (Nat.mul_one _))).symm
      | cons e s =>
          have holds : Yields (Grid.Holds fun _ => True)
              (pickPoints kind filler (toPoints ⟨d :: e :: s, index⟩) a) :=
            pickPoints_yields kind (wellFormed_iff.mpr ⟨natural, length⟩) h.holds_trivial
              fun _ _ => trivial
          rw [Shape.cellCount, Shape.cellCount_eq_volume below] at length
          have rows := pickRows_eq kind filler h below (fun row length => ih below length) length
          rw [pickPoints_cons kind filler a below nonneg (List.cons_ne_nil e s)] at holds ⊢
          rw [pickNested, rows]
          cases gathered : (pieces (Shape.volume (e :: s)) d.toNat index).mapM
              (fun row => a.pickEach kind filler (toPoints ⟨e :: s, row⟩)) with
          | error e => rfl
          | ok parts =>
              rw [gathered] at holds
              have items : (parts.map fun cells : List (Grid α) => Grid.mk
                  (a.pickedShape (e :: s).dropLast ((e :: s).getLastD 1))
                  (cells.flatMap (·.items))).flatMap (·.items) =
                    parts.flatten.flatMap (·.items) := by
                rw [List.flatMap_map, ← List.flatMap_id, List.flatMap_assoc]
                rfl
              show fit kind ⟨_, List.flatMap _ (parts.map _)⟩ = _
              rw [items]
              exact fit_eq_ok holds.wellFormed.fits

theorem pick_eq_pickPoints (kind : Kind) (filler : Filler α) (wf : index.WellFormed)
    (h : a.WellFormed) :
    pick kind filler index a = pickPoints kind filler index.toPoints a :=
  pickNested_eq kind filler h wf.natural wf.length_eq

theorem pick_yields {filler : Filler α} (kind : Kind) (wf : index.WellFormed) (h : a.Holds valid)
    (fills : ∀ x, filler = .ok x → valid x) :
    Yields (Grid.Holds valid) (pick kind filler index a) := by
  rw [pick_eq_pickPoints kind filler wf h.wellFormed]
  exact pickPoints_yields kind wf h fills

/-- The place of a cell that can be written over. -/
structure LiesIn (s : Shape) (width : Nat) (place : List Nat) : Prop where
  length : place.length = width
  rank : width ≤ s.length
  within : s.contains place = true

theorem resolvePoint_yields {whole s : Shape} {point : List Int} (axis : Nat)
    (rank : point.length ≤ s.length) :
    Yields (LiesIn s point.length) (resolvePoint whole axis s point) := by
  induction s generalizing axis point with
  | nil =>
      obtain rfl := List.length_eq_zero_iff.mp (Nat.le_zero.mp rank)
      exact ⟨rfl, rank, rfl⟩
  | cons d s ih =>
      cases point with
      | nil => exact ⟨rfl, rank, rfl⟩
      | cons i point =>
          simp only [resolvePoint]
          cases resolved : resolveIndex i d with
          | none => trivial
          | some p =>
              apply (ih _ (Nat.le_of_succ_le_succ rank)).bind
              intro place lies
              refine ⟨congrArg Nat.succ lies.length, rank, ?_⟩
              have here := decide_eq_true (resolveIndex_lt resolved)
              exact Bool.and_eq_true_iff.mpr ⟨here, lies.within⟩

theorem placeOf_yields (a : Grid α) (point : List Int) :
    Yields (LiesIn a.shape point.length) (a.placeOf point) :=
  (checkWidth_yields point a).bind fun _ rank => resolvePoint_yields 0 rank

theorem distinctPlaces_yields {width : Nat} {points : List (List Int)} (seen : List (List Nat))
    (each : ∀ point ∈ points, point.length = width) :
    Yields (fun places => ∀ place ∈ places, LiesIn a.shape width place)
      (a.distinctPlaces seen points) := by
  induction points generalizing seen with
  | nil => exact fun _ mem => absurd mem List.not_mem_nil
  | cons point points ih =>
      rw [distinctPlaces]
      apply (placeOf_yields a point).bind
      intro place lies
      rw [each point List.mem_cons_self] at lies
      split
      · trivial
      · have others := ih (place :: seen) fun p hp => each p (List.mem_cons_of_mem _ hp)
        apply others.bind
        intro places all p hp
        rcases List.mem_cons.mp hp with rfl | hp
        · exact lies
        · exact all p hp

theorem checkPicked_yields (p : Points) (picked into : Grid α) :
    Yields (fun _ => True) (checkPicked p picked into) := by
  simp only [checkPicked]
  split <;> trivial

theorem placesOf_yields {picked into : Grid α} (wf : index.WellFormed) :
    Yields (fun places => ∀ place ∈ places, LiesIn into.shape index.toPoints.width.toNat place)
      (placesOf index.toPoints picked into) := by
  have rest (places : List (List Nat))
      (all : ∀ place ∈ places, LiesIn into.shape index.toPoints.width.toNat place) :
      Yields (fun places => ∀ place ∈ places, LiesIn into.shape index.toPoints.width.toNat place)
        (checkPicked index.toPoints picked into >>= fun _ =>
          .ok (if index.toPoints.batch.any (· ≤ 0) then [] else places)) := by
    apply (checkPicked_yields index.toPoints picked into).bind
    intro _ _
    split
    · exact fun _ mem => absurd mem List.not_mem_nil
    · exact all
  simp only [placesOf]
  split
  · trivial
  · split
    · rename_i none
      refine rest [[]] fun place mem => ?_
      obtain rfl := List.mem_singleton.mp mem
      rw [none]
      exact ⟨rfl, Nat.zero_le _, Shape.contains_nil _⟩
    · exact (distinctPlaces_yields [] fun point mem => length_of_mem_toPoints wf mem).bind rest

theorem placeOfSingle_yields {picked into : Grid α} (wf : index.WellFormed)
    (single : index.rank ≤ 1) :
    Yields (fun places => ∀ place ∈ places, LiesIn into.shape index.toPoints.width.toNat place)
      (placeOfSingle index.toPoints picked into) := by
  apply (checkWidth_yields _ into).bind
  intro _ rank
  apply (checkPicked_yields index.toPoints picked into).bind
  intro _ _
  apply (resolvePoint_yields 0 rank).bind
  intro place lies p hp
  obtain rfl := List.mem_singleton.mp hp
  rw [← length_components_of_rank_le wf single]
  exact lies

/-- A cell that is no longer than its place has room there. -/
theorem LiesIn.room {width : Nat} {place : List Nat} {cell : List α}
    (lies : LiesIn a.shape width place) (h : a.Holds valid)
    (short : cell.length ≤ Shape.volume (a.shape.drop width)) :
    a.shape.offset place + cell.length ≤ a.items.length := by
  have inside := Shape.offset_add_cellCount_le h.natural (lies.length ▸ lies.rank) lies.within
  rw [lies.length, Shape.cellCount_eq_volume (h.natural.drop _)] at inside
  rw [h.length_eq]
  exact Nat.le_trans (Nat.add_le_add_left short _) inside

theorem unpick_yields {picked into : Grid α} (wf : index.WellFormed) (hp : picked.Holds valid)
    (h : into.Holds valid) : Yields (Grid.Holds valid) (unpick index picked into) := by
  have rest (places : List (List Nat))
      (all : ∀ place ∈ places, LiesIn into.shape index.toPoints.width.toNat place) :
      Yields (Grid.Holds valid) (.ok (into.writeCells places
        (pieces (Shape.volume (into.shape.back index.toPoints.width)) places.length
          picked.items))) := by
    rw [Shape.back, Shape.cut_of_nonneg _ (toPoints_width_nonneg wf)]
    refine h.writeCells (fun w hw => ?_) fun cell hc x hx => hp.all x (mem_of_mem_pieces hc hx)
    obtain ⟨place, cell⟩ := List.of_mem_zip hw
    exact (all _ place).room h (length_le_of_mem_pieces cell)
  simp only [unpick]
  split
  · exact (placesOf_yields wf).bind rest
  · rename_i several
    exact (placeOfSingle_yields wf (Nat.not_lt.mp several)).bind rest

end Grid

variable {index v picked : Value} {fill : Fill}

theorem pick_yields (hi : index.WellFormed) (hv : v.WellFormed) (hf : fill.WellFormed) :
    Yields Value.WellFormed (pick (.value index) (.value v) fill) := by
  apply (Value.integerGrid_yields .indexTable hi).bind
  intro index wf
  apply Value.promoteFor_yields hf hv
  intro w hw fills
  exact hw.yields_map fun h => Grid.pick_yields w.kind wf h fills

theorem unpick_yields (hp : picked.WellFormed) (hi : index.WellFormed) (hv : v.WellFormed) :
    Yields Value.WellFormed (unpick (.value picked) (.value index) (.value v)) := by
  apply (Value.integerGrid_yields .indexTable hi).bind
  intro index wf
  exact Value.unify_yields .unpick hp hv fun f x y hx hy => Grid.unpick_yields wf hx hy

end RowMajor
