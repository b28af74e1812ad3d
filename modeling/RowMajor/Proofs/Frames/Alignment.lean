import RowMajor.Frames
import RowMajor.Proofs.Grid.Assembly

/-!
# Rows aligned along frames

Two frames can be aligned if one is the beginning of the other, and if they are not, what
remains of them without leading axes of length one is tried. Alignment lists, for every
coordinate vector of the longer frame, the two cells that it leads to, where the part that
belongs to the shorter frame leads to the cell below that frame. What the shape of the
result is depends on the number of elements alone.
-/

namespace RowMajor

variable {α β : Type}

namespace Shape

variable {s t : Shape}

/-- One of the frames is the beginning of the other. -/
def Compatible (s t : Shape) : Prop :=
  s <+: t ∨ t <+: s

instance (s t : Shape) : Decidable (Compatible s t) :=
  inferInstanceAs (Decidable (_ ∨ _))

/-- The frames along which two arrays are aligned. -/
def matched (s t : Shape) : Shape × Shape :=
  if Compatible s t then (s, t) else (s.dropWhile (· == 1), t.dropWhile (· == 1))

def longer (s t : Shape) : Shape :=
  if s.length < t.length then t else s

@[simp] theorem front_ofNat (s : Shape) (n : Nat) : s.front (Int.ofNat n) = s.take n := rfl

@[simp] theorem back_ofNat (s : Shape) (n : Nat) : s.back (Int.ofNat n) = s.drop n := rfl

theorem agrees_iff : agrees s t = true ↔ Compatible s t := by
  induction s generalizing t with
  | nil => exact iff_of_true rfl (.inl (List.nil_prefix))
  | cons d s ih =>
      cases t with
      | nil => exact iff_of_true rfl (.inr (List.nil_prefix))
      | cons e t =>
          have rest : agrees (d :: s) (e :: t) = (d == e && agrees s t) := rfl
          rw [rest, Bool.and_eq_true, beq_iff_eq, ih, Compatible, Compatible,
            List.cons_prefix_cons, List.cons_prefix_cons, eq_comm (a := e), ← and_or_left]

theorem Compatible.take_longer_left (h : Compatible s t) : (longer s t).take s.length = s := by
  rw [longer]
  split
  · rename_i shorter
    rcases h with before | after
    · exact (List.prefix_iff_eq_take.mp before).symm
    · exact absurd after.length_le (Nat.not_le.mpr shorter)
  · exact List.take_length

theorem Compatible.symm (h : Compatible s t) : Compatible t s :=
  Or.symm h

theorem Compatible.longer_comm (h : Compatible s t) : longer t s = longer s t := by
  rcases Nat.lt_trichotomy s.length t.length with shorter | same | deeper
  · rw [longer, longer, if_pos shorter, if_neg (Nat.not_lt.mpr (Nat.le_of_lt shorter))]
  · have equal : s = t := by
      rcases h with before | after
      · exact before.eq_of_length same
      · exact (after.eq_of_length same.symm).symm
    rw [equal]
  · rw [longer, longer, if_pos deeper, if_neg (Nat.not_lt.mpr (Nat.le_of_lt deeper))]

theorem length_longer (s t : Shape) : (longer s t).length = max s.length t.length := by
  rw [longer]
  split <;> omega

theorem Natural.longer (hs : s.Natural) (ht : t.Natural) : (longer s t).Natural := by
  rw [Shape.longer]
  split
  · exact ht
  · exact hs

theorem Natural.longer_matched (hs : s.Natural) (ht : t.Natural) :
    (Shape.longer (matched s t).1 (matched s t).2).Natural := by
  rw [matched]
  split
  · exact hs.longer ht
  · have left : Natural (s.dropWhile (· == 1)) := fun d mem =>
      hs d ((List.dropWhile_sublist _).mem mem)
    exact left.longer fun d mem => ht d ((List.dropWhile_sublist _).mem mem)

/-- Leading axes of length one can be left out. -/
theorem cellCount_drop_units {n : Nat} (units : n ≤ (s.takeWhile (· == 1)).length) :
    cellCount (s.drop n) = cellCount s := by
  induction s generalizing n with
  | nil => rw [List.drop_nil]
  | cons d s ih =>
      cases n with
      | zero => rfl
      | succ n =>
          by_cases one : d = 1
          · subst one
            rw [List.takeWhile_cons_of_pos (by decide), List.length_cons] at units
            rw [List.drop_succ_cons, ih (Nat.le_of_succ_le_succ units), cellCount]
            exact (Nat.one_mul _).symm
          · rw [List.takeWhile_cons_of_neg (by simpa using one)] at units
            cases units

/-- Leading axes of length one that lie within a depth are left out of the frame, and the axes
behind it stay. -/
theorem drop_leadingUnits (s : Shape) (n : Nat) :
    s.drop (s.leadingUnits (Int.ofNat n)) = (s.take n).dropWhile (· == 1) ++ s.drop n := by
  induction s generalizing n with
  | nil => rw [List.drop_nil, List.take_nil, List.drop_nil]; rfl
  | cons d s ih =>
      cases n with
      | zero => rfl
      | succ n =>
          have rest := ih n
          simp only [leadingUnits, Int.ofNat_eq_natCast, Int.toNat_natCast] at rest ⊢
          rw [List.take_succ_cons, List.drop_succ_cons]
          by_cases one : d = 1
          · subst one
            rw [List.takeWhile_cons_of_pos (by decide), List.length_cons, Nat.succ_min_succ,
              List.drop_succ_cons, List.dropWhile_cons_of_pos (by decide), rest]
          · rw [List.takeWhile_cons_of_neg (by simpa using one), List.length_nil, Nat.min_zero,
              List.drop_zero, List.dropWhile_cons_of_neg (by simpa using one), List.cons_append,
              List.take_append_drop]

theorem sub_leadingUnits (s : Shape) {n : Nat} (within : n ≤ s.length) :
    Int.ofNat n - Int.ofNat (s.leadingUnits (Int.ofNat n)) =
      Int.ofNat ((s.take n).dropWhile (· == 1)).length := by
  have lengths := congrArg List.length (drop_leadingUnits s n)
  have units : s.leadingUnits (Int.ofNat n) ≤ n := Nat.min_le_left ..
  rw [List.length_append, List.length_drop, List.length_drop] at lengths
  simp only [Int.ofNat_eq_natCast] at units lengths ⊢
  omega

/-- The beginning of a coordinate vector is one of the beginning of the shape. -/
theorem take_mem_coordinates {place : List Nat} {n : Nat} (rank : n ≤ s.length)
    (mem : place ∈ s.coordinates) : place.take n ∈ coordinates (s.take n) := by
  obtain ⟨first, rest, rfl, length, within, -⟩ := exists_cell_of_mem_coordinates mem rank
  have front : first.length = (s.take n).length := by
    rw [length, List.length_take, Nat.min_eq_left rank]
  rw [List.take_left' length, mem_coordinates_iff]
  refine ⟨front, ?_⟩
  rwa [← List.take_append_drop n s, contains_append_left (Nat.le_of_eq front)] at within

end Shape

namespace Grid

variable {a : Grid α} {b : Grid β} {frame extra : Shape} {depth : Nat}

/-- At every place of a frame the cell that the leading coordinates of the place lead to. -/
def onFrame (frame : Shape) (depth : Nat) (a : Grid α) : Grid α :=
  assemble frame (a.shape.drop depth) fun place => a.cellAt (place.take depth)

@[simp] theorem shape_onFrame (frame : Shape) (depth : Nat) (a : Grid α) :
    (a.onFrame frame depth).shape = frame ++ a.shape.drop depth := rfl

theorem onFrame_self (h : a.WellFormed) (depth : Nat) :
    a.onFrame (a.shape.take depth) depth = a := by
  refine (assemble_congr fun place mem => ?_).trans (h.assemble_cellAt depth)
  have length := Shape.length_of_mem_coordinates mem
  rw [List.take_of_length_le (length ▸ List.length_take_le ..)]

/-- The leading coordinates of every place of the frame lead to a cell of the grid. -/
structure Reached (frame : Shape) (depth : Nat) (a : Grid α) : Prop where
  wellFormed : a.WellFormed
  rank : depth ≤ a.rank
  leads : frame.take depth = a.shape.take depth

theorem WellFormed.reached (h : a.WellFormed) (rank : depth ≤ a.rank) :
    a.Reached (a.shape.take depth) depth := by
  refine ⟨h, rank, ?_⟩
  rw [List.take_take, Nat.min_self]

namespace Reached

variable {place : List Nat}

theorem take_mem (h : a.Reached frame depth) (mem : place ∈ frame.coordinates) :
    place.take depth ∈ Shape.coordinates (a.shape.take depth) := by
  have rank := h.rank
  have within : depth ≤ frame.length := by
    have lengths := congrArg List.length h.leads
    rw [Grid.rank] at rank
    rw [List.length_take, List.length_take] at lengths
    omega
  exact h.leads ▸ Shape.take_mem_coordinates within mem

theorem cell (h : a.Reached frame depth) (mem : place ∈ frame.coordinates) :
    (a.cellAt (place.take depth)).WellFormed ∧
      (a.cellAt (place.take depth)).shape = a.shape.drop depth := by
  have lead := h.take_mem mem
  refine ⟨h.wellFormed.cellAt (Shape.length_le_of_mem_take lead)
    (Shape.contains_of_mem_take lead), ?_⟩
  rw [shape_cellAt, Shape.drop_length_of_mem_take lead]

theorem get?_cell (h : a.Reached frame depth) (mem : place ∈ frame.coordinates)
    (index : List Nat) :
    (a.cellAt (place.take depth)).get? index = a.get? (place.take depth ++ index) :=
  have lead := h.take_mem mem
  get?_cellAt h.wellFormed.natural (Shape.length_le_of_mem_take lead)
    (Shape.contains_of_mem_take lead)

theorem length_cell (h : a.Reached frame depth) (mem : place ∈ frame.coordinates) :
    (a.cellAt (place.take depth)).items.length = Shape.cellCount (a.shape.drop depth) :=
  length_of_cells (fun _ mem => h.cell mem) mem

theorem length_onFrame (h : a.Reached frame depth) :
    (a.onFrame frame depth).items.length =
      frame.cellCount * Shape.cellCount (a.shape.drop depth) :=
  length_assemble fun _ mem => h.cell mem

/-- The elements on a frame are cut into those of the cells. -/
theorem pieces_onFrame (h : a.Reached frame depth) :
    pieces (Shape.cellCount (a.shape.drop depth)) frame.cellCount (a.onFrame frame depth).items =
      frame.coordinates.map fun place => (a.cellAt (place.take depth)).items :=
  pieces_assemble fun _ mem => h.length_cell mem

end Reached

/-- What depends on the leading coordinates alone is the same along additional axes. -/
theorem flatMap_take_append {place : List Nat} (natural : extra.Natural)
    (length : place.length = depth) (items : List Nat → List α) :
    ((Shape.coordinates extra).map (place ++ ·)).flatMap (fun place => items (place.take depth)) =
      repeated extra.volume (items (place.take depth)) := by
  rw [List.flatMap_map, repeated_eq, ← Shape.cellCount_eq_volume natural,
    ← Shape.length_coordinates, ← flatMap_const]
  refine List.flatMap_congr fun rest _ => ?_
  rw [List.take_left' length, List.take_of_length_le (Nat.le_of_eq length)]

/-- Repeating cells over additional axes. -/
theorem WellFormed.spread_eq_onFrame (h : a.WellFormed) (rank : depth ≤ a.rank)
    (natural : extra.Natural) :
    a.spread (Int.ofNat depth) extra = a.onFrame (a.shape.take depth ++ extra) depth := by
  have reached := h.reached rank
  have length := reached.length_onFrame
  have rows := reached.pieces_onFrame
  rw [onFrame_self h] at length rows
  have each (place : List Nat) (mem : place ∈ Shape.coordinates (a.shape.take depth)) :=
    flatMap_take_append natural
      ((Shape.length_of_mem_coordinates mem).trans (List.length_take_of_le rank))
      fun place => (a.cellAt place).items
  rw [spread, Shape.front_ofNat, Shape.back_ofNat, onFrame, assemble]
  refine congrArg (Grid.mk _) ?_
  rw [Shape.coordinates_append, List.flatMap_assoc, List.flatMap_congr each,
    ← Shape.cellCount_eq_volume (h.natural.drop depth)]
  rcases Nat.eq_zero_or_pos (Shape.cellCount (a.shape.drop depth)) with empty | positive
  · rw [empty, Nat.div_zero, pieces_zero]
    refine (List.flatMap_eq_nil_iff.mpr fun place mem => ?_).symm
    rw [List.length_eq_zero_iff.mp ((reached.length_cell mem).trans empty)]
    rfl
  · rw [length, Nat.mul_div_cancel _ positive, rows, List.flatMap_map]

/-- The cells of two grids that the places of a frame lead to, in pairs. Rows without elements are
left out. The elements of the first grid fill the shape `whole`, if there are as many. -/
def along (whole frame : Shape) (depth otherDepth : Nat) (a : Grid α) (b : Grid β) :
    Aligned α β :=
  let rowShape : Shape := a.shape.drop depth
  { rowShape
    otherShape := b.shape.drop otherDepth
    pairs :=
      if rowShape.cellCount = 0 then []
      else
        frame.coordinates.map fun place =>
          ((a.cellAt (place.take depth)).items, (b.cellAt (place.take otherDepth)).items)
    unpaired := []
    shape :=
      if frame.cellCount * rowShape.cellCount = whole.cellCount then whole
      else frame ++ rowShape }

section

variable {otherDepth : Nat} (h : a.Reached frame depth) (h' : b.Reached frame otherDepth)
include h h'

/-- The part of the second grid at the place of a row is the cell that the place leads to. -/
theorem pairs_onFrame :
    ((pieces (Shape.cellCount (a.shape.drop depth)) frame.cellCount
        (a.onFrame frame depth).items).zipIdx.map fun (row, i) =>
      let start := Int.ofNat i * Shape.size (b.shape.drop otherDepth)
      (row, between start (start + Shape.size (b.shape.drop otherDepth))
        (b.onFrame frame otherDepth).items)) =
      frame.coordinates.map fun place =>
        ((a.cellAt (place.take depth)).items, (b.cellAt (place.take otherDepth)).items) := by
  have others := h'.pieces_onFrame
  have length := h'.length_onFrame
  rw [h.pieces_onFrame, Shape.size_eq_cellCount (h'.wellFormed.natural.drop otherDepth)]
  generalize Shape.cellCount (b.shape.drop otherDepth) = size at others length ⊢
  refine List.ext_getElem? fun i => ?_
  rw [List.getElem?_map, List.getElem?_zipIdx, List.getElem?_map, List.getElem?_map]
  cases there : frame.coordinates[i]? with
  | none => rfl
  | some place =>
      have below : i < frame.cellCount := by
        rw [← Shape.length_coordinates]
        exact (List.getElem?_eq_some_iff.mp there).1
      have room : i * size ≤ (b.onFrame frame otherDepth).items.length := by
        rw [length]
        exact Nat.mul_le_mul_right size (Nat.le_of_lt below)
      have cell := (getElem?_pieces below _).symm.trans (congrArg (·[i]?) others)
      simp only [List.getElem?_map, there, Option.map_some, Option.some.injEq] at cell
      have stop : Int.ofNat i * Int.ofNat size + Int.ofNat size = Int.ofNat (i * size + size) := rfl
      have start : Int.ofNat i * Int.ofNat size = Int.ofNat (i * size) := rfl
      simp only [Option.map_some, Nat.zero_add]
      rw [stop, start, between_ofNat room, Nat.add_sub_cancel_left, cell]

theorem pairRows_onFrame {whole : Shape} (natural : whole.Natural) :
    pairRows whole (Int.ofNat frame.length) (a.onFrame frame depth) (b.onFrame frame otherDepth) =
      along whole frame depth otherDepth a b := by
  have back (s : Shape) : Shape.back (frame ++ s) (Int.ofNat frame.length) = s :=
    List.drop_left' rfl
  have rowNatural := h.wellFormed.natural.drop depth
  have length := h.length_onFrame
  have filled (n : Nat) : Int.ofNat n = whole.size ↔ n = whole.cellCount := by
    rw [Shape.size_eq_cellCount natural]
    exact Int.ofNat_inj
  simp only [pairRows, shape_onFrame, back, ← Shape.cellCount_eq_volume rowNatural, length, filled,
    along]
  rcases Nat.eq_zero_or_pos (Shape.cellCount (a.shape.drop depth)) with empty | positive
  · rw [empty, Nat.mul_zero] at length
    rw [empty, Nat.mul_zero, Nat.div_zero, pieces_zero, if_pos rfl,
      List.length_eq_zero_iff.mp length]
    rfl
  · rw [Nat.mul_div_cancel _ positive, if_neg (Nat.ne_of_gt positive), pairs_onFrame h h',
      List.drop_of_length_le (Nat.le_of_eq length)]

end

/-- Rows changed in place stand along the frame. -/
theorem mapRows_along {f : List α → List β → List α} (h : a.Reached frame depth) (whole : Shape)
    (otherDepth : Nat) (b : Grid β)
    (keeps : ∀ row other, row.length = Shape.cellCount (a.shape.drop depth) →
      (f row other).length = Shape.cellCount (a.shape.drop depth)) :
    ((along whole frame depth otherDepth a b).mapRows f).withShape
        (frame ++ a.shape.drop depth) =
      assemble frame (a.shape.drop depth) fun place =>
        ⟨a.shape.drop depth,
          f (a.cellAt (place.take depth)).items (b.cellAt (place.take otherDepth)).items⟩ := by
  refine congrArg (Grid.mk _) ?_
  simp only [along, Aligned.mapRows, List.append_nil]
  split
  · rename_i empty
    refine (List.flatMap_eq_nil_iff.mpr fun place mem => ?_).symm
    exact List.length_eq_zero_iff.mp ((keeps _ _ (h.length_cell mem)).trans empty)
  · rw [List.flatMap_map]

section

variable {other whole : Shape} {otherDepth : Nat}

theorem WellFormed.reached_longer (h : a.WellFormed) (rank : depth ≤ a.rank)
    (agree : Shape.Compatible (a.shape.take depth) other) :
    a.Reached (Shape.longer (a.shape.take depth) other) depth := by
  have lead := agree.take_longer_left
  rw [List.length_take_of_le rank] at lead
  exact ⟨h, rank, lead⟩

theorem WellFormed.spreadTo_eq_ok (h : a.WellFormed) (kind : Kind) (rank : depth ≤ a.rank)
    (natural : other.Natural) (agree : Shape.Compatible (a.shape.take depth) other) :
    a.spreadTo kind other (Int.ofNat depth) (Int.ofNat other.length) =
      .ok (a.onFrame (Shape.longer (a.shape.take depth) other) depth) := by
  have length : (a.shape.take depth).length = depth := List.length_take_of_le rank
  have lead := agree.take_longer_left
  rw [Shape.longer, length] at lead ⊢
  by_cases shorter : depth < other.length
  · rw [if_pos shorter] at lead ⊢
    have spread : a.spread (Int.ofNat depth) (other.drop depth) = a.onFrame other depth := by
      rw [h.spread_eq_onFrame rank (natural.drop depth), ← lead, List.take_append_drop]
    have fits : (a.onFrame other depth).WellFormed :=
      wellFormed_assemble natural (h.natural.drop depth)
        fun _ mem => Reached.cell ⟨h, rank, lead⟩ mem
    have less : Int.ofNat depth < Int.ofNat other.length := Int.ofNat_lt.mpr shorter
    rw [spreadTo, if_pos less, Shape.back_ofNat, spread, fit_eq_ok fits.fits]
  · have less : ¬ Int.ofNat depth < Int.ofNat other.length := fun lt =>
      shorter (Int.ofNat_lt.mp lt)
    rw [if_neg shorter, onFrame_self h, spreadTo, if_neg less]

theorem alignAgreeing_eq_along (h : a.WellFormed) (h' : b.WellFormed) (kinds : Kind × Kind)
    (natural : whole.Natural) (rank : depth ≤ a.rank) (rank' : otherDepth ≤ b.rank)
    (agree : Shape.Compatible (a.shape.take depth) (b.shape.take otherDepth)) :
    alignAgreeing kinds whole a (Int.ofNat depth) b (Int.ofNat otherDepth) =
      .ok (along whole (Shape.longer (a.shape.take depth) (b.shape.take otherDepth)) depth
        otherDepth a b) := by
  have length : (a.shape.take depth).length = depth := List.length_take_of_le rank
  have length' : (b.shape.take otherDepth).length = otherDepth := List.length_take_of_le rank'
  have first := h.spreadTo_eq_ok kinds.1 rank (h'.natural.take otherDepth) agree
  have second := h'.spreadTo_eq_ok kinds.2 rank' (h.natural.take depth) agree.symm
  have deeper : max (Int.ofNat depth) (Int.ofNat otherDepth) =
      Int.ofNat (Shape.longer (a.shape.take depth) (b.shape.take otherDepth)).length := by
    rw [Shape.length_longer, length, length']
    simp only [Int.ofNat_eq_natCast]
    omega
  have reached' := h'.reached_longer rank' agree.symm
  rw [length'] at first
  rw [length, agree.longer_comm] at second
  rw [agree.longer_comm] at reached'
  simp only [alignAgreeing, Shape.front_ofNat]
  rw [first]
  simp only
  rw [second, deeper]
  exact congrArg Except.ok (pairRows_onFrame (h.reached_longer rank agree) reached' natural)

theorem WellFormed.dropUnits (h : a.WellFormed) (n : Nat) :
    (a.withShape ((a.shape.take n).dropWhile (· == 1) ++ a.shape.drop n)).WellFormed := by
  rw [← Shape.drop_leadingUnits]
  have units : a.shape.leadingUnits (Int.ofNat n) ≤ (a.shape.takeWhile (· == 1)).length :=
    Nat.min_le_right ..
  exact (h.holds_trivial.withShape (h.natural.drop _)
    (Shape.cellCount_drop_units units)).wellFormed

theorem WellFormed.matched (h : a.WellFormed) (depth : Nat) (t : Shape) :
    (a.withShape ((Shape.matched (a.shape.take depth) t).1 ++ a.shape.drop depth)).WellFormed := by
  rw [Shape.matched]
  split
  · rw [List.take_append_drop]
    exact h
  · exact h.dropUnits depth

/-- Matched frames that agree reach the cells of the grid that they were taken from. -/
theorem WellFormed.reached_matched (h : a.WellFormed) (depth : Nat) {t : Shape}
    (agree : Shape.Compatible (Shape.matched (a.shape.take depth) t).1
      (Shape.matched (a.shape.take depth) t).2) :
    (a.withShape ((Shape.matched (a.shape.take depth) t).1 ++ a.shape.drop depth)).Reached
      (Shape.longer (Shape.matched (a.shape.take depth) t).1
        (Shape.matched (a.shape.take depth) t).2)
      (Shape.matched (a.shape.take depth) t).1.length :=
  ⟨h.matched depth t, (List.prefix_append ..).length_le,
    agree.take_longer_left.trans List.take_left.symm⟩

theorem align_of_le (h : a.WellFormed) (h' : b.WellFormed) (kinds : Kind × Kind)
    (rank : depth ≤ a.rank) (rank' : otherDepth ≤ b.rank) :
    let frames := Shape.matched (a.shape.take depth) (b.shape.take otherDepth)
    let first := a.withShape (frames.1 ++ a.shape.drop depth)
    let second := b.withShape (frames.2 ++ b.shape.drop otherDepth)
    a.align kinds (Int.ofNat depth) b (Int.ofNat otherDepth) =
      if Shape.Compatible frames.1 frames.2 then
        .ok (along a.shape (Shape.longer frames.1 frames.2) frames.1.length frames.2.length
          first second)
      else .error ⟨.shape (.frames first.shape second.shape frames.1 frames.2), first⟩ := by
  have least : min (Int.ofNat depth) (Int.ofNat a.rank) = Int.ofNat depth :=
    Int.min_eq_left (Int.ofNat_le.mpr rank)
  have least' : min (Int.ofNat otherDepth) (Int.ofNat b.rank) = Int.ofNat otherDepth :=
    Int.min_eq_left (Int.ofNat_le.mpr rank')
  have length : (a.shape.take depth).length = depth := List.length_take_of_le rank
  have length' : (b.shape.take otherDepth).length = otherDepth := List.length_take_of_le rank'
  simp only [align, least, least', Shape.front_ofNat, Shape.agrees_iff]
  by_cases agree : Shape.Compatible (a.shape.take depth) (b.shape.take otherDepth)
  · rw [if_pos agree, alignAgreeing_eq_along h h' kinds h.natural rank rank' agree,
      Shape.matched, if_pos agree, if_pos agree]
    simp only [length, length', List.take_append_drop]
    rfl
  · have first := h.dropUnits depth
    have second := h'.dropUnits otherDepth
    have left := Shape.sub_leadingUnits a.shape rank
    have left' := Shape.sub_leadingUnits b.shape rank'
    rw [if_neg agree, Shape.matched, if_neg agree]
    simp only [Shape.drop_leadingUnits, left, left', Shape.front_ofNat]
    generalize (a.shape.take depth).dropWhile (· == 1) = frame at first
    generalize (b.shape.take otherDepth).dropWhile (· == 1) = otherFrame at second
    generalize a.shape.drop depth = rowShape at first
    generalize b.shape.drop otherDepth = otherShape at second
    have front : (a.withShape (frame ++ rowShape)).shape.take frame.length = frame :=
      List.take_left
    have front' : (b.withShape (otherFrame ++ otherShape)).shape.take otherFrame.length =
        otherFrame := List.take_left
    rw [front, front']
    refine ite_congr rfl (fun agree => ?_) fun _ => rfl
    have rank : frame.length ≤ (a.withShape (frame ++ rowShape)).rank :=
      (List.prefix_append ..).length_le
    have rank' : otherFrame.length ≤ (b.withShape (otherFrame ++ otherShape)).rank :=
      (List.prefix_append ..).length_le
    have aligned := alignAgreeing_eq_along first second kinds h.natural rank rank'
    rw [front, front'] at aligned
    exact aligned agree

/-- Alignment goes by the matched frames. -/
theorem align_eq (h : a.WellFormed) (h' : b.WellFormed) (kinds : Kind × Kind)
    (depth otherDepth : Nat) :
    let frames := Shape.matched (a.shape.take depth) (b.shape.take otherDepth)
    let first := a.withShape (frames.1 ++ a.shape.drop depth)
    let second := b.withShape (frames.2 ++ b.shape.drop otherDepth)
    a.align kinds (Int.ofNat depth) b (Int.ofNat otherDepth) =
      if Shape.Compatible frames.1 frames.2 then
        .ok (along a.shape (Shape.longer frames.1 frames.2) frames.1.length frames.2.length
          first second)
      else .error ⟨.shape (.frames first.shape second.shape frames.1 frames.2), first⟩ := by
  have least (n : Nat) (s : Shape) : min (Int.ofNat n) (Int.ofNat s.length) =
      min (Int.ofNat (min n s.length)) (Int.ofNat s.length) := by
    simp only [Int.ofNat_eq_natCast]
    omega
  have same : a.align kinds (Int.ofNat depth) b (Int.ofNat otherDepth) =
      a.align kinds (Int.ofNat (min depth a.rank)) b (Int.ofNat (min otherDepth b.rank)) := by
    rw [align, align, Grid.rank, Grid.rank, least depth, least otherDepth]
  rw [same, align_of_le h h' kinds (Nat.min_le_right ..) (Nat.min_le_right ..), Grid.rank,
    Grid.rank]
  simp only [← List.take_eq_take_min, ← List.drop_eq_drop_min]

end

end Grid

end RowMajor
