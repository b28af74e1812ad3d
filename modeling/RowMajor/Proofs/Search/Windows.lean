import RowMajor.Proofs.Grid.Tables
import RowMajor.Proofs.Operations.Search
import RowMajor.Proofs.Value.Cells

/-!
# Windows equal to a needle

The places of all windows are tabulated one after the other, and cutting the table into
pieces as long as the needle gives one piece for every corner. So each mark compares the
elements from a corner on with those of the needle, place by place. Neither a needle
without elements nor a haystack without corners is an exception.
-/

namespace RowMajor

namespace Shape

variable {s window : Shape}

/-- Where the window at a corner has its places. -/
def windowAt (s window : Shape) (corner : List Nat) : List Nat :=
  window.coordinates.map fun place => s.offset (corner.zipWith (· + ·) place)

/-- The places of the windows stand in the order of the corners. -/
theorem windowOffsets_eq (length : window.length = s.length) :
    s.windowOffsets window = (s.corners window).coordinates.flatMap (s.windowAt window) := by
  cases s with
  | nil =>
      obtain rfl := List.length_eq_zero_iff.mp length
      rfl
  | cons d s =>
      rw [windowOffsets_cons length]
      split
      · rename_i nowhere
        symm
        rcases Bool.or_eq_true_iff.mp nowhere with noCorner | noPlace
        · have none := length_coordinates (corners (d :: s) window)
          rw [cellCount_eq_zero_of_any noCorner, List.length_eq_zero_iff] at none
          rw [none, List.flatMap_nil]
        · have none := length_coordinates window
          rw [cellCount_eq_zero_of_any noPlace, List.length_eq_zero_iff] at none
          refine List.flatMap_eq_nil_iff.mpr fun corner _ => ?_
          rw [windowAt, none, List.map_nil]
      · rfl

/-- Cut into pieces as long as the window, they are the windows at the corners. -/
theorem pieces_windowOffsets (length : window.length = s.length) :
    pieces window.cellCount (s.corners window).cellCount (s.windowOffsets window) =
      (s.corners window).coordinates.map (s.windowAt window) := by
  have sizes : ∀ places ∈ (s.corners window).coordinates.map (s.windowAt window),
      places.length = window.cellCount := by
    intro places mem
    obtain ⟨corner, -, rfl⟩ := List.mem_map.mp mem
    rw [windowAt, List.length_map, length_coordinates]
  have cut := pieces_flatten sizes
  rwa [List.length_map, length_coordinates, ← List.flatMap_def, ← windowOffsets_eq length] at cut

end Shape

/-- Elements that are all there agree one by one exactly if they do place by place. -/
theorem all_zip_filterMap_iff {ι κ : Type} [DecidableEq κ] {first second : ι → Option κ}
    {places : List ι} (there : ∀ i ∈ places, ∃ x y, first i = some x ∧ second i = some y) :
    ((places.filterMap first).zip (places.filterMap second)).all (fun (x, y) => decide (x = y)) ↔
      ∀ i ∈ places, first i = second i := by
  induction places with
  | nil => simp
  | cons i places ih =>
      obtain ⟨x, y, hx, hy⟩ := there i List.mem_cons_self
      have rest := ih fun j mem => there j (List.mem_cons_of_mem _ mem)
      rw [List.filterMap_cons_some hx, List.filterMap_cons_some hy, List.zip_cons_cons,
        List.all_cons, Bool.and_eq_true, rest, List.forall_mem_cons, hx, hy, Option.some.injEq,
        decide_eq_true_eq]

namespace Grid

variable {α : Type} {a : Grid α}

/-- The elements are those at the coordinate vectors, in order. -/
theorem WellFormed.filterMap_get? (h : a.WellFormed) :
    a.shape.coordinates.filterMap a.get? = a.items := by
  have each : a.shape.coordinates.map a.get? = a.items.map some := by
    refine List.ext_getElem? fun i => ?_
    rw [List.getElem?_map, List.getElem?_map]
    by_cases inside : i < a.shape.cellCount
    · obtain ⟨index, mem, rfl⟩ := Shape.exists_offset h.natural inside
      obtain ⟨x, here⟩ := h.exists_get? mem
      rw [Shape.getElem?_coordinates h.natural mem, ← get?_of_mem mem, Option.map_some, here,
        Option.map_some]
    · rw [List.getElem?_eq_none (by rw [Shape.length_coordinates]; omega),
        List.getElem?_eq_none (by rw [h.length_eq]; omega)]
      rfl
  have kept := congrArg (List.filterMap id) each
  rwa [List.filterMap_map, List.filterMap_map, Function.id_comp, Function.id_comp,
    List.filterMap_some] at kept

end Grid

namespace Search

variable {κ : Type} {needle haystack : Grid κ} {corner : List Nat}

/-- The needle begins at a corner of the haystack if its elements are found from there on, place
by place. Missing leading axes of the needle count as axes of length one. -/
def BeginsAt (needle haystack : Grid κ) (corner : List Nat) : Prop :=
  let window := padShape haystack.rank needle.shape
  ∀ place ∈ window.coordinates, ∃ x,
    haystack.get? (corner.zipWith (· + ·) place) = some x ∧
      (needle.withShape window).get? place = some x

/-- There is a mark for every corner at which the needle has room, a one where it begins and a
zero where it does not. -/
structure MarksWindows (needle haystack : Grid κ) (marks : Grid UInt8) : Prop where
  wellFormed : marks.WellFormed
  shape : marks.shape = haystack.shape.corners (padShape haystack.rank needle.shape)
  one : ∀ corner ∈ marks.shape.coordinates, BeginsAt needle haystack corner →
    marks.get? corner = some 1
  zero : ∀ corner ∈ marks.shape.coordinates, ¬ BeginsAt needle haystack corner →
    marks.get? corner = some 0

/-- A needle without elements begins everywhere. -/
theorem beginsAt_of_empty (hn : needle.WellFormed) (empty : needle.items = []) :
    BeginsAt needle haystack corner := by
  have none : (padShape haystack.rank needle.shape).coordinates = [] := by
    rw [← List.length_eq_zero_iff, Shape.length_coordinates, padShape,
      Shape.cellCount_ones_append, ← hn.length_eq, empty, List.length_nil]
  intro place mem
  rw [none] at mem
  cases mem

section

variable [DecidableEq κ] (hn : needle.WellFormed)
  (room : List.Forall₂ (fun w d => w ≤ d + 1) (padShape haystack.rank needle.shape) haystack.shape)
include hn room

theorem matchWindows_eq_tabulate :
    matchWindows needle haystack =
      .tabulate (haystack.shape.corners (padShape haystack.rank needle.shape)) fun corner =>
        (((haystack.gather (haystack.shape.windowAt (padShape haystack.rank needle.shape)
          corner)).zip needle.items).all fun (x, y) => decide (x = y)).toNat := by
  have length : needle.items.length = (padShape haystack.rank needle.shape).cellCount := by
    rw [padShape, Shape.cellCount_ones_append, hn.length_eq]
  have pieces := Shape.pieces_windowOffsets room.length_eq
  simp only [matchWindows, markWindows, length, ← Shape.cellCount_eq_volume (natural_corners room),
    pieces, List.map_map]
  rfl

/-- The elements of the window at a corner are those of the needle exactly if it begins there. -/
theorem window_eq_iff (hh : haystack.WellFormed)
    (mem : corner ∈ (haystack.shape.corners (padShape haystack.rank needle.shape)).coordinates) :
    (((haystack.gather (haystack.shape.windowAt (padShape haystack.rank needle.shape)
      corner)).zip needle.items).all fun (x, y) => decide (x = y)) = true ↔
        BeginsAt needle haystack corner := by
  have length := room.length_eq
  have stretched : (needle.withShape (padShape haystack.rank needle.shape)).WellFormed :=
    (hn.holds_trivial.withShape ((Shape.natural_replicate_one _).append hn.natural)
      (Shape.cellCount_ones_append ..)).wellFormed
  rw [BeginsAt]
  generalize padShape haystack.rank needle.shape = window at *
  have inside (place : List Nat) (within : place ∈ window.coordinates) :
      corner.zipWith (· + ·) place ∈ haystack.shape.coordinates :=
    Shape.mem_coordinates_iff.mpr (Shape.contains_corner_add_place length mem within)
  have gathered : haystack.gather (haystack.shape.windowAt window corner) =
      window.coordinates.filterMap fun place => haystack.get? (corner.zipWith (· + ·) place) := by
    rw [Grid.gather, Shape.windowAt, List.filterMap_map]
    refine List.filterMap_congr fun place within => ?_
    rw [Grid.get?_of_mem (inside place within)]
    rfl
  have elements : needle.items = window.coordinates.filterMap (needle.withShape window).get? :=
    stretched.filterMap_get?.symm
  have there (place : List Nat) (within : place ∈ window.coordinates) :
      ∃ x y, haystack.get? (corner.zipWith (· + ·) place) = some x ∧
        (needle.withShape window).get? place = some y := by
    obtain ⟨x, hx⟩ := hh.exists_get? (inside place within)
    obtain ⟨y, hy⟩ := stretched.exists_get? within
    exact ⟨x, y, hx, hy⟩
  rw [gathered, elements, all_zip_filterMap_iff there]
  refine forall₂_congr fun place within => ?_
  obtain ⟨x, y, hx, hy⟩ := there place within
  rw [hx, hy]
  simp [eq_comm]

theorem marksWindows_matchWindows (hh : haystack.WellFormed) :
    MarksWindows needle haystack ((matchWindows needle haystack).map UInt8.ofNat) := by
  have natural := natural_corners room
  rw [matchWindows_eq_tabulate hn room, Grid.map_tabulate]
  refine ⟨Grid.wellFormed_tabulate natural _, rfl, fun corner mem begins => ?_,
    fun corner mem absent => ?_⟩
  · rw [Grid.get?_tabulate natural mem, (window_eq_iff hn room hh mem).mpr begins]
    rfl
  · rw [Grid.get?_tabulate natural mem,
      Bool.eq_false_iff.mpr (mt (window_eq_iff hn room hh mem).mp absent)]
    rfl

end

section

variable {f : Form} {fill : Option f.Element} {needle haystack : Grid f.Element}

theorem marksWindows_keys (hn : needle.WellFormed) (hh : haystack.WellFormed)
    (room : List.Forall₂ (fun w d => w ≤ d + 1) (padShape haystack.rank needle.shape)
      haystack.shape) :
    MarksWindows (needle.map f.key) (haystack.map f.key)
      ((matchWindows (needle.map f.key) (haystack.map f.key)).map UInt8.ofNat) :=
  marksWindows_matchWindows (hn.map f.key) room (hh.map f.key)

theorem find_of_fitsIn (hh : haystack.WellFormed)
    (fits : FitsIn needle.shape haystack.shape) :
    find .keysOnly f fill needle haystack =
      .ok (matchWindows (needle.map f.key) (haystack.map f.key)) := by
  have within := exceeds_eq_false_iff.mpr fits
  have marks : (matchWindows (needle.map f.key) (haystack.map f.key)).Holds (· ≤ 1) :=
    matchWindows_holds (room_of_fitsIn hh.natural fits)
  unfold find
  rw [within, if_neg Bool.false_ne_true, findIn_keysOnly hh (room_of_fitsIn hh.natural fits)]
  exact Grid.fit_eq_ok marks.wellFormed.fits

theorem find_without_fill (apart : ¬ FitsIn needle.shape haystack.shape) :
    find .keysOnly f none needle haystack =
      .ok ⟨haystack.shape, List.replicate haystack.items.length 0⟩ := by
  have beyond : exceeds needle.shape haystack.shape = true :=
    Bool.of_not_eq_false (mt exceeds_eq_false_iff.mp apart)
  unfold find
  rw [beyond, if_pos rfl]

/-- The needle has room in the resized haystack. -/
theorem room_in_padTo {κ : Type} (needle haystack : Grid κ) (x : κ) :
    let padded := haystack.padTo (commonShape haystack.shape needle.shape) x
    List.Forall₂ (fun w d => w ≤ d + 1) (padShape padded.rank needle.shape) padded.shape :=
  room_in_commonShape needle.shape haystack.shape

/-- A haystack that is too small is searched after it has been resized. -/
theorem find_with_fill {x : f.Element} (hh : haystack.WellFormed)
    (apart : ¬ FitsIn needle.shape haystack.shape) :
    find .keysOnly f (some x) needle haystack = .ok (matchWindows (needle.map f.key)
      ((haystack.padTo (commonShape haystack.shape needle.shape) x).map f.key)) := by
  have beyond : exceeds needle.shape haystack.shape = true :=
    Bool.of_not_eq_false (mt exceeds_eq_false_iff.mp apart)
  have resized := Grid.resize_eq_ok f.kind x hh
    (commonShape_natural hh.natural) (rank_le_commonShape haystack.shape needle.shape)
  have marks : (matchWindows (needle.map f.key)
      ((haystack.padTo (commonShape haystack.shape needle.shape) x).map f.key)).Holds (· ≤ 1) :=
    matchWindows_holds (room_in_padTo needle haystack x)
  unfold find
  rw [beyond, if_pos rfl]
  show (haystack.resize f.kind _ x >>= fun padded => _) = _
  rw [resized]
  show Grid.fit .byte (findIn .keysOnly f needle _) = _
  rw [findIn_keysOnly (Grid.wellFormed_padTo (commonShape_natural hh.natural) x haystack)
    (room_in_padTo needle haystack x)]
  exact Grid.fit_eq_ok marks.wellFormed.fits

/-- A search always has a result. -/
theorem exists_find (hh : haystack.WellFormed) :
    ∃ marks, find .keysOnly f fill needle haystack = .ok marks := by
  by_cases fits : FitsIn needle.shape haystack.shape
  · exact ⟨_, find_of_fitsIn hh fits⟩
  · cases fill with
    | none => exact ⟨_, find_without_fill fits⟩
    | some x => exact ⟨_, find_with_fill hh fits⟩

end

end Search

theorem find_ofGrid {f : Form} {fill : Fill} {needle haystack : Grid f.Element}
    (hn : (Value.ofGrid f needle).WellFormed) (hh : (Value.ofGrid f haystack).WellFormed)
    (hf : fill.WellFormed) (options : Search.Options) :
    find (.value (.ofGrid f needle)) (.value (.ofGrid f haystack)) fill options = (do
      let marks ← Search.find .keysOnly f (fill.element? f) needle haystack
      .ok (.byte (marks.map UInt8.ofNat))) := by
  show Value.find options fill _ _ = _
  obtain ⟨uniform, wfN⟩ := Value.wellFormed_ofGrid_iff.mp hn
  have met : Unified.WellFormed ⟨f, needle, haystack⟩ :=
    ⟨uniform, wfN, (Value.wellFormed_ofGrid_iff.mp hh).2⟩
  rw [Value.find_eq options hf hn hh, Value.find, Value.unify_ofGrid]
  show (fun both : Unified => do
    let marks ← Search.find .keysOnly both.form (fill.element? both.form) both.first both.second
    .ok (Value.byte (marks.map UInt8.ofNat))) (Unified.loosenFor fill ⟨f, needle, haystack⟩) = _
  rw [Unified.loosenFor_eq hf met]

/-- The windows of the haystack that are equal to the needle are marked. If the needle does not fit
into the haystack, nothing is marked without a fill element, and with one it is looked for in
the haystack resized to have room for it. -/
theorem find_marks_windows {needle haystack : Value} {fill : Fill} (hn : needle.WellFormed)
    (hh : haystack.WellFormed) (same : needle.kind = haystack.kind) (hf : fill.WellFormed)
    (options : Search.Options) :
    ∃ marks, find (.value needle) (.value haystack) fill options = .ok (.byte marks) ∧
      (Search.FitsIn needle.shape haystack.shape →
        Search.MarksWindows needle.keyGrid haystack.keyGrid marks ∧
          (needle.elementCount = 0 →
            ∀ corner ∈ marks.shape.coordinates, marks.get? corner = some 1)) ∧
      (¬ Search.FitsIn needle.shape haystack.shape → fill.element? haystack.form = none →
        marks = ⟨haystack.shape, List.replicate haystack.elementCount 0⟩) ∧
      (¬ Search.FitsIn needle.shape haystack.shape →
        ∀ x, fill.element? haystack.form = some x →
          ∃ padded, haystack.grid.resize haystack.kind
              (Search.commonShape haystack.shape needle.shape) x = .ok padded ∧
            padded.shape = Search.commonShape haystack.shape needle.shape ∧
            Search.MarksWindows needle.keyGrid (padded.map haystack.form.key) marks) := by
  obtain ⟨needle, rfl⟩ := needle.exists_grid (f := haystack.form) (by
    rw [hn.isUniform, hh.isUniform]
    exact congrArg Form.uniform same)
  have hh' : (Value.ofGrid haystack.form haystack.grid).WellFormed :=
    (Value.ofGrid_grid haystack).symm ▸ hh
  have found := find_ofGrid hn hh' hf options
  rw [Value.ofGrid_grid] at found
  have wfN := (Value.wellFormed_ofGrid_iff.mp hn).2.wellFormed
  have wfH := hh.holds.wellFormed
  rw [found, Value.shape_ofGrid, Value.keyGrid_ofGrid]
  by_cases fits : Search.FitsIn needle.shape haystack.shape
  · have room := Search.room_of_fitsIn wfH.natural fits
    have marked := Search.marksWindows_keys wfN wfH room
    rw [Search.find_of_fitsIn wfH fits]
    refine ⟨_, rfl, fun _ => ⟨marked, fun empty corner mem => ?_⟩, absurd fits, absurd fits⟩
    refine marked.one corner mem (Search.beginsAt_of_empty (wfN.map haystack.form.key) ?_)
    rw [Value.elementCount_ofGrid, List.length_eq_zero_iff] at empty
    rw [Grid.items_map, empty, List.map_nil]
  · cases supplied : fill.element? haystack.form with
    | none =>
        rw [Search.find_without_fill fits]
        refine ⟨_, rfl, fun within => absurd within fits, fun _ _ => ?_,
          fun _ x given => nomatch given⟩
        exact congrArg (Grid.mk haystack.shape) List.map_replicate
    | some x =>
        have natural : (Search.commonShape haystack.shape needle.shape).Natural :=
          Search.commonShape_natural wfH.natural
        have resized := Grid.resize_eq_ok haystack.kind x wfH natural
          (Search.rank_le_commonShape haystack.shape needle.shape)
        have wf := Grid.wellFormed_padTo natural x haystack.grid
        rw [Search.find_with_fill wfH fits]
        refine ⟨_, rfl, fun within => absurd within fits, fun _ given => (nomatch given), ?_⟩
        intro _ y given
        cases given
        exact ⟨_, resized, rfl, Search.marksWindows_keys wfN wf (Search.room_in_padTo ..)⟩

/-- A word is looked for in a table as it is, and the table in the word with blanks around it. -/
theorem letters_marked :
    let word : Value := .character ⟨[2], ['a', 'b']⟩
    let table : Value := .character ⟨[2, 2], ['a', 'b', 'b', 'a']⟩
    let fill : Fill := ⟨some (.character (.scalar ' '))⟩
    word.WellFormed ∧ table.WellFormed ∧ word.kind = table.kind ∧ fill.WellFormed ∧
      Search.FitsIn word.shape table.shape ∧ ¬ Search.FitsIn table.shape word.shape ∧
      (∃ marks, find (.value word) (.value table) fill .standard = .ok (.byte marks) ∧
        Search.MarksWindows word.keyGrid table.keyGrid marks) ∧
      ∃ marks padded, find (.value table) (.value word) fill .standard = .ok (.byte marks) ∧
        word.grid.resize .character [2, 2] ' ' = .ok padded ∧
        Search.MarksWindows table.keyGrid (padded.map word.form.key) marks := by
  intro word table fill
  have hw : word.WellFormed := .character (by decide)
  have ht : table.WellFormed := .character (by decide)
  have hf : fill.WellFormed := by
    rintro v ⟨⟩
    exact .character (Grid.wellFormed_scalar ' ')
  have fits : Search.FitsIn word.shape table.shape :=
    Search.exceeds_eq_false_iff.mp (by decide)
  have apart : ¬ Search.FitsIn table.shape word.shape := by
    rw [← Search.exceeds_eq_false_iff]
    decide
  obtain ⟨marks, found, marked, -⟩ := find_marks_windows hw ht rfl hf .standard
  obtain ⟨marks', found', -, -, extended⟩ := find_marks_windows ht hw rfl hf .standard
  obtain ⟨padded, resized, -, marked'⟩ := extended apart ' ' rfl
  exact ⟨hw, ht, rfl, hf, fits, apart, ⟨marks, found, (marked fits).1⟩,
    marks', padded, found', resized, marked'⟩

end RowMajor
