import RowMajor.Proofs.Grid.Assembly
import RowMajor.Proofs.Pick.Undo
import RowMajor.Proofs.Section.Dropping
import RowMajor.Proofs.Windows.Corners

/-!
# Windows as sections

If the rows before a corner are dropped and as many as a window has are taken from the front, the
elements that are left are those at the same distance from the corner: the window that begins
there. So the windows of an array are assembled from these sections, and a corner picks the
section that begins at it. The shape of the windows shows their sizes, so sizes that are rounded
give other windows.
-/

namespace RowMajor

variable {α : Type}

namespace Shape

variable {s window : Shape} {corner place : List Nat}

/-- A corner lies in the array. -/
theorem Frames.corner_liesIn (framed : Frames s window)
    (mem : corner ∈ coordinates (s.corners window)) : Grid.LiesIn s window.length corner := by
  induction window generalizing s corner with
  | nil =>
      obtain rfl := mem_corners_nil.mp mem
      exact ⟨rfl, Nat.zero_le _, contains_nil s⟩
  | cons w window ih =>
      cases s with
      | nil => cases framed
      | cons d s =>
          obtain ⟨positive, room, framed⟩ := framed
          obtain ⟨c, rest, rfl, before, below⟩ := mem_corners_cons.mp mem
          have lies := ih framed below
          have here : c < d.toNat := by omega
          exact ⟨congrArg Nat.succ lies.length, Nat.succ_le_succ lies.rank,
            contains_cons.mpr ⟨here, lies.within⟩⟩

/-- Where the rows before a corner are dropped, coordinates are counted from the corner. -/
theorem sectionSource_remaining (rank : corner.length ≤ s.length)
    (within : s.contains corner = true) :
    sectionSource (remainingCounts (corner.map Int.ofNat) s) s place =
      (moved corner place).map Int.ofNat := by
  induction corner generalizing s place with
  | nil =>
      rw [moved_nil]
      exact sectionSource_nil s place
  | cons c corner ih =>
      cases s with
      | nil => cases rank
      | cons d s =>
          obtain ⟨here, below⟩ := contains_cons.mp within
          rw [List.map_cons, remainingCounts_cons]
          cases place with
          | nil => rfl
          | cons i place =>
              have start : sectionStart (remainingCount (Int.ofNat c) d) d = Int.ofNat c := by
                simp only [remainingCount, sectionStart, Int.ofNat_eq_natCast]
                split <;> split <;> omega
              rw [sectionSource, start, ih (Nat.le_of_succ_le_succ rank) below]
              rfl

/-- From a corner on there is enough of the array for a window. -/
theorem Frames.taken_dropped (framed : Frames s window)
    (mem : corner ∈ coordinates (s.corners window)) :
    HasSection window (dropped (corner.map Int.ofNat) s) ∧
      taken window (dropped (corner.map Int.ofNat) s) = window ++ s.drop window.length := by
  induction window generalizing s corner with
  | nil =>
      obtain rfl := mem_corners_nil.mp mem
      rw [List.map_nil, dropped_nil]
      exact ⟨hasSection_nil s, taken_nil s⟩
  | cons w window ih =>
      cases s with
      | nil => cases framed
      | cons d s =>
          obtain ⟨positive, room, framed⟩ := framed
          obtain ⟨c, corner, rfl, before, below⟩ := mem_corners_cons.mp mem
          obtain ⟨fits, shape⟩ := ih framed below
          have count : Int.ofNat w.natAbs = w := Int.natAbs_of_nonneg (Int.le_of_lt positive)
          have left : w ≤ max (d - Int.ofNat (Int.ofNat c).natAbs) 0 := by
            simp only [Int.ofNat_eq_natCast]
            omega
          rw [List.map_cons, dropped, HasSection, taken, count, shape]
          exact ⟨⟨left, .inr fits⟩, rfl⟩

end Shape

namespace Grid

variable {a : Grid α} {window : Shape} {sizes : List Int} {corner place : List Nat} {kind : Kind}
  {why : MissingFill}

/-- Without a fill element everything in a section comes from the array. -/
theorem IsSection.get?_unfilled {t : Grid α} {counts : List Int}
    (cut : IsSection (.error why) counts a t) (mem : place ∈ t.shape.coordinates) :
    t.get? place = a.at? (Shape.sectionSource counts a.shape place) :=
  (cut.get? place mem).trans Option.or_none

/-- A section from the front has the elements of the array at the same coordinates. -/
theorem IsSection.get?_front {t : Grid α} (cut : IsSection (.error why) window a t)
    (natural : window.Natural) (mem : place ∈ t.shape.coordinates) :
    place ∈ a.shape.coordinates ∧ t.get? place = a.get? place := by
  have source : t.get? place = a.get? place := by
    rw [cut.get?_unfilled mem, Shape.sectionSource_natural natural, at?_ofNat]
  obtain ⟨x, found⟩ := cut.wellFormed.exists_get? mem
  exact ⟨mem_coordinates_of_get? (source.symm.trans found), source⟩

/-- What is left behind a corner is counted from the corner. -/
theorem get?_drop_corner (h : a.WellFormed) (rank : corner.length ≤ a.rank)
    (within : a.shape.contains corner = true)
    (mem : place ∈ (a.drop (corner.map Int.ofNat)).shape.coordinates) :
    (a.drop (corner.map Int.ofNat)).get? place = a.get? (Shape.moved corner place) := by
  have cut : IsSection (.error .absent) (remainingCounts (corner.map Int.ofNat) a.shape) a
      (a.drop (corner.map Int.ofNat)) := drop_isSection h (by rwa [List.length_map])
  rw [cut.get?_unfilled mem, Shape.sectionSource_remaining rank within, at?_ofNat]

/-- The part of a grid inside a box that begins at a corner. -/
def boxAt (box : Shape) (corner : List Nat) (a : Grid α) : Grid α :=
  ⟨box, box.coordinates.filterMap fun place => a.get? (Shape.moved corner place)⟩

/-- All windows of a grid, in the order of their corners. -/
def windowsOf (window : Shape) (a : Grid α) : Grid α :=
  assemble (a.shape.corners window) (window ++ a.shape.drop window.length)
    (a.boxAt (window ++ a.shape.drop window.length))

section

variable (h : a.WellFormed) (framed : Shape.Frames a.shape window)
include h framed

theorem wellFormed_boxAt (mem : corner ∈ (a.shape.corners window).coordinates) :
    (a.boxAt (window ++ a.shape.drop window.length) corner).WellFormed := by
  obtain ⟨natural, -, -⟩ := framed.natural h.natural
  have there : ∀ place ∈ Shape.coordinates (window ++ a.shape.drop window.length),
      (a.get? (Shape.moved corner place)).isSome := by
    intro place inside
    obtain ⟨x, found⟩ := h.exists_get? (framed.moved_mem mem inside)
    rw [found]
    rfl
  refine wellFormed_iff.mpr ⟨natural.append (h.natural.drop _), ?_⟩
  exact (List.filterMap_length_eq_length.mpr there).trans (Shape.length_coordinates _)

/-- Dropping the rows before a corner and taking those of a window gives the window. -/
theorem take_drop_eq_boxAt (mem : corner ∈ (a.shape.corners window).coordinates) :
    take kind (.error why) window (a.drop (corner.map Int.ofNat)) =
      .ok (a.boxAt (window ++ a.shape.drop window.length) corner) := by
  have lies := framed.corner_liesIn mem
  obtain ⟨natural, -, few⟩ := framed.natural h.natural
  obtain ⟨fits, shape⟩ := framed.taken_dropped mem
  have before : corner.length ≤ a.rank := lies.length ▸ lies.rank
  have rank : (corner.map Int.ofNat).length ≤ a.rank := by
    rwa [List.length_map]
  obtain ⟨left, leftShape⟩ := drop_holds h.holds_trivial rank
  rw [← leftShape] at fits shape
  have fewer : window.length ≤ (a.drop (corner.map Int.ofNat)).rank := by
    rwa [rank_drop h rank]
  have outcome : Outcome _ _ (take kind (.error why) window (a.drop (corner.map Int.ofNat))) :=
    take_isSection left.wellFormed fewer
  obtain ⟨cell, taken, cut, -⟩ | ⟨e, -, without, -⟩ := outcome.ok_or_error
  · have box := cut.shape.trans shape
    have cells : ∀ place ∈ cell.shape.coordinates,
        a.get? (Shape.moved corner place) = cell.get? place := by
      intro place inside
      obtain ⟨there, source⟩ := cut.get?_front natural inside
      rw [source, get?_drop_corner h before lies.within there]
    have same : cell = a.boxAt (window ++ a.shape.drop window.length) corner := by
      rw [boxAt, ← box, List.filterMap_congr cells, cut.wellFormed.filterMap_get?]
    exact taken.trans (congrArg _ same)
  · exact absurd fits without

theorem wellFormed_windowsOf : (a.windowsOf window).WellFormed := by
  obtain ⟨inside, corners, -⟩ := framed.natural h.natural
  exact wellFormed_assemble corners (inside.append (h.natural.drop _)) fun corner mem =>
    ⟨wellFormed_boxAt h framed mem, rfl⟩

/-- The window at a corner is what is taken after the rows before the corner have been dropped. -/
theorem take_drop_eq_cellAt (mem : corner ∈ (a.shape.corners window).coordinates) :
    take kind (.error why) window (a.drop (corner.map Int.ofNat)) =
      .ok ((a.windowsOf window).cellAt corner) := by
  obtain ⟨inside, corners, -⟩ := framed.natural h.natural
  have boxes : ∀ corner ∈ (a.shape.corners window).coordinates,
      (a.boxAt (window ++ a.shape.drop window.length) corner).WellFormed ∧
        (a.boxAt (window ++ a.shape.drop window.length) corner).shape =
          window ++ a.shape.drop window.length :=
    fun corner mem => ⟨wellFormed_boxAt h framed mem, rfl⟩
  rw [windowsOf, cellAt_assemble corners (inside.append (h.natural.drop _)) boxes mem]
  exact take_drop_eq_boxAt h framed mem

/-- The elements that the table of all windows names are those of the windows at the corners. -/
theorem gather_windowOffsets :
    (⟨a.shape.corners window ++ window ++ a.shape.drop window.length,
      a.gather (a.shape.windowOffsets (window ++ a.shape.drop window.length))⟩ : Grid α) =
      a.windowsOf window := by
  have items : a.gather (a.shape.windowOffsets (window ++ a.shape.drop window.length)) =
      (a.shape.corners window).coordinates.flatMap fun corner =>
        (a.boxAt (window ++ a.shape.drop window.length) corner).items := by
    rw [Shape.windowOffsets_append_drop (framed.natural h.natural).2.2, gather,
      List.filterMap_flatMap]
    refine List.flatMap_congr fun corner mem => ?_
    rw [List.filterMap_map]
    exact List.filterMap_congr fun place inside =>
      (get?_of_mem (framed.moved_mem mem inside)).symm
  rw [items, List.append_assoc]
  rfl

end

theorem windows_spec (h : a.WellFormed) (sized : sizes ≠ []) :
    Outcome
      (fun w => Shape.HasWindows sizes a.shape ∧
        w = a.windowsOf (Shape.windowLengths sizes a.shape))
      (fun e => ¬ Shape.HasWindows sizes a.shape ∧ ∃ cause, e = .shape cause)
      (a.windows kind sizes) := by
  apply (Shape.window_spec sizes a.shape).bind
  rintro _ ⟨has, rfl⟩
  have framed := has.frames
  have nonempty : (Shape.windowLengths sizes a.shape).isEmpty = false := by
    rw [List.isEmpty_eq_false_iff, ← List.length_pos_iff, has.length_windowLengths]
    exact List.length_pos_iff.mpr sized
  rw [nonempty, if_neg Bool.false_ne_true]
  show Outcome _ _ (fit kind _)
  rw [gather_windowOffsets h framed, fit_eq_ok (wellFormed_windowsOf h framed).fits]
  exact ⟨has, rfl⟩

end Grid

section Operations

variable {f : Form}

theorem windows_ofGrid {sizes : Operand} {ns : List Int}
    (read : sizes.asIntegers .windowSizes = .ok ns) (a : Grid f.Element) :
    windows sizes (.value (.ofGrid f a)) = (do
      .ok (.ofGrid f (← a.windows f.kind ns))) := by
  have onGrid : (Value.ofGrid f a).windows ns = (do
      .ok (.ofGrid f (← a.windows f.kind ns))) :=
    Value.form_grid_ofGrid (γ := Except Error Value) (fun g b => do
      .ok (.ofGrid g (← b.windows g.kind ns))) a
  have whole : windows sizes (.value (.ofGrid f a)) =
      sizes.asIntegers .windowSizes >>= fun ns => (Value.ofGrid f a).windows ns := rfl
  rw [whole, read]
  exact onGrid

/-- What a corner picks from all windows is what is taken after a drop. -/
theorem pick_windowsOf {a : Grid f.Element} {window : Shape} {corner : List Nat}
    {index counts size : Operand} (h : a.WellFormed) (framed : Shape.Frames a.shape window)
    (sized : window ≠ []) (mem : corner ∈ (a.shape.corners window).coordinates)
    (readIndex : index.asIntegerGrid .indexTable = .ok (.vector (corner.map Int.ofNat)))
    (readCounts : counts.asIntegers .indexList = .ok (corner.map Int.ofNat))
    (readSize : size.asIntegers .indexList = .ok window) :
    ∃ rest cell, drop counts (.value (.ofGrid f a)) = .ok rest ∧
      take size (.value rest) .none = .ok cell ∧
      pick index (.value (.ofGrid f (a.windowsOf window))) .none = .ok cell := by
  have lies := framed.corner_liesIn mem
  have positive : 0 < window.length := List.length_pos_iff.mpr sized
  have rank : (corner.map Int.ofNat).length ≤ a.rank := by
    rw [List.length_map, lies.length]
    exact lies.rank
  have axes : a.rank ≠ 0 := Nat.ne_of_gt (Nat.lt_of_lt_of_le positive lies.rank)
  have same := Grid.rank_drop h rank
  have through := Shape.mem_take_append (window ++ a.shape.drop window.length) mem
  have picked := pick_ofGrid_place readIndex (Grid.wellFormed_windowsOf h framed)
    (Shape.length_le_of_mem_take through) (Shape.contains_of_mem_take through)
  refine ⟨_, _, drop_ofGrid readCounts axes rank, ?_, picked⟩
  have left : (Value.ofGrid f (a.drop (corner.map Int.ofNat))).rank ≠ 0 := by
    rwa [Value.rank_ofGrid, same]
  have absent : Fill.none.filler f = .error .absent := rfl
  rw [take_promoted readSize (Value.promoteFor_none _) left (same.symm ▸ lies.rank), absent,
    Grid.take_drop_eq_cellAt h framed mem]
  rfl

theorem windows_of_unread {sizes : Operand} {v : Value} {e : Error}
    (unread : sizes.asIntegers .windowSizes = .error e) :
    windows sizes (.value v) = .error e := by
  have whole : windows sizes (.value v) =
      sizes.asIntegers .windowSizes >>= fun ns => v.windows ns := rfl
  rw [whole, unread]
  rfl

end Operations

/-- A value has windows of the given sizes exactly if none of the sizes is zero or longer than its
axis, and there are no more of them than axes. The window at a corner, which the corner picks, is
then the section that is taken after the rows before the corner have been dropped. -/
def Value.WindowsAreSections (v : Value) (sizes : Operand) (ns : List Int) : Prop :=
  (Shape.HasWindows ns v.shape →
    let window := Shape.windowLengths ns v.shape
    let inside := window ++ v.shape.drop ns.length
    ∃ w, RowMajor.windows sizes (.value v) = .ok w ∧ w.grid.WellFormed ∧ w.form = v.form ∧
      w.shape = v.shape.corners window ++ inside ∧
      (∀ i ∈ v.shape.windowOffsets inside, i < v.elementCount) ∧
      ∀ corner ∈ (v.shape.corners window).coordinates, ∀ index counts size : Operand,
        index.asIntegerGrid .indexTable = .ok (.vector (corner.map Int.ofNat)) →
        counts.asIntegers .indexList = .ok (corner.map Int.ofNat) →
        size.asIntegers .indexList = .ok window →
        ∃ rest cell, RowMajor.drop counts (.value v) = .ok rest ∧
          RowMajor.take size (.value rest) .none = .ok cell ∧
          RowMajor.pick index (.value w) .none = .ok cell) ∧
  (¬ Shape.HasWindows ns v.shape →
    ∃ cause, RowMajor.windows sizes (.value v) = .error (.shape cause))

section Operations

variable {sizes : Operand} {ns : List Int} {v : Value}

theorem windowsAreSections_of_read (read : sizes.asIntegers .windowSizes = .ok ns)
    (wf : v.grid.WellFormed) (sized : ns ≠ []) : v.WindowsAreSections sizes ns := by
  obtain ⟨f, a, rfl⟩ := v.exists_form
  rw [Value.grid_ofGrid_wellFormed] at wf
  rw [Value.WindowsAreSections, Value.shape_ofGrid, windows_ofGrid read]
  have outcome : Outcome _ _ (a.windows f.kind ns) := Grid.windows_spec wf sized
  constructor
  · intro has window inside
    obtain ⟨w, found, -, rfl⟩ | ⟨e, -, without, -⟩ := outcome.ok_or_error
    · have framed := has.frames
      have rank := (framed.natural wf.natural).2.2
      have length : window.length = ns.length := has.length_windowLengths
      have full : inside.length = a.shape.length := by
        rw [← Shape.length_append_drop rank, length]
      refine ⟨.ofGrid f (a.windowsOf window), ?_, ?_, ?_, ?_, ?_, ?_⟩
      · rw [found]
        rfl
      · exact (Value.grid_ofGrid_wellFormed _).mpr (Grid.wellFormed_windowsOf wf framed)
      · rw [Value.form_ofGrid, Value.form_ofGrid]
      · rw [Value.shape_ofGrid, Grid.windowsOf, Grid.shape_assemble, length]
      · intro i mem
        rw [Value.elementCount_ofGrid, wf.length_eq]
        exact Shape.lt_of_mem_windowOffsets wf.natural full mem
      · intro corner mem index counts size readIndex readCounts readSize
        have nonempty : window ≠ [] := by
          rw [← List.length_pos_iff, length]
          exact List.length_pos_iff.mpr sized
        exact pick_windowsOf wf framed nonempty mem readIndex readCounts readSize
    · exact absurd has without
  · intro without
    obtain ⟨w, -, has, -⟩ | ⟨e, refused, -, cause, rfl⟩ := outcome.ok_or_error
    · exact absurd has without
    · rw [refused]
      exact ⟨cause, rfl⟩

/-- From the shape of the windows one tells the sizes, except that sizes of different signs may
mean the same. -/
theorem Rounds.eq_of_windows {ms : List Int} {s : Shape} (rounds : Rounds ns ms)
    (has : Shape.HasWindows ns s) (stored : Shape.HasWindows ms s)
    (same : s.corners (Shape.windowLengths ms s) ++ (Shape.windowLengths ms s ++ s.drop ms.length) =
      s.corners (Shape.windowLengths ns s) ++ (Shape.windowLengths ns s ++ s.drop ns.length)) :
    ms = ns := by
  have long : (Shape.windowLengths ms s).length = (Shape.windowLengths ns s).length := by
    rw [has.length_windowLengths, stored.length_windowLengths, rounds.length_eq]
  have corners : (s.corners (Shape.windowLengths ms s)).length =
      (s.corners (Shape.windowLengths ns s)).length := by
    rw [Shape.corners, Shape.corners, List.length_zipWith, List.length_zipWith, long]
  obtain ⟨-, inside⟩ := List.append_inj same corners
  have signs : List.Forall₂ (fun n m : Int => 0 ≤ n ↔ 0 ≤ m) ns ms :=
    rounds.imp fun n m found => by
      have sign := (Binary64.sign_rounded? found).1
      omega
  exact Shape.eq_of_windowLengths signs has (List.append_inj inside long).1

/-- A list gives the windows that its integers ask for if they are not rounded, or if there are no
such windows and none for the rounded sizes either. -/
theorem windowsAreSections_listed_iff (wf : v.grid.WellFormed) (sized : ns ≠ []) :
    v.WindowsAreSections (.listed ns) ns ↔
      ∃ ms, Rounds ns ms ∧
        (ms = ns ∨ ¬ Shape.HasWindows ns v.shape ∧ ¬ Shape.HasWindows ms v.shape) := by
  constructor
  · rintro ⟨sections, refused⟩
    obtain ⟨ms, rounds⟩ | ⟨n, mem, large⟩ := exists_rounds_or_large ns
    · refine ⟨ms, rounds, ?_⟩
      obtain ⟨others, missing⟩ :=
        windowsAreSections_of_read (Operand.asIntegers_listed rounds) wf (rounds.ne_nil sized)
      by_cases has : Shape.HasWindows ns v.shape
      · obtain ⟨w, found, -, -, shape, -⟩ := sections has
        by_cases stored : Shape.HasWindows ms v.shape
        · obtain ⟨_, same, -, -, other, -⟩ := others stored
          obtain rfl := Except.ok.inj (found.symm.trans same)
          exact .inl (rounds.eq_of_windows has stored (other.symm.trans shape))
        · obtain ⟨cause, failed⟩ := missing stored
          cases failed.symm.trans found
      · obtain ⟨cause, failed⟩ := refused has
        refine .inr ⟨has, fun stored => ?_⟩
        obtain ⟨w, found, -⟩ := others stored
        cases failed.symm.trans found
    · have failed : windows (.listed ns) (.value v) = .error .tooLarge :=
        windows_of_unread (Operand.asIntegers_listed_of_large mem large)
      by_cases has : Shape.HasWindows ns v.shape
      · obtain ⟨w, found, -⟩ := sections has
        cases failed.symm.trans found
      · obtain ⟨cause, other⟩ := refused has
        cases failed.symm.trans other
  · rintro ⟨ms, rounds, rfl | ⟨has, stored⟩⟩
    · exact windowsAreSections_of_read (Operand.asIntegers_listed rounds) wf sized
    · have refused := (windowsAreSections_of_read (Operand.asIntegers_listed rounds) wf
        (rounds.ne_nil sized)).2 stored
      exact ⟨fun there => absurd there has, fun _ => refused⟩

/-- Whatever sizes are asked for, windows are sections. The sizes may be given as a list if they are
not rounded, or if there are neither windows of these sizes nor of the rounded ones. -/
theorem windows_are_sections (wf : v.grid.WellFormed) (sized : ns ≠ []) :
    (∀ sizes : Operand, sizes.asIntegers .windowSizes = .ok ns → v.WindowsAreSections sizes ns) ∧
    (v.WindowsAreSections (.listed ns) ns ↔
      ∃ ms, Rounds ns ms ∧
        (ms = ns ∨ ¬ Shape.HasWindows ns v.shape ∧ ¬ Shape.HasWindows ms v.shape)) :=
  ⟨fun _ read => windowsAreSections_of_read read wf sized, windowsAreSections_listed_iff wf sized⟩

/-- The second of the two squares in a table with two lines, asked for by a height counted back from
the longest. -/
theorem squares_are_sections :
    let sizes : Operand := .value (.number (.vector [.ofBits 0xbff0000000000000,
      .ofBits 0x4000000000000000]))
    let corner : Operand := .value (.byte ⟨[2], [0, 1]⟩)
    let size : Operand := .value (.byte ⟨[2], [2, 2]⟩)
    let table : Value := .character ⟨[2, 3], ['a', 'b', 'c', 'd', 'e', 'f']⟩
    let square : Value := .character ⟨[2, 2], ['b', 'c', 'e', 'f']⟩
    sizes.asIntegers .windowSizes = .ok [-1, 2] ∧ table.grid.WellFormed ∧
      [(-1 : Int), 2] ≠ [] ∧ Shape.HasWindows [-1, 2] table.shape ∧
      (∃ w, windows sizes (.value table) = .ok w ∧ w.shape = [1, 2, 2, 2] ∧
        drop corner (.value table) = .ok square ∧ take size (.value square) .none = .ok square ∧
        pick corner (.value w) .none = .ok square) ∧
      table.WindowsAreSections (.listed [-1, 2]) [-1, 2] := by
  intro sizes corner size table square
  have read : sizes.asIntegers .windowSizes = .ok [-1, 2] := rfl
  have wf : table.grid.WellFormed := by decide
  have sized : [(-1 : Int), 2] ≠ [] := List.cons_ne_nil _ _
  have has : Shape.HasWindows [-1, 2] table.shape :=
    ⟨⟨by decide, by decide⟩, ⟨by decide, by decide⟩, trivial⟩
  have kept : Rounds [-1, 2] [-1, 2] := .cons (by decide +kernel) (.cons (by decide +kernel) .nil)
  obtain ⟨reads, listed⟩ := windows_are_sections wf sized
  obtain ⟨w, found, -, -, shape, -, sections⟩ := (reads sizes read).1 has
  obtain ⟨rest, cell, dropped, taken, picked⟩ :=
    sections [0, 1] (by decide) corner corner size rfl rfl rfl
  have left : drop corner (.value table) = .ok square := rfl
  obtain rfl := Except.ok.inj (left.symm.trans dropped)
  have whole : take size (.value square) .none = .ok square := rfl
  obtain rfl := Except.ok.inj (whole.symm.trans taken)
  exact ⟨read, wf, sized, has, ⟨w, found, shape, left, whole, picked⟩,
    listed.mpr ⟨_, kept, .inl rfl⟩⟩

/-- There is one window with all the lines, but where their number is odd and there are more of them
than `2 ^ 53`, it has a line less, and there is another such window. -/
theorem odd_size_gives_two_windows :
    let lines : Value := .byte ⟨[2 ^ 53 + 1, 0], []⟩
    let window := Shape.windowLengths [2 ^ 53 + 1] lines.shape
    lines.grid.WellFormed ∧ [(2 : Int) ^ 53 + 1] ≠ [] ∧
      Shape.HasWindows [2 ^ 53 + 1] lines.shape ∧
      lines.shape.corners window ++ (window ++ [0]) = [1, 2 ^ 53 + 1, 0] ∧
      (∃ w, windows (.listed [2 ^ 53 + 1]) (.value lines) = .ok w ∧ w.shape = [2, 2 ^ 53, 0]) ∧
      ¬ lines.WindowsAreSections (.listed [2 ^ 53 + 1]) [2 ^ 53 + 1] := by
  intro lines window
  have rounds : Rounds [2 ^ 53 + 1] [2 ^ 53] := .cons (by decide +kernel) .nil
  have wf : lines.grid.WellFormed := ⟨by decide, by decide⟩
  have has : Shape.HasWindows [2 ^ 53 + 1] lines.shape := ⟨⟨by decide, by decide⟩, trivial⟩
  have fewer : Shape.HasWindows [2 ^ 53] lines.shape := ⟨⟨by decide, by decide⟩, trivial⟩
  have sized : [(2 : Int) ^ 53 + 1] ≠ [] := List.cons_ne_nil _ _
  refine ⟨wf, sized, has, by decide +kernel, ?_, ?_⟩
  · obtain ⟨w, found, -, -, shape, -⟩ := (windowsAreSections_of_read
      (Operand.asIntegers_listed rounds) wf (List.cons_ne_nil _ _)).1 fewer
    refine ⟨w, found, shape.trans ?_⟩
    decide +kernel
  · rw [windowsAreSections_listed_iff wf sized]
    rintro ⟨ms, others, same | ⟨without, -⟩⟩
    · obtain rfl := rounds.unique others
      exact absurd same (by decide)
    · exact without has

end Operations

end RowMajor
