import RowMajor.Proofs.Grid.Building
import RowMajor.Proofs.Value.Reading
import RowMajor.Windows

/-!
# Windows yield well-formed values

There is one place for every corner and every coordinate inside the window, and all of
them lie in the array. Where an axis has no corner, or the window no inside, both sides of
the count are zero, so only the lengths of the axes that were asked for are ever checked.
-/

namespace RowMajor

variable {α : Type} {valid : α → Prop}

namespace Shape

variable {s window : Shape}

theorem cellCount_eq_zero_of_any (h : s.any (· ≤ 0) = true) : cellCount s = 0 := by
  induction s with
  | nil => cases h
  | cons d s ih =>
      rw [List.any_cons, Bool.or_eq_true, decide_eq_true_eq] at h
      rw [cellCount]
      rcases h with here | below
      · rw [Int.toNat_of_nonpos here, Nat.zero_mul]
      · rw [ih below, Nat.mul_zero]

theorem length_corners (length : window.length = s.length) :
    (s.corners window).length = s.length := by
  rw [corners, List.length_zipWith, length, Nat.min_self]

/-- A place inside the window, seen from a corner, lies in the array. -/
theorem contains_corner_add_place {corner place : List Nat} (length : window.length = s.length)
    (hc : corner ∈ coordinates (s.corners window)) (hp : place ∈ coordinates window) :
    (corner.zipWith (· + ·) place).length = s.length ∧
      s.contains (corner.zipWith (· + ·) place) = true := by
  induction s generalizing window corner place with
  | nil =>
      obtain rfl := List.length_eq_zero_iff.mp length
      obtain rfl := List.mem_singleton.mp hp
      rw [List.zipWith_nil_right]
      exact ⟨rfl, rfl⟩
  | cons d s ih =>
      cases window with
      | nil => cases length
      | cons w window =>
          obtain ⟨i, hi, prefixed⟩ := List.mem_flatMap.mp hc
          obtain ⟨corners, below, rfl⟩ := List.mem_map.mp prefixed
          obtain ⟨j, hj, prefixed⟩ := List.mem_flatMap.mp hp
          obtain ⟨places, within, rfl⟩ := List.mem_map.mp prefixed
          obtain ⟨rank, inside⟩ := ih (Nat.succ.inj length) below within
          have hi : i < (d + 1 - w).toNat := List.mem_range.mp hi
          have hj : j < w.toNat := List.mem_range.mp hj
          refine ⟨congrArg Nat.succ rank, Bool.and_eq_true_iff.mpr ⟨decide_eq_true ?_, inside⟩⟩
          simp only [Int.ofNat_eq_natCast]
          omega

theorem windowOffsets_cons {d : Int} (length : window.length = (d :: s).length) :
    windowOffsets (d :: s) window =
      if (corners (d :: s) window).any (· ≤ 0) || window.any (· ≤ 0) then []
      else (coordinates (corners (d :: s) window)).flatMap fun corner =>
        (coordinates window).map fun place => offset (d :: s) (corner.zipWith (· + ·) place) := by
  have ranked : 0 < (d :: s).length := Nat.succ_pos _
  rw [windowOffsets, List.isEmpty_cons, if_neg Bool.false_ne_true]
  simp only [regroup_coordinates ranked length, regroup_coordinates ranked (length_corners length)]

theorem length_windowOffsets (length : window.length = s.length) :
    (windowOffsets s window).length = cellCount (s.corners window) * cellCount window := by
  cases s with
  | nil =>
      obtain rfl := List.length_eq_zero_iff.mp length
      rfl
  | cons d s =>
      rw [windowOffsets_cons length]
      split
      · rename_i nowhere
        rcases Bool.or_eq_true_iff.mp nowhere with corners | inside
        · rw [cellCount_eq_zero_of_any corners, Nat.zero_mul]
          rfl
        · rw [cellCount_eq_zero_of_any inside, Nat.mul_zero]
          rfl
      · rw [length_flatMap_eq fun _ _ => List.length_map _, length_coordinates, length_coordinates]

theorem lt_of_mem_windowOffsets {place : Nat} (natural : s.Natural)
    (length : window.length = s.length) (mem : place ∈ windowOffsets s window) :
    place < cellCount s := by
  cases s with
  | nil =>
      obtain rfl := List.mem_singleton.mp mem
      exact Nat.zero_lt_one
  | cons d s =>
      rw [windowOffsets_cons length] at mem
      split at mem
      · cases mem
      · obtain ⟨corner, hc, mem⟩ := List.mem_flatMap.mp mem
        obtain ⟨inside, hp, rfl⟩ := List.mem_map.mp mem
        obtain ⟨rank, within⟩ := contains_corner_add_place length hc hp
        have room := offset_add_cellCount_le natural (Nat.le_of_eq rank) within
        rw [rank, List.drop_length] at room
        exact room

/-- The window reaches along some leading axes, along each of them at least one step and no
further than the axis. -/
def Frames : Shape → Shape → Prop
  | _, [] => True
  | [], _ :: _ => False
  | d :: s, w :: window => 0 < w ∧ w ≤ d ∧ Frames s window

theorem resolveWindow_yields {sizes : List Int} (nonzero : 0 ∉ sizes) :
    Yields (Frames s) (s.resolveWindow sizes) := by
  induction s generalizing sizes with
  | nil => exact True.intro
  | cons d s ih =>
      cases sizes with
      | nil => exact True.intro
      | cons size sizes =>
          have here : size ≠ 0 := fun zero => nonzero (zero ▸ List.mem_cons_self)
          have below : 0 ∉ sizes := fun mem => nonzero (List.mem_cons_of_mem _ mem)
          rw [resolveWindow]
          split
          · trivial
          · rename_i fits
            apply (ih below).bind
            intro rest framed
            simp only [Int.ofNat_eq_natCast] at fits
            have bounds : 0 < (if 0 ≤ size then size else d + 1 + size) ∧
                (if 0 ≤ size then size else d + 1 + size) ≤ d := by
              split <;> omega
            exact ⟨bounds.1, bounds.2, framed⟩

theorem Frames.natural (natural : s.Natural) (h : Frames s window) :
    window.Natural ∧ (s.corners window).Natural ∧ window.length ≤ s.length := by
  induction window generalizing s with
  | nil =>
      refine ⟨natural_nil, ?_, Nat.zero_le _⟩
      rw [corners, List.zipWith_nil_right]
      exact natural_nil
  | cons w window ih =>
      cases s with
      | nil => cases h
      | cons d s =>
          obtain ⟨positive, room, framed⟩ := h
          obtain ⟨inside, corners, length⟩ := ih ((natural_cons d s).mp natural).2 framed
          have steps : 0 ≤ d + 1 - w := by omega
          refine ⟨(natural_cons ..).mpr ⟨by omega, inside⟩, ?_, Nat.succ_le_succ length⟩
          exact (natural_cons ..).mpr ⟨steps, corners⟩

/-- A window takes the axes that it does not reach along as they are. -/
theorem length_append_drop (length : window.length ≤ s.length) :
    (window ++ s.drop window.length).length = s.length := by
  rw [List.length_append, List.length_drop, Nat.add_sub_cancel' length]

/-- A window that reaches along all of the axes that are left has a single corner there. -/
theorem corners_append_drop (length : window.length ≤ s.length) :
    s.corners (window ++ s.drop window.length) =
      s.corners window ++ List.replicate (s.length - window.length) 1 := by
  induction window generalizing s with
  | nil =>
      simp only [corners, List.zipWith_nil_right, List.nil_append, List.length_nil, List.drop_zero,
        Nat.sub_zero]
      induction s with
      | nil => rfl
      | cons d s ih =>
          have single : d + 1 - d = 1 := by omega
          rw [List.zipWith_cons_cons, single, ih (Nat.zero_le _)]
          rfl
  | cons w window ih =>
      cases s with
      | nil => cases length
      | cons d s =>
          have rest := ih (Nat.le_of_succ_le_succ length)
          rw [← Nat.add_sub_add_right s.length 1 window.length] at rest
          exact congrArg ((d + 1 - w) :: ·) rest

theorem cellCount_corners_append_drop (length : window.length ≤ s.length) :
    cellCount (s.corners (window ++ s.drop window.length)) = cellCount (s.corners window) := by
  rw [corners_append_drop length, cellCount_append, cellCount_replicate_one, Nat.mul_one]

theorem window_yields (sizes : List Int) : Yields (Frames s) (s.window sizes) := by
  rw [Shape.window]
  split
  · trivial
  · rename_i nonzero
    split
    · trivial
    · exact resolveWindow_yields fun mem => nonzero (List.contains_iff_mem.mpr mem)

end Shape

namespace Grid

variable {a : Grid α}

theorem mem_of_mem_gather {places : List Nat} {x : α} (mem : x ∈ a.gather places) :
    x ∈ a.items := by
  obtain ⟨i, -, found⟩ := List.mem_filterMap.mp mem
  exact List.mem_of_getElem? found

/-- Every place is there. -/
theorem length_gather {places : List Nat} (there : ∀ i ∈ places, i < a.items.length) :
    (a.gather places).length = places.length := by
  induction places with
  | nil => rfl
  | cons i places ih =>
      have here := List.getElem?_eq_getElem (there i List.mem_cons_self)
      rw [gather, List.filterMap_cons_some here, List.length_cons, List.length_cons]
      exact congrArg Nat.succ (ih fun j hj => there j (List.mem_cons_of_mem _ hj))

theorem windows_yields (h : a.Holds valid) (kind : Kind) (sizes : List Int) :
    Yields (Grid.Holds valid) (a.windows kind sizes) := by
  apply (Shape.window_yields sizes).bind
  intro window framed
  split
  · exact h
  · obtain ⟨inside, corners, length⟩ := framed.natural h.natural
    have full := Shape.length_append_drop length
    refine Holds.fit (holds_mk ?_ ?_ fun x hx => h.all x (mem_of_mem_gather hx))
    · exact (corners.append inside).append (h.natural.drop _)
    · rw [length_gather, Shape.length_windowOffsets full,
        Shape.cellCount_corners_append_drop length, Shape.cellCount_append, Shape.cellCount_append,
        Shape.cellCount_append, Nat.mul_assoc]
      intro i hi
      rw [h.length_eq]
      exact Shape.lt_of_mem_windowOffsets h.natural full hi

end Grid

theorem windows_yields {sizes v : Value} (hs : sizes.WellFormed) (hv : v.WellFormed) :
    Yields Value.WellFormed (windows (.value sizes) (.value v)) := by
  apply (Value.integerList_yields .windowSizes hs).bind
  intro sizes _
  exact hv.yields_map fun h => Grid.windows_yields h v.kind sizes

end RowMajor
