import RowMajor.Proofs.Search.Windows

/-!
# Windows and their corners

Sizes are accepted if none of them is zero or longer than its axis. The table of all windows then
says where each of their elements stands in the array: as far from the corner of its window as
it stands from the beginning of the window itself. Axes that no size is given for belong to
every window as a whole, so nothing is added to the coordinates along them.
-/

namespace RowMajor

namespace Shape

variable {s window : Shape} {sizes : List Int} {d w : Int} {corner place : List Nat}

/-- The sizes are those of windows: none is zero, and none is longer than its axis. -/
def HasWindows : List Int → Shape → Prop
  | [], _ => True
  | n :: sizes, d :: s => (n ≠ 0 ∧ Int.ofNat n.natAbs ≤ d) ∧ HasWindows sizes s
  | _ :: _, [] => False

/-- The lengths of windows, where a negative size is counted back from the longest that fits. -/
def windowLengths (sizes : List Int) (s : Shape) : Shape :=
  sizes.zipWith (fun n d => if 0 ≤ n then n else d + 1 + n) s

theorem HasWindows.length_le (h : HasWindows sizes s) : sizes.length ≤ s.length := by
  induction sizes generalizing s with
  | nil => exact Nat.zero_le _
  | cons n sizes ih =>
      cases s with
      | nil => cases h
      | cons d s => exact Nat.succ_le_succ (ih h.2)

theorem HasWindows.zero_notMem (h : HasWindows sizes s) : 0 ∉ sizes := by
  induction sizes generalizing s with
  | nil => exact List.not_mem_nil
  | cons n sizes ih =>
      cases s with
      | nil => cases h
      | cons d s =>
          rw [List.mem_cons, not_or]
          exact ⟨Ne.symm h.1.1, ih h.2⟩

theorem HasWindows.length_windowLengths (h : HasWindows sizes s) :
    (windowLengths sizes s).length = sizes.length := by
  rw [windowLengths, List.length_zipWith, Nat.min_eq_left h.length_le]

/-- From the lengths of the windows one tells the sizes that have the same signs. -/
theorem eq_of_windowLengths {others : List Int}
    (signs : List.Forall₂ (fun n m => 0 ≤ n ↔ 0 ≤ m) sizes others) (h : HasWindows sizes s)
    (same : windowLengths others s = windowLengths sizes s) : others = sizes := by
  induction signs generalizing s with
  | nil => rfl
  | @cons n m sizes others sign _ ih =>
      cases s with
      | nil => cases h
      | cons d s =>
          obtain ⟨here, rest⟩ := List.cons.inj same
          simp only [sign] at here
          rw [ih h.2 rest]
          congr 1
          split at here <;> omega

theorem HasWindows.frames (h : HasWindows sizes s) : Frames s (windowLengths sizes s) := by
  induction sizes generalizing s with
  | nil => cases s <;> trivial
  | cons n sizes ih =>
      cases s with
      | nil => cases h
      | cons d s =>
          obtain ⟨⟨nonzero, fits⟩, rest⟩ := h
          simp only [Int.ofNat_eq_natCast] at fits
          have bounds : 0 < (if 0 ≤ n then n else d + 1 + n) ∧
              (if 0 ≤ n then n else d + 1 + n) ≤ d := by
            split <;> omega
          exact ⟨bounds.1, bounds.2, ih rest⟩

theorem resolveWindow_spec (nonzero : 0 ∉ sizes) (rank : sizes.length ≤ s.length) :
    Outcome (fun window => HasWindows sizes s ∧ window = windowLengths sizes s)
      (fun e => ¬ HasWindows sizes s ∧ ∃ cause, e = .shape cause) (s.resolveWindow sizes) := by
  induction sizes generalizing s with
  | nil => cases s <;> exact ⟨trivial, rfl⟩
  | cons n sizes ih =>
      cases s with
      | nil => cases rank
      | cons d s =>
          rw [List.mem_cons, not_or] at nonzero
          obtain ⟨here, others⟩ := nonzero
          have below := ih others (Nat.le_of_succ_le_succ rank)
          rw [resolveWindow]
          split
          · rename_i long
            exact ⟨fun has => absurd has.1.2 (Int.not_le.mpr long), _, rfl⟩
          · rename_i fits
            refine (below.mono (fun _ found => found) ?_).bind ?_
            · exact fun e refused => ⟨fun has => refused.1 has.2, refused.2⟩
            · rintro _ ⟨has, rfl⟩
              exact ⟨⟨⟨Ne.symm here, Int.not_lt.mp fits⟩, has⟩, rfl⟩

/-- Sizes are refused exactly if they are not those of windows. -/
theorem window_spec (sizes : List Int) (s : Shape) :
    Outcome (fun window => HasWindows sizes s ∧ window = windowLengths sizes s)
      (fun e => ¬ HasWindows sizes s ∧ ∃ cause, e = .shape cause) (s.window sizes) := by
  rw [Shape.window]
  split
  · rename_i zero
    exact ⟨fun has => has.zero_notMem (List.contains_iff_mem.mp zero), _, rfl⟩
  · rename_i nonzero
    split
    · rename_i many
      exact ⟨fun has => absurd has.length_le (Nat.not_le.mpr many), _, rfl⟩
    · rename_i few
      exact resolveWindow_spec (fun zero => nonzero (List.contains_iff_mem.mpr zero))
        (Nat.not_lt.mp few)

/-- Coordinates counted from a corner, along as many axes as the corner has. -/
def moved : List Nat → List Nat → List Nat
  | c :: corner, i :: place => (c + i) :: moved corner place
  | _, place => place

@[simp] theorem moved_nil (place : List Nat) : moved [] place = place := by
  cases place <;> rfl

theorem zipWith_zeros (place : List Nat) :
    (List.replicate place.length 0).zipWith (· + ·) place = place := by
  induction place with
  | nil => rfl
  | cons i place ih =>
      rw [List.length_cons, List.replicate_succ, List.zipWith_cons_cons, Nat.zero_add, ih]

/-- Along the axes behind those of the corner nothing is added. -/
theorem zipWith_append_zeros {rest : Nat} (length : place.length = corner.length + rest) :
    (corner ++ List.replicate rest 0).zipWith (· + ·) place = moved corner place := by
  induction corner generalizing place with
  | nil =>
      rw [List.length_nil, Nat.zero_add] at length
      rw [List.nil_append, ← length, zipWith_zeros, moved_nil]
  | cons c corner ih =>
      cases place with
      | nil =>
          rw [List.length_nil, List.length_cons] at length
          omega
      | cons i place =>
          rw [List.length_cons, List.length_cons, Nat.succ_add] at length
          exact congrArg _ (ih (Nat.succ.inj length))

theorem coordinates_replicate_one (n : Nat) :
    coordinates (List.replicate n 1) = [List.replicate n 0] := by
  induction n with
  | zero => rfl
  | succ n ih =>
      rw [List.replicate_succ, coordinates, ih]
      rfl

theorem mem_corners_nil : corner ∈ coordinates (s.corners []) ↔ corner = [] := by
  rw [corners, List.zipWith_nil_right]
  exact List.mem_singleton

theorem mem_corners_cons : corner ∈ coordinates (corners (d :: s) (w :: window)) ↔
    ∃ c rest, corner = c :: rest ∧ c < (d + 1 - w).toNat ∧ rest ∈ coordinates (s.corners window) :=
  mem_coordinates_cons

/-- What lies in a window lies in the array. -/
theorem Frames.moved_mem (framed : Frames s window)
    (mem : corner ∈ coordinates (s.corners window))
    (inside : place ∈ coordinates (window ++ s.drop window.length)) :
    moved corner place ∈ coordinates s := by
  induction window generalizing s corner place with
  | nil =>
      obtain rfl := mem_corners_nil.mp mem
      rwa [moved_nil]
  | cons w window ih =>
      cases s with
      | nil => cases framed
      | cons d s =>
          obtain ⟨positive, room, framed⟩ := framed
          obtain ⟨c, corner, rfl, before, below⟩ := mem_corners_cons.mp mem
          obtain ⟨i, place, rfl, there, within⟩ := mem_coordinates_cons.mp inside
          exact cons_mem_coordinates.mpr ⟨by omega, ih framed below within⟩

/-- The table of all windows, corner by corner. -/
theorem windowOffsets_append_drop (rank : window.length ≤ s.length) :
    s.windowOffsets (window ++ s.drop window.length) =
      (s.corners window).coordinates.flatMap fun corner =>
        (coordinates (window ++ s.drop window.length)).map fun place =>
          s.offset (moved corner place) := by
  have full := length_append_drop rank
  rw [windowOffsets_eq full, corners_append_drop rank, coordinates_append,
    coordinates_replicate_one, List.flatMap_assoc]
  refine List.flatMap_congr fun corner mem => ?_
  have length : corner.length = window.length := by
    rw [length_of_mem_coordinates mem, corners, List.length_zipWith, Nat.min_eq_right rank]
  rw [List.map_singleton, List.flatMap_singleton, windowAt]
  refine List.map_congr_left fun place inside => ?_
  rw [zipWith_append_zeros]
  rw [length_of_mem_coordinates inside, full, length, Nat.add_sub_cancel' rank]

end Shape

end RowMajor
