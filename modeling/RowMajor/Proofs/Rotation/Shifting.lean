import RowMajor.Proofs.Rotation.Cycling
import RowMajor.Proofs.Rotation.Overwriting

/-!
# Rotations with a fill element

With a fill element a rotation is a shift: what goes over one end of an axis is lost, and the
fill element stands where nothing comes from. The elements are rotated first, and on every axis
the rows that came round the end are overwritten. A row has come round exactly if its place and
the offset together lie outside the axis, so what is left in place comes from there without any
remainder being taken. An offset that is so large that it is rounded moves everything out of the
axis, rounded or not.
-/

namespace RowMajor

variable {α : Type}

namespace Shape

variable {s : Shape} {index : List Nat} {offsets : List Int}

/-- Coordinates with the offsets added to the leading ones. -/
def shifted : List Int → List Nat → List Int
  | offset :: offsets, i :: index => (Int.ofNat i + offset) :: shifted offsets index
  | _, index => index.map Int.ofNat

/-- On no axis do the coordinates leave the shape when the offsets are added. -/
def Keeps : List Int → Shape → List Nat → Prop
  | offset :: offsets, d :: s, i :: index =>
    (0 ≤ Int.ofNat i + offset ∧ Int.ofNat i + offset < d) ∧ Keeps offsets s index
  | _, _, _ => True

instance decidableKeeps : (offsets : List Int) → (s : Shape) → (index : List Nat) →
    Decidable (Keeps offsets s index)
  | _ :: offsets, _ :: s, _ :: index =>
    haveI := decidableKeeps offsets s index
    inferInstanceAs (Decidable (_ ∧ _))
  | [], _, _ | _ :: _, [], _ | _ :: _, _ :: _, [] => .isTrue trivial

@[simp] theorem keeps_nil (s : Shape) (index : List Nat) : Keeps [] s index := by
  cases s <;> trivial

@[simp] theorem shifted_nil (index : List Nat) : shifted [] index = index.map Int.ofNat := by
  cases index <;> rfl

/-- Coordinates that stay inside are not taken modulo anything. -/
theorem Keeps.turned_eq (keeps : Keeps offsets s index) (few : offsets.length ≤ s.length)
    (mem : index ∈ coordinates s) :
    (s.turned offsets index).map Int.ofNat = shifted offsets index := by
  induction offsets generalizing s index with
  | nil => rw [turned_nil, shifted_nil]
  | cons offset offsets ih =>
      cases s with
      | nil => cases few
      | cons d s =>
          obtain ⟨i, rest, rfl, below, inside⟩ := mem_coordinates_cons.mp mem
          obtain ⟨⟨low, high⟩, others⟩ := keeps
          rw [turned, List.map_cons, shifted, ih others (Nat.le_of_succ_le_succ few) inside,
            Int.emod_eq_of_lt low high, Int.ofNat_eq_natCast, Int.toNat_of_nonneg low]

theorem keeps_of_mem (nonneg : ∀ j ∈ shifted offsets index, 0 ≤ j)
    (mem : (shifted offsets index).map Int.toNat ∈ coordinates s) : Keeps offsets s index := by
  induction offsets generalizing s index with
  | nil => exact keeps_nil s index
  | cons offset offsets ih =>
      match s, index with
      | [], _ => trivial
      | _ :: _, [] => trivial
      | d :: s, i :: index =>
          obtain ⟨low, others⟩ := List.forall_mem_cons.mp nonneg
          obtain ⟨high, inside⟩ := cons_mem_coordinates.mp mem
          exact ⟨⟨low, by omega⟩, ih others inside⟩

end Shape

namespace Grid

variable {a : Grid α} {index : List Nat} {offsets : List Int}

/-- Coordinates with the offsets added lead to an element unless they leave the shape. -/
theorem at?_shifted (few : offsets.length ≤ a.rank) (mem : index ∈ Shape.coordinates a.shape) :
    a.at? (Shape.shifted offsets index) =
      if Shape.Keeps offsets a.shape index then a.get? (a.shape.turned offsets index)
      else none := by
  split
  · rename_i keeps
    rw [← keeps.turned_eq few mem, at?_ofNat]
  · rename_i leaves
    rw [at?]
    split
    · rename_i nonneg
      exact get?_of_not_mem fun there => leaves (Shape.keeps_of_mem nonneg there)
    · rfl

end Grid

variable {s : Shape} {items : List α}

/-- Only the elements that stay on every axis are not overwritten. -/
theorem getElem?_overwriteWrapped {index : List Nat} (x : α) (offsets : List Int)
    (natural : s.Natural) (length : items.length = s.cellCount) (mem : index ∈ s.coordinates) :
    (overwriteWrapped x offsets s items)[s.offset index]? =
      if Shape.Keeps offsets s index then items[s.offset index]? else some x := by
  induction offsets generalizing s items index with
  | nil =>
      rw [if_pos (Shape.keeps_nil s index)]
      cases s <;> rfl
  | cons offset offsets ih =>
      cases s with
      | nil => exact (if_pos trivial).symm
      | cons d s =>
          obtain ⟨-, rowNatural⟩ := (Shape.natural_cons d s).mp natural
          obtain ⟨i, rest, rfl, row, inside⟩ := Shape.mem_coordinates_cons.mp mem
          have below := Shape.offset_lt rowNatural inside
          have covered := length_overwriteRows x offset length
          rw [overwriteWrapped_cons x offset offsets rowNatural length]
          simp only [Shape.offset, ← Shape.cellCount_eq_volume rowNatural]
          rw [getElem?_flatMap_pieces covered
              (fun _ size => length_overwriteWrapped x offsets rowNatural size) row below,
            ih rowNatural (length_row covered row) inside, getElem?_row _ i below,
            getElem?_overwriteRows x offset length row below]
          by_cases others : Shape.Keeps offsets s rest
          · rw [if_pos others]
            by_cases here : 0 ≤ Int.ofNat i + offset ∧ Int.ofNat i + offset < d
            · rw [if_pos here, if_pos ⟨here, others⟩]
            · rw [if_neg here, if_neg fun keeps => here keeps.1]
          · rw [if_neg others, if_neg fun keeps => others keeps.2]

namespace Grid

variable {a : Grid α} {index : List Nat} {offsets : List Int} {x : α} {valid : α → Prop}

/-- The grid with its elements moved by the offsets and the fill element where none come. -/
def shifted (x : α) (offsets : List Int) (a : Grid α) : Grid α :=
  ⟨a.shape, overwriteWrapped x offsets a.shape (a.turned offsets).items⟩

theorem Holds.shifted (h : a.Holds valid) (hx : valid x) (offsets : List Int) :
    (a.shifted x offsets).Holds valid :=
  (overwriteWrapped_fills offsets h.natural hx (h.turned offsets).fills).holds h.natural

/-- The element that is moved to a place, or else the fill element. -/
theorem WellFormed.get?_shifted (h : a.WellFormed) (x : α) (few : offsets.length ≤ a.rank)
    (mem : index ∈ Shape.coordinates a.shape) :
    (a.shifted x offsets).get? index = some ((a.at? (Shape.shifted offsets index)).getD x) := by
  have turned := h.get?_turned offsets mem
  obtain ⟨y, there⟩ := h.exists_get? (Shape.turned_mem offsets mem)
  rw [get?_of_mem (a := a.turned offsets) mem, there] at turned
  rw [get?_of_mem (a := a.shifted x offsets) mem, at?_shifted few mem, there]
  refine (getElem?_overwriteWrapped x offsets h.natural (h.turned offsets).length_eq mem).trans ?_
  split
  · exact turned
  · rfl

/-- In place the elements are rotated and what came round is overwritten. -/
theorem WellFormed.shifted_eq (h : a.WellFormed) (x : α) (offsets : List Int) :
    a.shifted x offsets =
      ⟨a.shape,
        overwriteBetween x offsets a.shape 0 (rotateBetween offsets a.shape 0 a.items)⟩ := by
  have length := (h.turned offsets).length_eq
  rw [← rotateSection_eq_rotateBetween, rotateSection_whole offsets h.natural h.length_eq,
    ← overwriteSection_eq_overwriteBetween]
  exact congrArg (Grid.mk a.shape) (overwriteSection_whole x offsets h.natural length).symm

/-- With a fill element a rotation shifts the elements, unless there are more offsets than axes. -/
theorem WellFormed.rotate_filled (h : a.WellFormed) (x : α) (offsets : List Int) :
    a.rotate (.ok x) offsets =
      if a.rank < offsets.length then .error (.shape (.indexLength .rotate a.rank offsets.length))
      else .ok (a.shifted x offsets) := by
  have turned : (rotateItems offsets a.shape a.items).length = Shape.cellCount a.shape :=
    (h.turned offsets).length_eq
  rw [rotate, rotateSection_whole offsets h.natural h.length_eq]
  simp only [overwriteSection_whole x offsets h.natural turned]
  rfl

end Grid

variable {v : Value} {fill : Fill}

/-- A value is shifted by offsets with a fill element: at every place stands the element whose
coordinates are greater by the offsets, if there is one, and the fill element otherwise. -/
def Value.IsShift (offsets : List Int) (w : Value) (x : w.form.Element) (r : Value) : Prop :=
  r.WellFormed ∧ r.form = w.form ∧ r.shape = w.shape ∧
    ∀ index ∈ w.shape.coordinates, r.cell? index =
      some ((w.itemGrid.at? (Shape.shifted offsets index)).getD (w.form.item x))

section Operations

variable {by_ : Operand} {offsets : List Int} {w : Value} {x : w.form.Element}

theorem rotate_eq_shifted (promoted : v.promoteFor fill = .ok w) (wf : w.WellFormed)
    (usable : fill.element? w.form = some x) (few : offsets.length ≤ w.rank) :
    v.rotate fill offsets = .ok (.ofGrid w.form (w.grid.shifted x offsets)) := by
  have filler : fill.filler w.form = .ok x := by
    rw [Fill.filler, usable]
  rw [Value.rotate_promoted (promoted.trans (congrArg _ (Value.ofGrid_grid w).symm)), filler,
    wf.holds.wellFormed.rotate_filled]
  exact congrArg (· >>= _) (if_neg (Nat.not_lt.mpr few))

theorem isShift_shifted (hf : fill.WellFormed) (wf : w.WellFormed)
    (usable : fill.element? w.form = some x) (few : offsets.length ≤ w.rank) :
    w.IsShift offsets x (.ofGrid w.form (w.grid.shifted x offsets)) := by
  have valid := hf.valid_of_element? wf.isUniform usable
  refine ⟨Value.wellFormed_ofGrid wf.isUniform (wf.holds.shifted valid offsets),
    Value.form_ofGrid .., Value.shape_ofGrid .., fun index mem => ?_⟩
  have items : w.itemGrid = w.grid.map w.form.item := rfl
  rw [Value.cell?_ofGrid, wf.holds.wellFormed.get?_shifted x few mem, items, Grid.at?_map,
    Option.map_some, Option.getD_map]

/-- Where an axis has no more than `2 ^ 53` places, rounding leaves the same elements inside and
moves these as far. -/
theorem Rounds.shifted_eq {ms : List Int} {s : Shape} {index : List Nat}
    (rounds : Rounds offsets ms) (short : ∀ d ∈ s, d ≤ 2 ^ 53) (few : offsets.length ≤ s.length)
    (mem : index ∈ s.coordinates) (keeps : Shape.Keeps offsets s index) :
    Shape.shifted ms index = Shape.shifted offsets index := by
  induction rounds generalizing s index with
  | nil => rfl
  | @cons n m ns ms found _ ih =>
      cases s with
      | nil => cases few
      | cons d s =>
          obtain ⟨i, rest, rfl, below, inside⟩ := Shape.mem_coordinates_cons.mp mem
          obtain ⟨here, others⟩ := List.forall_mem_cons.mp short
          obtain ⟨⟨low, high⟩, keeps⟩ := keeps
          have same : m = n := by
            obtain same | ⟨far, -⟩ := Binary64.eq_or_far_of_rounded? found
            · exact same
            · simp only [Int.ofNat_eq_natCast] at low high
              omega
          rw [Shape.shifted, Shape.shifted, same,
            ih others (Nat.le_of_succ_le_succ few) inside keeps]

theorem Rounds.keeps_iff {ms : List Int} {s : Shape} {index : List Nat}
    (rounds : Rounds offsets ms) (short : ∀ d ∈ s, d ≤ 2 ^ 53) (mem : index ∈ s.coordinates) :
    Shape.Keeps ms s index ↔ Shape.Keeps offsets s index := by
  induction rounds generalizing s index with
  | nil => exact Iff.rfl
  | @cons n m ns ms found _ ih =>
      cases s with
      | nil => exact Iff.rfl
      | cons d s =>
          obtain ⟨i, rest, rfl, below, inside⟩ := Shape.mem_coordinates_cons.mp mem
          obtain ⟨here, others⟩ := List.forall_mem_cons.mp short
          have sign := (Binary64.sign_rounded? found).1
          have far := Binary64.eq_or_far_of_rounded? found
          have same : (0 ≤ Int.ofNat i + m ∧ Int.ofNat i + m < d) ↔
              (0 ≤ Int.ofNat i + n ∧ Int.ofNat i + n < d) := by
            simp only [Int.ofNat_eq_natCast]
            omega
          rw [Shape.Keeps, Shape.Keeps, same, ih others inside]

/-- Rounded offsets lead to the same elements of a grid that has no more than `2 ^ 53`. -/
theorem Rounds.at?_shifted {a : Grid α} {ms : List Int} {index : List Nat}
    (rounds : Rounds offsets ms) (h : a.WellFormed) (small : a.items.length ≤ 2 ^ 53)
    (few : offsets.length ≤ a.rank) (mem : index ∈ Shape.coordinates a.shape) :
    a.at? (Shape.shifted ms index) = a.at? (Shape.shifted offsets index) := by
  have short := h.axis_le small mem
  by_cases keeps : Shape.Keeps offsets a.shape index
  · rw [rounds.shifted_eq short few mem keeps]
  · rw [Grid.at?_shifted (rounds.length_eq ▸ few) mem, Grid.at?_shifted few mem, if_neg keeps,
      if_neg ((rounds.keeps_iff short mem).not.mpr keeps)]

/-- The list shifts by what its integers say, as long as there is a number for each of them. -/
theorem rotate_listed_shifts_iff (hf : fill.WellFormed) (promoted : v.promoteFor fill = .ok w)
    (wf : w.WellFormed) (usable : fill.element? w.form = some x) (few : offsets.length ≤ w.rank)
    (small : w.elementCount ≤ 2 ^ 53) :
    (∃ r, rotate (.listed offsets) (.value v) fill = .ok r ∧ w.IsShift offsets x r) ↔
      ∀ n ∈ offsets, (Binary64.rounded? n).isSome := by
  rw [← exists_rounds_iff]
  constructor
  · rintro ⟨r, rotated, -⟩
    refine (exists_rounds_or_large offsets).resolve_right ?_
    rintro ⟨n, mem, large⟩
    cases (rotate_of_unread fill (Operand.asIntegers_listed_of_large mem large)).symm.trans rotated
  · rintro ⟨ms, rounds⟩
    have fewer : ms.length ≤ w.rank := rounds.length_eq ▸ few
    obtain ⟨valid, form, shape, cells⟩ := isShift_shifted hf wf usable fewer
    refine ⟨_, ?_, valid, form, shape, fun index mem => ?_⟩
    · rw [rotate_value (Operand.asIntegers_listed rounds),
        rotate_eq_shifted promoted wf usable fewer]
    · have h : w.itemGrid.WellFormed := wf.holds.wellFormed.map w.form.item
      have length : w.itemGrid.items.length ≤ 2 ^ 53 := (List.length_map ..).trans_le small
      rw [cells index mem, rounds.at?_shifted h length few mem]

/-- With a fill value that can be used for a value, after bytes have been promoted for it, a
rotation is a shift. In place it takes reversals and then a second pass over what came round. The
offsets may be given as a list if there is a number for each of them. -/
theorem rotate_shifts (hv : v.WellFormed) (hf : fill.WellFormed) (few : offsets.length ≤ v.rank) :
    ∃ w, v.promoteFor fill = .ok w ∧
      (w = v ∨ ∃ bytes, v = .byte bytes ∧ w = .number (bytes.map .ofByte)) ∧
      ∀ x, fill.element? w.form = some x →
        (∃ r, v.rotate fill offsets = .ok r ∧ r = .ofGrid w.form ⟨v.shape,
            overwriteBetween x offsets v.shape 0
              (rotateBetween offsets v.shape 0 w.grid.items)⟩ ∧
          w.IsShift offsets x r ∧
          ∀ by_ : Operand, by_.asIntegers .offsets = .ok offsets →
            rotate by_ (.value v) fill = .ok r) ∧
        (v.elementCount ≤ 2 ^ 53 →
          ((∃ r, rotate (.listed offsets) (.value v) fill = .ok r ∧ w.IsShift offsets x r) ↔
            ∀ n ∈ offsets, (Binary64.rounded? n).isSome)) := by
  obtain ⟨w, promoted, wf, shape⟩ := Value.promoteFor_wellFormed hf hv
  have rank : offsets.length ≤ w.rank := by
    rwa [Value.rank, shape]
  have same : v.shape = w.grid.shape := shape.symm
  refine ⟨w, promoted, ?_, fun x usable => ⟨?_, fun small => ?_⟩⟩
  · obtain stays | ⟨bytes, rfl, -, numbers⟩ := Value.promoteFor_cases hf hv
    · exact .inl (Except.ok.inj (promoted.symm.trans stays))
    · exact .inr ⟨bytes, rfl, Except.ok.inj (promoted.symm.trans numbers)⟩
  · have result := rotate_eq_shifted promoted wf usable rank
    refine ⟨_, result, ?_, isShift_shifted hf wf usable rank, fun by_ read => ?_⟩
    · rw [wf.holds.wellFormed.shifted_eq, same]
    · rw [rotate_value read, result]
  · have size : w.elementCount = v.elementCount :=
      (wf.holds.length_eq.trans (congrArg Shape.cellCount shape)).trans hv.holds.length_eq.symm
    exact rotate_listed_shifts_iff hf promoted wf usable rank (size.trans_le small)

/-- Bytes in two rows are moved up and to the right, and what is missing is no number. -/
theorem bytes_shifted :
    let offsets : Operand := .value (.number ⟨[2], [.ofBits 0x3ff0000000000000,
      .ofBits 0xbff0000000000000]⟩)
    let bytes : Value := .byte ⟨[2, 3], [1, 2, 3, 4, 5, 6]⟩
    let fill : Fill := ⟨some (.number ⟨[], [.nan]⟩)⟩
    bytes.WellFormed ∧ fill.WellFormed ∧ [1, -1].length ≤ bytes.rank ∧
      (∃ r, rotate offsets (.value bytes) fill = .ok r ∧
        r.cell? [0, 1] = some (.number (.ofByte 4)) ∧ r.cell? [0, 0] = some (.number .nan)) ∧
      ∃ r, rotate (.listed [1, -1]) (.value bytes) fill = .ok r ∧
        r.cell? [0, 1] = some (.number (.ofByte 4)) := by
  intro offsets bytes fill
  have hv : bytes.WellFormed := .byte (by decide)
  have hf : fill.WellFormed := by
    intro v given
    cases given
    exact .number (by decide)
  have few : [(1 : Int), -1].length ≤ bytes.rank := by decide
  have stored : ∀ n ∈ [(1 : Int), -1], (Binary64.rounded? n).isSome := by decide +kernel
  obtain ⟨w, promoted, -, shifts⟩ := rotate_shifts hv hf few
  cases promoted
  obtain ⟨⟨r, -, -, ⟨-, -, -, cells⟩, read⟩, listed⟩ := shifts .nan rfl
  obtain ⟨q, rotated, -, -, -, others⟩ := (listed (by decide)).mpr stored
  exact ⟨hv, hf, few, ⟨r, read offsets rfl, cells [0, 1] (by decide), cells [0, 0] (by decide)⟩,
    q, rotated, others [0, 1] (by decide)⟩

/-- An offset that lies beyond all numbers moves no letter out of a word, although it should move
out all of them. -/
theorem offset_beyond_numbers_not_shifted :
    let letters : Value := .character ⟨[3], ['a', 'b', 'c']⟩
    let fill : Fill := ⟨some (.character ⟨[], ['x']⟩)⟩
    letters.WellFormed ∧ fill.WellFormed ∧ [(2 : Int) ^ 1024].length ≤ letters.rank ∧
      letters.promoteFor fill = .ok letters ∧ fill.element? letters.form = some 'x' ∧
      letters.IsShift [2 ^ 1024] 'x' (.character ⟨[3], ['x', 'x', 'x']⟩) ∧
      rotate (.listed [2 ^ 1024]) (.value letters) fill = .error .tooLarge := by
  intro letters fill
  have large : Binary64.rounded? (2 ^ 1024) = none := by decide +kernel
  refine ⟨.character (by decide), ?_, by decide, rfl, rfl,
    ⟨.character (by decide), rfl, rfl, ?_⟩, ?_⟩
  · intro v given
    cases given
    exact .character (by decide)
  · have leaves : ∀ index ∈ Shape.coordinates [3], ¬ Shape.Keeps [2 ^ 1024] [3] index := by
      decide +kernel
    intro index mem
    have absent : letters.itemGrid.at? (Shape.shifted [2 ^ 1024] index) = none :=
      (Grid.at?_shifted (a := letters.itemGrid) (by decide) mem).trans (if_neg (leaves index mem))
    refine .trans ?_ (congrArg (fun o => some (o.getD (.character 'x'))) absent.symm)
    have place : Shape.coordinates [3] = [[0], [1], [2]] := by decide
    obtain rfl | rfl | rfl : index = [0] ∨ index = [1] ∨ index = [2] := by
      simpa [place] using (show index ∈ Shape.coordinates [3] from mem)
    all_goals rfl
  · exact rotate_of_unread fill (Operand.asIntegers_listed_of_large List.mem_cons_self large)

end Operations

end RowMajor
