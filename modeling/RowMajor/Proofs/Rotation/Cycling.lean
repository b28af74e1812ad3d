import RowMajor.Proofs.Operand.Lists
import RowMajor.Proofs.Rotation.Reversals
import RowMajor.Proofs.Value.Cells

/-!
# Rotations as an action of offsets

Without a fill value nothing is lost in a rotation: every element is moved along the leading
axes by the offsets, round the end of each axis. Rotating twice therefore adds the offsets up
axis by axis, and rotating by the opposite offsets puts everything back. Axes of length zero
need no case of their own, because there are no elements along them.

Offsets that are listed as integers are rounded first. Their opposites are rounded in the same way,
but their sums are not.
-/

namespace RowMajor

variable {α : Type}

/-- Offsets added axis by axis, where a list that is too short goes on with zeros. -/
def addOffsets (more offsets : List Int) : List Int :=
  more.zipWithAll (fun m n => m.getD 0 + n.getD 0) offsets

@[simp] theorem addOffsets_nil (offsets : List Int) : addOffsets offsets [] = offsets := by
  cases offsets <;> simp [addOffsets, List.zipWithAll]

@[simp] theorem nil_addOffsets (offsets : List Int) : addOffsets [] offsets = offsets := by
  cases offsets <;> simp [addOffsets, List.zipWithAll]

@[simp] theorem addOffsets_cons (m n : Int) (more offsets : List Int) :
    addOffsets (m :: more) (n :: offsets) = (m + n) :: addOffsets more offsets := rfl

theorem length_addOffsets (more offsets : List Int) :
    (addOffsets more offsets).length = max more.length offsets.length := by
  induction more generalizing offsets with
  | nil => simp
  | cons m more ih =>
      cases offsets with
      | nil => simp
      | cons n offsets => simp [ih]

/-- Opposite offsets cancel. -/
theorem addOffsets_neg (offsets : List Int) :
    addOffsets (offsets.map (- ·)) offsets = List.replicate offsets.length 0 := by
  induction offsets with
  | nil => rfl
  | cons offset offsets ih =>
      rw [List.map_cons, addOffsets_cons, ih, Int.add_left_neg, List.length_cons,
        List.replicate_succ]

namespace Shape

variable {s : Shape} {index : List Nat}

@[simp] theorem turned_nil (s : Shape) (index : List Nat) : s.turned [] index = index := by
  cases s <;> rfl

/-- Coordinates moved twice are moved by the sum of the offsets. -/
theorem turned_turned (more offsets : List Int) (mem : index ∈ coordinates s) :
    s.turned offsets (s.turned more index) = s.turned (addOffsets more offsets) index := by
  induction more generalizing s offsets index with
  | nil => rw [turned_nil, nil_addOffsets]
  | cons m more ih =>
      cases offsets with
      | nil => rw [turned_nil, addOffsets_nil]
      | cons n offsets =>
          cases s with
          | nil => rfl
          | cons d s =>
              obtain ⟨i, rest, rfl, below, inside⟩ := mem_coordinates_cons.mp mem
              have low := Int.emod_nonneg (Int.ofNat i + m) (show d ≠ 0 by omega)
              have moved : Int.ofNat ((Int.ofNat i + m) % d).toNat = (Int.ofNat i + m) % d :=
                Int.toNat_of_nonneg low
              simp only [turned, addOffsets_cons, ih offsets inside, moved, Int.emod_add_emod,
                Int.add_assoc]

/-- Offsets of zero move nothing. -/
theorem turned_zeros (n : Nat) (mem : index ∈ coordinates s) :
    s.turned (List.replicate n 0) index = index := by
  induction n generalizing s index with
  | zero => exact turned_nil s index
  | succ n ih =>
      cases s with
      | nil => rfl
      | cons d s =>
          obtain ⟨i, rest, rfl, below, inside⟩ := mem_coordinates_cons.mp mem
          have stays : (Int.ofNat i + 0) % d = Int.ofNat i := by
            rw [Int.add_zero]
            apply Int.emod_eq_of_lt (Int.natCast_nonneg i)
            omega
          rw [List.replicate_succ, turned, stays, ih inside]
          rfl

end Shape

namespace Grid

variable {a : Grid α} {index : List Nat}

/-- The grid with all elements moved by the offsets, round the end of every axis. -/
def turned (offsets : List Int) (a : Grid α) : Grid α :=
  ⟨a.shape, rotateItems offsets a.shape a.items⟩

@[simp] theorem shape_turned (offsets : List Int) (a : Grid α) :
    (a.turned offsets).shape = a.shape := rfl

theorem Holds.turned {valid : α → Prop} (h : a.Holds valid) (offsets : List Int) :
    (a.turned offsets).Holds valid :=
  (rotateItems_fills offsets h.natural h.fills).holds h.natural

theorem WellFormed.turned (h : a.WellFormed) (offsets : List Int) :
    (a.turned offsets).WellFormed :=
  (h.holds_trivial.turned offsets).wellFormed

theorem WellFormed.get?_turned (h : a.WellFormed) (offsets : List Int)
    (mem : index ∈ Shape.coordinates a.shape) :
    (a.turned offsets).get? index = a.get? (a.shape.turned offsets index) := by
  rw [get?_of_mem (a := a.turned offsets) mem, get?_of_mem (Shape.turned_mem offsets mem)]
  exact getElem?_rotateItems offsets h.natural h.length_eq mem

theorem WellFormed.turned_turned (h : a.WellFormed) (more offsets : List Int) :
    (a.turned offsets).turned more = a.turned (addOffsets more offsets) := by
  have first := h.turned offsets
  apply (first.turned more).ext (h.turned _) rfl
  intro index mem
  have inside : index ∈ Shape.coordinates a.shape := mem
  rw [first.get?_turned more mem, shape_turned,
    h.get?_turned offsets (Shape.turned_mem more inside), h.get?_turned _ inside,
    Shape.turned_turned more offsets inside]

theorem WellFormed.turned_back (h : a.WellFormed) (offsets : List Int) :
    (a.turned offsets).turned (offsets.map (- ·)) = a := by
  rw [h.turned_turned, addOffsets_neg]
  apply (h.turned _).ext h rfl
  intro index mem
  have inside : index ∈ Shape.coordinates a.shape := mem
  rw [h.get?_turned _ inside, Shape.turned_zeros _ inside]

/-- Without a fill element a rotation moves the elements, unless there are more offsets than
axes. -/
theorem WellFormed.rotate_eq (h : a.WellFormed) (why : MissingFill) (offsets : List Int) :
    a.rotate (.error why) offsets =
      if a.rank < offsets.length then .error (.shape (.indexLength .rotate a.rank offsets.length))
      else .ok (a.turned offsets) := by
  rw [rotate, Grid.turned, rotateSection_whole offsets h.natural h.length_eq]

end Grid

variable {f : Form} {v : Value}

namespace Value

theorem rotate_promoted {fill : Fill} {a : Grid f.Element}
    (promoted : v.promoteFor fill = .ok (ofGrid f a)) (offsets : List Int) :
    v.rotate fill offsets =
      a.rotate (fill.filler f) offsets >>= fun b => .ok (ofGrid f b) := by
  rw [rotate, promoted]
  exact form_grid_ofGrid (γ := Except Error Value) (fun g a =>
    a.rotate (fill.filler g) offsets >>= fun b => .ok (ofGrid g b)) a

theorem rotate_without_fill {a : Grid f.Element} (h : a.WellFormed) (offsets : List Int) :
    (ofGrid f a).rotate .none offsets =
      if a.rank < offsets.length then .error (.shape (.indexLength .rotate a.rank offsets.length))
      else .ok (ofGrid f (a.turned offsets)) := by
  have absent : Fill.none.filler f = .error .absent := rfl
  rw [rotate_promoted (promoteFor_none _), absent, h.rotate_eq]
  split <;> rfl

end Value

/-- An operation is carried out with the offsets that its operand gives. -/
theorem rotate_value {by_ : Operand} {offsets : List Int}
    (read : by_.asIntegers .offsets = .ok offsets) (v : Value) (fill : Fill) :
    rotate by_ (.value v) fill = v.rotate fill offsets := by
  rw [rotate, read]
  rfl

theorem rotate_of_unread {by_ value : Operand} {e : Error} (fill : Fill)
    (unread : by_.asIntegers .offsets = .error e) : rotate by_ value fill = .error e := by
  rw [rotate, unread]
  rfl

namespace Value

variable {offsets others more : List Int}

/-- The value with all elements moved by the offsets, round the end of every axis. -/
def turned (offsets : List Int) (v : Value) : Value :=
  .ofGrid v.form (v.grid.turned offsets)

theorem turned_ofGrid (offsets : List Int) (a : Grid f.Element) :
    (ofGrid f a).turned offsets = ofGrid f (a.turned offsets) :=
  form_grid_ofGrid (fun g b => ofGrid g (b.turned offsets)) a

@[simp] theorem form_turned (offsets : List Int) (v : Value) : (v.turned offsets).form = v.form :=
  form_ofGrid ..

@[simp] theorem shape_turned (offsets : List Int) (v : Value) :
    (v.turned offsets).shape = v.shape :=
  shape_ofGrid ..

@[simp] theorem rank_turned (offsets : List Int) (v : Value) :
    (v.turned offsets).rank = v.rank := by
  rw [rank, shape_turned, rank]

theorem WellFormed.turned (hv : v.WellFormed) (offsets : List Int) :
    (v.turned offsets).WellFormed :=
  wellFormed_ofGrid hv.isUniform (hv.holds.turned offsets)

theorem WellFormed.cell?_turned {index : List Nat} (hv : v.WellFormed) (offsets : List Int)
    (mem : index ∈ v.shape.coordinates) :
    (v.turned offsets).cell? index = v.cell? (v.shape.turned offsets index) := by
  have items : v.itemGrid = v.grid.map v.form.item := rfl
  rw [Value.turned, cell?_ofGrid, hv.holds.wellFormed.get?_turned offsets mem, cell?, items,
    Grid.get?_map]
  rfl

theorem WellFormed.turned_turned (hv : v.WellFormed) (more offsets : List Int) :
    (v.turned offsets).turned more = v.turned (addOffsets more offsets) :=
  (turned_ofGrid more _).trans
    (congrArg (ofGrid v.form) (hv.holds.wellFormed.turned_turned more offsets))

theorem WellFormed.turned_back (hv : v.WellFormed) (offsets : List Int) :
    (v.turned offsets).turned (offsets.map (- ·)) = v := by
  refine (turned_ofGrid _ (v.grid.turned offsets)).trans ?_
  rw [hv.holds.wellFormed.turned_back, ofGrid_grid]

theorem WellFormed.rotate_eq (hv : v.WellFormed) (offsets : List Int) :
    v.rotate .none offsets =
      if v.rank < offsets.length then .error (.shape (.indexLength .rotate v.rank offsets.length))
      else .ok (v.turned offsets) := by
  have turned := rotate_without_fill (f := v.form) hv.holds.wellFormed offsets
  rwa [ofGrid_grid] at turned

/-- Some offsets move every element to the same place as others. -/
def SameTurn (v : Value) (offsets others : List Int) : Prop :=
  ∀ index ∈ v.shape.coordinates,
    v.cell? (v.shape.turned offsets index) = v.cell? (v.shape.turned others index)

theorem WellFormed.turned_eq_iff (hv : v.WellFormed) :
    v.turned offsets = v.turned others ↔ v.SameTurn offsets others := by
  constructor
  · intro same index mem
    rw [← hv.cell?_turned offsets mem, same, hv.cell?_turned others mem]
  · intro same
    apply (hv.turned offsets).ext (hv.turned others)
    · rw [form_turned, form_turned]
    · rw [shape_turned, shape_turned]
    · intro index mem
      rw [shape_turned] at mem
      rw [hv.cell?_turned offsets mem, hv.cell?_turned others mem, same index mem]

/-- An operand rotates a value by offsets: every element of the result comes from where they point
to, round the end of each axis. -/
def TurnsBy (v : Value) (by_ : Operand) (offsets : List Int) : Prop :=
  ∃ r, RowMajor.rotate by_ (.value v) .none = .ok r ∧
    r.WellFormed ∧ r.form = v.form ∧ r.shape = v.shape ∧
    ∀ index ∈ v.shape.coordinates, r.cell? index = v.cell? (v.shape.turned offsets index)

end Value

section Operations

variable {by_ again both : Operand} {offsets more : List Int} {r : Value}

theorem rotate_of_read (hv : v.WellFormed) (few : offsets.length ≤ v.rank)
    (read : by_.asIntegers .offsets = .ok offsets) :
    rotate by_ (.value v) .none = .ok (v.turned offsets) := by
  rw [rotate_value read, hv.rotate_eq, if_neg (Nat.not_lt.mpr few)]

/-- One rotation after another adds the offsets up, also where there are too many. -/
theorem rotate_turned (hv : v.WellFormed) (few : offsets.length ≤ v.rank)
    (first : again.asIntegers .offsets = .ok more)
    (sum : both.asIntegers .offsets = .ok (addOffsets more offsets)) :
    rotate again (.value (v.turned offsets)) .none = rotate both (.value v) .none := by
  rw [rotate_value first, rotate_value sum, hv.rotate_eq, (hv.turned offsets).rotate_eq,
    hv.turned_turned, Value.rank_turned, length_addOffsets]
  by_cases many : v.rank < more.length
  · rw [Nat.max_eq_left (Nat.le_trans few (Nat.le_of_lt many))]
  · rw [if_neg many, if_neg (by omega)]

theorem turnsBy_of_read (hv : v.WellFormed) (few : offsets.length ≤ v.rank)
    (read : by_.asIntegers .offsets = .ok offsets) : v.TurnsBy by_ offsets :=
  ⟨v.turned offsets, rotate_of_read hv few read, hv.turned offsets, Value.form_turned ..,
    Value.shape_turned .., fun _ mem => hv.cell?_turned offsets mem⟩

/-- A list rotates by what its integers are rounded to. -/
theorem rotate_listed_eq_ok_iff (hv : v.WellFormed) (few : offsets.length ≤ v.rank) :
    rotate (.listed offsets) (.value v) .none = .ok r ↔
      ∃ ms, Rounds offsets ms ∧ v.turned ms = r := by
  obtain ⟨ms, rounds⟩ | ⟨n, mem, large⟩ := exists_rounds_or_large offsets
  · rw [rotate_of_read hv (rounds.length_eq ▸ few) (Operand.asIntegers_listed rounds),
      Except.ok.injEq]
    constructor
    · exact fun same => ⟨ms, rounds, same⟩
    · rintro ⟨others, stored, same⟩
      rwa [rounds.unique stored]
  · rw [rotate_of_unread .none (Operand.asIntegers_listed_of_large mem large)]
    refine iff_of_false nofun ?_
    rintro ⟨ms, rounds, -⟩
    have some := exists_rounds_iff.mp ⟨ms, rounds⟩ n mem
    rw [large] at some
    cases some

theorem turnsBy_listed_iff (hv : v.WellFormed) (few : offsets.length ≤ v.rank) :
    v.TurnsBy (.listed offsets) offsets ↔
      ∃ ms, Rounds offsets ms ∧ v.SameTurn ms offsets := by
  constructor
  · rintro ⟨r, rotated, -, -, -, cells⟩
    obtain ⟨ms, rounds, rfl⟩ := (rotate_listed_eq_ok_iff hv few).mp rotated
    refine ⟨ms, rounds, fun index mem => ?_⟩
    rw [← hv.cell?_turned ms mem, cells index mem]
  · rintro ⟨ms, rounds, same⟩
    obtain ⟨r, rotated, wf, form, shape, cells⟩ := turnsBy_of_read hv (rounds.length_eq ▸ few)
      (Operand.asIntegers_listed rounds)
    exact ⟨r, rotated, wf, form, shape, fun index mem => (cells index mem).trans (same index mem)⟩

/-- Lists that are rounded add up if the sum is rounded to offsets that move everything as far. -/
theorem rotate_listed_twice_iff (hv : v.WellFormed) (few : offsets.length ≤ v.rank)
    (fewer : more.length ≤ v.rank) :
    (∃ r s, rotate (.listed offsets) (.value v) .none = .ok r ∧
      rotate (.listed more) (.value r) .none = .ok s ∧
      rotate (.listed (addOffsets more offsets)) (.value v) .none = .ok s) ↔
      ∃ ms ps qs, Rounds offsets ms ∧ Rounds more ps ∧ Rounds (addOffsets more offsets) qs ∧
        v.SameTurn (addOffsets ps ms) qs := by
  have sum : (addOffsets more offsets).length ≤ v.rank := by
    rw [length_addOffsets]
    exact Nat.max_le.mpr ⟨fewer, few⟩
  have second (ms : List Int) {s : Value} :
      rotate (.listed more) (.value (v.turned ms)) .none = .ok s ↔
        ∃ ps, Rounds more ps ∧ v.turned (addOffsets ps ms) = s := by
    rw [rotate_listed_eq_ok_iff (hv.turned ms) (by rwa [Value.rank_turned])]
    simp only [hv.turned_turned]
  constructor
  · rintro ⟨r, s, first, then_, atOnce⟩
    obtain ⟨ms, rounds, rfl⟩ := (rotate_listed_eq_ok_iff hv few).mp first
    obtain ⟨ps, stored, rfl⟩ := (second ms).mp then_
    obtain ⟨qs, added, same⟩ := (rotate_listed_eq_ok_iff hv sum).mp atOnce
    exact ⟨ms, ps, qs, rounds, stored, added, hv.turned_eq_iff.mp same.symm⟩
  · rintro ⟨ms, ps, qs, rounds, stored, added, same⟩
    exact ⟨_, _, (rotate_listed_eq_ok_iff hv few).mpr ⟨ms, rounds, rfl⟩,
      (second ms).mpr ⟨ps, stored, rfl⟩,
      (rotate_listed_eq_ok_iff hv sum).mpr ⟨qs, added, (hv.turned_eq_iff.mpr same).symm⟩⟩

/-- Rounding keeps opposite integers opposite. -/
theorem rotate_listed_back_iff (hv : v.WellFormed) (few : offsets.length ≤ v.rank) :
    (∃ r, rotate (.listed offsets) (.value v) .none = .ok r ∧
      rotate (.listed (offsets.map (- ·))) (.value r) .none = .ok v) ↔
      ∀ n ∈ offsets, (Binary64.rounded? n).isSome := by
  rw [← exists_rounds_iff]
  constructor
  · rintro ⟨r, rotated, -⟩
    obtain ⟨ms, rounds, -⟩ := (rotate_listed_eq_ok_iff hv few).mp rotated
    exact ⟨ms, rounds⟩
  · rintro ⟨ms, rounds⟩
    refine ⟨v.turned ms, (rotate_listed_eq_ok_iff hv few).mpr ⟨ms, rounds, rfl⟩, ?_⟩
    rw [rotate_listed_eq_ok_iff (hv.turned ms) (by rwa [Value.rank_turned, List.length_map])]
    exact ⟨ms.map (- ·), rounds.neg, hv.turned_back ms⟩

/-- Every element of a rotation comes from where the offsets point to, round the end of each axis.
Rotating once more adds the offsets up, and rotating by the opposite offsets gives the value back.
Offsets that are given as lists are rounded, and then each of this holds if the rounded offsets
move the elements as far. A list is not changed beside the section that is rotated in it. -/
theorem rotate_acts_cyclically (hv : v.WellFormed) (few : offsets.length ≤ v.rank) :
    (∀ by_ : Operand, by_.asIntegers .offsets = .ok offsets → v.TurnsBy by_ offsets ∧
      ∀ r, rotate by_ (.value v) .none = .ok r →
        (∀ (more : List Int) (again both : Operand), again.asIntegers .offsets = .ok more →
          both.asIntegers .offsets = .ok (addOffsets more offsets) →
            rotate again (.value r) .none = rotate both (.value v) .none) ∧
        ∀ back : Operand, back.asIntegers .offsets = .ok (offsets.map (- ·)) →
          rotate back (.value r) .none = .ok v) ∧
    (v.TurnsBy (.listed offsets) offsets ↔ ∃ ms, Rounds offsets ms ∧ v.SameTurn ms offsets) ∧
    (∀ more : List Int, more.length ≤ v.rank →
      ((∃ r s, rotate (.listed offsets) (.value v) .none = .ok r ∧
        rotate (.listed more) (.value r) .none = .ok s ∧
        rotate (.listed (addOffsets more offsets)) (.value v) .none = .ok s) ↔
        ∃ ms ps qs, Rounds offsets ms ∧ Rounds more ps ∧ Rounds (addOffsets more offsets) qs ∧
          v.SameTurn (addOffsets ps ms) qs)) ∧
    ((∃ r, rotate (.listed offsets) (.value v) .none = .ok r ∧
      rotate (.listed (offsets.map (- ·))) (.value r) .none = .ok v) ↔
      ∀ n ∈ offsets, (Binary64.rounded? n).isSome) ∧
    ∀ {α : Type} (by_ : List Int) {s : Shape}, s.Natural → ∀ (start : Nat) (items : List α),
      let rotated := rotateSection by_ s (Int.ofNat start) items
      rotated = rotateBetween by_ s (Int.ofNat start) items ∧ rotated.length = items.length ∧
        ∀ p, p < start ∨ start + s.cellCount ≤ p → rotated[p]? = items[p]? := by
  refine ⟨fun by_ read => ⟨turnsBy_of_read hv few read, fun r rotated => ?_⟩,
    turnsBy_listed_iff hv few, fun more fewer => rotate_listed_twice_iff hv few fewer,
    rotate_listed_back_iff hv few, ?_⟩
  · obtain rfl := Except.ok.inj ((rotate_of_read hv few read).symm.trans rotated)
    refine ⟨fun more again both first sum => rotate_turned hv few first sum,
      fun back opposite => ?_⟩
    rw [rotate_of_read (hv.turned offsets) _ opposite, hv.turned_back]
    rwa [Value.rank_turned, List.length_map]
  · intro α by_ s natural start items rotated
    exact ⟨rotateSection_eq_rotateBetween .., rotateSection_frame by_ natural start items⟩

/-- Letters in two rows are rotated along both axes, and back by the opposite offsets. -/
theorem letters_rotated_back :
    let offsets : Operand := .value (.number ⟨[2], [.ofBits 0x4014000000000000,
      .ofBits 0xc000000000000000]⟩)
    let back : Operand := .value (.number ⟨[2], [.ofBits 0xc014000000000000,
      .ofBits 0x4000000000000000]⟩)
    let letters : Value := .character ⟨[2, 3], ['a', 'b', 'c', 'd', 'e', 'f']⟩
    letters.WellFormed ∧ [5, -2].length ≤ letters.rank ∧
      (∃ r, rotate offsets (.value letters) .none = .ok r ∧
        r.cell? [1, 0] = some (.character 'b') ∧ rotate back (.value r) .none = .ok letters) ∧
      letters.TurnsBy (.listed [5, -2]) [5, -2] := by
  intro offsets back letters
  have hv : letters.WellFormed := .character (by decide)
  have few : [(5 : Int), -2].length ≤ letters.rank := by decide
  have given : Rounds [5, -2] [5, -2] :=
    .cons (by decide +kernel) (.cons (by decide +kernel) .nil)
  obtain ⟨reads, listed, -⟩ := rotate_acts_cyclically hv few
  obtain ⟨⟨r, rotated, -, -, -, cells⟩, others⟩ := reads offsets rfl
  exact ⟨hv, few, ⟨r, rotated, cells [1, 0] (by decide), (others r rotated).2 back rfl⟩,
    listed.mpr ⟨_, given, fun _ _ => rfl⟩⟩

/-- Three letters should come back to where they are when they are rotated by a multiple of three.
But the offset is odd, so a smaller one is stored for it, and it is not the sum of `2 ^ 53` and
one any more. -/
theorem odd_offset_turns_letters :
    let letters : Value := .character ⟨[3], ['a', 'b', 'c']⟩
    letters.WellFormed ∧ [(2 : Int) ^ 53 + 1].length ≤ letters.rank ∧
      (2 ^ 53 + 1) % (3 : Int) = 0 ∧
      rotate (.listed [2 ^ 53 + 1]) (.value letters) .none =
        .ok (.character ⟨[3], ['c', 'a', 'b']⟩) ∧
      ¬ letters.TurnsBy (.listed [2 ^ 53 + 1]) [2 ^ 53 + 1] ∧
      addOffsets [2 ^ 53] [1] = [2 ^ 53 + 1] ∧
      ¬ ∃ r s, rotate (.listed [1]) (.value letters) .none = .ok r ∧
        rotate (.listed [2 ^ 53]) (.value r) .none = .ok s ∧
        rotate (.listed [2 ^ 53 + 1]) (.value letters) .none = .ok s := by
  intro letters
  have hv : letters.WellFormed := .character (by decide)
  have odd : Rounds [2 ^ 53 + 1] [2 ^ 53] := .cons (by decide +kernel) .nil
  have even : Rounds [2 ^ 53] [2 ^ 53] := .cons (by decide +kernel) .nil
  have one : Rounds [1] [1] := .cons (by decide +kernel) .nil
  have far : Grid.turned [2 ^ 53] (.vector ['a', 'b', 'c']) = .vector ['c', 'a', 'b'] := by
    decide +kernel
  have whole : Grid.turned [2 ^ 53 + 1] (.vector ['a', 'b', 'c']) = .vector ['a', 'b', 'c'] := by
    decide +kernel
  have rotated : rotate (.listed [2 ^ 53 + 1]) (.value letters) .none =
      .ok (.character ⟨[3], ['c', 'a', 'b']⟩) :=
    (rotate_of_read hv (by decide) (Operand.asIntegers_listed odd)).trans
      (congrArg (fun a => Except.ok (Value.character a)) far)
  refine ⟨hv, by decide, by decide, rotated, ?_, by decide, ?_⟩
  · rintro ⟨r, same, -, -, -, cells⟩
    obtain rfl := Except.ok.inj (rotated.symm.trans same)
    have place : letters.shape.turned [2 ^ 53 + 1] [0] = [0] := by decide +kernel
    have first := cells [0] (by decide)
    rw [place] at first
    cases first
  · rintro ⟨r, s, first, second, atOnce⟩
    obtain rfl := Except.ok.inj (rotated.symm.trans atOnce)
    obtain ⟨ps, stored, rfl⟩ := (rotate_listed_eq_ok_iff hv (by decide)).mp first
    obtain rfl := one.unique stored
    obtain ⟨qs, added, turned⟩ := (rotate_listed_eq_ok_iff (hv.turned [1]) (by decide)).mp second
    obtain rfl := even.unique added
    have back : letters.turned [2 ^ 53 + 1] = letters := congrArg Value.character whole
    have sum : addOffsets [2 ^ 53] [1] = [2 ^ 53 + 1] := by decide
    rw [hv.turned_turned, sum, back] at turned
    exact absurd (Value.character.inj turned) (by decide)

end Operations

end RowMajor
