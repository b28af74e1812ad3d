import RowMajor.Proofs.Reshape.Layout
import RowMajor.Proofs.Value.Bytes

/-!
# Undoing a reshape

As long as no element was left out or added, a reshaped value has the elements of the value that it
was made from, in the same order, and under the old shape it equals this value again. Bytes that
were promoted are still the same numbers. With any other number of elements the reshape is not
undone. If the old shape is given as a list of integers, its axis lengths must be numbers.
-/

namespace RowMajor

variable {fill : Fill} {dims : List Int}

/-- Elements that are laid out are the same if there are as many. -/
theorem Grid.IsLaidOut.items_eq {α : Type} {a t : Grid α} {filler : Option α}
    (laid : a.IsLaidOut filler dims t) (same : t.items.length = a.items.length) :
    t.items = a.items := by
  refine List.ext_getElem? fun i => ?_
  by_cases below : i < t.items.length
  · rw [laid.items i below, if_pos (same ▸ below)]
  · rw [List.getElem?_eq_none (Nat.not_lt.mp below),
      List.getElem?_eq_none (Nat.not_lt.mp (same ▸ below))]

namespace Value

variable {v w r : Value} {s : Shape}

/-- Bytes that are promoted for a fill value equal the numbers that they become. -/
theorem key_of_promoted (hv : v.WellFormed) (hf : fill.WellFormed)
    (promoted : v.promoteFor fill = .ok w) : w.key = v.key := by
  obtain rfl | ⟨bytes, rfl, rfl, -⟩ := eq_or_byte_of_promoted hf hv promoted
  · rfl
  · have keys := congrArg Grid.items (Grid.map_key_ofByte bytes)
    exact congrArg (Key.value .number bytes.shape) keys

/-- Under the old shape the same number of elements make up an equal value. -/
theorem key_withShape_of_reshape (hv : v.WellFormed) (hf : fill.WellFormed)
    (done : v.reshape fill dims = .ok r) (same : r.elementCount = v.elementCount) :
    (r.withShape v.shape).key = v.key := by
  obtain ⟨w, promoted, wf, shape⟩ := promoteFor_wellFormed hf hv
  obtain ⟨t, rfl, laid⟩ := exists_grid_of_reshape wf.holds.wellFormed promoted done
  have count : w.elementCount = v.elementCount := by
    rw [elementCount, elementCount, wf.holds.length_eq, hv.holds.length_eq]
    exact congrArg Shape.cellCount shape
  rw [elementCount_ofGrid] at same
  have items : t.items = w.grid.items := laid.items_eq (same.trans count.symm)
  have back : (ofGrid w.form t).withShape v.shape = w := by
    rw [withShape_ofGrid, Grid.withShape, items, ← shape]
    exact ofGrid_grid w
  rw [back]
  exact key_of_promoted hv hf promoted

theorem unreshape_eq_ok (size : s.size = Int.ofNat v.elementCount) :
    v.unreshape s = .ok (v.withShape s) :=
  if_pos size

theorem shape_of_unreshape (undone : v.unreshape s = .ok r) : r.shape = s := by
  rw [unreshape] at undone
  split at undone
  · cases undone
    exact shape_withShape s v
  · cases undone

theorem shape_eq_of_key_eq (equal : v.key = r.key) : v.shape = r.shape := by
  rw [key_eq, key_eq] at equal
  exact (Key.value.inj equal).2.1

theorem unreshape_refused_iff :
    (∃ cause, v.unreshape s = .error (.inverse cause)) ↔ s.size ≠ Int.ofNat v.elementCount := by
  rw [unreshape]
  split
  · rename_i size
    refine iff_of_false ?_ (not_not_intro size)
    rintro ⟨cause, ⟨⟩⟩
  · rename_i other
    exact iff_of_true ⟨_, rfl⟩ other

theorem WellFormed.size_eq (h : v.WellFormed) : v.shape.size = Int.ofNat v.elementCount :=
  h.holds.wellFormed.fits.symm

/-- Under the old shape a reshape is undone if it kept the number of elements, and refused to be
undone otherwise. -/
theorem unreshape_of_reshape (hv : v.WellFormed) (hf : fill.WellFormed)
    (done : v.reshape fill dims = .ok r) :
    (r.elementCount = v.elementCount → ∃ b, r.unreshape v.shape = .ok b ∧ b.key = v.key) ∧
      (r.elementCount ≠ v.elementCount →
        ∃ cause, r.unreshape v.shape = .error (.inverse cause)) := by
  constructor
  · intro same
    have size : v.shape.size = Int.ofNat r.elementCount := same ▸ hv.size_eq
    exact ⟨_, unreshape_eq_ok size, key_withShape_of_reshape hv hf done same⟩
  · intro other
    rw [unreshape_refused_iff, hv.size_eq]
    exact fun same => other (Int.ofNat_inj.mp same).symm

end Value

namespace Operand

/-- The operand holds the lengths of the axes, and is not a natural number on its own. -/
structure GivesShape (x : Operand) (s : Shape) : Prop where
  several : x.asNatural? = .ok none
  read : x.asNaturals .oldShape = .ok (s.map Int.toNat)

theorem givesShape_listed {s t : Shape} (natural : s.Natural) (rounds : Rounds s t) :
    (listed s).GivesShape t :=
  ⟨asNatural?_listed rounds, asNaturals_listed rounds natural⟩

end Operand

section

variable {old : Operand} {s : Shape} {v r b : Value}

theorem unreshape_given (natural : s.Natural) (given : old.GivesShape s) (v : Value) :
    unreshape (.value v) old = v.unreshape s := by
  show (old.asNatural? >>= _) = _
  rw [given.several]
  show (old.asNaturals .oldShape >>= fun lengths => v.unreshape (.ofNats lengths)) = _
  rw [given.read]
  exact congrArg v.unreshape (Shape.ofNats_toNat natural)

/-- A list of axis lengths stands for the rounded lengths, unless one of them is too large. -/
theorem unreshape_listed (natural : s.Natural) (v : Value) :
    (∃ lengths, Rounds s lengths ∧
      unreshape (.value v) (.listed s) = v.unreshape lengths) ∨
    unreshape (.value v) (.listed s) = .error .tooLarge := by
  obtain ⟨lengths, rounds⟩ | ⟨d, mem, large⟩ := exists_rounds_or_large s
  · exact .inl ⟨lengths, rounds, unreshape_given (rounds.natural natural)
      (Operand.givesShape_listed natural rounds) v⟩
  · refine .inr ?_
    show ((Operand.listed s).asNatural? >>= _) = _
    rw [Operand.asNatural?_listed_of_large mem large]
    rfl

/-- What is put back from a list has the rounded lengths. -/
theorem rounds_of_unreshape_listed (natural : s.Natural)
    (undone : unreshape (.value r) (.listed s) = .ok b) : Rounds s b.shape := by
  obtain ⟨lengths, rounds, read⟩ | large := unreshape_listed natural r
  · rw [read] at undone
    rwa [Value.shape_of_unreshape undone]
  · cases large.symm.trans undone

theorem unreshape_listed_refused_iff (natural : s.Natural) :
    (∃ cause, unreshape (.value r) (.listed s) = .error (.inverse cause)) ↔
      ∃ lengths, Rounds s lengths ∧ Shape.size lengths ≠ Int.ofNat r.elementCount := by
  constructor
  · rintro ⟨cause, refused⟩
    obtain ⟨lengths, rounds, read⟩ | large := unreshape_listed natural r
    · exact ⟨lengths, rounds, Value.unreshape_refused_iff.mp ⟨cause, read ▸ refused⟩⟩
    · cases large.symm.trans refused
  · rintro ⟨lengths, rounds, differ⟩
    rw [unreshape_given (rounds.natural natural) (Operand.givesShape_listed natural rounds)]
    exact Value.unreshape_refused_iff.mpr differ

/-- A reshape that succeeds has read dimensions. -/
theorem exists_dims_of_reshape {shape : Operand} (several : shape.asNatural? = .ok none)
    (done : reshape shape (.value v) fill = .ok r) : ∃ dims, v.reshape fill dims = .ok r := by
  rw [reshape_of_several several] at done
  cases read : shape.asIntegers .newShape with
  | error e =>
      rw [read] at done
      cases done
  | ok dims =>
      rw [read] at done
      exact ⟨dims, done⟩

end

/-- A reshape is undone, up to equality, if it kept the number of elements, and refused to be undone
otherwise, provided that the operand holds the old shape. A list of the axis lengths does so if all
of them are numbers. If the number of elements is another one, it is enough that the rounded lengths
do not ask for just as many. -/
theorem unreshape_undoes_reshape_iff {a r : Value} {shape : Operand} (ha : a.WellFormed)
    (hf : fill.WellFormed) (several : shape.asNatural? = .ok none)
    (done : reshape shape (.value a) fill = .ok r) :
    (∀ old : Operand, old.GivesShape a.shape →
      (r.elementCount = a.elementCount →
        ∃ b, unreshape (.value r) old = .ok b ∧ b.key = a.key) ∧
      (r.elementCount ≠ a.elementCount →
        ∃ cause, unreshape (.value r) old = .error (.inverse cause))) ∧
    (r.elementCount = a.elementCount →
      ((∃ b, unreshape (.value r) (.listed a.shape) = .ok b ∧ b.key = a.key) ↔
        ∀ d ∈ a.shape, Binary64.rounded? d = some d)) ∧
    (r.elementCount ≠ a.elementCount →
      ((∃ cause, unreshape (.value r) (.listed a.shape) = .error (.inverse cause)) ↔
        ∃ lengths, Rounds a.shape lengths ∧
          Shape.size lengths ≠ Int.ofNat r.elementCount)) := by
  obtain ⟨dims, done⟩ := exists_dims_of_reshape several done
  have natural : a.shape.Natural := ha.natural
  have undoes := Value.unreshape_of_reshape ha hf done
  refine ⟨fun old given => ?_, fun same => ⟨?_, fun stays => ?_⟩, fun _ => ?_⟩
  · rw [unreshape_given natural given]
    exact undoes
  · rintro ⟨b, undone, equal⟩
    have rounds := rounds_of_unreshape_listed natural undone
    exact rounds.eq_iff.mp (Value.shape_eq_of_key_eq equal)
  · rw [unreshape_given natural (Operand.givesShape_listed natural (rounds_self_iff.mpr stays))]
    exact undoes.1 same
  · exact unreshape_listed_refused_iff natural

/-- Bytes that are laid out in rows as numbers, with nothing left to fill, are put back as a value
that equals them. -/
theorem numbers_put_back_as_bytes :
    let bytes : Value := .byte ⟨[4], [1, 2, 3, 4]⟩
    let half : Binary64 := .ofBits 0x3fe0000000000000
    let fill : Fill := ⟨some (.number ⟨[], [half]⟩)⟩
    bytes.WellFormed ∧ fill.WellFormed ∧ (Operand.listed [2, -1]).asNatural? = .ok none ∧
      ∃ r b, reshape (.listed [2, -1]) (.value bytes) fill = .ok r ∧
        r = .number ⟨[2, 2], [1, 2, 3, 4].map .ofByte⟩ ∧
        unreshape (.value r) (.listed bytes.shape) = .ok b ∧ b.key = bytes.key := by
  intro bytes half fill
  have ha : bytes.WellFormed := .byte (by decide)
  have hf : fill.WellFormed := by
    intro v given
    cases given
    exact .number (by decide)
  have rounds : Rounds [2, -1] [2, -1] := rounds_self_iff.mpr (by decide +kernel)
  have several : (Operand.listed [2, -1]).asNatural? = .ok none := Operand.asNatural?_listed rounds
  have done : reshape (.listed [2, -1]) (.value bytes) fill =
      .ok (.number ⟨[2, 2], [1, 2, 3, 4].map .ofByte⟩) := by
    rw [reshape_dims (Operand.givesDims_listed rounds)]
    rfl
  obtain ⟨-, same, -⟩ := unreshape_undoes_reshape_iff ha hf several done
  obtain ⟨b, undone, equal⟩ := (same (List.length_map _)).mpr (by decide +kernel)
  exact ⟨ha, hf, several, _, b, done, rfl, undone, equal⟩

/-- Without elements every shape that has an axis of length zero is lossless, but an axis length
that is no number is put back as another one. -/
theorem odd_axis_not_put_back :
    let empty : Value := .byte ⟨[9007199254740993, 0], []⟩
    let row : Value := .byte ⟨[0], []⟩
    let dims : Operand := .value (.byte ⟨[1], [0]⟩)
    empty.WellFormed ∧ dims.asNatural? = .ok none ∧
      reshape dims (.value empty) .none = .ok row ∧
      row.elementCount = empty.elementCount ∧
      unreshape (.value row) (.listed empty.shape) = .ok (.byte ⟨[9007199254740992, 0], []⟩) ∧
      ¬ ∃ b, unreshape (.value row) (.listed empty.shape) = .ok b ∧ b.key = empty.key := by
  intro empty row dims
  have natural : empty.shape.Natural := by decide
  have rounds : Rounds empty.shape [9007199254740992, 0] :=
    .cons (by decide +kernel) (.cons (by decide +kernel) .nil)
  have shorter : unreshape (.value row) (.listed empty.shape) =
      .ok (.byte ⟨[9007199254740992, 0], []⟩) := by
    rw [unreshape_given (rounds.natural natural) (Operand.givesShape_listed natural rounds)]
    rfl
  refine ⟨.byte (by decide), rfl, rfl, rfl, shorter, ?_⟩
  rintro ⟨b, undone, equal⟩
  cases shorter.symm.trans undone
  exact absurd (Value.shape_eq_of_key_eq equal) (by decide)

end RowMajor
