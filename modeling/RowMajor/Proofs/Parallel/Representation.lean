import RowMajor.Operand.Equality
import RowMajor.Proofs.Parallel.Gathering
import RowMajor.Proofs.Parallel.Layout
import RowMajor.Proofs.Parallel.Rotation
import RowMajor.Proofs.Value.Bytes
import RowMajor.Proofs.Value.Cells

/-!
# Bytes do not show

A value of bytes and the numbers it converts to are alike in the keys of their elements. If
the fill value can be used for numbers only, the bytes are promoted and both are the same.
Otherwise there are two fill elements of one key, or there is none on either side. An
operation that only moves elements about therefore gives equal values, or fails in the
same way, whatever the shape of the value, the other operand and the fill value are.
-/

namespace RowMajor

variable {fill : Fill}

/-- An operation that arranges the elements of a value anew, together with the other operand
and the depths that it reads. -/
inductive Rearrangement where
  | reshape (shape : Operand)
  | keep (counts : Operand)
  | take (counts : Operand)
  | drop (counts : Operand)
  | pick (index : Operand)
  | select (indices : Operand)
  | rotate (offsets : Operand)
  | rotateDepth (offsets : Operand) (offsetDepth depth : Int)
  | windows (sizes : Operand)

def Rearrangement.run (fill : Fill) (value : Operand) : Rearrangement → Except Error Value
  | reshape shape => RowMajor.reshape shape value fill
  | keep counts => RowMajor.keep counts value fill
  | take counts => RowMajor.take counts value fill
  | drop counts => RowMajor.drop counts value
  | pick index => RowMajor.pick index value fill
  | select indices => RowMajor.select indices value fill
  | rotate offsets => RowMajor.rotate offsets value fill
  | rotateDepth offsets offsetDepth depth =>
    RowMajor.rotateDepth offsets value offsetDepth depth fill
  | windows sizes => RowMajor.windows sizes value

/-- A byte and a number that equals it. -/
def Binary64.EqualsByte (b : UInt8) (x : Binary64) : Prop :=
  Kind.byte.key b = Kind.number.key x

theorem Grid.alike_ofByte (a : Grid UInt8) :
    Grid.Alike Binary64.EqualsByte a (a.map Binary64.ofByte) := by
  refine ⟨List.forall₂_map_right_iff.mpr (List.forall₂_same.mpr fun b _ => ?_)⟩
  exact (Kind.key_ofByte b).symm

/-- Two values that compare equal. -/
def Value.Equal (v w : Value) : Prop :=
  Operand.equals (.value v) (.value w) = true

theorem Value.equal_iff {v w : Value} : v.Equal w ↔ v.key = w.key := by
  rw [Equal, Operand.equals, beq_iff_eq]

theorem Value.Equal.refl (v : Value) : v.Equal v :=
  equal_iff.mpr rfl

/-- What is alike in the keys of its elements is equal. -/
theorem Grid.Alike.equal {x : Grid UInt8} {y : Grid Binary64}
    (h : Grid.Alike Binary64.EqualsByte x y) : (Value.byte x).Equal (.number y) := by
  obtain ⟨items⟩ := h
  refine Value.equal_iff.mpr (congrArg (Key.value .number _) ?_)
  exact List.forall₂_eq_eq_eq ▸ List.forall₂_map_left_iff.mpr (List.forall₂_map_right_iff.mpr items)

namespace Value

/-- Grids that come out alike are equal values. -/
theorem inStep_equal {x : Except Error (Grid UInt8)} {y : Except Error (Grid Binary64)}
    (h : InStep (Grid.Alike Binary64.EqualsByte) x y) :
    InStep Equal (do .ok (ofGrid (.uniform .byte) (← x)))
      (do .ok (ofGrid (.uniform .number) (← y))) :=
  h.bind fun _ _ alike => alike.equal

/-- Bytes and the numbers they stand for are promoted to one value, or they stay as they are and
have fill elements that equal each other. -/
theorem promoteFor_byte (hf : fill.WellFormed) (a : Grid UInt8) :
    (byte a).promoteFor fill = (number (a.map .ofByte)).promoteFor fill ∨
      (byte a).promoteFor fill = .ok (byte a) ∧
        (number (a.map .ofByte)).promoteFor fill = .ok (number (a.map .ofByte)) ∧
        Filler.Alike Binary64.EqualsByte (fill.filler (.uniform .byte))
          (fill.filler (.uniform .number)) := by
  have stays (v : Value) (uniform : v.form.IsUniform) : v.loosenFor fill = v := by
    rw [loosenFor, hf.overflows_eq uniform]
    rfl
  have numbers : (number (a.map .ofByte)).promoteFor fill = .ok (number (a.map .ofByte)) :=
    congrArg Except.ok (stays _ (Form.isUniform_uniform .number))
  rw [numbers, promoteFor]
  split
  · exact .inl rfl
  · rename_i kept
    rw [stays (byte a) (Form.isUniform_uniform .byte)]
    refine .inr ⟨rfl, rfl, ?_⟩
    rw [hf.fills_eq, hf.fills_eq, hf.element?_byte] at kept
    rw [Fill.filler, Fill.filler, hf.element?_byte]
    cases given : fill.element? (.uniform .number) with
    | none => trivial
    | some x =>
        rw [given, Option.bind_some] at kept
        rw [Option.bind_some]
        cases stored : Binary64.toByte? x with
        | none =>
            rw [stored] at kept
            exact absurd ⟨rfl, Bool.false_ne_true⟩ kept
        | some b =>
            have equal := Binary64.toByte?_eq_some_iff.mp stored
            exact congrArg Key.real equal.symm

/-- An operation that promotes its operand first. -/
theorem inStep_promoteFor {next : Value → Except Error Value} (hf : fill.WellFormed)
    (a : Grid UInt8)
    (stayed : Filler.Alike Binary64.EqualsByte (fill.filler (.uniform .byte))
        (fill.filler (.uniform .number)) →
      InStep Equal (next (byte a)) (next (number (a.map .ofByte)))) :
    InStep Equal ((byte a).promoteFor fill >>= next)
      ((number (a.map .ofByte)).promoteFor fill >>= next) := by
  rcases promoteFor_byte hf a with same | ⟨bytes, numbers, fillers⟩
  · rw [same]
    exact InStep.refl Equal.refl _
  · rw [bytes, numbers]
    exact stayed fillers

end Value

/-- A value is an operand as it is. -/
theorem Operand.toValue_bind {γ : Type} (v : Value) (next : Value → Except Error γ) :
    ((Operand.value v).toValue >>= next) = next v := rfl

theorem reshape_byte (shape : Operand) (hf : fill.WellFormed) (a : Grid UInt8) :
    InStep Value.Equal (reshape shape (.value (.byte a)) fill)
      (reshape shape (.value (.number (a.map .ofByte))) fill) := by
  have alike := a.alike_ofByte
  rw [reshape, reshape, Operand.toValue_bind, Operand.toValue_bind]
  refine InStep.after fun count _ => ?_
  cases count with
  | some count => exact (alike.copies count).equal
  | none =>
      refine InStep.after fun dims _ => ?_
      refine Value.inStep_promoteFor hf a fun fillers => ?_
      exact Value.inStep_equal (alike.reshape fillers dims)

theorem keep_byte (counts : Operand) (fill : Fill) (a : Grid UInt8) :
    InStep Value.Equal (keep counts (.value (.byte a)) fill)
      (keep counts (.value (.number (a.map .ofByte))) fill) := by
  have alike := a.alike_ofByte
  refine InStep.after fun amount _ => ?_
  rw [Operand.toValue_bind, Operand.toValue_bind]
  refine InStep.after fun list _ => ?_
  refine Parallel.ite (fun _ => (alike.repeatRows _).equal) fun _ => ?_
  exact Value.inStep_equal (alike.keep fill list)

theorem take_byte (counts : Operand) (hf : fill.WellFormed) (a : Grid UInt8) :
    InStep Value.Equal (take counts (.value (.byte a)) fill)
      (take counts (.value (.number (a.map .ofByte))) fill) := by
  have alike := a.alike_ofByte
  rw [take, take, Operand.toValue_bind, Operand.toValue_bind]
  refine Parallel.ite (fun _ => rfl) fun _ => ?_
  refine InStep.after fun counts _ => ?_
  refine Value.inStep_promoteFor hf a fun fillers => ?_
  refine InStep.after fun _ _ => ?_
  exact Value.inStep_equal (alike.take fillers .byte .number counts)

theorem drop_byte (counts : Operand) (a : Grid UInt8) :
    InStep Value.Equal (drop counts (.value (.byte a)))
      (drop counts (.value (.number (a.map .ofByte)))) := by
  have alike := a.alike_ofByte
  rw [drop, drop, Operand.toValue_bind, Operand.toValue_bind]
  refine Parallel.ite (fun _ => rfl) fun _ => ?_
  refine InStep.after fun counts _ => ?_
  refine InStep.after fun _ _ => ?_
  exact (alike.drop counts).equal

theorem pick_byte (index : Operand) (hf : fill.WellFormed) (a : Grid UInt8) :
    InStep Value.Equal (pick index (.value (.byte a)) fill)
      (pick index (.value (.number (a.map .ofByte))) fill) := by
  refine InStep.after fun index _ => ?_
  refine Value.inStep_promoteFor hf a fun fillers => ?_
  exact Value.inStep_equal (a.alike_ofByte.pick fillers .byte .number index)

theorem select_byte (indices : Operand) (hf : fill.WellFormed) (a : Grid UInt8) :
    InStep Value.Equal (select indices (.value (.byte a)) fill)
      (select indices (.value (.number (a.map .ofByte))) fill) := by
  refine InStep.after fun index _ => ?_
  refine Value.inStep_promoteFor hf a fun fillers => ?_
  exact Value.inStep_equal (a.alike_ofByte.select fillers index)

theorem rotate_byte (offsets : Operand) (hf : fill.WellFormed) (a : Grid UInt8) :
    InStep Value.Equal (rotate offsets (.value (.byte a)) fill)
      (rotate offsets (.value (.number (a.map .ofByte))) fill) := by
  refine InStep.after fun offsets _ => ?_
  refine Value.inStep_promoteFor hf a fun fillers => ?_
  exact Value.inStep_equal (a.alike_ofByte.rotate fillers offsets)

theorem rotateDepth_byte (offsets : Operand) (offsetDepth depth : Int) (hf : fill.WellFormed)
    (a : Grid UInt8) :
    InStep Value.Equal (rotateDepth offsets (.value (.byte a)) offsetDepth depth fill)
      (rotateDepth offsets (.value (.number (a.map .ofByte))) offsetDepth depth fill) := by
  refine InStep.after fun offsets _ => ?_
  refine Value.inStep_promoteFor hf a fun _ => ?_
  exact Value.inStep_equal (a.alike_ofByte.rotateRows .byte .number depth offsets offsetDepth)

theorem windows_byte (sizes : Operand) (a : Grid UInt8) :
    InStep Value.Equal (windows sizes (.value (.byte a)))
      (windows sizes (.value (.number (a.map .ofByte)))) := by
  rw [windows, windows, Operand.toValue_bind, Operand.toValue_bind]
  refine InStep.after fun sizes _ => ?_
  exact Value.inStep_equal (a.alike_ofByte.windows .byte .number sizes)

namespace Rearrangement

/-- No operation that arranges elements anew can tell bytes from the numbers they convert to:
what it gives for the one equals what it gives for the other, or it fails for both with an
error of one type. -/
theorem run_byte_eq_run_number (op : Rearrangement) (hf : fill.WellFormed) (a : Grid UInt8) :
    ∃ w, Value.convert .number (.byte a) = .ok w ∧
      InStep (fun v v' => Operand.equals (.value v) (.value v') = true)
        (op.run fill (.value (.byte a))) (op.run fill (.value w)) := by
  refine ⟨_, Value.convert_number_byte a, ?_⟩
  cases op with
  | reshape shape => exact reshape_byte shape hf a
  | keep counts => exact keep_byte counts fill a
  | take counts => exact take_byte counts hf a
  | drop counts => exact drop_byte counts a
  | pick index => exact pick_byte index hf a
  | select indices => exact select_byte indices hf a
  | rotate offsets => exact rotate_byte offsets hf a
  | rotateDepth offsets offsetDepth depth => exact rotateDepth_byte offsets offsetDepth depth hf a
  | windows sizes => exact windows_byte sizes a

/-- More rows are taken than there are. The fill value is a byte, so the bytes stay
bytes, and the numbers are filled with the number that the byte stands for. -/
theorem take_filled_byte_eq_number :
    let op : Rearrangement := .take (.value (.byte ⟨[1], [3]⟩))
    let fill : Fill := ⟨some (.byte (.scalar 7))⟩
    let a : Grid UInt8 := ⟨[2], [1, 2]⟩
    fill.WellFormed ∧ op.run fill (.value (.byte a)) = .ok (.byte ⟨[3], [1, 2, 7]⟩) ∧
      ∃ w, Value.convert .number (.byte a) = .ok w ∧
        InStep (fun v v' => Operand.equals (.value v) (.value v') = true)
          (op.run fill (.value (.byte a))) (op.run fill (.value w)) := by
  intro op fill a
  have hf : fill.WellFormed := by
    rintro v ⟨⟩
    exact .byte (Grid.wellFormed_scalar 7)
  exact ⟨hf, rfl, run_byte_eq_run_number op hf a⟩

end Rearrangement

end RowMajor
