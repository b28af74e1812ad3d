import RowMajor.Proofs.Binary64.Magnitudes
import RowMajor.Proofs.Value.Cells
import RowMajor.Proofs.Value.Filling
import RowMajor.Value.Key

/-!
# Bytes as numbers

A byte is the number that stands for it, and keys do not tell the two apart. Converting a
value of bytes to numbers keeps the keys of its elements, and bytes are filled with those
fill elements of numbers that are bytes.
-/

namespace RowMajor

theorem byteOfInt?_eq_some_iff {n : Int} {b : UInt8} :
    byteOfInt? n = some b ↔ n = Int.ofNat b.toNat := by
  have small := b.toNat_lt
  rw [byteOfInt?, Option.ite_none_right_eq_some, Option.some.injEq, ← UInt8.toNat_inj,
    UInt8.toNat_ofNat', Int.ofNat_eq_natCast]
  omega

namespace Binary64

/-- The byte that a number equals, if it equals one. -/
def toByte? (x : Binary64) : Option UInt8 :=
  x.toInt?.bind byteOfInt?

theorem toByte?_ofByte (b : UInt8) : (ofByte b).toByte? = some b := by
  rw [toByte?, toInt?_ofByte, Option.bind_some, byteOfInt?_eq_some_iff]

theorem key_ofByte (b : UInt8) : (ofByte b).key = ofByte b :=
  key_ofRank_plus _

/-- The numbers that equal a byte are those that have its key. -/
theorem toByte?_eq_some_iff {x : Binary64} {b : UInt8} :
    x.toByte? = some b ↔ x.key = ofByte b := by
  constructor
  · intro equal
    obtain ⟨n, whole, byte⟩ := Option.bind_eq_some_iff.mp equal
    obtain rfl := byteOfInt?_eq_some_iff.mp byte
    rw [← key_ofByte]
    exact (toInt?_eq_iff whole (toInt?_ofByte b)).mp rfl
  · intro same
    rw [toByte?, ← toInt?_key, same]
    exact toByte?_ofByte b

/-- Bytes as integers are stored as the numbers that stand for them. -/
theorem ofInt?_byte (b : UInt8) : ofInt? (Int.ofNat b.toNat) = some (ofByte b) := by
  have whole := toInt?_ofByte b
  rw [ofByte, ← ofSmallInt_ofNat] at whole ⊢
  exact ofInt?_eq_some whole

end Binary64

theorem Kind.key_ofByte (b : UInt8) : Kind.number.key (Binary64.ofByte b) = Kind.byte.key b :=
  congrArg Key.real (Binary64.key_ofByte b)

theorem Grid.map_key_ofByte (a : Grid UInt8) :
    (a.map Binary64.ofByte).map Kind.number.key = a.map Kind.byte.key := by
  rw [Grid.map, Grid.map, Grid.map, List.map_map]
  exact congrArg (Grid.mk a.shape) (List.map_congr_left fun b _ => Kind.key_ofByte b)

/-- Bytes are filled with what numbers are filled with, where that is a byte. -/
theorem Kind.fillElement?_byte {v : Value} (h : v.WellFormed) :
    Kind.byte.fillElement? v = (Kind.number.fillElement? v).bind Binary64.toByte? := by
  cases h with
  | @number a _ =>
      match a with
      | ⟨[], [_]⟩ | ⟨[], []⟩ | ⟨[], _ :: _ :: _⟩ | ⟨_ :: _, _⟩ => rfl
  | @byte a _ =>
      match a with
      | ⟨[], [b]⟩ =>
          have stored : Kind.number.fillElement? (.byte ⟨[], [b]⟩) = some (.ofByte b) := rfl
          rw [stored, Option.bind_some, Binary64.toByte?_ofByte]
          rfl
      | ⟨[], []⟩ | ⟨[], _ :: _ :: _⟩ | ⟨_ :: _, _⟩ => rfl
  | complex _ => rfl
  | character _ => rfl
  | box _ _ => rfl

theorem Fill.WellFormed.element?_byte {fill : Fill} (h : fill.WellFormed) :
    fill.element? (.uniform .byte) =
      (fill.element? (.uniform .number)).bind Binary64.toByte? := by
  rw [Fill.element?, Fill.element?]
  cases present : fill.value with
  | none => rfl
  | some v => exact Kind.fillElement?_byte (h v present)

namespace Value

/-- Where every element can be stored in another kind, conversion stores them one by one. -/
theorem convert_eq_ok {k target : Kind} {store : k.Element → target.Element} (other : k ≠ target)
    (stores : ∀ x, target.coerce ((Form.uniform k).leaf x) = .ok (store x)) (a : Grid k.Element) :
    convert target (ofGrid (.uniform k) a) = .ok (ofGrid (.uniform target) (a.map store)) := by
  have kind : (ofGrid (.uniform k) a).kind ≠ target := by
    rw [kind_ofGrid]
    exact other
  have leaves : (ofGrid (.uniform k) a).leaves = a.map (Form.uniform k).leaf :=
    form_grid_ofGrid (f := .uniform k) (fun f b => b.map f.leaf) a
  have stored : (a.items.map (Form.uniform k).leaf).mapM target.coerce =
      .ok (a.items.map store) := by
    rw [List.mapM_map]
    exact Outcome.mapM_eq_ok fun x _ => stores x
  rw [convert, if_neg kind, leaves, Grid.items_map, stored, shape_ofGrid]
  rfl

theorem coerceNumber_byte (b : UInt8) :
    Kind.coerceNumber (.integer (Int.ofNat b.toNat)) = .ok (.ofByte b) := by
  rw [Kind.coerceNumber, Operand.toReal?, Binary64.ofInt?_byte, Option.elim_some,
    Option.getD_some]

/-- A byte is stored among numbers as the number that stands for it. -/
theorem convert_number_byte (a : Grid UInt8) :
    convert .number (.byte a) = .ok (.number (a.map .ofByte)) :=
  have other : Kind.byte ≠ .number := by decide
  convert_eq_ok other coerceNumber_byte a

theorem key_byte_inj {a b : Grid UInt8} : (byte a).key = (byte b).key ↔ a = b := by
  refine ⟨fun same => ?_, congrArg fun c => (byte c).key⟩
  obtain ⟨-, shape, keys⟩ := Key.value.inj same
  have injective : Key.ofByte.Injective := fun _ _ h => Binary64.ofByte_inj.mp (Key.real.inj h)
  have items := List.map_injective_iff.mpr injective keys
  obtain ⟨_, _⟩ := a
  obtain ⟨_, _⟩ := b
  cases shape
  cases items
  rfl

end Value

end RowMajor
