import RowMajor.Value.Basic

/-!
# Keys

Two values are equal when their keys are. A key forgets how a number is stored: bytes,
numbers and complex numbers without an imaginary part have the key of the number they
stand for, the two zeros share a key, and every NaN has the same one. The key of a
value records its family, its shape and the keys of its elements, so equality looks
through boxes to any depth.

Complex numbers that stand in a value of another kind are compared as they are, and
equal none of those that stand among their own kind, unless the imaginary part is zero.
-/

namespace RowMajor

/-- The kinds that can be equal to one another. -/
inductive Family where
  | number
  | character
  | box
deriving DecidableEq

namespace Family

def name : Family → String
  | .number => "number"
  | .character => "character"
  | .box => "box"

end Family

def Kind.family : Kind → Family
  | .number => .number
  | .byte => .number
  | .complex => .number
  | .character => .character
  | .box => .box

inductive Key where
  | real (x : Binary64)
  | complex (re im : Binary64)
  /-- A complex number among elements of another kind. -/
  | strayComplex (re im : Binary64)
  | character (c : Char)
  | value (family : Family) (shape : Shape) (items : List Key)

namespace Key

mutual

def decideEq : (a b : Key) → Decidable (a = b)
  | .real x, .real y => decidable_of_iff (x = y) (by simp)
  | .complex x y, .complex u v => decidable_of_iff (x = u ∧ y = v) (by simp)
  | .strayComplex x y, .strayComplex u v => decidable_of_iff (x = u ∧ y = v) (by simp)
  | .character c, .character d => decidable_of_iff (c = d) (by simp)
  | .value f s xs, .value g t ys =>
    have := decideListEq xs ys
    decidable_of_iff (f = g ∧ s = t ∧ xs = ys) (by simp)
  | .real _, .complex .. | .real _, .strayComplex .. | .real _, .character _
  | .real _, .value .. => isFalse (by simp)
  | .complex .., .real _ | .complex .., .strayComplex .. | .complex .., .character _
  | .complex .., .value .. => isFalse (by simp)
  | .strayComplex .., .real _ | .strayComplex .., .complex .. | .strayComplex .., .character _
  | .strayComplex .., .value .. => isFalse (by simp)
  | .character _, .real _ | .character _, .complex .. | .character _, .strayComplex ..
  | .character _, .value .. => isFalse (by simp)
  | .value .., .real _ | .value .., .complex .. | .value .., .strayComplex ..
  | .value .., .character _ => isFalse (by simp)

def decideListEq : (xs ys : List Key) → Decidable (xs = ys)
  | [], [] => isTrue rfl
  | x :: xs, y :: ys =>
    have := decideEq x y
    have := decideListEq xs ys
    decidable_of_iff (x = y ∧ xs = ys) (by simp)
  | [], _ :: _ => isFalse (by simp)
  | _ :: _, [] => isFalse (by simp)

end

instance : DecidableEq Key := decideEq

/-- A zero imaginary part leaves the key of the real part. -/
def ofComplex (z : Complex) : Key :=
  if z.im.isZero then .real z.re.key else .complex z.re.key z.im.key

/-- A stray complex number equals a real one if its imaginary part is zero, and one with a NaN
for a part counts as a NaN. -/
def ofStray (z : Complex) : Key :=
  if z.re = .nan ∨ z.im = .nan then .real .nan
  else if z.im.isZero then .real z.re.key
  else .strayComplex z.re.key z.im.key

def ofByte (b : UInt8) : Key :=
  .real (Binary64.ofByte b)

end Key

namespace Value

mutual

def key : Value → Key
  | .number a => .value .number a.shape (a.items.map fun x => .real x.key)
  | .byte a => .value .number a.shape (a.items.map Key.ofByte)
  | .complex a => .value .number a.shape (a.items.map Key.ofComplex)
  | .character a => .value .character a.shape (a.items.map Key.character)
  | .box ⟨shape, items⟩ => .value .box shape (keys items)
  | .mixed kind ⟨shape, items⟩ => .value kind.family shape (itemKeys kind items)

def keys : List Value → List Key
  | [] => []
  | v :: values => v.key :: keys values

/-- The key of an element of a mixed value that goes by the given kind. -/
def itemKey (kind : Kind) : Item Value → Key
  | .number x => .real x.key
  | .byte b => Key.ofByte b
  | .complex z => if kind = .complex then Key.ofComplex z else Key.ofStray z
  | .character c => .character c
  | .box v => v.key

def itemKeys (kind : Kind) : List (Item Value) → List Key
  | [] => []
  | x :: items => itemKey kind x :: itemKeys kind items

end

theorem keys_eq_map (values : List Value) : keys values = values.map key := by
  induction values with
  | nil => rfl
  | cons v values ih => simp [keys, ih]

theorem itemKeys_eq_map (kind : Kind) (items : List (Item Value)) :
    itemKeys kind items = items.map (itemKey kind) := by
  induction items with
  | nil => rfl
  | cons x items ih => simp [itemKeys, ih]

end Value

/-- The key of a single element among its own kind. -/
def Kind.key : (k : Kind) → k.Element → Key
  | .number, x => .real x.key
  | .byte, b => Key.ofByte b
  | .complex, z => Key.ofComplex z
  | .character, c => .character c
  | .box, v => v.key

/-- The key of a single element of a value. -/
def Form.key : (f : Form) → f.Element → Key
  | .uniform k, x => k.key x
  | .mixed k, x => Value.itemKey k x

theorem Value.key_eq (v : Value) :
    v.key = .value v.kind.family v.shape (v.grid.items.map v.form.key) := by
  cases v with
  | box a => rw [key, keys_eq_map]; rfl
  | mixed k a => rw [key, itemKeys_eq_map]; rfl
  | _ => rfl

end RowMajor
