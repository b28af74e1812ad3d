/-!
# Indices

An index along an axis, or into a list, of length `n` is an integer from `-n` up to, but
not including, `n`. A negative index counts from the end. Along an axis of negative
length there are no indices.

A bound of a part of a list is an integer as well. It counts from the end if it is
negative, and one that lies beyond either end of the list means that end.
-/

namespace RowMajor

/-- The position that an index means, if it is within bounds. -/
def resolveIndex (i length : Int) : Option Nat :=
  if i < -length ∨ length ≤ i then none
  else some (if 0 ≤ i then i.toNat else (length + i).toNat)

/-- A resolved index is a position within the length. -/
theorem resolveIndex_lt {i length : Int} {p : Nat} (h : resolveIndex i length = some p) :
    Int.ofNat p < length := by
  simp only [resolveIndex] at h
  split at h
  · cases h
  · simp only [Option.some.injEq] at h
    split at h <;> simp only [Int.ofNat_eq_natCast] <;> omega

/-- The position that a bound means in a list of the given length. -/
def resolveBound (i : Int) (length : Nat) : Nat :=
  if 0 ≤ i then min i.toNat length else (Int.ofNat length + i).toNat

@[simp] theorem resolveBound_ofNat (n length : Nat) :
    resolveBound (Int.ofNat n) length = min n length := rfl

variable {α : Type}

/-- The items from one bound up to another. -/
def between (start stop : Int) (items : List α) : List α :=
  let first := resolveBound start items.length
  (items.drop first).take (resolveBound stop items.length - first)

/-- Between bounds that are positions, nothing is cut short but at the end of the list. -/
theorem between_ofNat {start : Nat} {items : List α} (h : start ≤ items.length) (stop : Nat) :
    between (Int.ofNat start) (Int.ofNat stop) items = (items.drop start).take (stop - start) := by
  simp only [between, resolveBound_ofNat, Nat.min_eq_left h]
  rw [List.take_eq_take_iff, List.length_drop]
  omega

/-- Change the items from one bound up to another. If the second bound comes before the first,
there are no such items, and what is new stands at the first bound. -/
def changeBetween (start stop : Int) (change : List α → List α) (items : List α) : List α :=
  let first := resolveBound start items.length
  let last := max first (resolveBound stop items.length)
  items.take first ++ change ((items.drop first).take (last - first)) ++ items.drop last

end RowMajor
