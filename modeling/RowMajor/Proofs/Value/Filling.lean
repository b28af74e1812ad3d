import RowMajor.Proofs.Value.WellFormed

/-!
# Well-formed fill values

What a well-formed fill value gives to a uniform form is a valid element of it. Only mixed
values can have elements that a uniform form has no room for, so an operation on
well-formed operands stays in the form it began with, apart from bytes that are promoted.
-/

namespace RowMajor

/-- The fill value is well formed if there is one. -/
def Fill.WellFormed (fill : Fill) : Prop :=
  ∀ v, fill.value = some v → v.WellFormed

variable {fill : Fill} {v : Value}

/-- Mixed forms are filled with the same element as uniform ones. -/
theorem Kind.fillItem?_eq (k : Kind) (h : v.WellFormed) :
    k.fillItem? v = (k.fillElement? v).map k.item := by
  cases h <;> cases k <;> rfl

theorem Kind.valid_of_fillElement? {k : Kind} {x : k.Element} (h : v.WellFormed)
    (given : k.fillElement? v = some x) : k.Valid x := by
  cases k with
  | number => trivial
  | byte => trivial
  | complex => trivial
  | character => trivial
  | box =>
      cases h with
      | number h => cases given; exact .number h
      | byte h => cases given; exact .byte h
      | complex h => cases given; exact .complex h
      | character h => cases given; exact .character h
      | @box a h inner =>
          match a, h, inner, given with
          | ⟨[], [v]⟩, _, inner, given =>
              cases given
              exact inner _ List.mem_cons_self
          | ⟨[], []⟩, h, inner, given => cases given; exact .box h inner
          | ⟨[], _ :: _ :: _⟩, h, inner, given => cases given; exact .box h inner
          | ⟨_ :: _, _⟩, h, inner, given => cases given; exact .box h inner

namespace Fill

/-- The element that there is to fill with is the one that a fill value stands for. -/
theorem toOption_filler (fill : Fill) (f : Form) :
    (fill.filler f).toOption = fill.element? f := by
  rw [filler]
  split <;> rename_i given <;> rw [given] <;> rfl

theorem filler_eq_ok_iff {f : Form} {x : f.Element} :
    fill.filler f = .ok x ↔ fill.element? f = some x := by
  rw [filler]
  split
  · rename_i given
    rw [given, Except.ok.injEq, Option.some.injEq]
  · rename_i missing
    rw [missing]
    exact iff_of_false (fun given => nomatch given) fun given => nomatch given

/-- Without a fill element it is said what is missing. -/
theorem filler_eq_error_iff {f : Form} {why : MissingFill} :
    fill.filler f = .error why ↔ fill.element? f = Option.none ∧ why = fill.missing f.kind := by
  rw [filler]
  split
  · rename_i given
    rw [given]
    exact iff_of_false (fun missing => nomatch missing) fun missing => nomatch missing.1
  · rename_i missing
    rw [missing, and_iff_right rfl, Except.error.injEq, eq_comm]

theorem WellFormed.valid_of_element? {f : Form} {x : f.Element} (h : fill.WellFormed)
    (uniform : f.IsUniform) (given : fill.element? f = some x) : f.Valid x := by
  obtain ⟨v, present, supplied⟩ := Option.bind_eq_some_iff.mp given
  match f, uniform, x, supplied with
  | .uniform k, _, x, supplied => exact Kind.valid_of_fillElement? (h v present) supplied

theorem WellFormed.fills_eq (h : fill.WellFormed) (k : Kind) :
    fill.fills k = (fill.element? (.uniform k)).isSome := by
  rw [fills, element?, element?]
  cases present : fill.value with
  | none => rfl
  | some v =>
      have same : Form.fillElement? (.mixed k) v = (k.fillElement? v).map k.item :=
        Kind.fillItem?_eq k (h v present)
      rw [Option.bind_some, Option.bind_some, same, Option.isSome_map]
      rfl

/-- A uniform form has room for whatever fills its kind. -/
theorem WellFormed.overflows_eq {f : Form} (h : fill.WellFormed) (uniform : f.IsUniform) :
    fill.overflows f = false := by
  rw [uniform]
  generalize f.kind = k
  show (fill.fills k && (fill.element? (.uniform k)).isNone) = false
  rw [h.fills_eq]
  cases fill.element? (.uniform k) <;> rfl

theorem WellFormed.valid_of_filler {f : Form} {x : f.Element} (h : fill.WellFormed)
    (uniform : f.IsUniform) (given : fill.filler f = .ok x) : f.Valid x := by
  rw [filler] at given
  split at given
  · rename_i y supplied
    cases given
    exact h.valid_of_element? uniform supplied
  · cases given

end Fill

theorem Unified.loosenFor_eq {both : Unified} (h : fill.WellFormed) (wf : both.WellFormed) :
    both.loosenFor fill = both := by
  rw [loosenFor, h.overflows_eq wf.isUniform]
  rfl

namespace Value

theorem loosenFor_eq (h : fill.WellFormed) (wf : v.WellFormed) : v.loosenFor fill = v := by
  rw [loosenFor, h.overflows_eq wf.isUniform]
  rfl

/-- Only bytes are promoted, where they cannot be filled themselves. -/
theorem promoteFor_cases (h : fill.WellFormed) (wf : v.WellFormed) :
    v.promoteFor fill = .ok v ∨ ∃ a, v = .byte a ∧ fill.fills .byte = false ∧
      v.promoteFor fill = .ok (.number (a.map .ofByte)) := by
  have stays : Except.ok (v.loosenFor fill) = (.ok v : Except Error Value) :=
    congrArg _ (loosenFor_eq h wf)
  cases wf with
  | number a => exact .inl stays
  | complex a => exact .inl stays
  | character a => exact .inl stays
  | box a inner => exact .inl stays
  | byte a =>
      rw [promoteFor]
      split
      · rename_i promoted
        exact .inr ⟨_, rfl, Bool.eq_false_iff.mpr promoted.2, rfl⟩
      · exact .inl stays

/-- Bytes are only promoted if a fill value can be used for numbers and not for bytes. -/
theorem usable_of_promoted {fill : Fill} {bytes : Grid UInt8} {numbers : Grid Binary64}
    (hf : fill.WellFormed) (promoted : (byte bytes).promoteFor fill = .ok (number numbers)) :
    fill.element? (.uniform .byte) = none ∧ fill.element? (.uniform .number) ≠ none := by
  rw [promoteFor] at promoted
  split at promoted
  · rename_i usable
    rw [hf.fills_eq, hf.fills_eq, Option.isSome_iff_ne_none, Option.isSome_iff_ne_none,
      not_not] at usable
    exact usable.symm
  · rw [loosenFor] at promoted
    split at promoted <;> cases promoted

/-- A value is only replaced if it consists of bytes that the fill value cannot be used for. -/
theorem eq_or_byte_of_promoted {w : Value} (h : fill.WellFormed) (wf : v.WellFormed)
    (promoted : v.promoteFor fill = .ok w) :
    w = v ∨ ∃ bytes, v = .byte bytes ∧ w = .number (bytes.map .ofByte) ∧
      fill.element? v.form = none ∧ fill.element? w.form ≠ none := by
  obtain stays | ⟨bytes, rfl, -, numbers⟩ := promoteFor_cases h wf
  · exact .inl (Except.ok.inj (promoted.symm.trans stays))
  · obtain rfl := Except.ok.inj (promoted.symm.trans numbers)
    exact .inr ⟨bytes, rfl, rfl, usable_of_promoted h promoted⟩

/-- Bytes promoted to numbers are still well formed, and other values stay as they are. -/
theorem promoteFor_wellFormed (h : fill.WellFormed) (wf : v.WellFormed) :
    ∃ w, v.promoteFor fill = .ok w ∧ w.WellFormed ∧ w.shape = v.shape := by
  obtain stays | ⟨a, rfl, -, promoted⟩ := promoteFor_cases h wf
  · exact ⟨v, stays, wf, rfl⟩
  · cases wf with
    | byte a => exact ⟨_, promoted, .number (a.map _), rfl⟩

/-- Nothing has to be promoted for a fill value that can be used as it is. -/
theorem promoteFor_of_usable (hf : fill.WellFormed) (hv : v.WellFormed)
    (usable : fill.element? v.form ≠ none) : v.promoteFor fill = .ok v := by
  obtain ⟨w, promoted, -⟩ := promoteFor_wellFormed hf hv
  obtain rfl | ⟨-, -, -, unusable, -⟩ := eq_or_byte_of_promoted hf hv promoted
  · exact promoted
  · exact absurd unusable usable

end Value

end RowMajor
