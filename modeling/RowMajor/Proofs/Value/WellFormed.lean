import RowMajor.Proofs.Grid.Cells
import RowMajor.Proofs.Outcome
import RowMajor.Value.Conversion

/-!
# Well-formed values

A value is well formed if it is uniform, its grid is, and its boxes hold well-formed
values. Said of forms and grids this needs no cases: `wellFormed_iff` takes a well-formed
value apart and `wellFormed_ofGrid` puts one together. Two well-formed values meet in
well-formed grids of one uniform form, and a well-formed fill value never makes an
operation leave it.
-/

namespace RowMajor

variable {α β : Type}

/-- A box holds a well-formed value. All other elements are valid as they are. -/
def Kind.Valid : (k : Kind) → k.Element → Prop
  | .box, v => v.WellFormed
  | _, _ => True

namespace Form

def IsUniform (f : Form) : Prop :=
  f = .uniform f.kind

def Valid : (f : Form) → f.Element → Prop
  | .uniform k, x => k.Valid x
  | .mixed _, _ => True

theorem isUniform_uniform (k : Kind) : IsUniform (.uniform k) := rfl

theorem not_isUniform_mixed (k : Kind) : ¬ IsUniform (.mixed k) :=
  fun h => nomatch h

end Form

namespace Value

variable {v a b : Value} {fill : Fill}

theorem WellFormed.isUniform (h : v.WellFormed) : v.form.IsUniform := by
  cases h <;> rfl

theorem WellFormed.holds (h : v.WellFormed) : v.grid.Holds v.form.Valid := by
  cases h with
  | number h => exact ⟨h, fun _ _ => trivial⟩
  | byte h => exact ⟨h, fun _ _ => trivial⟩
  | complex h => exact ⟨h, fun _ _ => trivial⟩
  | character h => exact ⟨h, fun _ _ => trivial⟩
  | box h inner => exact ⟨h, inner⟩

theorem wellFormed_ofGrid {f : Form} {a : Grid f.Element} (uniform : f.IsUniform)
    (h : a.Holds f.Valid) : (ofGrid f a).WellFormed := by
  match f, a, uniform, h with
  | .uniform .number, a, _, h => exact .number h.wellFormed
  | .uniform .byte, a, _, h => exact .byte h.wellFormed
  | .uniform .complex, a, _, h => exact .complex h.wellFormed
  | .uniform .character, a, _, h => exact .character h.wellFormed
  | .uniform .box, a, _, h => exact .box h.wellFormed h.all

theorem wellFormed_ofGrid_iff {f : Form} {a : Grid f.Element} :
    (ofGrid f a).WellFormed ↔ f.IsUniform ∧ a.Holds f.Valid := by
  refine ⟨fun h => ?_, fun ⟨uniform, h⟩ => wellFormed_ofGrid uniform h⟩
  match f, a, h with
  | .uniform .number, a, h => exact ⟨rfl, h.holds⟩
  | .uniform .byte, a, h => exact ⟨rfl, h.holds⟩
  | .uniform .complex, a, h => exact ⟨rfl, h.holds⟩
  | .uniform .character, a, h => exact ⟨rfl, h.holds⟩
  | .uniform .box, a, h => exact ⟨rfl, h.holds⟩
  | .mixed k, a, h => cases h

theorem gridOf?_eq_some {f : Form} {a : Grid f.Element} (h : v.gridOf? f = some a) :
    v = ofGrid f a := by
  rw [gridOf?] at h
  split at h
  · rename_i same
    subst same
    rw [← Option.some.inj h, ofGrid_grid]
  · cases h

theorem gridOf?_isSome {f : Form} (h : v.form = f) : ∃ a, v.gridOf? f = some a :=
  ⟨_, dif_pos h⟩

/-- Elements of a kind other than boxes hold nothing that could be malformed. -/
theorem wellFormed_unboxed {k : Kind} {a : Grid k.Element} (unboxed : k ≠ .box)
    (h : a.WellFormed) : (ofGrid (.uniform k) a).WellFormed := by
  cases k with
  | number => exact .number h
  | byte => exact .byte h
  | complex => exact .complex h
  | character => exact .character h
  | box => exact absurd rfl unboxed

theorem wellFormed_scalar {k : Kind} {x : k.Element} (hx : k.Valid x) :
    (ofGrid (.uniform k) (.scalar x)).WellFormed :=
  wellFormed_ofGrid (Form.isUniform_uniform k) (Grid.holds_scalar hx)

theorem WellFormed.natural (h : v.WellFormed) : v.shape.Natural :=
  h.holds.wellFormed.natural

/-- A change that leaves well-formed grids well formed does so for values. -/
theorem WellFormed.ofGrid_of_holds {change : Grid v.form.Element} (h : v.WellFormed)
    (changed : change.Holds v.form.Valid) : (ofGrid v.form change).WellFormed :=
  wellFormed_ofGrid h.isUniform changed

theorem wellFormed_boxed {content : α → Value} {a : Grid α} (h : a.WellFormed)
    (inner : ∀ x, (content x).WellFormed) : (Value.box (a.map content)).WellFormed := by
  refine .box (h.map content) fun v hv => ?_
  obtain ⟨x, -, rfl⟩ := List.mem_map.mp hv
  exact inner x

theorem WellFormed.boxElements (h : v.WellFormed) :
    v.boxElements.WellFormed ∧ v.boxElements.form = .uniform .box := by
  cases h with
  | number h => exact ⟨wellFormed_boxed h fun x => .number (Grid.wellFormed_scalar x), rfl⟩
  | byte h => exact ⟨wellFormed_boxed h fun x => .byte (Grid.wellFormed_scalar x), rfl⟩
  | complex h => exact ⟨wellFormed_boxed h fun x => .complex (Grid.wellFormed_scalar x), rfl⟩
  | character h =>
      exact ⟨wellFormed_boxed h fun x => .character (Grid.wellFormed_scalar x), rfl⟩
  | box h inner => exact ⟨.box h inner, rfl⟩

end Value

namespace Unified

/-- Both grids are well formed, and their form is uniform. -/
structure WellFormed (both : Unified) : Prop where
  isUniform : both.form.IsUniform
  first : both.first.Holds both.form.Valid
  second : both.second.Holds both.form.Valid

theorem wellFormed_ofSameKind {a b : Value} (ha : a.WellFormed) (hb : b.WellFormed)
    (same : b.form = a.form) : (ofSameKind a b).WellFormed := by
  obtain ⟨second, found⟩ := Value.gridOf?_isSome same
  rw [Value.gridOf?_eq_some found] at hb
  rw [ofSameKind, found]
  exact ⟨ha.isUniform, ha.holds, (Value.wellFormed_ofGrid_iff.mp hb).2⟩

end Unified

namespace Value

variable {v a b : Value} {fill : Fill}

theorem unifyAny_wellFormed (pairing : Pairing) (ha : a.WellFormed) (hb : b.WellFormed)
    (apart : a.kind.meet? b.kind = some .box ∨ a.kind.meet? b.kind = none) :
    Yields Unified.WellFormed (unifyAny pairing a b) := by
  rcases apart with boxes | nowhere
  · obtain ⟨first, firstForm⟩ := ha.boxElements
    obtain ⟨second, secondForm⟩ := hb.boxElements
    rw [unifyAny, boxes]
    exact Unified.wellFormed_ofSameKind first second (secondForm.trans firstForm.symm)
  · rw [unifyAny, nowhere]
    trivial

/-- Well-formed values meet in well-formed grids of one uniform form, or are refused. -/
theorem unify_wellFormed (pairing : Pairing) (ha : a.WellFormed) (hb : b.WellFormed) :
    Yields Unified.WellFormed (unify pairing a b) := by
  cases ha with
  | number ha =>
      cases hb with
      | number hb => exact ⟨rfl, ha.holds_trivial, hb.holds_trivial⟩
      | byte hb => exact ⟨rfl, ha.holds_trivial, (hb.map _).holds_trivial⟩
      | complex hb => exact ⟨rfl, (ha.map _).holds_trivial, hb.holds_trivial⟩
      | character hb => exact unifyAny_wellFormed pairing (.number ha) (.character hb) (.inr rfl)
      | box hb inner => exact unifyAny_wellFormed pairing (.number ha) (.box hb inner) (.inl rfl)
  | byte ha =>
      cases hb with
      | number hb => exact ⟨rfl, (ha.map _).holds_trivial, hb.holds_trivial⟩
      | byte hb => exact ⟨rfl, ha.holds_trivial, hb.holds_trivial⟩
      | complex hb => exact ⟨rfl, (ha.map _).holds_trivial, hb.holds_trivial⟩
      | character hb => exact unifyAny_wellFormed pairing (.byte ha) (.character hb) (.inr rfl)
      | box hb inner => exact unifyAny_wellFormed pairing (.byte ha) (.box hb inner) (.inl rfl)
  | complex ha =>
      cases hb with
      | number hb => exact ⟨rfl, ha.holds_trivial, (hb.map _).holds_trivial⟩
      | byte hb => exact ⟨rfl, ha.holds_trivial, (hb.map _).holds_trivial⟩
      | complex hb => exact ⟨rfl, ha.holds_trivial, hb.holds_trivial⟩
      | character hb => exact unifyAny_wellFormed pairing (.complex ha) (.character hb) (.inr rfl)
      | box hb inner => exact unifyAny_wellFormed pairing (.complex ha) (.box hb inner) (.inl rfl)
  | character ha =>
      cases hb with
      | number hb => exact unifyAny_wellFormed pairing (.character ha) (.number hb) (.inr rfl)
      | byte hb => exact unifyAny_wellFormed pairing (.character ha) (.byte hb) (.inr rfl)
      | complex hb => exact unifyAny_wellFormed pairing (.character ha) (.complex hb) (.inr rfl)
      | character hb => exact ⟨rfl, ha.holds_trivial, hb.holds_trivial⟩
      | box hb inner => exact unifyAny_wellFormed pairing (.character ha) (.box hb inner) (.inl rfl)
  | box ha inner =>
      cases hb with
      | number hb => exact unifyAny_wellFormed pairing (.box ha inner) (.number hb) (.inl rfl)
      | byte hb => exact unifyAny_wellFormed pairing (.box ha inner) (.byte hb) (.inl rfl)
      | complex hb => exact unifyAny_wellFormed pairing (.box ha inner) (.complex hb) (.inl rfl)
      | character hb => exact unifyAny_wellFormed pairing (.box ha inner) (.character hb) (.inl rfl)
      | box hb inner' => exact ⟨rfl, ⟨ha, inner⟩, hb, inner'⟩

/-- The elements are converted or boxed where they are. -/
theorem shapes_of_unify {pairing : Pairing} {both : Unified} (ha : a.WellFormed)
    (hb : b.WellFormed) (unified : unify pairing a b = .ok both) :
    both.first.shape = a.shape ∧ both.second.shape = b.shape := by
  cases ha <;> cases hb <;> cases unified <;> exact ⟨rfl, rfl⟩

end Value

end RowMajor
