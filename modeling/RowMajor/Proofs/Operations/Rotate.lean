import RowMajor.Proofs.Operations.Frames
import RowMajor.Proofs.Value.Reading
import RowMajor.Rotate

/-!
# Rotation yields well-formed values

Rotating or shifting a list that fills a natural shape gives a list that fills it again, by
induction on the axes. Aligned grids are cut into rows of one size, however many leading
axes were left out of account and however often rows were repeated, so rotating row by row
changes nothing about the number of elements either.
-/

namespace RowMajor

variable {α β : Type} {valid : α → Prop}

/-- The whole of a list changed as one section. -/
theorem changeSection_whole {size : Nat} {change : List α → List α} {items : List α}
    (length : items.length = size) : changeSection 0 size change items = change items := by
  rw [changeSection, List.drop_zero, List.take_zero, List.take_of_length_le (Nat.le_of_eq length),
    Nat.zero_add, List.drop_of_length_le (Nat.le_of_eq length), List.nil_append, List.append_nil]

theorem rotateItems_fills {s : Shape} {items : List α} (offsets : List Int) (natural : s.Natural)
    (h : Fills valid s.cellCount items) :
    Fills valid s.cellCount (rotateItems offsets s items) := by
  induction offsets generalizing s items with
  | nil => exact h
  | cons offset offsets ih =>
      cases s with
      | nil => exact h
      | cons d s =>
          obtain ⟨-, natural⟩ := (Shape.natural_cons d s).mp natural
          have turned (turn : Nat) : Fills valid (Shape.cellCount (d :: s))
              (items.drop turn ++ items.take turn) :=
            ((h.drop turn).append (h.take turn)).cast (by omega)
          simp only [rotateItems]
          split
          · exact turned _
          · rw [← Shape.cellCount_eq_volume natural]
            exact (turned _).pieces fun _ => ih natural

theorem overwriteWrapped_fills {s : Shape} {items : List α} {fill : α} (offsets : List Int)
    (natural : s.Natural) (hx : valid fill) (h : Fills valid s.cellCount items) :
    Fills valid s.cellCount (overwriteWrapped fill offsets s items) := by
  induction offsets generalizing s items with
  | nil => exact h
  | cons offset offsets ih =>
      cases s with
      | nil => exact h
      | cons d s =>
          obtain ⟨-, natural⟩ := (Shape.natural_cons d s).mp natural
          have span : min offset.natAbs d.toNat * Shape.cellCount s ≤ Shape.cellCount (d :: s) :=
            Nat.mul_le_mul_right _ (Nat.min_le_right ..)
          have filled := fills_replicate hx (min offset.natAbs d.toNat * Shape.cellCount s)
          have shifted : Fills valid (Shape.cellCount (d :: s))
              (if 0 < offset then
                items.take (d.toNat * Shape.cellCount s -
                    min offset.natAbs d.toNat * Shape.cellCount s) ++
                  List.replicate (min offset.natAbs d.toNat * Shape.cellCount s) fill
              else
                List.replicate (min offset.natAbs d.toNat * Shape.cellCount s) fill ++
                  items.drop (min offset.natAbs d.toNat * Shape.cellCount s)) := by
            rw [Shape.cellCount] at span h ⊢
            split
            · exact ((h.take _).append filled).cast (by omega)
            · exact (filled.append (h.drop _)).cast (by omega)
          simp only [overwriteWrapped, ← Shape.cellCount_eq_volume natural]
          split
          · exact shifted
          · exact shifted.pieces fun _ => ih natural

theorem rotateSection_whole {s : Shape} {items : List α} (offsets : List Int)
    (natural : s.Natural) (length : items.length = s.cellCount) :
    rotateSection offsets s 0 items = rotateItems offsets s items := by
  rw [rotateSection, if_pos ⟨natural, Int.le_refl 0⟩]
  exact changeSection_whole (length.trans (Shape.cellCount_eq_volume natural))

theorem rotateSection_fills {s : Shape} {items : List α} (offsets : List Int)
    (natural : s.Natural) (h : Fills valid s.cellCount items) :
    Fills valid s.cellCount (rotateSection offsets s 0 items) := by
  rw [rotateSection_whole offsets natural h.length]
  exact rotateItems_fills offsets natural h

theorem overwriteSection_whole {s : Shape} {items : List α} (fill : α) (offsets : List Int)
    (natural : s.Natural) (length : items.length = s.cellCount) :
    overwriteSection fill offsets s 0 items = overwriteWrapped fill offsets s items := by
  have inside : 0 + s.size ≤ Int.ofNat items.length := by
    refine Int.le_of_eq ?_
    rw [Shape.size_eq_cellCount natural, length, Int.zero_add]
  rw [overwriteSection, if_pos ⟨natural, Int.le_refl 0, inside⟩]
  exact changeSection_whole (length.trans (Shape.cellCount_eq_volume natural))

theorem overwriteSection_fills {s : Shape} {items : List α} {fill : α} (offsets : List Int)
    (natural : s.Natural) (hx : valid fill) (h : Fills valid s.cellCount items) :
    Fills valid s.cellCount (overwriteSection fill offsets s 0 items) := by
  rw [overwriteSection_whole fill offsets natural h.length]
  exact overwriteWrapped_fills offsets natural hx h

theorem Grid.rotate_yields {filler : Filler α} {a : Grid α} (h : a.Holds valid)
    (fills : ∀ x, filler = .ok x → valid x) (offsets : List Int) :
    Yields (Grid.Holds valid) (a.rotate filler offsets) := by
  have rotated := rotateSection_fills offsets h.natural h.fills
  rw [rotate]
  split
  · trivial
  · simp only
    split
    · rename_i x
      exact (overwriteSection_fills offsets h.natural (fills x rfl) rotated).holds h.natural
    · exact rotated.holds h.natural

theorem Grid.rotateRows_yields {a : Grid α} {offsets : Grid Int} (h : a.Holds valid)
    (ho : offsets.WellFormed) (kind : Kind) (depth offsetDepth : Nat) :
    Yields (Grid.Holds valid) (rotateRows kind depth offsets offsetDepth a) := by
  have sound := align_sound (kind, .number) h ho (Int.natCast_nonneg depth)
    (Int.natCast_nonneg offsetDepth)
  rw [rotateRows]
  cases aligned : a.align (kind, .number) depth offsets offsetDepth with
  | error failure =>
      rw [aligned] at sound
      exact sound
  | ok x =>
      rw [aligned] at sound
      simp only
      split
      · trivial
      · exact Aligned.Sound.mapRows sound fun row other fills =>
          rotateSection_fills other sound.rowNatural fills

variable {o v : Value} {fill : Fill}

theorem rotate_yields (ho : o.WellFormed) (hv : v.WellFormed) (hf : fill.WellFormed) :
    Yields Value.WellFormed (rotate (.value o) (.value v) fill) := by
  apply (Value.integerList_yields .offsets ho).bind
  intro offsets _
  apply Value.promoteFor_yields hf hv
  intro w hw fills
  exact hw.yields_map fun h => Grid.rotate_yields h fills offsets

theorem rotateDepth_yields (ho : o.WellFormed) (hv : v.WellFormed) (hf : fill.WellFormed)
    (offsetDepth depth : Nat) :
    Yields Value.WellFormed (rotateDepth (.value o) (.value v) offsetDepth depth fill) := by
  apply (Value.integerGrid_yields .offsetTable ho).bind
  intro offsets wf
  apply Value.promoteFor_yields hf hv
  intro w hw _
  exact hw.yields_map fun h => Grid.rotateRows_yields h wf w.kind depth offsetDepth

end RowMajor
