import RowMajor.Proofs.Frames.Alignment

/-!
# Aligned frames

Two well-formed grids whose frames can be aligned at natural depths are cut into rows that
all have the full size, because the places of the longer frame lead to cells that are there.
Alignment is refused for the frames alone.
-/

namespace RowMajor

variable {α β : Type} {valid : α → Prop}

/-- The rows are there in full, and putting them together again gives the shape of a grid. -/
structure Aligned.Sound (valid : α → Prop) (x : Aligned α β) : Prop where
  rowNatural : x.rowShape.Natural
  rows : ∀ pair ∈ x.pairs, Fills valid x.rowShape.cellCount pair.1
  unpaired : ∀ y ∈ x.unpaired, valid y
  natural : x.shape.Natural
  count : x.pairs.length * x.rowShape.cellCount + x.unpaired.length = x.shape.cellCount

/-- Rows changed in place. -/
theorem Aligned.Sound.mapRows {x : Aligned α β} {f : List α → List β → List α} (h : x.Sound valid)
    (keeps : ∀ row other, Fills valid x.rowShape.cellCount row →
      Fills valid x.rowShape.cellCount (f row other)) : (x.mapRows f).Holds valid := by
  have changed := Fills.flatMap fun pair mem => keeps _ pair.2 (h.rows pair mem)
  exact ((changed.append ⟨rfl, h.unpaired⟩).cast h.count).holds h.natural

namespace Grid

variable {a : Grid α} {b : Grid β} {frame whole : Shape} {depth : Nat}

/-- Rows along a frame are cells that are there. -/
theorem along_sound (h : a.Reached frame depth) (all : ∀ x ∈ a.items, valid x)
    (natural : frame.Natural) (wholeNatural : whole.Natural) (otherDepth : Nat) (b : Grid β) :
    (along whole frame depth otherDepth a b).Sound valid := by
  have rowNatural := h.wellFormed.natural.drop depth
  refine ⟨rowNatural, ?_, fun _ none => absurd none List.not_mem_nil, ?_, ?_⟩
  · intro pair mem
    simp only [along] at mem ⊢
    split at mem
    · cases mem
    · obtain ⟨place, there, rfl⟩ := List.mem_map.mp mem
      exact ⟨h.length_cell there, fun x hx => all x (mem_of_mem_cellAt hx)⟩
  · simp only [along]
    split
    · exact wholeNatural
    · exact natural.append rowNatural
  · have filled : (along whole frame depth otherDepth a b).shape.cellCount =
        frame.cellCount * Shape.cellCount (a.shape.drop depth) := by
      simp only [along]
      split
      · exact (Eq.symm ‹_›)
      · exact Shape.cellCount_append ..
    rw [filled]
    simp only [along, List.length_nil, Nat.add_zero]
    split
    · rename_i empty
      rw [empty, Nat.mul_zero, Nat.mul_zero]
    · rw [List.length_map, Shape.length_coordinates]

/-- Alignment at natural depths fails only if the frames disagree. -/
theorem align_sound {depth otherDepth : Int} (kinds : Kind × Kind) (h : a.Holds valid)
    (hb : b.WellFormed) (nonneg : 0 ≤ depth) (otherNonneg : 0 ≤ otherDepth) :
    Outcome (fun x => x.Sound valid) (fun failure => failure.error.IsRefusal)
      (a.align kinds depth b otherDepth) := by
  obtain ⟨depth, rfl⟩ := Int.eq_ofNat_of_zero_le nonneg
  obtain ⟨otherDepth, rfl⟩ := Int.eq_ofNat_of_zero_le otherNonneg
  rw [← Int.ofNat_eq_natCast, ← Int.ofNat_eq_natCast, align_eq h.wellFormed hb]
  split
  · rename_i agree
    exact along_sound (h.wellFormed.reached_matched depth agree) h.all
      ((h.natural.take depth).longer_matched (hb.natural.take otherDepth)) h.natural _ _
  · trivial

end Grid

end RowMajor
