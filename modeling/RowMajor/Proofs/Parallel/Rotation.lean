import RowMajor.Proofs.Parallel.Basic
import RowMajor.Rotate

/-!
# Alike grids rotated

Rotating and shifting move sections of the elements about, and aligning the rows of one grid
with those of another repeats them. Both are followed here for elements that are related
one by one, with the inductions on the offsets that the definitions recurse on. Sections
between bounds are covered with the others, because a length may be negative.
-/

namespace RowMajor

variable {α β γ : Type} {R : α → β → Prop} {xs : List α} {ys : List β} {x : α} {y : β}

theorem forall₂_rotateItems (h : List.Forall₂ R xs ys) (offsets : List Int) (s : Shape) :
    List.Forall₂ R (rotateItems offsets s xs) (rotateItems offsets s ys) := by
  induction offsets generalizing s xs ys with
  | nil => exact h
  | cons offset offsets ih =>
      cases s with
      | nil => exact h
      | cons d s =>
          have turned (turn : Nat) := List.rel_append (List.forall₂_drop turn h)
            (List.forall₂_take turn h)
          simp only [rotateItems]
          split
          · exact turned _
          · exact List.rel_flatMap (forall₂_pieces (turned _) _ _) fun _ _ piece => ih piece s

theorem forall₂_overwriteWrapped (related : R x y) (h : List.Forall₂ R xs ys)
    (offsets : List Int) (s : Shape) :
    List.Forall₂ R (overwriteWrapped x offsets s xs) (overwriteWrapped y offsets s ys) := by
  induction offsets generalizing s xs ys with
  | nil => exact h
  | cons offset offsets ih =>
      cases s with
      | nil => exact h
      | cons d s =>
          have padding (span : Nat) := forall₂_replicate related span
          have shifted (kept span : Nat) := forall₂_ite (p := 0 < offset)
            (fun _ => List.rel_append (List.forall₂_take kept h) (padding span))
            (fun _ => List.rel_append (padding span) (List.forall₂_drop span h))
          simp only [overwriteWrapped]
          split
          · exact shifted _ _
          · exact List.rel_flatMap (forall₂_pieces (shifted _ _) _ _) fun _ _ piece => ih piece s

/-- The same changes one after the other. -/
theorem forall₂_foldl {f : List α → γ → List α} {g : List β → γ → List β} (steps : List γ)
    (step : ∀ {xs ys} c, List.Forall₂ R xs ys → List.Forall₂ R (f xs c) (g ys c))
    (h : List.Forall₂ R xs ys) : List.Forall₂ R (steps.foldl f xs) (steps.foldl g ys) := by
  induction steps generalizing xs ys with
  | nil => exact h
  | cons c steps ih => exact ih (step c h)

theorem forall₂_rotateBetween (h : List.Forall₂ R xs ys) (offsets : List Int) (s : Shape)
    (start : Int) :
    List.Forall₂ R (rotateBetween offsets s start xs) (rotateBetween offsets s start ys) := by
  induction offsets generalizing s start xs ys with
  | nil => exact h
  | cons offset offsets ih =>
      cases s with
      | nil => exact h
      | cons d s =>
          have reversed {xs ys} (first last : Int) (h : List.Forall₂ R xs ys) :=
            forall₂_changeBetween (fun part => List.rel_reverse part) h first last
          simp only [rotateBetween]
          split
          · exact h
          · have turned (middle stop : Int) :=
              reversed start stop (reversed middle stop (reversed start middle h))
            split
            · exact turned _ _
            · exact forall₂_foldl _ (fun row part => ih part s row) (turned _ _)

theorem forall₂_overwriteBetween (related : R x y) (h : List.Forall₂ R xs ys)
    (offsets : List Int) (s : Shape) (start : Int) :
    List.Forall₂ R (overwriteBetween x offsets s start xs)
      (overwriteBetween y offsets s start ys) := by
  induction offsets generalizing s start xs ys with
  | nil => exact h
  | cons offset offsets ih =>
      cases s with
      | nil => exact h
      | cons d s =>
          have padded (span : Nat) (first last : Int) :=
            forall₂_changeBetween (fun _ => forall₂_replicate related span) h first last
          have shifted (span : Nat) (first middle last : Int) :=
            forall₂_ite (p := offset = 0) (fun _ => h) fun _ =>
              forall₂_ite (p := 0 < offset) (fun _ => padded span middle last)
                fun _ => padded span start first
          simp only [overwriteBetween]
          split
          · exact h
          · split
            · exact shifted _ _ _ _
            · exact forall₂_foldl _ (fun row part => ih part s row) (shifted _ _ _ _)

theorem forall₂_rotateSection (h : List.Forall₂ R xs ys) (offsets : List Int) (s : Shape)
    (start : Int) :
    List.Forall₂ R (rotateSection offsets s start xs) (rotateSection offsets s start ys) := by
  rw [rotateSection, rotateSection]
  split
  · exact forall₂_changeSection (fun part => forall₂_rotateItems part offsets s) h _ _
  · exact forall₂_rotateBetween h offsets s start

theorem forall₂_overwriteSection (related : R x y) (h : List.Forall₂ R xs ys)
    (offsets : List Int) (s : Shape) (start : Int) :
    List.Forall₂ R (overwriteSection x offsets s start xs)
      (overwriteSection y offsets s start ys) := by
  rw [overwriteSection, overwriteSection, h.length_eq]
  split
  · exact forall₂_changeSection (fun part => forall₂_overwriteWrapped related part offsets s) h _ _
  · exact forall₂_overwriteBetween related h offsets s start

/-- The same arrangement of rows that are related, each beside the same row of another grid. -/
structure Aligned.Alike (R : α → β → Prop) (x : Aligned α γ) (y : Aligned β γ) : Prop where
  rowShape : x.rowShape = y.rowShape
  otherShape : x.otherShape = y.otherShape
  pairs : List.Forall₂ (fun p q => List.Forall₂ R p.1 q.1 ∧ p.2 = q.2) x.pairs y.pairs
  unpaired : List.Forall₂ R x.unpaired y.unpaired
  shape : x.shape = y.shape

theorem Aligned.Alike.mapRows {x : Aligned α γ} {y : Aligned β γ} (h : x.Alike R y)
    {f : List α → List γ → List α} {g : List β → List γ → List β}
    (changes : ∀ {xs ys} other, List.Forall₂ R xs ys → List.Forall₂ R (f xs other) (g ys other)) :
    Grid.Alike R (x.mapRows f) (y.mapRows g) := by
  rw [Aligned.mapRows, Aligned.mapRows, h.shape]
  refine ⟨List.rel_append (List.rel_flatMap h.pairs ?_) h.unpaired⟩
  rintro ⟨row, other⟩ ⟨row', _⟩ ⟨related, rfl⟩
  exact changes other related

namespace Grid.Alike

variable {a : Grid α} {b : Grid β} {c : Grid γ}

theorem spread (h : Alike R a b) (depth : Int) (extra : Shape) :
    Alike R (a.spread depth extra) (b.spread depth extra) := by
  obtain ⟨items⟩ := h
  simp only [Grid.spread, items.length_eq]
  exact ⟨List.rel_flatMap (forall₂_pieces items _ _) fun _ _ cell => forall₂_repeated cell _⟩

theorem spreadTo (h : Alike R a b) (kind kind' : Kind) (otherFrame : Shape)
    (depth otherDepth : Int) :
    InStep (Alike R) (a.spreadTo kind otherFrame depth otherDepth)
      (b.spreadTo kind' otherFrame depth otherDepth) :=
  Parallel.ite (fun _ => (h.spread depth _).fit kind kind') fun _ => h

theorem pairRows (h : Alike R a b) (whole : Shape) (depth : Int) (c : Grid γ) :
    (Grid.pairRows whole depth a c).Alike R (Grid.pairRows whole depth b c) := by
  obtain ⟨items⟩ := h
  simp only [Grid.pairRows, items.length_eq]
  refine ⟨rfl, rfl, ?_, List.forall₂_drop _ items, rfl⟩
  refine List.rel_map ?_ (forall₂_zipIdx (forall₂_pieces items _ _) 0)
  rintro ⟨row, i⟩ ⟨row', _⟩ ⟨related, rfl⟩
  exact ⟨related, rfl⟩

/-- Where the kinds are named, they are of no consequence for the type of error. -/
theorem alignAgreeing (h : Alike R a b) (kinds : Kind × Kind) (kind : Kind) (whole : Shape)
    (depth : Int) (c : Grid γ) (otherDepth : Int) :
    Parallel (Aligned.Alike R) (fun m m' => m.error.type = m'.error.type)
      (Grid.alignAgreeing kinds whole a depth c otherDepth)
      (Grid.alignAgreeing (kind, kinds.2) whole b depth c otherDepth) := by
  simp only [Grid.alignAgreeing, h.shape_eq]
  rcases (h.spreadTo kinds.1 kind (c.shape.front otherDepth) depth otherDepth).ok_or_error with
    ⟨first, first', spread, spread', alike⟩ | ⟨e, e', refused, refused', same⟩
  · rw [spread, spread']
    cases c.spreadTo kinds.2 (b.shape.front depth) otherDepth depth with
    | error e => rfl
    | ok second => exact alike.pairRows whole _ second
  · rw [refused, refused']
    exact same

theorem align (h : Alike R a b) (kinds : Kind × Kind) (kind : Kind) (depth : Int) (c : Grid γ)
    (otherDepth : Int) :
    Parallel (Aligned.Alike R) (fun m m' => m.error.type = m'.error.type)
      (a.align kinds depth c otherDepth) (b.align (kind, kinds.2) depth c otherDepth) := by
  simp only [Grid.align, Grid.rank, h.shape_eq]
  refine Parallel.ite (fun _ => h.alignAgreeing kinds kind _ _ _ _) fun _ => ?_
  refine Parallel.ite (fun _ => ?_) fun _ => rfl
  exact (h.withShape _).alignAgreeing kinds kind _ _ _ _

theorem rotate (h : Alike R a b) {filler : Filler α} {filler' : Filler β}
    (fillers : Filler.Alike R filler filler') (offsets : List Int) :
    InStep (Alike R) (a.rotate filler offsets) (b.rotate filler' offsets) := by
  obtain ⟨items⟩ := h
  refine Parallel.ite (fun _ => rfl) fun _ => ?_
  have rotated (s : Shape) := forall₂_rotateSection items offsets s 0
  rcases fillers.ok_or_error with ⟨x, y, rfl, rfl, related⟩ | ⟨_, _, rfl, rfl, -⟩
  · exact ⟨forall₂_overwriteSection related (rotated _) offsets _ 0⟩
  · exact ⟨rotated _⟩

theorem rotateRows (h : Alike R a b) (kind kind' : Kind) (depth : Int) (offsets : Grid Int)
    (offsetDepth : Int) :
    InStep (Alike R) (Grid.rotateRows kind depth offsets offsetDepth a)
      (Grid.rotateRows kind' depth offsets offsetDepth b) := by
  rw [Grid.rotateRows, Grid.rotateRows]
  rcases (h.align (kind, .number) kind' depth offsets offsetDepth).ok_or_error with
    ⟨x, y, aligned, aligned', alike⟩ | ⟨m, m', refused, refused', same⟩
  · rw [aligned, aligned']
    simp only [alike.otherShape, alike.rowShape, isEmpty_eq_of_forall₂ alike.pairs]
    refine Parallel.ite (fun _ => rfl) fun _ => alike.mapRows fun other row => ?_
    exact forall₂_rotateSection row other _ 0
  · rw [refused, refused']
    exact same

end Grid.Alike

end RowMajor
