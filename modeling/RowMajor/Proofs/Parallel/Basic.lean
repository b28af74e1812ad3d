import Mathlib.Data.List.Forall2
import RowMajor.Fill
import RowMajor.Grid.Fit
import RowMajor.Index

/-!
# Computations side by side

Two grids are alike in a relation if they have one shape and the relation holds element by
element. `Parallel good bad` says of two computations that either both give something,
which `good` relates, or both fail, and `bad` relates the failures. It passes through
sequences of steps, as long as the second steps start from what the first ones relate.

What only moves elements about cannot look at them. Given alike grids it makes the same
moves in both, and it is enough to say this once for each way to take a list apart and to
put it together.
-/

namespace RowMajor

variable {ε δ α β γ : Type} {good : α → β → Prop} {bad : ε → δ → Prop}

def Parallel (good : α → β → Prop) (bad : ε → δ → Prop) : Except ε α → Except δ β → Prop
  | .ok a, .ok b => good a b
  | .error e, .error d => bad e d
  | .ok _, .error _ | .error _, .ok _ => False

namespace Parallel

variable {x : Except ε α} {y : Except δ β}

theorem ok_or_error (h : Parallel good bad x y) :
    (∃ a b, x = .ok a ∧ y = .ok b ∧ good a b) ∨ ∃ e d, x = .error e ∧ y = .error d ∧ bad e d := by
  cases x with
  | ok a =>
      cases y with
      | ok b => exact .inl ⟨a, b, rfl, rfl, h⟩
      | error d => exact h.elim
  | error e =>
      cases y with
      | ok b => exact h.elim
      | error d => exact .inr ⟨e, d, rfl, rfl, h⟩

/-- What the first steps give is what the second ones start from. -/
theorem bind {α' β' : Type} {good' : α' → β' → Prop} {f : α → Except ε α'} {g : β → Except δ β'}
    (first : Parallel good bad x y) (next : ∀ a b, good a b → Parallel good' bad (f a) (g b)) :
    Parallel good' bad (x >>= f) (y >>= g) := by
  rcases first.ok_or_error with ⟨a, b, rfl, rfl, related⟩ | ⟨e, d, rfl, rfl, related⟩
  · exact next a b related
  · exact related

/-- Steps for the items of two lists, made in parallel. -/
theorem mapM {α' β' : Type} {R : α' → β' → Prop} {f : α' → Except ε α} {g : β' → Except δ β}
    {xs : List α'} {ys : List β'} (items : List.Forall₂ R xs ys)
    (step : ∀ x y, R x y → Parallel good bad (f x) (g y)) :
    Parallel (List.Forall₂ good) bad (xs.mapM f) (ys.mapM g) := by
  induction items with
  | nil => exact .nil
  | cons head _ ih =>
      rw [List.mapM_cons, List.mapM_cons]
      refine (step _ _ head).bind fun a b related => ?_
      refine ih.bind fun as bs rest => ?_
      exact .cons related rest

/-- Steps for the items of one list. -/
theorem mapM_same {f : γ → Except ε α} {g : γ → Except δ β} {items : List γ}
    (step : ∀ c ∈ items, Parallel good bad (f c) (g c)) :
    Parallel (List.Forall₂ good) bad (items.mapM f) (items.mapM g) := by
  have steps : List.Forall₂ (fun c d => Parallel good bad (f c) (g d)) items items :=
    List.forall₂_same.mpr step
  exact mapM steps fun _ _ related => related

/-- A question that both computations answer in the same way. -/
theorem ite {p : Prop} [Decidable p] {x' : Except ε α} {y' : Except δ β}
    (yes : p → Parallel good bad x y) (no : ¬ p → Parallel good bad x' y') :
    Parallel good bad (if p then x else x') (if p then y else y') := by
  by_cases h : p
  · rw [if_pos h, if_pos h]
    exact yes h
  · rw [if_neg h, if_neg h]
    exact no h

theorem isOk_eq (h : Parallel good bad x y) : x.isOk = y.isOk := by
  rcases h.ok_or_error with ⟨a, b, rfl, rfl, -⟩ | ⟨e, d, rfl, rfl, -⟩ <;> rfl

end Parallel

/-- What a caller can tell errors apart by without reading their messages. -/
inductive ErrorType where
  | shape
  | kind
  | inverse
  | bounds
  | assertion
  | overflow
  | value
  | index
  | name
deriving DecidableEq

def Buffer.Fault.type : Buffer.Fault → ErrorType
  | .slice .. | .splitPoint .. | .position | .assignment | .popFromEmpty => .index
  | .pieceSize .. | .negativeCapacity | .zeroStep | .notFound => .value
  | .unknown _ => .name

def Error.type : Error → ErrorType
  | .shape _ => .shape
  | .kind _ => .kind
  | .inverse _ => .inverse
  | .bounds _ => .bounds
  | .mismatch .. => .assertion
  | .tooLarge => .overflow
  | .notNumeral _ => .value
  | .buffer fault => fault.type

/-- Both give something, which `good` relates, or both fail with an error of one type. -/
abbrev InStep (good : α → β → Prop) : Except Error α → Except Error β → Prop :=
  Parallel good fun e d => e.type = d.type

theorem InStep.refl {good : α → α → Prop} (same : ∀ a, good a a) (x : Except Error α) :
    InStep good x x := by
  cases x with
  | ok a => exact same a
  | error e => exact rfl

/-- A step that both computations have in common. -/
theorem InStep.after {first : Except Error γ} {f : γ → Except Error α} {g : γ → Except Error β}
    (next : ∀ c, first = .ok c → InStep good (f c) (g c)) :
    InStep good (first >>= f) (first >>= g) := by
  cases first with
  | ok c => exact next c rfl
  | error e => exact rfl

variable {R : α → β → Prop} {xs : List α} {ys : List β}

theorem isEmpty_eq_of_forall₂ (h : List.Forall₂ R xs ys) : xs.isEmpty = ys.isEmpty := by
  cases h <;> rfl

theorem forall₂_replicate {x : α} {y : β} (related : R x y) (count : Nat) :
    List.Forall₂ R (List.replicate count x) (List.replicate count y) := by
  induction count with
  | zero => exact .nil
  | succ count ih => exact .cons related ih

theorem forall₂_pieces (h : List.Forall₂ R xs ys) (size count : Nat) :
    List.Forall₂ (List.Forall₂ R) (pieces size count xs) (pieces size count ys) := by
  induction count generalizing xs ys with
  | zero => exact .nil
  | succ count ih => exact .cons (List.forall₂_take size h) (ih (List.forall₂_drop size h))

theorem forall₂_repeated (h : List.Forall₂ R xs ys) (count : Nat) :
    List.Forall₂ R (repeated count xs) (repeated count ys) := by
  rw [repeated_eq, repeated_eq]
  exact List.rel_flatten (forall₂_replicate h count)

theorem forall₂_multiplied (h : List.Forall₂ R xs ys) (count : Nat) :
    List.Forall₂ R (multiplied count xs) (multiplied count ys) := by
  rw [multiplied_eq, multiplied_eq]
  exact forall₂_repeated h count

theorem forall₂_ite {p : Prop} [Decidable p] {xs' : List α} {ys' : List β}
    (yes : p → List.Forall₂ R xs ys) (no : ¬ p → List.Forall₂ R xs' ys') :
    List.Forall₂ R (if p then xs else xs') (if p then ys else ys') := by
  split
  · exact yes ‹p›
  · exact no ‹¬ p›

/-- Related items have the same place. -/
theorem forall₂_zipIdx (h : List.Forall₂ R xs ys) (start : Nat) :
    List.Forall₂ (fun p q => R p.1 q.1 ∧ p.2 = q.2) (xs.zipIdx start) (ys.zipIdx start) := by
  induction h generalizing start with
  | nil => exact .nil
  | cons head _ ih => exact .cons ⟨head, rfl⟩ (ih (start + 1))

theorem rel_getElem? (h : List.Forall₂ R xs ys) (i : Nat) : Option.Rel R xs[i]? ys[i]? := by
  induction h generalizing i with
  | nil => exact .none
  | cons head _ ih =>
      cases i with
      | zero => exact .some head
      | succ i => exact ih i

theorem forall₂_gather (h : List.Forall₂ R xs ys) (places : List Nat) :
    List.Forall₂ R (places.filterMap (xs[·]?)) (places.filterMap (ys[·]?)) := by
  induction places with
  | nil => exact .nil
  | cons i places ih =>
      have here := rel_getElem? h i
      rw [List.filterMap_cons, List.filterMap_cons]
      generalize xs[i]? = x at here
      generalize ys[i]? = y at here
      cases here with
      | none => exact ih
      | some related => exact .cons related ih

section

variable {change : List α → List α} {change' : List β → List β}
  (changes : ∀ {xs ys}, List.Forall₂ R xs ys → List.Forall₂ R (change xs) (change' ys))
include changes

theorem forall₂_changeSection (h : List.Forall₂ R xs ys) (start size : Nat) :
    List.Forall₂ R (changeSection start size change xs) (changeSection start size change' ys) := by
  have changed := changes (List.forall₂_take size (List.forall₂_drop start h))
  exact List.rel_append (List.rel_append (List.forall₂_take start h) changed)
    (List.forall₂_drop _ h)

theorem forall₂_changeBetween (h : List.Forall₂ R xs ys) (start stop : Int) :
    List.Forall₂ R (changeBetween start stop change xs) (changeBetween start stop change' ys) := by
  simp only [changeBetween, h.length_eq]
  have changed (first count : Nat) := changes (List.forall₂_take count (List.forall₂_drop first h))
  exact List.rel_append (List.rel_append (List.forall₂_take _ h) (changed _ _))
    (List.forall₂_drop _ h)

end

/-- One shape, and elements that are related one by one. -/
inductive Grid.Alike (R : α → β → Prop) : Grid α → Grid β → Prop where
  | mk {shape : Shape} {xs : List α} {ys : List β} (items : List.Forall₂ R xs ys) :
    Alike R ⟨shape, xs⟩ ⟨shape, ys⟩

/-- There are related fill elements, or none on either side, for whatever reasons. -/
abbrev Filler.Alike (R : α → β → Prop) : Filler α → Filler β → Prop :=
  Parallel R fun _ _ => True

namespace Grid.Alike

variable {a : Grid α} {b : Grid β}

theorem shape_eq (h : Alike R a b) : a.shape = b.shape := by
  cases h
  rfl

theorem items (h : Alike R a b) : List.Forall₂ R a.items b.items := by
  cases h
  assumption

theorem withShape (h : Alike R a b) (s : Shape) : Alike R (a.withShape s) (b.withShape s) :=
  ⟨h.items⟩

theorem fit (h : Alike R a b) (kind kind' : Kind) :
    InStep (Alike R) (a.fit kind) (b.fit kind') := by
  obtain ⟨items⟩ := h
  simp only [Grid.fit, Grid.Fits, items.length_eq]
  exact Parallel.ite (fun _ => ⟨items⟩) fun _ => rfl

theorem rows (h : Alike R a b) : List.Forall₂ (Alike R) a.rows b.rows := by
  obtain ⟨items⟩ := h
  exact List.rel_map (fun _ _ piece => ⟨piece⟩) (forall₂_pieces items _ _)

theorem rowsFrom (h : Alike R a b) (start count : Nat) :
    List.Forall₂ (Alike R) (a.rowsFrom start count) (b.rowsFrom start count) := by
  obtain ⟨items⟩ := h
  exact List.rel_map (fun _ _ piece => ⟨piece⟩)
    (forall₂_pieces (List.forall₂_drop _ items) _ _)

/-- The elements of several grids, one grid after the other. -/
theorem flatMap_items {as : List (Grid α)} {bs : List (Grid β)}
    (h : List.Forall₂ (Alike R) as bs) :
    List.Forall₂ R (as.flatMap (·.items)) (bs.flatMap (·.items)) :=
  List.rel_flatMap h fun _ _ => items

end Grid.Alike

end RowMajor
