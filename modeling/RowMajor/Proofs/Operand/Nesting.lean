import RowMajor.Operand.Nesting
import RowMajor.Proofs.Grid.Rows
import RowMajor.Proofs.Outcome

/-!
# The shape of nested data

Real numbers and single characters are the leaves of nested data; a text of any other length
counts as the list of its characters. Data has a nested shape if all items of a list have the
same one. An empty list ends a shape with an axis of length zero, whatever stands beside it.
Data without a nested shape is ragged: somewhere in it two items of one list have different
ones. Flattening finds the shape and puts the leaves in order, and it fails on ragged data
alone.
-/

namespace RowMajor

namespace Operand

/-- A real number within the range of the numbers, or a single character. -/
inductive IsLeaf : Operand → Prop
  | integer {n : Int} {x : Binary64} (range : Binary64.ofInt? n = some x) : IsLeaf (.integer n)
  | real (x : Binary64) : IsLeaf (.real x)
  | truth (b : Bool) : IsLeaf (.truth b)
  | character (c : Char) : IsLeaf (.text [c])

/-- Leaves and texts, in lists nested to any depth. -/
inductive IsNested : Operand → Prop
  | leaf {x : Operand} (h : x.IsLeaf) : IsNested x
  | text {word : List Char} (several : word.length ≠ 1) : IsNested (.text word)
  | list {items : List Operand} (all : ∀ x ∈ items, IsNested x) : IsNested (.list items)

/-- The shape that all items of every list agree on. -/
inductive HasShape : Operand → Shape → Prop
  | leaf {x : Operand} (h : x.IsLeaf) : HasShape x []
  | text {word : List Char} (several : word.length ≠ 1) :
      HasShape (.text word) [Int.ofNat word.length]
  | empty : HasShape (.list []) [0]
  | list {items : List Operand} {s : Shape} (some : items ≠ [])
      (all : ∀ x ∈ items, HasShape x s) : HasShape (.list items) (Int.ofNat items.length :: s)

/-- Somewhere two items of one list have different shapes. -/
inductive IsRagged : Operand → Prop
  | here {items : List Operand} {x y : Operand} {s t : Shape} (left : x ∈ items)
      (right : y ∈ items) (first : HasShape x s) (second : HasShape y t) (differ : s ≠ t) :
      IsRagged (.list items)
  | inside {items : List Operand} {x : Operand} (mem : x ∈ items) (ragged : IsRagged x) :
      IsRagged (.list items)

/-- A text as the list of its characters. -/
def characters (word : List Char) : List Operand :=
  word.map fun c => .text [c]

mutual

/-- The leaves from left to right. -/
def leaves : Operand → List Operand
  | .list items => leavesOf items
  | .text word => characters word
  | x => [x]

def leavesOf : List Operand → List Operand
  | [] => []
  | x :: items => x.leaves ++ leavesOf items

end

theorem leavesOf_eq (items : List Operand) : leavesOf items = items.flatMap leaves := by
  induction items with
  | nil => rfl
  | cons x items ih => rw [leavesOf, ih, List.flatMap_cons]

variable {x : Operand} {items : List Operand} {s t : Shape}

theorem IsLeaf.leaves_eq (h : x.IsLeaf) : x.leaves = [x] := by
  cases h <;> rfl

theorem IsLeaf.flatten_eq (h : x.IsLeaf) : x.flatten = .ok (.scalar x) := by
  cases h <;> rfl

theorem IsNested.leaf_of_mem (h : x.IsNested) : ∀ leaf ∈ x.leaves, leaf.IsLeaf := by
  induction h with
  | leaf h =>
      intro leaf mem
      rw [h.leaves_eq, List.mem_singleton] at mem
      exact mem ▸ h
  | text several =>
      intro leaf mem
      obtain ⟨c, -, rfl⟩ := List.mem_map.mp mem
      exact .character c
  | list all ih =>
      intro leaf mem
      rw [leaves, leavesOf_eq, List.mem_flatMap] at mem
      obtain ⟨item, there, inside⟩ := mem
      exact ih item there leaf inside

/-- Data has one shape. -/
theorem HasShape.unique (h : x.HasShape s) (h' : x.HasShape t) : s = t := by
  induction h generalizing t with
  | leaf leaf => cases leaf <;> cases h' <;> first | rfl | contradiction
  | text several =>
      cases h' with
      | leaf leaf => cases leaf; exact absurd rfl several
      | text => rfl
  | empty =>
      cases h' with
      | leaf leaf => cases leaf
      | empty => rfl
      | list some => exact absurd rfl some
  | list some all ih =>
      cases h' with
      | leaf leaf => cases leaf
      | empty => exact absurd rfl some
      | list _ others =>
          obtain ⟨x, mem⟩ := List.exists_mem_of_ne_nil _ some
          exact congrArg _ (ih x mem (others x mem))

/-- Data with a shape is not ragged. -/
theorem HasShape.not_isRagged (h : x.HasShape s) : ¬ x.IsRagged := by
  induction h with
  | leaf leaf =>
      intro ragged
      cases leaf <;> cases ragged
  | text several => nofun
  | empty =>
      intro ragged
      cases ragged with
      | here left => cases left
      | inside mem => cases mem
  | list some all ih =>
      intro ragged
      cases ragged with
      | here left right first second differ =>
          exact differ ((first.unique (all _ left)).trans ((all _ right).unique second))
      | inside mem ragged => exact ih _ mem ragged

theorem HasShape.natural (h : x.HasShape s) : s.Natural := by
  induction h with
  | leaf => exact Shape.natural_nil
  | text => exact (Shape.natural_cons ..).mpr ⟨Int.natCast_nonneg _, Shape.natural_nil⟩
  | empty => decide
  | @list items s some all ih =>
      obtain ⟨x, mem⟩ := List.exists_mem_of_ne_nil _ some
      exact (Shape.natural_cons ..).mpr ⟨Int.natCast_nonneg _, ih x mem⟩

/-- There are as many leaves as the shape accounts for. -/
theorem HasShape.length_leaves (h : x.HasShape s) : x.leaves.length = s.cellCount := by
  induction h with
  | leaf leaf => rw [leaf.leaves_eq]; rfl
  | text several =>
      rw [leaves, characters, List.length_map]
      exact (Nat.mul_one _).symm
  | empty => rfl
  | list some all ih =>
      rw [leaves, leavesOf_eq, length_flatMap_eq ih]
      rfl

theorem flattenItems_eq (items : List Operand) : flattenItems items = items.mapM flatten := by
  induction items with
  | nil => rfl
  | cons x items ih =>
      rw [List.mapM_cons, flattenItems, ih]
      rfl

/-- Flattened items are put behind one another if they have one shape. -/
theorem stack_spec {parts : List (Grid Operand)}
    (each : List.Forall₂ (fun x a => HasShape x a.shape ∧ a.items = x.leaves) items parts) :
    Outcome (fun a => HasShape (.list items) a.shape ∧ a.items = (Operand.list items).leaves)
      (fun _ => IsRagged (.list items)) (Grid.stack [] parts) := by
  have length := each.length_eq
  have inOrder : parts.flatMap (·.items) = (Operand.list items).leaves := by
    rw [leaves, leavesOf_eq, List.flatMap_def, List.flatMap_def]
    exact congrArg _ (map_eq_map_of_forall₂ (each.imp fun _ _ part => part.2.symm)).symm
  refine (Grid.stack_spec [] parts).mono (fun a ⟨alike, stacked⟩ => ?_) fun e differ => ?_
  · rw [stacked]
    refine ⟨?_, inOrder⟩
    cases items with
    | nil =>
        obtain rfl := List.length_eq_zero_iff.mp length.symm
        exact .empty
    | cons x items =>
        have all : ∀ y ∈ x :: items, HasShape y ((parts.map (·.shape)).headD []) := by
          intro y mem
          obtain ⟨a, there, shape, -⟩ := exists_of_forall₂_right each.flip mem
          exact alike.eq_headD (List.mem_map_of_mem there) ▸ shape
        have nested := HasShape.list (List.cons_ne_nil x items) all
        rwa [length] at nested
  · obtain ⟨first, other, head, mem, apart, -⟩ := differ
    obtain ⟨x, here, shape, -⟩ := exists_of_forall₂_right each (List.mem_of_head? head)
    obtain ⟨y, there, shape', -⟩ := exists_of_forall₂_right each mem
    exact .here here there shape shape' apart

/-- Flattening gives the shape and the leaves of nested data, or finds it ragged. -/
theorem IsNested.flatten_spec (h : x.IsNested) :
    Outcome (fun a => x.HasShape a.shape ∧ a.items = x.leaves)
      (fun e => e = .shape .ragged ∧ x.IsRagged) x.flatten := by
  induction h with
  | leaf leaf =>
      rw [leaf.flatten_eq, leaf.leaves_eq]
      exact ⟨.leaf leaf, rfl⟩
  | @text word several =>
      have flat : flatten (.text word) = .ok (.vector (characters word)) := by
        rw [flatten, characters]
        rintro c rfl
        exact several rfl
      have shape : (Grid.vector (characters word)).shape = [Int.ofNat word.length] := by
        rw [Grid.vector, characters, List.length_map]
      rw [flat]
      refine ⟨?_, rfl⟩
      rw [shape]
      exact .text several
  | list all ih =>
      rw [flatten, flattenItems_eq]
      apply (Outcome.mapM_forall₂ fun x mem => (ih x mem).mono (fun _ done => done)
        fun e failed => ⟨failed.1, .inside mem failed.2⟩).bind
      intro parts each
      have stacked := stack_spec each
      cases result : Grid.stack [] parts with
      | error differ =>
          rw [result] at stacked
          exact ⟨rfl, stacked⟩
      | ok a =>
          rw [result] at stacked
          exact stacked

end Operand

end RowMajor
