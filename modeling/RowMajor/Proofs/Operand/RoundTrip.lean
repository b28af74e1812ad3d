import RowMajor.Proofs.Operand.Nesting
import RowMajor.Proofs.Value.Cells

/-!
# Nested data made into values and back

The leaves of nested data become the elements of a value, in order and under the nested shape.
Going back cuts the elements into rows again, level by level, by the same shape. On the way
every integer turns into the number nearest to it and every text into its characters, and
nothing else is lost: where numbers stand beside characters, all of them are boxed one by one
and taken out of their boxes again.
-/

namespace RowMajor

namespace Operand

/-- A real number as it is stored. -/
def stored : Operand → Operand
  | .integer n => (Binary64.ofInt? n).elim (.integer n) .real
  | .truth b => .real (Binary64.ofSmallNat b.toNat)
  | x => x

mutual

/-- Nested data with all real numbers as they are stored and with every text of more or less than
one character as the list of its characters. -/
def spelled : Operand → Operand
  | .list items => .list (spelledItems items)
  | .text [c] => .text [c]
  | .text word => .list (characters word)
  | x => x.stored

def spelledItems : List Operand → List Operand
  | [] => []
  | x :: items => x.spelled :: spelledItems items

end

theorem spelledItems_eq (items : List Operand) : spelledItems items = items.map spelled := by
  induction items with
  | nil => rfl
  | cons x items ih => rw [spelledItems, ih, List.map_cons]

variable {x : Operand} {items : List Operand} {s : Shape}

theorem IsLeaf.spelled_eq (h : x.IsLeaf) : x.spelled = x.stored := by
  cases h <;> simp [spelled, stored]

/-- The stored leaves, cut into rows by the nested shape. -/
theorem HasShape.nest_leaves (h : x.HasShape s) : nest s (x.leaves.map stored) = x.spelled := by
  induction h with
  | leaf leaf =>
      rw [leaf.leaves_eq, leaf.spelled_eq]
      rfl
  | @text word several =>
      have plain : (characters word).map stored = characters word := by
        rw [characters, List.map_map]
        rfl
      have length : word.length = (characters word).length := (List.length_map _).symm
      have listed : spelled (.text word) = .list (characters word) := by
        rw [spelled]
        rintro c rfl
        exact several rfl
      rw [leaves, plain, listed, nest, Int.ofNat_eq_natCast, Int.toNat_natCast, length]
      refine congrArg Operand.list ((congrArg (List.map _) (pieces_one _)).trans ?_)
      rw [List.map_map]
      exact List.map_id _
  | empty => rfl
  | @list items s some all ih =>
      have each : ∀ part ∈ items.map fun x => x.leaves.map stored, part.length = s.volume := by
        intro part mem
        obtain ⟨x, there, rfl⟩ := List.mem_map.mp mem
        have shape := all x there
        rw [List.length_map, shape.length_leaves, Shape.cellCount_eq_volume shape.natural]
      have rows := pieces_flatten each
      rw [List.length_map] at rows
      rw [leaves, leavesOf_eq, List.map_flatMap, List.flatMap_def, nest, Int.ofNat_eq_natCast,
        Int.toNat_natCast, rows, List.map_map, spelled, spelledItems_eq]
      exact congrArg Operand.list (List.map_congr_left ih)

end Operand

namespace Value

theorem contentOperands_eq (values : List Value) :
    contentOperands values = values.map toOperand := by
  induction values with
  | nil => rfl
  | cons v values ih => rw [contentOperands, ih, List.map_cons]

theorem itemOperands_eq (items : List (Item Value)) :
    itemOperands items = items.map itemOperand := by
  induction items with
  | nil => rfl
  | cons x items ih => rw [itemOperands, ih, List.map_cons]

theorem toOperand_eq (v : Value) :
    v.toOperand = .nest v.shape (v.itemGrid.items.map itemOperand) := by
  have items : v.itemGrid.items.map itemOperand = v.grid.items.map (itemOperand ∘ v.form.item) :=
    List.map_map
  rw [items]
  cases v with
  | box a => exact congrArg (Operand.nest a.shape) (contentOperands_eq a.items)
  | mixed k a => exact congrArg (Operand.nest a.shape) (itemOperands_eq a.items)
  | _ => rfl

end Value

namespace Operand

variable {x : Operand} {items leaves : List Operand} {s : Shape} {k : Kind}

/-- Whether leaves like these can be stored among elements of the kind. -/
def FitsKind (x : Operand) : Kind → Prop
  | .number => x.isReal = true
  | .character => x.isText = true
  | .box => True
  | _ => False

/-- Every leaf is a number, or else a character. -/
theorem IsLeaf.real_or_character (h : x.IsLeaf) :
    (x.isText = false ∧ ∃ y, Kind.coerceNumber x = .ok y ∧ x.stored = .real y ∧
      boxLeaf x = (Kind.coerceNumber x >>= fun y => .ok (.number (.scalar y)))) ∨
    ∃ c, x = .text [c] := by
  cases h with
  | @integer n y range =>
      refine .inl ⟨rfl, y, ?_, ?_, ?_⟩
      · rw [Kind.coerceNumber, toReal?, range]
        rfl
      · rw [stored, range]
        rfl
      · simp only [boxLeaf]
  | real y => exact .inl ⟨rfl, y, rfl, rfl, rfl⟩
  | truth b => exact .inl ⟨rfl, _, rfl, rfl, rfl⟩
  | character c => exact .inr ⟨c, rfl⟩

/-- A leaf is stored among elements of its kind, or in a box of its own. -/
theorem IsLeaf.leafElement_spec (h : x.IsLeaf) (fits : x.FitsKind k) :
    Outcome (fun e => k.Valid e ∧ Value.itemOperand (k.item e) = x.stored) (fun _ => False)
      (leafElement k x) := by
  obtain ⟨noText, y, coerced, kept, boxed⟩ | ⟨c, rfl⟩ := h.real_or_character
  · cases k with
    | number =>
        show Outcome _ _ (Kind.coerceNumber x)
        rw [coerced]
        exact ⟨trivial, kept.symm⟩
    | character => cases noText.symm.trans fits
    | box =>
        show Outcome _ _ (boxLeaf x)
        rw [boxed, coerced]
        exact ⟨.number (Grid.wellFormed_scalar y), kept.symm⟩
    | byte => cases fits
    | complex => cases fits
  · cases k with
    | character => exact ⟨trivial, rfl⟩
    | box => exact ⟨.character (Grid.wellFormed_scalar c), rfl⟩
    | _ => cases fits

/-- Leaves are numbers if all of them are, or else characters if all of them are, and otherwise
boxed. -/
theorem kindOf_eq (all : ∀ x ∈ leaves, x.IsLeaf) :
    kindOf leaves =
      if ∀ x ∈ leaves, x.isReal = true then .number
      else if ∀ x ∈ leaves, x.isText = true then .character
      else .box := by
  -- without complex numbers among them the numeric leaves are the real ones
  have numeric : leaves.all isNumeric = leaves.all isReal := by
    rw [Bool.eq_iff_iff, List.all_eq_true, List.all_eq_true]
    refine forall₂_congr fun x mem => ?_
    cases all x mem <;> rfl
  simp only [kindOf, numeric, List.all_eq_true]
  split
  · rfl
  · rfl

theorem fitsKind_kindOf (all : ∀ x ∈ leaves, x.IsLeaf) :
    ∀ x ∈ leaves, x.FitsKind (kindOf leaves) := by
  intro x mem
  rw [kindOf_eq all]
  split
  · rename_i reals
    exact reals x mem
  · split
    · rename_i texts
      exact texts x mem
    · trivial

/-- Leaves as many as a shape accounts for make up a value of that shape. -/
theorem build_leaves (all : ∀ x ∈ leaves, x.IsLeaf) (natural : s.Natural)
    (length : leaves.length = s.cellCount) :
    ∃ v, build (kindOf leaves) none ⟨s, leaves⟩ = .ok v ∧ v.WellFormed ∧ v.shape = s ∧
      v.kind = kindOf leaves ∧ v.itemGrid.items.map Value.itemOperand = leaves.map stored := by
  have fits := fitsKind_kindOf all
  generalize kindOf leaves = k at fits
  have element := Outcome.mapM_forall₂ fun x mem => (all x mem).leafElement_spec (fits x mem)
  obtain ⟨elements, given, each⟩ | ⟨e, -, impossible⟩ := element.ok_or_error
  · have room : Grid.Fits ⟨s, leaves⟩ := by
      rw [Grid.Fits, length, Shape.size_eq_cellCount natural]
    have valid : ∀ e ∈ elements, k.Valid e := by
      intro e mem
      obtain ⟨x, -, ok, -⟩ := exists_of_forall₂_right each mem
      exact ok
    have count : elements.length = s.cellCount := each.length_eq.symm.trans length
    have wf : (Value.ofGrid (.uniform k) ⟨s, elements⟩).WellFormed :=
      Value.wellFormed_ofGrid rfl ⟨Grid.wellFormed_iff.mpr ⟨natural, count⟩, valid⟩
    have stored := map_eq_map_of_forall₂ (each.imp fun _ _ element => element.2.symm)
    refine ⟨_, ?_, wf, Value.shape_ofGrid .., Value.kind_ofGrid .., ?_⟩
    · show (if Grid.Fits ⟨s, leaves⟩ then _ else _) = _
      rw [if_pos room]
      show (leaves.mapM (leafElement k) >>= _) = _
      rw [given]
      rfl
    · have items := Value.form_grid_ofGrid (f := .uniform k) (fun f b =>
        (b.map f.item).items.map Value.itemOperand) ⟨s, elements⟩
      refine (items.trans ?_).trans stored.symm
      exact List.map_map
  · cases impossible

/-- Nested data is a value exactly if it is not ragged. -/
theorem toValue_list_round_trips (nested : ∀ item ∈ items, item.IsNested) :
    (IsRagged (.list items) → toValue (.list items) = .error (.shape .ragged)) ∧
      (¬ IsRagged (.list items) → ∃ v s, toValue (.list items) = .ok v ∧ v.WellFormed ∧
        HasShape (.list items) s ∧ v.shape = s ∧
        v.kind = (if ∀ leaf ∈ leavesOf items, leaf.isReal = true then .number
          else if ∀ leaf ∈ leavesOf items, leaf.isText = true then .character
          else .box) ∧
        v.itemGrid.items.map Value.itemOperand = (leavesOf items).map stored ∧
        v.toOperand = spelled (.list items)) := by
  have whole : IsNested (.list items) := .list nested
  have leaf := whole.leaf_of_mem
  have flat := whole.flatten_spec
  have value : toValue (.list items) =
      flatten (.list items) >>= fun a => build (kindOf a.items) none a := rfl
  rw [leaves] at leaf
  obtain ⟨⟨s, _⟩, flattened, shape, rfl⟩ | ⟨e, failed, rfl, ragged⟩ := flat.ok_or_error
  · obtain ⟨v, built, wf, same, kind, elements⟩ :=
      build_leaves leaf shape.natural shape.length_leaves
    refine ⟨fun ragged => absurd ragged shape.not_isRagged, fun _ => ?_⟩
    refine ⟨v, s, ?_, wf, shape, same, ?_, elements, ?_⟩
    · rw [value, flattened]
      exact built
    · rw [kind, kindOf_eq leaf]
    · have back := shape.nest_leaves
      rw [leaves] at back
      rw [Value.toOperand_eq, same, elements, back]
  · refine ⟨fun _ => ?_, fun even => absurd ragged even⟩
    rw [value, failed]
    rfl

/-- A number beside letters, in two rows, one of which is a word. -/
theorem number_beside_letters :
    let items : List Operand := [.list [.integer 7, .text ['a']], .text ['b', 'c']]
    (∀ item ∈ items, item.IsNested) ∧ ∃ v, toValue (.list items) = .ok v ∧ v.shape = [2, 2] ∧
      v.kind = .box ∧ v.toOperand =
        .list [.list [.real (.ofBits 0x401c000000000000), .text ['a']],
          .list [.text ['b'], .text ['c']]] := by
  intro items
  have range : Binary64.ofInt? 7 = some (.ofBits 0x401c000000000000) := by decide +kernel
  have leaf : ∀ x ∈ [Operand.integer 7, .text ['a']], x.IsLeaf :=
    List.forall_mem_cons.mpr ⟨.integer range, List.forall_mem_singleton.mpr (.character 'a')⟩
  have nested : ∀ item ∈ items, item.IsNested :=
    List.forall_mem_cons.mpr ⟨.list fun x mem => .leaf (leaf x mem),
      List.forall_mem_singleton.mpr (.text (by decide))⟩
  have shape : HasShape (.list items) [2, 2] :=
    .list (by decide) (List.forall_mem_cons.mpr ⟨.list (by decide) fun x mem => .leaf (leaf x mem),
      List.forall_mem_singleton.mpr (.text (by decide))⟩)
  obtain ⟨v, s, value, -, shape', same, kind, -, back⟩ :=
    (toValue_list_round_trips nested).2 shape.not_isRagged
  refine ⟨nested, v, value, same.trans (shape'.unique shape), ?_, ?_⟩
  · rw [kind]
    simp [items, leavesOf, leaves, characters, isReal, isText]
  · rw [back]
    simp [items, spelled, spelledItems, stored, characters, range]

end Operand

end RowMajor
