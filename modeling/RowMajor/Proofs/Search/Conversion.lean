import RowMajor.Proofs.Search.Renaming
import RowMajor.Proofs.Value.Widening

/-!
# Searches do not depend on the kind

Converting numeric elements to a wider kind keeps their keys, and boxing every element by
itself puts its key into that of a box, which is an injective renaming. A search that
starts from operands of one kind therefore gives the same after both have been converted
or boxed, whether it goes by codes or by keys on either side.
-/

namespace RowMajor

/-- The name that a key has once its element stands alone in a box. -/
def Key.boxed (family : Family) (key : Key) : Key :=
  .value family [] [key]

theorem Key.boxed_injective (family : Family) : (boxed family).Injective := by
  intro key other same
  obtain ⟨-, -, items⟩ := Key.value.inj same
  exact (List.cons.inj items).1

/-- Every element goes into a box of its own. -/
theorem Value.boxElements_ofGrid {k : Kind} (unboxed : k ≠ .box) (a : Grid k.Element) :
    boxElements (ofGrid (.uniform k) a) =
      ofGrid (.uniform .box) (a.map fun x => ofGrid (.uniform k) (.scalar x)) := by
  cases k with
  | box => exact absurd rfl unboxed
  | _ => rfl

namespace Search

variable {f g : Form} {ψ : Key → Key}

theorem renamed_map {store : f.Element → g.Element} (keys : ∀ x, g.key (store x) = ψ (f.key x))
    (a : Grid f.Element) : Renamed ψ a (a.map store) := by
  rw [Renamed, Grid.map, Grid.map, Grid.map, Grid.map, List.map_map, List.map_map]
  exact congrArg (Grid.mk a.shape) (List.map_congr_left fun x _ => keys x)

end Search

section

variable {f g : Form} {x y : Grid f.Element} {x' y' : Grid g.Element} {ψ : Key → Key}

/-- The four searches. A block is looked for without a fill value. -/
def searches : List (Operand → Operand → Search.Options → Except Error Value) :=
  [member, indexOf, progressiveIndexOf, fun needle haystack => find needle haystack .none]

theorem forall_searches {P : (Operand → Operand → Search.Options → Except Error Value) → Prop} :
    (∀ search ∈ searches, P search) ↔
      P member ∧ P indexOf ∧ P progressiveIndexOf ∧
        P fun needle haystack => find needle haystack .none := by
  rw [searches, List.forall_mem_cons, List.forall_mem_cons, List.forall_mem_cons,
    List.forall_mem_singleton]

/-- A search of well-formed operands of one form has a result, unless there are more rows than any
number counts. -/
theorem found_or_large {f : Form} {x y : Grid f.Element} (hx : (Value.ofGrid f x).WellFormed)
    (hy : (Value.ofGrid f y).WellFormed) (options : Search.Options) :
    ∀ search ∈ searches,
      (∃ found, search (.value (.ofGrid f x)) (.value (.ofGrid f y)) options = .ok found) ∨
        search (.value (.ofGrid f x)) (.value (.ofGrid f y)) options = .error .tooLarge ∧
          Binary64.rounded? (Search.searchedCount x.shape y.shape) = none := by
  have wfx := (Value.wellFormed_ofGrid_iff.mp hx).2.wellFormed
  have wfy := (Value.wellFormed_ofGrid_iff.mp hy).2.wellFormed
  have unfilled : Fill.none.WellFormed := by
    rintro _ ⟨⟩
  have large {result : Except Error Value} (out : Outcome Value.WellFormed
      (fun e => e = .tooLarge ∧ Binary64.rounded? (Search.searchedCount x.shape y.shape) = none)
      result) : (∃ found, result = .ok found) ∨ result = .error .tooLarge ∧
        Binary64.rounded? (Search.searchedCount x.shape y.shape) = none := by
    obtain ⟨found, given, -⟩ | ⟨_, failed, rfl, count⟩ := out.ok_or_error
    · exact .inl ⟨found, given⟩
    · exact .inr ⟨failed, count⟩
  refine forall_searches.mpr ⟨.inl ?_, ?_, ?_, .inl ?_⟩
  · rw [member_ofGrid hx hy options, Search.given_member wfx wfy]
    exact ⟨_, rfl⟩
  · rw [indexOf_ofGrid hx hy options]
    exact large (Search.given_outcome (by decide) wfx wfy)
  · rw [progressiveIndexOf_ofGrid hx hy options]
    exact large (Search.given_outcome (by decide) wfx wfy)
  · obtain ⟨marks, found⟩ :
        ∃ marks, Search.find .keysOnly f (Fill.none.element? f) x y = .ok marks :=
      Search.exists_find wfy
    refine ⟨.byte (marks.map UInt8.ofNat), (find_ofGrid hx hy unfilled options).trans ?_⟩
    rw [found]
    rfl

/-- A search gives the same for operands whose keys are renamed injectively. -/
theorem search_renamed (injective : ψ.Injective) (hx : (Value.ofGrid f x).WellFormed)
    (hy : (Value.ofGrid f y).WellFormed) (hx' : (Value.ofGrid g x').WellFormed)
    (hy' : (Value.ofGrid g y').WellFormed) (first : Search.Renamed ψ x x')
    (second : Search.Renamed ψ y y') (options : Search.Options) :
    ∀ search ∈ searches,
      search (.value (.ofGrid g x')) (.value (.ofGrid g y')) options =
        search (.value (.ofGrid f x)) (.value (.ofGrid f y)) options := by
  have rows (question : Search.Question) (pairing : Pairing) :
      Value.searchRows question pairing options (.ofGrid g x') (.ofGrid g y') =
        Value.searchRows question pairing options (.ofGrid f x) (.ofGrid f y) := by
    rw [Value.searchRows_ofGrid hx hy question pairing,
      Value.searchRows_ofGrid hx' hy' question pairing, Search.given, Search.given,
      first.answers injective question second]
  have unfilled : Fill.none.WellFormed := by
    rintro _ ⟨⟩
  have wf := (Value.wellFormed_ofGrid_iff.mp hy).2.wellFormed
  refine forall_searches.mpr ⟨rows _ _, rows _ _, rows _ _, ?_⟩
  refine (find_ofGrid hx' hy' unfilled options).trans
    (.trans ?_ (find_ofGrid hx hy unfilled options).symm)
  exact congrArg (· >>= _) (first.find injective second wf)

end

/-- A search looks at nothing but which elements are equal. Two operands of one kind are searched
with the same result after both have been converted to a wider numeric kind, and after every
element of both has been put into a box of its own. There is a result unless there are more rows
than any number counts. -/
theorem search_sees_equality_only {a b : Value} (ha : a.WellFormed) (hb : b.WellFormed)
    (same : a.kind = b.kind) (unboxed : a.kind ≠ .box) (options : Search.Options) :
    ∀ search ∈ searches,
      (∀ target, a.kind.Widens target → ∃ a' b', a.convert target = .ok a' ∧
        b.convert target = .ok b' ∧
        search (.value a') (.value b') options = search (.value a) (.value b) options) ∧
      search (.value a.boxElements) (.value b.boxElements) options =
        search (.value a) (.value b) options ∧
      ((∃ found, search (.value a) (.value b) options = .ok found) ∨
        search (.value a) (.value b) options = .error .tooLarge ∧
          Binary64.rounded? (Search.searchedCount a.shape b.shape) = none) := by
  intro search mem
  obtain ⟨f, x, y, rfl, rfl⟩ := Value.exists_grids ha hb same
  obtain ⟨k, rfl⟩ : ∃ k, f = .uniform k := ⟨_, (Value.wellFormed_ofGrid_iff.mp ha).1⟩
  have kind : (Value.ofGrid (.uniform k) x).kind = k := Value.kind_ofGrid ..
  rw [kind] at unboxed
  refine ⟨fun target wider => ?_, ?_, ?_⟩
  · rw [kind] at wider
    obtain ⟨store, keys, converted⟩ := wider.exists_store
    have wide (z : Grid k.Element) (hz : (Value.ofGrid (.uniform k) z).WellFormed) :
        (Value.ofGrid (.uniform target) (z.map store)).WellFormed :=
      Value.wellFormed_unboxed wider.ne_box ((Value.wellFormed_ofGrid_iff.mp hz).2.wellFormed.map _)
    refine ⟨_, _, converted x, converted y, ?_⟩
    exact search_renamed (ψ := id) Function.injective_id ha hb (wide x ha) (wide y hb)
      (Search.renamed_map keys x) (Search.renamed_map keys y) options search mem
  · have boxed (z : Grid k.Element) := Value.boxElements_ofGrid unboxed z
    have keys (z : k.Element) := Value.key_ofGrid (f := .uniform k) (.scalar z)
    have first := boxed x ▸ ha.boxElements.1
    have second := boxed y ▸ hb.boxElements.1
    rw [boxed, boxed]
    exact search_renamed (Key.boxed_injective k.family) ha hb first second
      (Search.renamed_map keys x) (Search.renamed_map keys y) options search mem
  · rw [Value.shape_ofGrid, Value.shape_ofGrid]
    exact found_or_large ha hb options search mem

/-- A NaN and a negative zero are found by number, by complex number and in boxes. -/
theorem zeros_and_nans_converted :
    let a : Value := .number ⟨[3], [.nan, .negativeZero, .ofByte 2]⟩
    let b : Value := .number ⟨[2], [.zero, .nan]⟩
    a.WellFormed ∧ b.WellFormed ∧ a.kind = b.kind ∧ a.kind ≠ .box ∧ indexOf ∈ searches ∧
      a.kind.Widens .complex ∧
      ∃ found, indexOf (.value a) (.value b) .standard = .ok found ∧
        (∃ a' b', a.convert .complex = .ok a' ∧ b.convert .complex = .ok b' ∧
          indexOf (.value a') (.value b') .standard = .ok found) ∧
        indexOf (.value a.boxElements) (.value b.boxElements) .standard = .ok found := by
  intro a b
  have ha : a.WellFormed := .number (by decide)
  have hb : b.WellFormed := .number (by decide)
  have mem : indexOf ∈ searches := List.mem_cons_of_mem _ List.mem_cons_self
  have unboxed : a.kind ≠ .box := by decide
  have wider : a.kind.Widens .complex := ⟨1, 2, rfl, rfl, by decide⟩
  obtain ⟨converted, boxed, ⟨found, given⟩ | ⟨-, large⟩⟩ :=
    search_sees_equality_only ha hb rfl unboxed .standard indexOf mem
  · rw [given] at converted boxed
    exact ⟨ha, hb, rfl, unboxed, mem, wider, found, given, converted .complex wider, boxed⟩
  · exact absurd large (by decide +kernel)

end RowMajor
