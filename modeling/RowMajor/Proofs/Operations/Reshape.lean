import RowMajor.Proofs.Grid.Building
import RowMajor.Proofs.Value.Reading
import RowMajor.Reshape

/-!
# Reshaping yields well-formed values

The dimensions that are derived are natural numbers, and the elements are cut off, padded
or repeated to just as many as these ask for. Reranking merges axes or adds axes of length
one, which changes no number of cells. Undoing either checks the number of elements first.
-/

namespace RowMajor

variable {α : Type} {valid : α → Prop}

namespace Shape

theorem derivedLength_nonneg {total others : Int} (ht : 0 ≤ total) (ho : 0 < others)
    (roundUp : Bool) : 0 ≤ derivedLength total others roundUp := by
  rw [derivedLength]
  split
  · exact Int.ediv_nonneg (by omega) (Int.le_of_lt ho)
  · exact Int.ediv_nonneg ht (Int.le_of_lt ho)

theorem derive_yields {old : Shape} (h : old.Natural) (dims : List Int) (roundUp : Bool) :
    Yields Natural (old.derive dims roundUp) := by
  rw [derive]
  split
  · rename_i none_negative
    intro d hd
    have := List.countP_eq_zero.mp none_negative d hd
    simpa using this
  · simp only
    have given : Natural (dims.filter (0 ≤ ·)) := fun d hd =>
      of_decide_eq_true (List.mem_filter.mp hd).2
    split
    · trivial
    · rename_i nonzero
      have positive : 0 < size (dims.filter (0 ≤ ·)) :=
        Int.lt_iff_le_and_ne.mpr ⟨size_nonneg given, Ne.symm nonzero⟩
      intro d hd
      obtain ⟨e, -, rfl⟩ := List.mem_map.mp hd
      split
      · exact derivedLength_nonneg (size_nonneg h) positive roundUp
      · omega
  · trivial

theorem rerank_yields {s : Shape} (h : s.Natural) (rank : Int) :
    Yields (fun t => t.Natural ∧ t.cellCount = s.cellCount) (s.rerank rank) := by
  have merged : ∀ depth : Nat, Natural (size (s.take depth) :: s.drop depth) ∧
      cellCount (size (s.take depth) :: s.drop depth) = s.cellCount := by
    intro depth
    have front := h.take depth
    refine ⟨(natural_cons ..).mpr ⟨size_nonneg front, h.drop depth⟩, ?_⟩
    rw [cellCount, size_eq_cellCount front]
    exact cellCount_take_mul_drop s depth
  rw [rerank]
  simp only
  split
  · split
    · refine ⟨(natural_replicate_one _).append h, cellCount_ones_append ..⟩
    · exact merged _
  · split
    · trivial
    · exact merged _

theorem natural_unrerank {s old : Shape} (hs : s.Natural) (ho : old.Natural) (rank : Int) :
    (s.unrerank old rank).Natural := by
  rw [unrerank]
  split
  · exact (ho.take _).append (hs.drop _)
  · exact (ho.take _).append (hs.drop _)

end Shape

namespace Grid

theorem length_cycle {count : Nat} {items : List α} (nonempty : items ≠ []) :
    (cycle count items).length = count := by
  have positive : 0 < items.length := List.length_pos_iff.mpr nonempty
  have enough : count ≤ (count / items.length + 1) * items.length := by
    have division := Nat.div_add_mod count items.length
    have rest := Nat.mod_lt count positive
    rw [Nat.succ_mul, Nat.mul_comm]
    omega
  rw [cycle, List.length_take, List.length_flatten, List.map_replicate, List.sum_replicate_nat]
  exact Nat.min_eq_left enough

theorem mem_of_mem_cycle {count : Nat} {items : List α} {x : α} (mem : x ∈ cycle count items) :
    x ∈ items := by
  obtain ⟨copy, hcopy, hx⟩ := List.mem_flatten.mp (List.mem_of_mem_take mem)
  rwa [List.eq_of_mem_replicate hcopy] at hx

theorem Holds.copies {a : Grid α} (h : a.Holds valid) (count : Nat) :
    (a.copies count).Holds valid := by
  rw [Grid.copies, multiplied_eq]
  exact (h.fills.repeated count).holds_cons (Int.natCast_nonneg count) h.natural

theorem reshape_yields {filler : Filler α} {a : Grid α} (h : a.Holds valid)
    (fills : ∀ x, filler = .ok x → valid x) (dims : List Int) :
    Yields (Grid.Holds valid) (a.reshape filler dims) := by
  apply (Shape.derive_yields h.natural dims filler.isOk).bind
  intro shape natural
  have count := Shape.cellCount_eq_volume natural
  have items : Fills valid a.items.length a.items := ⟨rfl, h.all⟩
  simp only
  split
  · rename_i enough
    exact ((items.take _).cast ((Nat.min_eq_left enough).trans count.symm)).holds natural
  · split
    · rename_i few x
      have padded := items.append (fills_replicate (fills x rfl) (shape.volume - a.items.length))
      refine (padded.cast ?_).holds natural
      omega
    · split
      · trivial
      · rename_i nonempty
        refine holds_mk natural ?_ fun x hx => h.all x (mem_of_mem_cycle hx)
        rw [length_cycle (fun empty => nonempty (List.isEmpty_iff.mpr empty)), count]

end Grid

namespace Value

variable {v : Value}

theorem WellFormed.withShape {s : Shape} (h : v.WellFormed) (natural : s.Natural)
    (same : s.cellCount = v.shape.cellCount) : (v.withShape s).WellFormed :=
  h.ofGrid_of_holds (h.holds.withShape natural same)

/-- A natural shape of the right size accounts for the elements. -/
theorem cellCount_eq_of_size {s : Shape} (h : v.WellFormed) (natural : s.Natural)
    (size : s.size = Int.ofNat v.elementCount) : s.cellCount = v.shape.cellCount := by
  rw [Shape.size_eq_cellCount natural] at size
  exact (Int.ofNat_inj.mp size).trans h.holds.length_eq

theorem unreshape_yields {old : Shape} (h : v.WellFormed) (natural : old.Natural) :
    Yields WellFormed (v.unreshape old) := by
  rw [unreshape]
  split
  · rename_i size
    exact h.withShape natural (cellCount_eq_of_size h natural size)
  · trivial

theorem unrerankGrid_yields {old : Shape} (h : v.WellFormed) (natural : old.Natural)
    (rank : Int) : Yields WellFormed (v.unrerankGrid rank old) := by
  have target := Shape.natural_unrerank h.natural natural rank
  rw [unrerankGrid]
  split
  · rename_i size
    exact h.withShape target (cellCount_eq_of_size h target size)
  · trivial

/-- The induction is on how the value is well formed, because the content of a box is undone in
its place. -/
theorem unrerank_yields {old : Shape} (h : v.WellFormed) (natural : old.Natural) (rank : Int) :
    Yields WellFormed (v.unrerank rank old) := by
  have plain : ∀ w : Value, w.WellFormed →
      Yields WellFormed (if w.rank = 0 then .ok w else w.unrerankGrid rank old) := by
    intro w wf
    split
    · exact wf
    · exact unrerankGrid_yields wf natural rank
  induction h with
  | number h => exact plain _ (.number h)
  | byte h => exact plain _ (.byte h)
  | complex h => exact plain _ (.complex h)
  | character h => exact plain _ (.character h)
  | @box a h inner ih =>
      match a, h, inner, ih with
      | ⟨[], [content]⟩, _, _, ih =>
          rw [unrerank]
          apply (ih content List.mem_cons_self).bind
          intro w wf
          exact wellFormed_scalar (k := .box) wf
      | ⟨[], []⟩, h, inner, _ => exact plain _ (.box h inner)
      | ⟨[], _ :: _ :: _⟩, h, inner, _ => exact plain _ (.box h inner)
      | ⟨_ :: _, _⟩, h, inner, _ => exact plain _ (.box h inner)

end Value

variable {s v w : Value} {fill : Fill}

theorem reshape_yields (hs : s.WellFormed) (hv : v.WellFormed) (hf : fill.WellFormed) :
    Yields Value.WellFormed (reshape (.value s) (.value v) fill) := by
  show Yields _ ((Operand.value s).asNatural? >>= _)
  rw [Value.asNatural?_value hs]
  cases s.natural? with
  | some count => exact hv.ofGrid_of_holds (hv.holds.copies count)
  | none =>
      apply (Value.integerList_yields .newShape hs).bind
      intro dims _
      apply Value.promoteFor_yields hf hv
      intro u hu fills
      exact hu.yields_map fun h => Grid.reshape_yields h fills dims

theorem unreshape_yields (hv : v.WellFormed) (hs : s.WellFormed) :
    Yields Value.WellFormed (unreshape (.value v) (.value s)) := by
  show Yields _ ((Operand.value s).asNatural? >>= _)
  rw [Value.asNatural?_value hs]
  cases s.natural? with
  | some count => trivial
  | none =>
      apply (Value.naturalList_yields .oldShape hs).bind
      intro lengths _
      exact Value.unreshape_yields hv (Shape.natural_ofNats lengths)

theorem rerank_yields (hw : w.WellFormed) (hv : v.WellFormed) :
    Yields Value.WellFormed (rerank (.value w) (.value v)) := by
  apply (Value.integer_yields .rank hw).bind
  intro rank _
  apply (Shape.rerank_yields hv.natural rank).bind
  intro shape reranked
  exact hv.withShape reranked.1 reranked.2

theorem unrerank_yields (hv : v.WellFormed) (hw : w.WellFormed) (hs : s.WellFormed) :
    Yields Value.WellFormed (unrerank (.value v) (.value w) (.value s)) := by
  apply (Value.integer_yields .rank hw).bind
  intro rank _
  apply (Value.naturalList_yields .rankedShape hs).bind
  intro lengths _
  exact Value.unrerank_yields hv (Shape.natural_ofNats lengths) rank

end RowMajor
