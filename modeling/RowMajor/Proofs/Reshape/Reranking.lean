import RowMajor.Proofs.Operand.Lists
import RowMajor.Proofs.Operations.Reshape
import RowMajor.Proofs.Value.Cells

/-!
# Reranking and its undo

Reranking merges some of the leading axes, or none, and then puts axes of length one in front. The
old shape is put together again from the axes that were merged, which are given, and the axes that
were not, which are still there. It therefore comes back for every value that has the reranked
shape, whatever its elements are. If the old shape is given as a list of integers, those of its axes
that were merged must be numbers.
-/

namespace RowMajor

namespace Shape

variable {s t old : Shape} {r : Int}

/-- How many leading axes are merged. -/
def merged (s : Shape) (r : Int) : Nat :=
  if 0 ≤ r then s.length - r.toNat else r.natAbs

/-- Reranking adds axes, merges axes, or asks for more of them than there are. -/
theorem rerank_cases (s : Shape) (r : Int) :
    (r < -Int.ofNat s.length ∧ ∃ cause, s.rerank r = .error (.shape cause)) ∨
    (Int.ofNat s.length ≤ r ∧
      s.rerank r = .ok (List.replicate (r.toNat - s.length + 1) 1 ++ s)) ∨
    (-Int.ofNat s.length ≤ r ∧ r < Int.ofNat s.length ∧
      s.rerank r = .ok (size (s.take (s.merged r)) :: s.drop (s.merged r))) := by
  simp only [Int.ofNat_eq_natCast, rerank, merged]
  by_cases nonneg : 0 ≤ r
  · simp only [if_pos nonneg]
    by_cases enough : s.length ≤ r.toNat
    · rw [if_pos enough]
      exact .inr (.inl ⟨by omega, rfl⟩)
    · rw [if_neg enough]
      exact .inr (.inr ⟨by omega, by omega, rfl⟩)
  · simp only [if_neg nonneg]
    by_cases past : s.length < r.natAbs
    · rw [if_pos past]
      exact .inl ⟨by omega, _, rfl⟩
    · rw [if_neg past]
      exact .inr (.inr ⟨by omega, by omega, rfl⟩)

theorem rerank_of_low (low : r < -Int.ofNat s.length) :
    ∃ cause, s.rerank r = .error (.shape cause) := by
  obtain ⟨-, refused⟩ | ⟨enough, -⟩ | ⟨enough, -, -⟩ := rerank_cases s r
  · exact refused
  · rw [Int.ofNat_eq_natCast] at low enough
    omega
  · exact absurd enough (Int.not_le.mpr low)

theorem exists_rerank (enough : -Int.ofNat s.length ≤ r) : ∃ t, s.rerank r = .ok t := by
  obtain ⟨low, -⟩ | ⟨-, added⟩ | ⟨-, -, merges⟩ := rerank_cases s r
  · exact absurd low (Int.not_lt.mpr enough)
  · exact ⟨_, added⟩
  · exact ⟨_, merges⟩

/-- A shape without axes is not the result of reranking. -/
theorem rank_of_rerank (reranked : s.rerank r = .ok t) : t.length ≠ 0 := by
  obtain ⟨-, cause, refused⟩ | ⟨-, added⟩ | ⟨-, -, merged⟩ := rerank_cases s r
  · cases refused.symm.trans reranked
  · cases added.symm.trans reranked
    rw [List.length_append, List.length_replicate]
    omega
  · cases merged.symm.trans reranked
    exact Nat.succ_ne_zero _

/-- The merged axes are taken from the shape that is given, and the others from the shape that is
there. -/
theorem unrerank_eq (reranked : s.rerank r = .ok t) (length : old.length = s.length) :
    t.unrerank old r = old.take (s.merged r) ++ s.drop (s.merged r) := by
  obtain ⟨-, cause, refused⟩ | ⟨enough, added⟩ | ⟨-, fewer, merges⟩ := rerank_cases s r
  · cases refused.symm.trans reranked
  · cases added.symm.trans reranked
    rw [Int.ofNat_eq_natCast] at enough
    have none : s.length - r.toNat = 0 := by omega
    have ones : max (r.toNat + 1 - s.length) 1 =
        (List.replicate (r.toNat - s.length + 1) (1 : Int)).length := by
      rw [List.length_replicate]
      omega
    rw [unrerank, merged, if_pos (by omega), if_pos (by omega), length, none, ones, List.drop_left]
    rfl
  · cases merges.symm.trans reranked
    rw [Int.ofNat_eq_natCast] at fewer
    rw [unrerank, merged]
    split
    · have leading : max (r.toNat + 1 - s.length) 1 = 1 := by omega
      rw [length, leading]
      rfl
    · rfl

end Shape

namespace Value

variable {a v : Value} {old t : Shape} {r : Int}

/-- A value with axes is put under the old shape itself, not what it may hold. -/
theorem unrerank_of_rank (axes : v.rank ≠ 0) : v.unrerank r old = v.unrerankGrid r old := by
  match v, axes with
  | .number _, axes | .byte _, axes | .complex _, axes | .character _, axes => exact if_neg axes
  | .box ⟨[], _⟩, axes | .mixed _ ⟨[], _⟩, axes => exact absurd rfl axes
  | .box ⟨_ :: _, _⟩, axes => exact if_neg axes
  | .mixed k ⟨_ :: _, _⟩, axes => cases k <;> exact if_neg axes

/-- A value of the reranked shape gets the shape back exactly if the axes that were merged are
given as they were. -/
theorem unrerank_eq_ok_iff (natural : a.shape.Natural) (reranked : a.shape.rerank r = .ok t)
    (hv : v.grid.WellFormed) (shape : v.shape = t) (length : old.length = a.shape.length) :
    v.unrerank r old = .ok (v.withShape a.shape) ↔
      old.take (a.shape.merged r) = a.shape.take (a.shape.merged r) := by
  have axes : v.rank ≠ 0 := by
    rw [rank, shape]
    exact Shape.rank_of_rerank reranked
  have target : v.shape.unrerank old r =
      old.take (a.shape.merged r) ++ a.shape.drop (a.shape.merged r) := by
    rw [shape]
    exact Shape.unrerank_eq reranked length
  rw [unrerank_of_rank axes, unrerankGrid, target]
  constructor
  · intro done
    split at done
    · have same := congrArg Value.shape (Except.ok.inj done)
      rw [shape_withShape, shape_withShape] at same
      exact List.append_cancel_right (same.trans (List.take_append_drop ..).symm)
    · cases done
  · intro given
    have fits : Yields _ (a.shape.rerank r) := Shape.rerank_yields natural r
    rw [reranked] at fits
    have size : a.shape.size = Int.ofNat v.elementCount := by
      rw [Shape.size_eq_cellCount natural, ← fits.2, ← shape]
      exact congrArg Int.ofNat hv.length_eq.symm
    rw [given, List.take_append_drop]
    exact if_pos size

end Value

variable {rank old : Operand} {r : Int} {a v : Value}

theorem rerank_value (read : rank.asInteger .rank = .ok r) (v : Value) :
    rerank rank (.value v) = v.rerank r := by
  show (rank.asInteger .rank >>= _) = _
  rw [read]
  rfl

theorem unrerank_value {lengths : List Nat} (read : rank.asInteger .rank = .ok r)
    (given : old.asNaturals .rankedShape = .ok lengths) (v : Value) :
    unrerank (.value v) rank old = v.unrerank r (.ofNats lengths) := by
  show (rank.asInteger .rank >>= fun r => old.asNaturals .rankedShape >>= fun lengths =>
    v.unrerank r (.ofNats lengths)) = _
  rw [read, given]
  rfl

/-- A list of axis lengths is read, and the merged axes among them are read as they are. -/
def Shape.Recalled (r : Int) (s : Shape) : Prop :=
  (∀ d ∈ s, (Binary64.rounded? d).isSome) ∧
    ∀ d ∈ s.take (s.merged r), Binary64.rounded? d = some d

section

variable {t : Shape} (read : rank.asInteger .rank = .ok r) (natural : a.shape.Natural)
  (reranked : a.shape.rerank r = .ok t) (hv : v.grid.WellFormed) (shape : v.shape = t)
include read natural reranked hv shape

theorem unrerank_of_given (given : old.asNaturals .rankedShape = .ok (a.shape.map Int.toNat)) :
    unrerank (.value v) rank old = .ok (v.withShape a.shape) := by
  rw [unrerank_value read given, Shape.ofNats_toNat natural]
  exact (Value.unrerank_eq_ok_iff natural reranked hv shape rfl).mpr rfl

theorem unrerank_listed_iff :
    unrerank (.value v) rank (.listed a.shape) = .ok (v.withShape a.shape) ↔
      a.shape.Recalled r := by
  obtain ⟨ms, rounds⟩ | ⟨d, mem, large⟩ := exists_rounds_or_large a.shape
  · have leading : Rounds (a.shape.take (a.shape.merged r)) (ms.take (a.shape.merged r)) :=
      List.forall₂_take _ rounds
    rw [unrerank_value read (Operand.asNaturals_listed rounds natural),
      Shape.ofNats_toNat (rounds.natural natural),
      Value.unrerank_eq_ok_iff natural reranked hv shape rounds.length_eq.symm, leading.eq_iff]
    exact (and_iff_right (exists_rounds_iff.mp ⟨ms, rounds⟩)).symm
  · have unread : unrerank (.value v) rank (.listed a.shape) = .error .tooLarge := by
      show (rank.asInteger .rank >>= fun r =>
        (Operand.listed a.shape).asNaturals .rankedShape >>= fun lengths =>
          v.unrerank r (.ofNats lengths)) = _
      rw [read, Operand.asNaturals_listed_of_large mem large]
      rfl
    rw [unread]
    exact iff_of_false nofun fun recalled => by simpa [large] using recalled.1 d mem

end

/-- Reranking is undone, for the reranked value and for every value of its shape, if the operand
holds the old shape. A list of the axis lengths does so if those of the merged axes are numbers and
the others are not too large to be read. -/
theorem unrerank_undoes_rerank_iff (h : a.grid.WellFormed) (read : rank.asInteger .rank = .ok r) :
    (r < -Int.ofNat a.rank → ∃ cause, rerank rank (.value a) = .error (.shape cause)) ∧
      (-Int.ofNat a.rank ≤ r → ∃ b, rerank rank (.value a) = .ok b ∧
        (∀ old : Operand, old.asNaturals .rankedShape = .ok (a.shape.map Int.toNat) →
          unrerank (.value b) rank old = .ok a ∧
          ∀ v : Value, v.grid.WellFormed → v.shape = b.shape →
            unrerank (.value v) rank old = .ok (v.withShape a.shape)) ∧
        (unrerank (.value b) rank (.listed a.shape) = .ok a ↔ a.shape.Recalled r) ∧
        ∀ v : Value, v.grid.WellFormed → v.shape = b.shape →
          (unrerank (.value v) rank (.listed a.shape) = .ok (v.withShape a.shape) ↔
            a.shape.Recalled r)) := by
  have natural : a.shape.Natural := h.natural
  rw [rerank_value read, Value.rerank]
  refine ⟨fun low => ?_, fun enough => ?_⟩
  · obtain ⟨cause, refused⟩ := Shape.rerank_of_low low
    exact ⟨cause, congrArg (· >>= _) refused⟩
  · obtain ⟨t, reranked⟩ := Shape.exists_rerank enough
    have fits : Yields _ (a.shape.rerank r) := Shape.rerank_yields natural r
    rw [reranked] at fits
    have hb : (a.withShape t).grid.WellFormed :=
      (Value.grid_ofGrid_wellFormed _).mpr
        (h.holds_trivial.withShape fits.1 fits.2).wellFormed
    have shape : (a.withShape t).shape = t := Value.shape_withShape t a
    have back : (a.withShape t).withShape a.shape = a :=
      (Value.withShape_withShape ..).trans a.withShape_shape
    refine ⟨a.withShape t, congrArg (· >>= _) reranked, fun old given => ⟨?_, ?_⟩, ?_, ?_⟩
    · have undone := unrerank_of_given read natural reranked hb shape given
      rwa [back] at undone
    · intro v hv same
      exact unrerank_of_given read natural reranked hv (same.trans shape) given
    · have undone := unrerank_listed_iff read natural reranked hb shape
      rwa [back] at undone
    · intro v hv same
      exact unrerank_listed_iff read natural reranked hv (same.trans shape)

/-- Two leading axes are merged, and found again from the list of the old axis lengths. -/
theorem merged_axes_recalled :
    let table : Value := .byte ⟨[2, 2, 1], [1, 2, 3, 4]⟩
    let rank : Operand := .value (.number ⟨[], [.ofBits 0xc000000000000000]⟩)
    table.grid.WellFormed ∧ rank.asInteger .rank = .ok (-2) ∧
      rerank rank (.value table) = .ok (.byte ⟨[4, 1], [1, 2, 3, 4]⟩) ∧
      unrerank (.value (.byte ⟨[4, 1], [1, 2, 3, 4]⟩)) rank (.listed table.shape) = .ok table ∧
      unrerank (.value (.character ⟨[4, 1], ['a', 'b', 'c', 'd']⟩)) rank (.listed table.shape) =
        .ok (.character ⟨[2, 2, 1], ['a', 'b', 'c', 'd']⟩) := by
  intro table rank
  have h : table.grid.WellFormed := by decide
  have read : rank.asInteger .rank = .ok (-2) := rfl
  have recalled : table.shape.Recalled (-2) := ⟨by decide +kernel, by decide +kernel⟩
  have letters : Grid.WellFormed ⟨[4, 1], ['a', 'b', 'c', 'd']⟩ := by decide
  obtain ⟨b, reranked, -, undone, others⟩ :=
    (unrerank_undoes_rerank_iff h read).2 (by decide)
  cases reranked
  exact ⟨h, read, rfl, undone.mpr recalled,
    (others (.character ⟨[4, 1], ['a', 'b', 'c', 'd']⟩) letters rfl).mpr recalled⟩

/-- The only axis that is merged comes back with another length if its own is no number. There are
no elements that could tell, because another axis has length zero. -/
theorem odd_axis_not_recalled :
    let empty : Value := .byte ⟨[9007199254740993, 0], []⟩
    let rank : Operand := .value (.byte ⟨[], [1]⟩)
    empty.grid.WellFormed ∧ rank.asInteger .rank = .ok 1 ∧ -Int.ofNat empty.rank ≤ 1 ∧
      rerank rank (.value empty) = .ok empty ∧
      unrerank (.value empty) rank (.listed empty.shape) =
        .ok (.byte ⟨[9007199254740992, 0], []⟩) ∧
      unrerank (.value empty) rank (.listed empty.shape) ≠ .ok empty := by
  intro empty rank
  have read : rank.asInteger .rank = .ok 1 := rfl
  have rounds : Rounds empty.shape [9007199254740992, 0] :=
    .cons (by decide +kernel) (.cons (by decide +kernel) .nil)
  have shorter : unrerank (.value empty) rank (.listed empty.shape) =
      .ok (.byte ⟨[9007199254740992, 0], []⟩) := by
    rw [unrerank_value read (Operand.asNaturals_listed rounds (by decide))]
    rfl
  refine ⟨by decide, read, by decide, rfl, shorter, fun undone => ?_⟩
  have same := congrArg Value.shape (Except.ok.inj (shorter.symm.trans undone))
  exact absurd same (by decide)

end RowMajor
