import RowMajor.Proofs.Grid.Tables
import RowMajor.Proofs.Keep.Replicating
import RowMajor.Proofs.Operand.Lists
import RowMajor.Proofs.Section.Filling

/-!
# Resizing as taking

Taking as many rows along every axis as a shape says cuts or pads each axis at its end, and that
is what resizing to the shape does. The two are computed in different ways, axis by axis and
element by element, but a section is determined by its counts.
-/

namespace RowMajor

variable {α : Type}

namespace Grid

/-- Resize the grid that is held, and replace it by the result. Too many axes are found out before
anything is replaced. -/
def resizeHere (kind : Kind) (target : Shape) (fill : α) : EStateM Error (Grid α) Unit := do
  let a ← get
  let current := List.replicate (target.length - a.rank) 1 ++ a.shape
  if current.length ≠ target.length then
    throw (.shape (.resize a.shape target))
  let padded := a.withShape current
  if current = target then
    set padded
  else
    set (Grid.mk target (target.coordinates.map fun index => (padded.get? index).getD fill))
    discard (MonadExcept.ofExcept (fit kind (← get)))

variable {a b : Grid α} {kind : Kind} {target : Shape} {x : α}

/-- What is done once the grid has been read. -/
theorem resizeHere_eq (kind : Kind) (target : Shape) (x : α) (a : Grid α) :
    let current := List.replicate (target.length - a.rank) 1 ++ a.shape
    let padded := a.withShape current
    let resized := Grid.mk target (target.coordinates.map fun index => (padded.get? index).getD x)
    resizeHere kind target x a =
      (if current.length ≠ target.length then throw (.shape (.resize a.shape target))
      else if current = target then set padded
      else do
        set resized
        discard (MonadExcept.ofExcept (fit kind (← get))) : EStateM Error (Grid α) Unit) a :=
  rfl

theorem resizeHere_of_ok (resized : a.resize kind target x = .ok b) :
    resizeHere kind target x a = .ok () b := by
  rw [resize] at resized
  split at resized
  · cases resized
  · rename_i few
    have whole : (List.replicate (target.length - a.rank) 1 ++ a.shape).length = target.length := by
      rw [List.length_append, List.length_replicate]
      exact Nat.sub_add_cancel (Nat.not_lt.mp few)
    rw [resizeHere_eq, if_neg (not_not_intro whole)]
    simp only at resized
    split at resized
    · rename_i same
      replace same : List.replicate (target.length - a.rank) 1 ++ a.shape = target := same
      rw [if_pos same, ← Except.ok.inj resized]
      rfl
    · rename_i other
      replace other : List.replicate (target.length - a.rank) 1 ++ a.shape ≠ target := other
      obtain ⟨fits, rfl⟩ := fit_eq_ok_iff.mp resized
      rw [if_neg other]
      show (discard (MonadExcept.ofExcept (fit kind _)) : EStateM Error (Grid α) Unit) _ = _
      rw [fit_eq_ok fits]
      rfl

theorem resizeHere_of_rank_lt (fewer : target.length < a.rank) :
    resizeHere kind target x a = .error (.shape (.resize a.shape target)) a := by
  have apart : (List.replicate (target.length - a.rank) 1 ++ a.shape).length ≠ target.length := by
    rw [List.length_append, List.length_replicate]
    exact Nat.ne_of_gt (Nat.lt_add_left _ fewer)
  rw [resizeHere_eq, if_pos apart]
  rfl

/-- The grid with leading axes of length one, so that it has at least the given rank. -/
def stretchTo (rank : Nat) (a : Grid α) : Grid α :=
  a.withShape (List.replicate (rank - a.rank) 1 ++ a.shape)

theorem Holds.stretchTo {valid : α → Prop} (h : a.Holds valid) (rank : Nat) :
    (a.stretchTo rank).Holds valid :=
  h.withShape ((Shape.natural_replicate_one _).append h.wellFormed.natural)
    (Shape.cellCount_ones_append ..)

theorem rank_stretchTo {rank : Nat} (few : a.rank ≤ rank) : (a.stretchTo rank).rank = rank := by
  show (List.replicate (rank - a.rank) 1 ++ a.shape).length = rank
  rw [List.length_append, List.length_replicate]
  exact Nat.sub_add_cancel few

theorem stretchTo_self {rank : Nat} (same : rank = a.rank) : a.stretchTo rank = a := by
  rw [Grid.stretchTo, same, Nat.sub_self]
  rfl

theorem padTo_eq (target : Shape) (x : α) (a : Grid α) :
    a.padTo target x =
      tabulate target fun index => ((a.stretchTo target.length).get? index).getD x := rfl

/-- Missing axes may be added before. -/
theorem padTo_stretchTo (few : a.rank ≤ target.length) :
    (a.stretchTo target.length).padTo target x = a.padTo target x := by
  rw [padTo_eq, stretchTo_self (rank_stretchTo few).symm, padTo_eq]

end Grid

/-- A rank that leaves no axes to be merged adds leading axes instead. -/
theorem Shape.rerank_of_le {s : Shape} {rank : Nat} (few : s.length ≤ rank + 1) :
    s.rerank (Int.ofNat rank) = .ok (List.replicate (rank + 1 - s.length) 1 ++ s) := by
  rcases Nat.lt_or_ge rank s.length with one | more
  · have exactly : s.length = rank + 1 := Nat.le_antisymm few one
    have lead : s.length - rank = 1 := by omega
    rw [rerank_of_lt one, lead, exactly, Nat.sub_self, List.replicate_zero, List.nil_append]
    obtain ⟨d, s, rfl⟩ := List.exists_cons_of_length_eq_add_one exactly
    exact congrArg (fun length => Except.ok (length :: s)) (Int.mul_one d)
  · have nonneg : 0 ≤ Int.ofNat rank := Int.natCast_nonneg rank
    have enough : s.length ≤ (Int.ofNat rank).toNat := more
    rw [rerank, if_pos nonneg, if_pos enough, Nat.sub_add_comm more]
    rfl

namespace Grid

variable {a : Grid α} {kind : Kind} {target : Shape} {x : α}

theorem taken_of_natural (natural : target.Natural) (rank : target.length = a.rank) :
    Shape.taken target a.shape = target := by
  have lengths : target.map (fun n => Int.ofNat n.natAbs) = target :=
    (List.map_congr_left fun d mem => Int.natAbs_of_nonneg (natural d mem)).trans (List.map_id _)
  rw [Shape.taken_eq (Nat.le_of_eq rank), lengths, rank, Grid.rank, List.drop_length,
    List.append_nil]

theorem isSection_padTo (natural : target.Natural) (rank : target.length = a.rank) :
    IsSection (.ok x) target a (a.padTo target x) := by
  refine ⟨wellFormed_padTo natural x a, (taken_of_natural natural rank).symm, fun index mem => ?_⟩
  rw [padTo_eq, get?_tabulate natural mem, Shape.sectionSource_natural natural, at?_ofNat,
    stretchTo_self rank]
  cases a.get? index <;> rfl

/-- To take as many rows along every axis as a shape says is to pad to the shape. -/
theorem take_eq_padTo (h : a.WellFormed) (natural : target.Natural)
    (rank : target.length = a.rank) :
    take kind (.ok x) target a = .ok (a.padTo target x) := by
  have outcome : Outcome _ _ (take kind (.ok x) target a) := take_isSection h (Nat.le_of_eq rank)
  obtain ⟨t, taken, cut, -⟩ | ⟨e, -, -, unfilled⟩ := outcome.ok_or_error
  · rw [taken, cut.unique (isSection_padTo natural rank)]
  · exact absurd rfl (unfilled x)

end Grid

section

variable {fill : Fill} {f : Form} {a : Grid f.Element} {x : f.Element} {counts : Operand}
  {ns : Shape}

/-- Reranking adds the missing axes. -/
theorem rerank_eq_stretchTo {rank : Operand} {length : Nat}
    (read : rank.asInteger .rank = .ok (Int.ofNat length - 1)) (axes : length ≠ 0)
    (few : a.rank ≤ length) :
    rerank rank (.value (.ofGrid f a)) = .ok (.ofGrid f (a.stretchTo length)) := by
  obtain ⟨n, rfl⟩ := Nat.exists_eq_succ_of_ne_zero axes
  have below : Int.ofNat n.succ - 1 = Int.ofNat n := by
    rw [Int.ofNat_eq_natCast, Int.ofNat_eq_natCast]
    omega
  rw [below] at read
  exact rerank_ofGrid read (Shape.rerank_of_le few)

/-- Taking from a value whose axes all have a count pads it to the counts. -/
theorem take_of_usable (hf : fill.WellFormed) (ha : (Value.ofGrid f a).WellFormed)
    (usable : fill.element? f = some x) (read : counts.asIntegers .indexList = .ok ns)
    (natural : ns.Natural) (rank : ns.length = a.rank) (axes : a.rank ≠ 0) :
    take counts (.value (.ofGrid f a)) fill = .ok (.ofGrid f (a.padTo ns x)) := by
  have wf : a.WellFormed := (Value.wellFormed_ofGrid_iff.mp ha).2.wellFormed
  have promoted : (Value.ofGrid f a).promoteFor fill = .ok (.ofGrid f a) := by
    refine Value.promoteFor_of_usable hf ha ?_
    rw [Value.form_ofGrid, usable]
    exact Option.some_ne_none x
  have filler : fill.filler f = .ok x := by
    rw [Fill.filler, usable]
  rw [take_promoted read promoted (by rwa [Value.rank_ofGrid]) (Nat.le_of_eq rank), filler,
    Grid.take_eq_padTo wf natural rank]
  rfl

/-- A list of the lengths does so exactly if all of them are numbers. -/
theorem take_listed_eq_padTo_iff (hf : fill.WellFormed) (ha : (Value.ofGrid f a).WellFormed)
    (usable : fill.element? f = some x) (natural : ns.Natural) (rank : ns.length = a.rank)
    (axes : a.rank ≠ 0) :
    take (.listed ns) (.value (.ofGrid f a)) fill = .ok (.ofGrid f (a.padTo ns x)) ↔
      ∀ n ∈ ns, Binary64.rounded? n = some n := by
  constructor
  · intro taken
    obtain ⟨ms, rounds⟩ | ⟨n, mem, large⟩ := exists_rounds_or_large ns
    · have length : ms.length = a.rank := rounds.length_eq.symm.trans rank
      have padded := take_of_usable hf ha usable (Operand.asIntegers_listed rounds)
        (rounds.natural natural) length axes
      have shapes := congrArg Value.shape (Except.ok.inj (padded.symm.trans taken))
      rw [Value.shape_ofGrid, Value.shape_ofGrid] at shapes
      exact rounds.eq_iff.mp shapes
    · have unread : (Operand.listed ns).asIntegers .indexList = .error .tooLarge :=
        Operand.asIntegers_listed_of_large mem large
      cases (take_of_unread unread (by rwa [Value.rank_ofGrid]) fill).symm.trans taken
  · intro stays
    exact take_of_usable hf ha usable (Operand.asIntegers_listed (rounds_self_iff.mpr stays))
      natural rank axes

end

/-- Resizing a value where it is turns it into what is taken of it, with as many rows along every
axis as the shape says, after leading axes of length one have been added. Every element is the one
with the same coordinates, or the fill element. The counts may be given as a list if all of them
are numbers. A value with more axes than the shape is refused, and stays as it is. -/
theorem resizing_is_taking {v : Value} {fill : Fill} {x : v.form.Element} {s : Shape}
    (hv : v.WellFormed) (hf : fill.WellFormed) (usable : fill.element? v.form = some x)
    (natural : s.Natural) :
    (s ≠ [] → v.rank ≤ s.length →
      let w := v.withShape (List.replicate (s.length - v.rank) 1 ++ v.shape)
      ∃ r : Grid v.form.Element, Grid.resizeHere v.kind s x v.grid = .ok () r ∧
        (∀ rank : Operand, rank.asInteger .rank = .ok (Int.ofNat s.length - 1) →
          rerank rank (.value v) = .ok w) ∧
        (∀ counts : Operand, counts.asIntegers .indexList = .ok s →
          take counts (.value w) fill = .ok (.ofGrid v.form r)) ∧
        (take (.listed s) (.value w) fill = .ok (.ofGrid v.form r) ↔
          ∀ d ∈ s, Binary64.rounded? d = some d) ∧
        ∀ index ∈ s.coordinates, (Value.ofGrid v.form r).cell? index =
          (w.cell? index).or (some (v.form.item x))) ∧
    (s.length < v.rank →
      Grid.resizeHere v.kind s x v.grid = .error (.shape (.resize v.shape s)) v.grid) := by
  refine ⟨fun axes few => ?_, Grid.resizeHere_of_rank_lt⟩
  intro w
  have wf : v.grid.WellFormed := hv.holds.wellFormed
  have stretched : w = .ofGrid v.form (v.grid.stretchTo s.length) := rfl
  have rank : s.length = (v.grid.stretchTo s.length).rank := (Grid.rank_stretchTo few).symm
  have hw : (Value.ofGrid v.form (v.grid.stretchTo s.length)).WellFormed :=
    hv.ofGrid_of_holds (hv.holds.stretchTo s.length)
  have axes' : (v.grid.stretchTo s.length).rank ≠ 0 :=
    rank ▸ mt List.length_eq_zero_iff.mp axes
  have padded := Grid.padTo_stretchTo (x := x) few
  refine ⟨v.grid.padTo s x, Grid.resizeHere_of_ok (Grid.resize_eq_ok v.kind x wf natural few),
    fun depth read => ?_, fun counts read => ?_, ?_, fun index mem => ?_⟩
  · have done := rerank_eq_stretchTo read (mt List.length_eq_zero_iff.mp axes) few
    rwa [Value.ofGrid_grid] at done
  · rw [stretched, ← padded]
    exact take_of_usable hf hw usable read natural rank axes'
  · rw [stretched, ← padded]
    exact take_listed_eq_padTo_iff hf hw usable natural rank axes'
  · have grid := Grid.padTo_eq s x v.grid
    rw [stretched, Value.cell?_ofGrid, Value.cell?_ofGrid, grid, Grid.get?_tabulate natural mem]
    cases (v.grid.stretchTo s.length).get? index <;> rfl

/-- The only line of a table is cut, and a line of dots is added. -/
theorem word_resized :
    let word : Value := .character ⟨[4], ['a', 'b', 'c', 'd']⟩
    let line : Value := .character ⟨[1, 4], ['a', 'b', 'c', 'd']⟩
    let resized : Grid Char := ⟨[2, 3], ['a', 'b', 'c', '.', '.', '.']⟩
    let fill : Fill := ⟨some (.character ⟨[], ['.']⟩)⟩
    let rank : Operand := .value (.byte ⟨[], [1]⟩)
    word.WellFormed ∧ line.WellFormed ∧ fill.WellFormed ∧ fill.element? word.form = some '.' ∧
      Shape.Natural [2, 3] ∧ Shape.Natural [3] ∧ word.rank ≤ 2 ∧ 1 < line.rank ∧
      rank.asInteger .rank = .ok 1 ∧ (∀ d ∈ ([2, 3] : Shape), Binary64.rounded? d = some d) ∧
      Grid.resizeHere .character [2, 3] '.' word.grid = .ok () resized ∧
      rerank rank (.value word) = .ok line ∧
      take (.listed [2, 3]) (.value line) fill = .ok (.character resized) ∧
      Grid.resizeHere .character [3] '.' line.grid =
        .error (.shape (.resize [1, 4] [3])) line.grid := by
  intro word line resized fill rank
  have hw : word.WellFormed := .character (by decide)
  have hl : line.WellFormed := .character (by decide)
  have hf : fill.WellFormed := by
    intro v given
    cases given
    exact .character (by decide)
  have natural : Shape.Natural [2, 3] := by decide
  have natural' : Shape.Natural [3] := by decide
  have few : word.rank ≤ 2 := by decide
  have more : 1 < line.rank := by decide
  have read : rank.asInteger .rank = .ok 1 := rfl
  have stays : ∀ d ∈ ([2, 3] : Shape), Binary64.rounded? d = some d := by decide +kernel
  have cut : Grid.resizeHere .character [2, 3] '.' word.grid = .ok () resized := rfl
  obtain ⟨resizes, -⟩ := resizing_is_taking (x := '.') hw hf rfl natural
  obtain ⟨r, done, reranks, -, listed, -⟩ := resizes (by decide) few
  obtain ⟨-, rfl⟩ := EStateM.Result.ok.inj (cut.symm.trans done)
  obtain ⟨-, refuses⟩ := resizing_is_taking (x := '.') hl hf rfl natural'
  exact ⟨hw, hl, hf, rfl, natural, natural', few, more, read, stays, cut, reranks rank read,
    listed.mpr stays, refuses more⟩

/-- The shape that an empty table has already is another one as a list of counts. -/
theorem odd_axis_taken_shorter :
    let table : Value := .byte ⟨[9007199254740993, 0], []⟩
    let fill : Fill := ⟨some (.byte ⟨[], [0]⟩)⟩
    let rank : Operand := .value (.byte ⟨[], [1]⟩)
    table.WellFormed ∧ fill.WellFormed ∧ fill.element? table.form = some (0 : UInt8) ∧
      table.shape.Natural ∧ table.shape ≠ [] ∧
      rank.asInteger .rank = .ok (Int.ofNat table.shape.length - 1) ∧
      Grid.resizeHere table.kind table.shape (0 : UInt8) table.grid = .ok () table.grid ∧
      rerank rank (.value table) = .ok table ∧
      take (.listed table.shape) (.value table) fill =
        .ok (.byte ⟨[9007199254740992, 0], []⟩) ∧
      take (.listed table.shape) (.value table) fill ≠ .ok table := by
  intro table fill rank
  have hf : fill.WellFormed := by
    intro v given
    cases given
    exact .byte (by decide)
  have rounds : Rounds table.shape [9007199254740992, 0] :=
    .cons (by decide +kernel) (.cons (by decide +kernel) .nil)
  have shorter : take (.listed table.shape) (.value table) fill =
      .ok (.byte ⟨[9007199254740992, 0], []⟩) := by
    rw [take_value (Operand.asIntegers_listed rounds)]
    rfl
  refine ⟨.byte (by decide), hf, rfl, by decide, by decide, rfl, rfl, rfl, shorter, ?_⟩
  rw [shorter]
  exact fun same => absurd (congrArg Value.shape (Except.ok.inj same)) (by decide)

end RowMajor
