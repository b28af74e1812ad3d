import RowMajor.Proofs.Operand.Lists
import RowMajor.Proofs.Section.Undo

/-!
# Dropping and putting back

Dropping leaves the section that complementary counts take: from the opposite side, as many
rows as are left. To put back what was left is therefore to put back a section that is always
there, however many rows the counts drop, and nothing can be refused but another shape. Counts
that are listed as integers are rounded, which drops no other rows, but they have to be stored.
-/

namespace RowMajor

variable {α : Type}

namespace Shape

/-- The count that takes what dropping another one along an axis of length `d` leaves. -/
def remainingCount (n d : Int) : Int :=
  if 0 ≤ n then min (n - d) 0 else max (n + d) 0

/-- The element lies in one of the rows that the counts drop. -/
def Drops : List Int → Shape → List Nat → Prop
  | n :: counts, d :: s, i :: index =>
    (if 0 ≤ n then Int.ofNat i < n else d + n ≤ Int.ofNat i) ∨ Drops counts s index
  | _, _, _ => False

variable {n d : Int} {counts : List Int} {s : Shape} {index : List Nat}

theorem remainingCounts_cons : remainingCounts (n :: counts) (d :: s) =
    remainingCount n d :: remainingCounts counts s := rfl

theorem natAbs_remainingCount (nonneg : 0 ≤ d) :
    (remainingCount n d).natAbs = d.toNat - n.natAbs := by
  rw [remainingCount]
  split <;> omega

theorem length_remainingCounts (rank : counts.length ≤ s.length) :
    (remainingCounts counts s).length = counts.length := by
  rw [remainingCounts, List.length_zipWith, Nat.min_eq_left rank]

/-- What is left is as large as what the complementary counts take. -/
theorem taken_remainingCounts (natural : s.Natural) :
    taken (remainingCounts counts s) s = dropped counts s := by
  induction counts generalizing s with
  | nil => cases s <;> rfl
  | cons n counts ih =>
      cases s with
      | nil => rfl
      | cons d s =>
          obtain ⟨nonneg, natural⟩ := (natural_cons d s).mp natural
          rw [remainingCounts_cons, taken, dropped, ih natural, natAbs_remainingCount nonneg]
          congr 1
          simp only [Int.ofNat_eq_natCast]
          omega

/-- What is left can always be taken. -/
theorem hasSection_remainingCounts (natural : s.Natural) :
    HasSection (remainingCounts counts s) s := by
  induction counts generalizing s with
  | nil => cases s <;> trivial
  | cons n counts ih =>
      cases s with
      | nil => trivial
      | cons d s =>
          obtain ⟨nonneg, natural⟩ := (natural_cons d s).mp natural
          rw [remainingCounts_cons]
          refine ⟨?_, .inr (ih natural)⟩
          rw [natAbs_remainingCount nonneg]
          simp only [Int.ofNat_eq_natCast]
          omega

/-- An element that is not dropped is left. -/
theorem covers_remainingCounts (natural : s.Natural) (mem : index ∈ coordinates s) :
    Covers (remainingCounts counts s) s index ↔ ¬ Drops counts s index := by
  induction counts generalizing s index with
  | nil => exact iff_of_true (covers_nil s index) id
  | cons n counts ih =>
      cases s with
      | nil => exact iff_of_true trivial id
      | cons d s =>
          obtain ⟨nonneg, natural⟩ := (natural_cons d s).mp natural
          obtain ⟨i, rest, rfl, there, below⟩ := mem_coordinates_cons.mp mem
          have here : (sectionStart (remainingCount n d) d ≤ Int.ofNat i ∧ Int.ofNat i <
              sectionStart (remainingCount n d) d + Int.ofNat (remainingCount n d).natAbs) ↔
              ¬ (if 0 ≤ n then Int.ofNat i < n else d + n ≤ Int.ofNat i) := by
            rw [natAbs_remainingCount nonneg, sectionStart, natAbs_remainingCount nonneg,
              remainingCount]
            simp only [Int.ofNat_eq_natCast]
            split <;> split <;> omega
          rw [remainingCounts_cons, Covers, Drops, not_or, here, ih natural below]

end Shape

namespace Grid

variable {a t : Grid α} {n d : Int} {counts : List Int} {s : Shape} {filler : Filler α}

/-- The rows that are left are those that the complementary count takes. -/
theorem dropRows_eq_takeRows (h : a.WellFormed) (n : Int) :
    a.dropRows n = a.takeRows (Shape.remainingCount n a.rowCount) := by
  have nonneg := h.rowCount_nonneg
  have few : a.rowCount.toNat - n.natAbs ≤ a.rowCount.toNat := Nat.sub_le ..
  simp only [dropRows, takeRows, Shape.natAbs_remainingCount nonneg, Nat.min_eq_left few]
  by_cases front : 0 ≤ n
  · rw [if_pos front]
    split
    · rename_i all
      -- Nothing is left, so it does not matter where it would begin.
      have none : a.rowCount.toNat - n.natAbs = 0 := by
        rw [Shape.remainingCount, if_pos front] at all
        omega
      rw [none]
      rfl
    · rfl
  · have back : 0 ≤ Shape.remainingCount n a.rowCount := by
      rw [Shape.remainingCount, if_neg front]
      exact Int.le_max_right ..
    rw [if_neg front, if_pos back]

/-- Dropping goes row by row. -/
theorem drop_cons (h : a.WellFormed) (shape : a.shape = d :: s) :
    a.drop (n :: counts) =
      stacked (Shape.dropped counts s) ((a.dropRows n).map (drop counts)) := by
  have nonneg := (h.natural_of_shape shape).1
  cases counts with
  | nil =>
      have rows : (a.dropRows n).map (drop []) = a.dropRows n := List.map_id' _
      rw [rows, Shape.dropped_nil]
      exact dropLeading_eq_stacked h shape n
  | cons m counts =>
      have length : Int.ofNat (a.dropRows n).length = max (d - Int.ofNat n.natAbs) 0 := by
        rw [length_dropRows, rowCount_of_shape shape]
        simp only [Int.ofNat_eq_natCast]
        omega
      rw [drop, stacked, List.length_map, length, shape]
      · rfl
      · exact List.cons_ne_nil m counts

/-- Dropping leaves the section that the complementary counts take. -/
theorem drop_isSection (h : a.WellFormed) (rank : counts.length ≤ a.rank) :
    IsSection filler (remainingCounts counts a.shape) a (a.drop counts) := by
  induction counts generalizing a with
  | nil => exact isSection_nil h
  | cons n counts ih =>
      have shape := shape_eq_cons rank
      have nonneg := h.rowCount_nonneg
      have each : List.Forall₂ (IsSection filler (remainingCounts counts a.rowShape))
          (a.takeRows (Shape.remainingCount n a.rowCount))
          ((a.takeRows (Shape.remainingCount n a.rowCount)).map (drop counts)) := by
        rw [List.forall₂_map_right_iff, List.forall₂_same]
        intro row mem
        obtain ⟨holds, rowShape⟩ := h.holds_trivial.takeRows mem
        have cut := ih holds.wellFormed (by
          rw [Grid.rank, rowShape]
          exact rank_rowShape rank)
        rwa [rowShape] at cut
      have missing : ([] : List (Grid α)).length =
          (Shape.remainingCount n a.rowCount).natAbs - a.rowCount.toNat := by
        rw [List.length_nil, Shape.natAbs_remainingCount nonneg]
        omega
      have cut := isSection_stacked h shape each missing
        fun _ mem => absurd mem List.not_mem_nil
      rw [padItems_nil, Shape.taken_remainingCounts h.natural_rowShape] at cut
      rw [drop_cons h shape, dropRows_eq_takeRows h]
      rw [← Shape.remainingCounts_cons, ← shape] at cut
      exact cut

theorem shape_drop (h : a.WellFormed) (rank : counts.length ≤ a.rank) :
    (a.drop counts).shape = Shape.taken (remainingCounts counts a.shape) a.shape := by
  have cut : IsSection (.error .absent) (remainingCounts counts a.shape) a (a.drop counts) :=
    drop_isSection h rank
  exact cut.shape

/-- No axis is lost. -/
theorem rank_drop (h : a.WellFormed) (rank : counts.length ≤ a.rank) :
    (a.drop counts).rank = a.rank := by
  rw [Grid.rank, (drop_holds h.holds_trivial rank).2, Shape.length_dropped, Grid.rank]

/-- What is put back has to have the shape of what was left, and nothing else is asked of it. -/
theorem undrop_spec (ht : t.WellFormed) (h : a.WellFormed) (rank : counts.length ≤ a.rank) :
    Outcome
      (fun r => t.shape = (a.drop counts).shape ∧
        IsReplaced (remainingCounts counts a.shape) t a r)
      (fun _ => t.shape ≠ (a.drop counts).shape) (undrop counts t a) := by
  have fits : Shape.HasSection (remainingCounts counts a.shape) a.shape :=
    Shape.hasSection_remainingCounts h.natural
  have fewer : (remainingCounts counts a.shape).length ≤ a.rank :=
    Shape.length_remainingCounts rank ▸ rank
  rw [undrop, checkCounts, if_neg (Nat.not_lt.mpr rank), shape_drop h rank]
  show Outcome _ _ (undoSection .drop (remainingCounts counts a.shape) t a)
  simp only [undoSection]
  split
  · rename_i changed
    exact changed
  · rename_i same
    have shape := not_not.mp same
    exact (replaceSection_isReplaced .drop ht h fewer fits shape).mono
      (fun _ replaced => ⟨shape, replaced⟩) fun _ never => never.elim

theorem undrop_drop (h : a.WellFormed) (rank : counts.length ≤ a.rank) :
    undrop counts (a.drop counts) a = .ok a := by
  have cut : IsSection (.error .absent) (remainingCounts counts a.shape) a (a.drop counts) :=
    drop_isSection h rank
  obtain ⟨r, undone, -, replaced⟩ | ⟨e, -, changed⟩ :=
    (undrop_spec cut.wellFormed h rank).ok_or_error
  · rw [undone, replaced.eq_of_isSection h (Shape.hasSection_remainingCounts h.natural) cut]
  · exact absurd rfl changed

/-- What was put back is what dropping leaves afterwards. -/
theorem IsReplaced.drop_eq {r : Grid α}
    (replaced : IsReplaced (remainingCounts counts a.shape) t a r) (ht : t.WellFormed)
    (h : a.WellFormed) (rank : counts.length ≤ a.rank) (shape : t.shape = (a.drop counts).shape) :
    r.drop counts = t := by
  have left : IsSection (.error .absent) (remainingCounts counts r.shape) r (r.drop counts) := by
    refine drop_isSection replaced.wellFormed ?_
    rwa [Grid.rank, replaced.shape]
  have put : IsSection (.error .absent) (remainingCounts counts a.shape) r t :=
    replaced.isSection ht (shape.trans (shape_drop h rank))
  rw [replaced.shape] at left
  exact left.unique put

end Grid

section Operations

variable {counts : Operand} {ns : List Int} {f : Form} {a : Grid f.Element}

theorem drop_ofGrid (read : counts.asIntegers .indexList = .ok ns) (axes : a.rank ≠ 0)
    (rank : ns.length ≤ a.rank) :
    drop counts (.value (.ofGrid f a)) = .ok (.ofGrid f (a.drop ns)) := by
  have onGrid : (Value.ofGrid f a).drop ns = (do
      a.checkCounts (.indexLength .drop) ns
      .ok (.ofGrid f (a.drop ns))) :=
    Value.form_grid_ofGrid (γ := Except Error Value) (fun g b => do
      b.checkCounts (.indexLength .drop) ns
      .ok (.ofGrid g (b.drop ns))) a
  have whole : drop counts (.value (.ofGrid f a)) =
      if (Value.ofGrid f a).rank = 0 then .error (.shape (.scalarSection .drop))
      else counts.asIntegers .indexList >>= fun ns => (Value.ofGrid f a).drop ns := rfl
  have ranked : (Value.ofGrid f a).rank ≠ 0 := by
    rw [Value.rank, Value.shape_ofGrid]
    exact axes
  rw [whole, read, if_neg ranked]
  show (Value.ofGrid f a).drop ns = _
  rw [onGrid, Grid.checkCounts, if_neg (Nat.not_lt.mpr rank)]
  rfl

theorem undrop_ofGrid (read : counts.asIntegers .indexList = .ok ns) (t a : Grid f.Element) :
    undrop (.value (.ofGrid f t)) counts (.value (.ofGrid f a)) = (do
      .ok (.ofGrid f (← t.undrop ns a))) := by
  have whole : undrop (.value (.ofGrid f t)) counts (.value (.ofGrid f a)) =
      counts.asIntegers .indexList >>= fun ns =>
        Value.undrop ns (.ofGrid f t) (.ofGrid f a) := rfl
  rw [whole, read]
  show Value.undrop ns (.ofGrid f t) (.ofGrid f a) = _
  rw [Value.undrop, Value.unify_ofGrid]
  rfl

theorem undrop_of_unread {e : Error} {v w : Value}
    (unread : counts.asIntegers .indexList = .error e) :
    undrop (.value v) counts (.value w) = .error e := by
  have whole : undrop (.value v) counts (.value w) =
      counts.asIntegers .indexList >>= fun ns => Value.undrop ns v w := rfl
  rw [whole, unread]
  rfl

theorem drop_of_unread {e : Error} {v : Value} (unread : counts.asIntegers .indexList = .error e)
    (axes : v.rank ≠ 0) : drop counts (.value v) = .error e := by
  have whole : drop counts (.value v) =
      if v.rank = 0 then .error (.shape (.scalarSection .drop))
      else counts.asIntegers .indexList >>= fun ns => v.drop ns := rfl
  rw [whole, if_neg axes, unread]
  rfl

end Operations

/-- What is left when integers are dropped can be put back, and so can anything else of its shape,
but nothing of another shape: it is then what dropping leaves, and nothing that was dropped has
changed. -/
def Value.UndropsDrop (a : Value) (counts : Operand) (ns : List Int) : Prop :=
  ∃ rest, RowMajor.drop counts (.value a) = .ok rest ∧ rest.form = a.form ∧
    RowMajor.undrop (.value rest) counts (.value a) = .ok a ∧
    ∀ d : Value, d.grid.WellFormed → d.form = a.form →
      ((∃ r, RowMajor.undrop (.value d) counts (.value a) = .ok r) ↔ d.shape = rest.shape) ∧
      ∀ r, RowMajor.undrop (.value d) counts (.value a) = .ok r →
        r.shape = a.shape ∧ RowMajor.drop counts (.value r) = .ok d ∧
          ∀ index ∈ a.shape.coordinates, Shape.Drops ns a.shape index →
            r.cell? index = a.cell? index

section Operations

variable {counts : Operand} {ns ms : List Int} {a : Value}

theorem undropsDrop_of_read (read : counts.asIntegers .indexList = .ok ns)
    (wf : a.grid.WellFormed) (axes : a.rank ≠ 0) (rank : ns.length ≤ a.rank) :
    a.UndropsDrop counts ns := by
  obtain ⟨f, a, rfl⟩ := a.exists_form
  rw [Value.grid_ofGrid_wellFormed] at wf
  rw [Value.rank, Value.shape_ofGrid] at axes rank
  refine ⟨.ofGrid f (a.drop ns), drop_ofGrid read axes rank, ?_, ?_, ?_⟩
  · rw [Value.form_ofGrid, Value.form_ofGrid]
  · rw [undrop_ofGrid read, Grid.undrop_drop wf rank]
    rfl
  · intro d hd sameForm
    obtain ⟨d, rfl⟩ := Value.exists_grid (sameForm.trans (Value.form_ofGrid f a))
    rw [Value.grid_ofGrid_wellFormed] at hd
    have outcome := Grid.undrop_spec hd wf rank
    simp only [undrop_ofGrid read, Value.shape_ofGrid]
    cases undone : Grid.undrop ns d a with
    | error e =>
        rw [undone] at outcome
        refine ⟨iff_of_false ?_ outcome, ?_⟩
        · rintro ⟨r, ⟨⟩⟩
        · rintro r ⟨⟩
    | ok r =>
        rw [undone] at outcome
        obtain ⟨shape, replaced⟩ := outcome
        refine ⟨iff_of_true ⟨_, rfl⟩ shape, ?_⟩
        rintro _ ⟨⟩
        have rankR : r.rank = a.rank := congrArg List.length replaced.shape
        refine ⟨(Value.shape_ofGrid f r).trans replaced.shape, ?_, fun index mem dropped => ?_⟩
        · rw [drop_ofGrid read (rankR ▸ axes) (rankR ▸ rank), replaced.drop_eq hd wf rank shape]
        · have apart : ¬ Shape.Covers (remainingCounts ns a.shape) a.shape index :=
            (Shape.covers_remainingCounts wf.natural mem).not.mpr (not_not_intro dropped)
          rw [Value.cell?_ofGrid, Value.cell?_ofGrid, replaced.outside index mem apart]

/-- Where an axis has no more than `2 ^ 53` places, rounding drops the same ones. -/
theorem Rounds.drops_iff {s : Shape} {index : List Nat} (rounds : Rounds ns ms)
    (short : ∀ d ∈ s, d ≤ 2 ^ 53) (mem : index ∈ s.coordinates) :
    Shape.Drops ns s index ↔ Shape.Drops ms s index := by
  induction rounds generalizing s index with
  | nil => exact Iff.rfl
  | @cons n m ns ms found _ ih =>
      cases s with
      | nil => exact Iff.rfl
      | cons d s =>
          obtain ⟨i, rest, rfl, there, below⟩ := Shape.mem_coordinates_cons.mp mem
          obtain ⟨here, others⟩ := List.forall_mem_cons.mp short
          have sign := (Binary64.sign_rounded? found).1
          have far := Binary64.eq_or_far_of_rounded? found
          have same : (if 0 ≤ n then Int.ofNat i < n else d + n ≤ Int.ofNat i) ↔
              (if 0 ≤ m then Int.ofNat i < m else d + m ≤ Int.ofNat i) := by
            simp only [Int.ofNat_eq_natCast]
            split <;> split <;> omega
          rw [Shape.Drops, Shape.Drops, same, ih others below]

/-- The list drops what its integers say, as long as there is a number for each of them. -/
theorem undropsDrop_listed_iff (wf : a.grid.WellFormed) (axes : a.rank ≠ 0)
    (rank : ns.length ≤ a.rank) (few : a.elementCount ≤ 2 ^ 53) :
    a.UndropsDrop (.listed ns) ns ↔ ∀ n ∈ ns, (Binary64.rounded? n).isSome := by
  constructor
  · rintro ⟨rest, dropped, -⟩
    obtain ⟨ms, rounds⟩ | ⟨n, mem, large⟩ := exists_rounds_or_large ns
    · exact exists_rounds_iff.mp ⟨ms, rounds⟩
    · cases (drop_of_unread (Operand.asIntegers_listed_of_large mem large) axes).symm.trans dropped
  · intro stored
    obtain ⟨ms, rounds⟩ := exists_rounds_iff.mpr stored
    obtain ⟨rest, dropped, form, undone, others⟩ := undropsDrop_of_read
      (Operand.asIntegers_listed rounds) wf axes (rounds.length_eq ▸ rank)
    refine ⟨rest, dropped, form, undone, fun d hd sameForm => ?_⟩
    obtain ⟨accepted, edited⟩ := others d hd sameForm
    refine ⟨accepted, fun r put => ?_⟩
    obtain ⟨shape, left, kept⟩ := edited r put
    refine ⟨shape, left, fun index mem drops => kept index mem ?_⟩
    have short : ∀ d ∈ a.shape, d ≤ 2 ^ 53 := wf.axis_le few mem
    exact (rounds.drops_iff short mem).mp drops

/-- Whatever integers are dropped, what is left can be put back. They may be given as a list if
there is a number for each of them. -/
theorem undrop_undoes_drop (wf : a.grid.WellFormed) (axes : a.rank ≠ 0)
    (rank : ns.length ≤ a.rank) :
    (∀ counts : Operand, counts.asIntegers .indexList = .ok ns → a.UndropsDrop counts ns) ∧
    (a.elementCount ≤ 2 ^ 53 →
      (a.UndropsDrop (.listed ns) ns ↔ ∀ n ∈ ns, (Binary64.rounded? n).isSome)) :=
  ⟨fun _ read => undropsDrop_of_read read wf axes rank, undropsDrop_listed_iff wf axes rank⟩

/-- The first line and the last column of a table are dropped, and other letters are put in the
place of what is left. -/
theorem undrop_letters :
    let counts : Operand := .value (.number (.vector [.ofSmallInt 1, .ofSmallInt (-1)]))
    let a : Value := .character ⟨[2, 3], ['a', 'b', 'c', 'd', 'e', 'f']⟩
    counts.asIntegers .indexList = .ok [1, -1] ∧ a.grid.WellFormed ∧ a.rank ≠ 0 ∧
      [(1 : Int), -1].length ≤ a.rank ∧ a.elementCount ≤ 2 ^ 53 ∧
      (∀ n ∈ [(1 : Int), -1], (Binary64.rounded? n).isSome) ∧
      drop counts (.value a) = .ok (.character ⟨[1, 2], ['d', 'e']⟩) ∧
      a.UndropsDrop counts [1, -1] ∧ a.UndropsDrop (.listed [1, -1]) [1, -1] := by
  intro counts a
  have first : (Binary64.ofSmallInt 1).toInt? = some 1 := by decide +kernel
  have second : (Binary64.ofSmallInt (-1)).toInt? = some (-1) := by decide +kernel
  have read : counts.asIntegers .indexList = .ok [1, -1] := by
    rw [Operand.asIntegers_numbers, List.mapM_cons, List.mapM_cons, Binary64.integer,
      Binary64.integer, first, second]
    rfl
  have wf : a.grid.WellFormed := by decide
  have axes : a.rank ≠ 0 := by decide
  have rank : [(1 : Int), -1].length ≤ a.rank := by decide
  have few : a.elementCount ≤ 2 ^ 53 := by decide
  have stored : ∀ n ∈ [(1 : Int), -1], (Binary64.rounded? n).isSome := by decide +kernel
  have left : drop counts (.value a) = .ok (.character ⟨[1, 2], ['d', 'e']⟩) :=
    drop_ofGrid (f := .uniform .character) read axes rank
  obtain ⟨given, listed⟩ := undrop_undoes_drop wf axes rank
  exact ⟨read, wf, axes, rank, few, stored, left, given counts read, (listed few).mpr stored⟩

/-- A count of letters that lies beyond all numbers is not dropped, although there are fewer
letters, and nothing is put back. -/
theorem count_beyond_numbers_not_dropped :
    let a : Value := .character ⟨[3], ['a', 'b', 'c']⟩
    let rest : Value := .character ⟨[0], []⟩
    a.grid.WellFormed ∧ a.rank ≠ 0 ∧ [(2 : Int) ^ 1024].length ≤ a.rank ∧
      rest.shape = Shape.dropped [2 ^ 1024] a.shape ∧
      drop (.listed [2 ^ 1024]) (.value a) = .error .tooLarge ∧
      undrop (.value rest) (.listed [2 ^ 1024]) (.value a) = .error .tooLarge ∧
      ¬ a.UndropsDrop (.listed [2 ^ 1024]) [2 ^ 1024] := by
  intro a rest
  have large : Binary64.rounded? (2 ^ 1024) = none := by decide +kernel
  have unread : (Operand.listed [2 ^ 1024]).asIntegers .indexList = .error .tooLarge :=
    Operand.asIntegers_listed_of_large List.mem_cons_self large
  have refused : drop (.listed [2 ^ 1024]) (.value a) = .error .tooLarge :=
    drop_of_unread unread (by decide)
  refine ⟨by decide, by decide, by decide, by decide +kernel, refused, ?_, ?_⟩
  · rw [undrop_of_unread unread]
  · rintro ⟨_, dropped, -⟩
    cases refused.symm.trans dropped

theorem drop_takes_of_read (read : counts.asIntegers .indexList = .ok ns) (wf : a.grid.WellFormed)
    (axes : a.rank ≠ 0) (rank : ns.length ≤ a.rank) :
    ∃ rest, drop counts (.value a) = .ok rest ∧
      rest.shape = Shape.taken (remainingCounts ns a.shape) a.shape ∧
      ∀ remaining : Operand, remaining.asIntegers .indexList = .ok (remainingCounts ns a.shape) →
        take remaining (.value a) .none = .ok rest := by
  obtain ⟨f, a, rfl⟩ := a.exists_form
  rw [Value.grid_ofGrid_wellFormed] at wf
  rw [Value.rank, Value.shape_ofGrid] at axes rank
  rw [Value.shape_ofGrid]
  refine ⟨.ofGrid f (a.drop ns), drop_ofGrid read axes rank, ?_, fun remaining readRest => ?_⟩
  · rw [Value.shape_ofGrid, Grid.shape_drop wf rank]
  · have fewer : (remainingCounts ns a.shape).length ≤ a.rank :=
      Shape.length_remainingCounts rank ▸ rank
    exact (take_ofGrid_eq_ok_iff readRest wf).mpr ⟨axes, fewer,
      Shape.hasSection_remainingCounts wf.natural, a.drop ns, Grid.drop_isSection wf rank, rfl⟩

/-- A section has as many rows as a count says, from whichever side. -/
theorem shape_of_take {r : Value} (read : counts.asIntegers .indexList = .ok ns)
    (wf : a.grid.WellFormed) (taken : take counts (.value a) .none = .ok r) :
    r.shape = Shape.taken ns a.shape := by
  obtain ⟨f, a, rfl⟩ := a.exists_form
  rw [Value.grid_ofGrid_wellFormed] at wf
  obtain ⟨-, -, -, t, cut, rfl⟩ := (take_ofGrid_eq_ok_iff read wf).mp taken
  rw [Value.shape_ofGrid, Value.shape_ofGrid, cut.shape]

/-- If complementary counts are rounded to counts that take as much as what rounded counts leave,
they are complementary to these. -/
theorem Rounds.eq_remainingCounts {s : Shape} {rest : List Int} (rounds : Rounds ns ms)
    (natural : s.Natural) (stored : Rounds (remainingCounts ns s) rest)
    (alike : Shape.taken rest s = Shape.taken (remainingCounts ms s) s) :
    rest = remainingCounts ms s := by
  induction rounds generalizing s rest with
  | nil =>
      cases stored
      rfl
  | @cons n m ns ms found _ ih =>
      cases s with
      | nil =>
          cases stored
          rfl
      | cons d s =>
          obtain ⟨nonneg, natural⟩ := (Shape.natural_cons d s).mp natural
          rw [Shape.remainingCounts_cons] at stored alike ⊢
          obtain ⟨q, others, head, kept, rfl⟩ := List.forall₂_cons_left_iff.mp stored
          rw [Shape.taken, Shape.taken] at alike
          obtain ⟨length, alike⟩ := List.cons.inj alike
          have length := Int.ofNat.inj length
          have sign := (Binary64.sign_rounded? found).1
          have signs := Binary64.sign_rounded? head
          rw [ih natural kept alike]
          congr 1
          rw [Shape.remainingCount] at signs length ⊢
          split at signs <;> split at length <;> omega

theorem drop_takes_listed_iff (wf : a.grid.WellFormed) (axes : a.rank ≠ 0)
    (rank : ns.length ≤ a.rank) :
    (∃ rest, drop (.listed ns) (.value a) = .ok rest ∧
      take (.listed (remainingCounts ns a.shape)) (.value a) .none = .ok rest) ↔
      ∃ ms, Rounds ns ms ∧ Rounds (remainingCounts ns a.shape) (remainingCounts ms a.shape) := by
  constructor
  · rintro ⟨rest, dropped, taken⟩
    obtain ⟨ms, rounds⟩ | ⟨n, mem, large⟩ := exists_rounds_or_large ns
    · obtain ⟨qs, stored⟩ | ⟨n, mem, large⟩ :=
        exists_rounds_or_large (remainingCounts ns a.shape)
      · obtain ⟨_, same, shape, -⟩ := drop_takes_of_read (Operand.asIntegers_listed rounds) wf axes
          (rounds.length_eq ▸ rank)
        obtain rfl := Except.ok.inj (dropped.symm.trans same)
        have alike := shape_of_take (Operand.asIntegers_listed stored) wf taken
        have natural : Shape.Natural a.shape := wf.natural
        have equal := rounds.eq_remainingCounts natural stored (alike.symm.trans shape)
        exact ⟨ms, rounds, equal ▸ stored⟩
      · have unread : (Operand.listed (remainingCounts ns a.shape)).asIntegers .indexList =
            .error .tooLarge := Operand.asIntegers_listed_of_large mem large
        cases (take_of_unread unread axes .none).symm.trans taken
    · cases (drop_of_unread (Operand.asIntegers_listed_of_large mem large) axes).symm.trans dropped
  · rintro ⟨ms, rounds, stored⟩
    obtain ⟨rest, dropped, -, taken⟩ := drop_takes_of_read (Operand.asIntegers_listed rounds) wf
      axes (rounds.length_eq ▸ rank)
    exact ⟨rest, dropped, taken _ (Operand.asIntegers_listed stored)⟩

/-- Whatever integers are dropped, what is left is what the complementary counts take. Both may be
given as lists if rounding leaves them complementary to each other. -/
theorem drop_takes_remaining (wf : a.grid.WellFormed) (axes : a.rank ≠ 0)
    (rank : ns.length ≤ a.rank) :
    (∀ counts : Operand, counts.asIntegers .indexList = .ok ns →
      ∃ rest, drop counts (.value a) = .ok rest ∧ ∀ remaining : Operand,
        remaining.asIntegers .indexList = .ok (remainingCounts ns a.shape) →
          take remaining (.value a) .none = .ok rest) ∧
    ((∃ rest, drop (.listed ns) (.value a) = .ok rest) ↔
      ∀ n ∈ ns, (Binary64.rounded? n).isSome) ∧
    ((∃ rest, drop (.listed ns) (.value a) = .ok rest ∧
        take (.listed (remainingCounts ns a.shape)) (.value a) .none = .ok rest) ↔
      ∃ ms, Rounds ns ms ∧ Rounds (remainingCounts ns a.shape) (remainingCounts ms a.shape)) := by
  refine ⟨fun counts read => ?_, ?_, drop_takes_listed_iff wf axes rank⟩
  · obtain ⟨rest, dropped, -, taken⟩ := drop_takes_of_read read wf axes rank
    exact ⟨rest, dropped, taken⟩
  · rw [← exists_rounds_iff]
    constructor
    · rintro ⟨rest, dropped⟩
      refine (exists_rounds_or_large ns).resolve_right ?_
      rintro ⟨n, mem, large⟩
      cases (drop_of_unread (Operand.asIntegers_listed_of_large mem large) axes).symm.trans dropped
    · rintro ⟨ms, rounds⟩
      obtain ⟨rest, dropped, -⟩ := drop_takes_of_read (Operand.asIntegers_listed rounds) wf axes
        (rounds.length_eq ▸ rank)
      exact ⟨rest, dropped⟩

/-- More lines than a table has are dropped, and one column from its end. No lines are taken, but
two columns are. -/
theorem all_lines_dropped :
    let counts : Operand := .value (.number (.vector [.ofBits 0x4008000000000000,
      .ofBits 0xbff0000000000000]))
    let remaining : Operand := .value (.byte ⟨[2], [0, 2]⟩)
    let a : Value := .character ⟨[2, 3], ['a', 'b', 'c', 'd', 'e', 'f']⟩
    counts.asIntegers .indexList = .ok [3, -1] ∧ a.grid.WellFormed ∧ a.rank ≠ 0 ∧
      [(3 : Int), -1].length ≤ a.rank ∧
      remaining.asIntegers .indexList = .ok (remainingCounts [3, -1] a.shape) ∧
      drop counts (.value a) = .ok (.character ⟨[0, 2], []⟩) ∧
      take remaining (.value a) .none = drop counts (.value a) ∧
      ∃ rest, drop (.listed [3, -1]) (.value a) = .ok rest ∧
        take (.listed [0, 2]) (.value a) .none = .ok rest := by
  intro counts remaining a
  have wf : a.grid.WellFormed := by decide
  have axes : a.rank ≠ 0 := by decide
  have rank : [(3 : Int), -1].length ≤ a.rank := by decide
  have read : counts.asIntegers .indexList = .ok [3, -1] := rfl
  have given : Rounds [3, -1] [3, -1] := .cons (by decide +kernel) (.cons (by decide +kernel) .nil)
  have left : Rounds [0, 2] [0, 2] := .cons (by decide +kernel) (.cons (by decide +kernel) .nil)
  obtain ⟨drops, -, listed⟩ := drop_takes_remaining wf axes rank
  obtain ⟨rest, dropped, taken⟩ := drops counts read
  exact ⟨read, wf, axes, rank, rfl, rfl, (taken remaining rfl).trans dropped.symm,
    listed.mpr ⟨_, given, left⟩⟩

/-- A count of letters that lies beyond all numbers leaves nothing, but dropping it fails. -/
theorem count_beyond_numbers_leaves_no_rest :
    let a : Value := .character ⟨[3], ['a', 'b', 'c']⟩
    a.grid.WellFormed ∧ a.rank ≠ 0 ∧ [(2 : Int) ^ 1024].length ≤ a.rank ∧
      remainingCounts [2 ^ 1024] a.shape = [0] ∧
      take (.listed [0]) (.value a) .none = .ok (.character ⟨[0], []⟩) ∧
      drop (.listed [2 ^ 1024]) (.value a) = .error .tooLarge := by
  intro a
  have large : Binary64.rounded? (2 ^ 1024) = none := by decide +kernel
  have zero : Rounds [0] [0] := .cons (by decide +kernel) .nil
  refine ⟨by decide, by decide, by decide, by decide +kernel, ?_, ?_⟩
  · rw [take_value (Operand.asIntegers_listed zero)]
    rfl
  · exact drop_of_unread (Operand.asIntegers_listed_of_large List.mem_cons_self large) (by decide)

end Operations

end RowMajor
