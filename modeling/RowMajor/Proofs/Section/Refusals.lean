import RowMajor.Proofs.Section.Undo

/-!
# The axis that a refusal names

Without a fill element a section that is longer than the array is refused. The rows are cut first
and counted afterwards, so of all the axes along which the section is too long, the last one that
any row leads to decides. A row does not know about the axes above it: whatever the axis, the
refusal tells of axis zero, and of the part of the shape that begins there. It names the axis of
the array, and the first one, exactly if that is the leading axis.
-/

namespace RowMajor

variable {α : Type}

namespace Shape

/-- The section is longer than the array along an axis, and rows lead to this axis. -/
def FailsAt : List Int → Shape → Nat → Prop
  | n :: _, d :: _, 0 => d < Int.ofNat n.natAbs
  | n :: counts, d :: s, k + 1 => n ≠ 0 ∧ d ≠ 0 ∧ FailsAt counts s k
  | _, _, _ => False

/-- The section fails at an axis and at none below it. -/
def FailsLastAt (counts : List Int) (s : Shape) (k : Nat) : Prop :=
  FailsAt counts s k ∧ ∀ j, FailsAt counts s j → j ≤ k

variable {counts : List Int} {s : Shape} {n d : Int} {k : Nat}

/-- A count and an axis belong to every failure. -/
theorem FailsAt.exists_getElem? (h : FailsAt counts s k) :
    ∃ n d, counts[k]? = some n ∧ s[k]? = some d ∧ d < Int.ofNat n.natAbs := by
  induction k generalizing counts s with
  | zero =>
      match counts, s, h with
      | n :: _, d :: _, long => exact ⟨n, d, rfl, rfl, long⟩
  | succ k ih =>
      match counts, s, h with
      | _ :: _, _ :: _, ⟨_, _, below⟩ => exact ih below

/-- Nothing fails in a section that the array has. -/
theorem HasSection.not_failsAt (fits : HasSection counts s) : ¬ FailsAt counts s k := by
  induction k generalizing counts s with
  | zero =>
      match counts, s, fits with
      | n :: _, d :: _, ⟨short, _⟩ => exact Int.not_lt.mpr short
      | [], _, _ => exact id
      | _ :: _, [], _ => exact id
  | succ k ih =>
      match counts, s, fits with
      | n :: _, d :: _, ⟨_, inside⟩ =>
          rintro ⟨rows, -, below⟩
          exact ih (inside.resolve_left rows) below
      | [], _, _ => exact id
      | _ :: _, [], _ => exact id

/-- An axis decides for itself if nothing fails below it, or no row leads there. -/
theorem failsLastAt_zero (long : d < Int.ofNat n.natAbs) (below : d ≠ 0 → HasSection counts s) :
    FailsLastAt (n :: counts) (d :: s) 0 := by
  refine ⟨long, fun j fails => ?_⟩
  cases j with
  | zero => exact Nat.le_refl 0
  | succ j =>
      obtain ⟨-, rows, fails⟩ := fails
      exact absurd fails (below rows).not_failsAt

theorem FailsLastAt.succ (h : FailsLastAt counts s k) (taken : n ≠ 0) (rows : d ≠ 0) :
    FailsLastAt (n :: counts) (d :: s) (k + 1) := by
  refine ⟨⟨taken, rows, h.1⟩, fun j fails => ?_⟩
  cases j with
  | zero => exact Nat.zero_le _
  | succ j => exact Nat.succ_le_succ (h.2 j fails.2.2)

/-- The error tells of the axis at which the section fails last, as the leading axis of what lies
below the axes before it. -/
def LastRefusal (note : String) (counts : List Int) (s : Shape) (e : Error) : Prop :=
  ∃ k n d, FailsLastAt counts s k ∧ counts[k]? = some n ∧ s[k]? = some d ∧
    e = .outside n d 0 (s.drop k) note

theorem LastRefusal.succ {note : String} {e : Error} (h : LastRefusal note counts s e)
    (taken : n ≠ 0) (rows : d ≠ 0) : LastRefusal note (n :: counts) (d :: s) e := by
  obtain ⟨k, m, b, last, count, axis, refused⟩ := h
  exact ⟨k + 1, m, b, last.succ taken rows, count, axis, refused⟩

end Shape

/-- The error is told of the whole shape, and of the first axis along which the section that the
counts ask for is too long. -/
def OutOfBounds.NamesFirst (e : OutOfBounds) (counts : List Int) (s : Shape) : Prop :=
  e.shape = some s ∧ ∃ k : Nat, e.axis = some (Int.ofNat k) ∧ counts[k]? = some e.index ∧
    s[k]? = some e.bound ∧ e.bound < Int.ofNat e.index.natAbs ∧
    ∀ j < k, ∀ n d, counts[j]? = some n → s[j]? = some d → Int.ofNat n.natAbs ≤ d

namespace Grid

variable {a : Grid α} {kind : Kind} {counts : List Int} {why : MissingFill}

/-- Without a fill element the axis at which the section fails last is refused. -/
theorem take_refusal (h : a.WellFormed) (rank : counts.length ≤ a.rank) :
    Outcome (fun _ => True) (Shape.LastRefusal why.note counts a.shape)
      (take kind (.error why) counts a) := by
  induction counts generalizing a with
  | nil => trivial
  | cons n counts ih =>
      have shape := shape_eq_cons rank
      have each : ∀ row ∈ a.takeRows n, Outcome
          (fun _ => Shape.HasSection counts a.rowShape)
          (Shape.LastRefusal why.note (n :: counts) a.shape)
          (take kind (.error why) counts row) := by
        intro row mem
        obtain ⟨holds, rowShape⟩ := h.holds_trivial.takeRows mem
        have fewer : counts.length ≤ row.rank := by
          rw [Grid.rank, rowShape]
          exact rank_rowShape rank
        have some := List.length_pos_of_mem mem
        rw [length_takeRows] at some
        have taken : n ≠ 0 := by omega
        have rows : a.rowCount ≠ 0 := by omega
        have refusal := ih holds.wellFormed fewer
        cases cut : take kind (.error why) counts row with
        | ok t =>
            have within := ((take_eq_ok_iff holds.wellFormed fewer).mp cut).1
            rwa [rowShape] at within
        | error e =>
            rw [cut, rowShape] at refusal
            rw [shape]
            exact Shape.LastRefusal.succ refusal taken rows
      rw [take_cons h rank]
      apply (Outcome.mapM each).bind
      rintro rows ⟨length, within⟩
      rw [length_takeRows] at length
      show Outcome _ _ (if n.natAbs ≤ rows.length then _ else _)
      split
      · trivial
      · rename_i short
        have nonneg := h.rowCount_nonneg
        have long : a.rowCount < Int.ofNat n.natAbs := by
          simp only [Int.ofNat_eq_natCast]
          omega
        -- Where there are rows, they have been cut by now.
        have below (some : a.rowCount ≠ 0) : Shape.HasSection counts a.rowShape := by
          have there : 0 < rows.length := by omega
          exact within _ (List.getElem_mem there)
        refine ⟨0, n, a.rowCount, ?_, rfl, ?_, rfl⟩
        · rw [shape]
          exact Shape.failsLastAt_zero long below
        · rw [shape]
          rfl

end Grid

theorem lastRefusal_of_take {counts : Operand} {ns : List Int} {v : Value} {e : OutOfBounds}
    (read : counts.asIntegers .indexList = .ok ns) (wf : v.grid.WellFormed)
    (refused : take counts (.value v) .none = .error (.bounds e)) :
    Shape.LastRefusal MissingFill.absent.note ns v.shape (.bounds e) := by
  obtain ⟨f, a, rfl⟩ := v.exists_form
  rw [Value.grid_ofGrid_wellFormed] at wf
  rw [Value.shape_ofGrid]
  rw [take_ofGrid read] at refused
  split at refused
  · cases refused
  · by_cases rank : ns.length ≤ a.rank
    · have refusal : Outcome _ _ (Grid.take f.kind (.error .absent) ns a) :=
        Grid.take_refusal wf rank
      rw [Grid.checkCounts, if_neg (Nat.not_lt.mpr rank)] at refused
      cases cut : Grid.take f.kind (.error .absent) ns a with
      | ok t =>
          rw [cut] at refused
          cases refused
      | error cause =>
          rw [cut] at refused refusal
          cases refused
          exact refusal
    · rw [Grid.checkCounts, if_pos (Nat.not_le.mp rank)] at refused
      cases refused

/-- A section that is refused for its length fails last at some axis. The refusal has the count and
the length of this axis, but tells of them as of the leading axis of the rows it was found in. It
names the first axis along which the section is too long exactly if the two are the same. -/
theorem take_refusal_names_first_iff {counts : Operand} {ns : List Int} {v : Value}
    {e : OutOfBounds} (read : counts.asIntegers .indexList = .ok ns) (wf : v.grid.WellFormed)
    (refused : take counts (.value v) .none = .error (.bounds e)) :
    ∃ k, Shape.FailsLastAt ns v.shape k ∧ ns[k]? = some e.index ∧ v.shape[k]? = some e.bound ∧
      e.bound < Int.ofNat e.index.natAbs ∧ e.axis = some 0 ∧ e.shape = some (v.shape.drop k) ∧
      e.note = MissingFill.absent.note ∧ (e.NamesFirst ns v.shape ↔ k = 0) := by
  obtain ⟨k, n, d, last, count, axis, same⟩ := lastRefusal_of_take read wf refused
  cases same
  obtain ⟨m, b, count', axis', long⟩ := last.1.exists_getElem?
  cases count.symm.trans count'
  cases axis.symm.trans axis'
  refine ⟨k, last, count, axis, long, rfl, rfl, rfl, ?_⟩
  constructor
  · rintro ⟨whole, -⟩
    have lengths := congrArg List.length (Option.some.inj whole)
    have there := (List.getElem?_eq_some_iff.mp axis).1
    rw [List.length_drop] at lengths
    omega
  · rintro rfl
    exact ⟨rfl, 0, rfl, count, axis, long, fun j bound => absurd bound (Nat.not_lt_zero j)⟩

/-- Three lines of a table with two are refused under the name of their axis, although a column is
taken as well. -/
theorem third_line_named :
    let counts : Operand := .value (.number (.vector [.ofBits 0xc008000000000000,
      .ofBits 0x3ff0000000000000]))
    let table : Value := .character ⟨[2, 2], ['a', 'b', 'c', 'd']⟩
    let e : OutOfBounds := ⟨-3, 2, some 0, some [2, 2], ". A fill value is not available"⟩
    counts.asIntegers .indexList = .ok [-3, 1] ∧ table.grid.WellFormed ∧
      take counts (.value table) .none = .error (.bounds e) ∧ e.NamesFirst [-3, 1] table.shape := by
  intro counts table e
  have read : counts.asIntegers .indexList = .ok [-3, 1] := rfl
  have wf : table.grid.WellFormed := by decide
  have refused : take counts (.value table) .none = .error (.bounds e) := rfl
  obtain ⟨k, -, -, -, -, -, shape, -, names⟩ := take_refusal_names_first_iff read wf refused
  refine ⟨read, wf, refused, names.mpr ?_⟩
  have whole : [(2 : Int), 2] = [(2 : Int), 2].drop k := Option.some.inj shape
  have lengths : [(2 : Int), 2].length = [(2 : Int), 2].length - k :=
    (congrArg List.length whole).trans List.length_drop
  simp only [List.length_cons, List.length_nil] at lengths
  omega

/-- Five columns of a table with three are refused as if the lines of the table were too few of a
vector. -/
theorem fifth_column_misnamed :
    let counts : Operand := .value (.byte ⟨[2], [1, 5]⟩)
    let table : Value := .character ⟨[2, 3], ['a', 'b', 'c', 'd', 'e', 'f']⟩
    let e : OutOfBounds := ⟨5, 3, some 0, some [3], ". A fill value is not available"⟩
    counts.asIntegers .indexList = .ok [1, 5] ∧ table.grid.WellFormed ∧
      [(1 : Int), 5].length ≤ table.rank ∧
      take counts (.value table) .none = .error (.bounds e) ∧
      ¬ e.NamesFirst [1, 5] table.shape := by
  intro counts table e
  refine ⟨rfl, by decide, by decide, rfl, ?_⟩
  rintro ⟨shape, -⟩
  exact absurd shape (by decide)

end RowMajor
