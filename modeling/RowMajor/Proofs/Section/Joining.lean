import RowMajor.Proofs.Buffer.Copying
import RowMajor.Proofs.Operand.Lists
import RowMajor.Proofs.Section.Dropping

/-!
# Splitting and joining rows

Two grids are joined at the rank of the larger one, where a grid of any other rank counts as a
single row. This one rule covers grids of the same rank, a grid and one of its rows on either
side, and two grids without axes, which become a vector of two elements. Grids that are too
far apart in rank need no rule of their own: the single row then has another shape than the
rows of the other grid.

What a count takes and what dropping the same count leaves are joined to the array again. That
is how a section is put back along the last of its axes, so nothing is proved anew. A list
that holds the count is rounded first, and then the array is restored as long as the rounded
count takes no more rows than there are.
-/

namespace RowMajor

variable {α : Type}

namespace Grid

variable {a b t : Grid α} {filler : Filler α} {n : Int} {r : Nat}

/-- The rank at which two grids are joined. -/
def joinRank (a b : Grid α) : Nat :=
  max (max a.rank b.rank) 1

theorem joinRank_pos (a b : Grid α) : 0 < joinRank a b :=
  Nat.lt_of_lt_of_le Nat.zero_lt_one (Nat.le_max_right ..)

/-- The rows that a grid brings along when grids are joined at a rank. -/
def sideRows (r : Nat) (a : Grid α) : List (Grid α) :=
  if a.rank = r then a.rows else [a]

def sideRowShape (r : Nat) (a : Grid α) : Shape :=
  if a.rank = r then a.rowShape else a.shape

theorem WellFormed.sideRows (h : a.WellFormed) {row : Grid α} (mem : row ∈ a.sideRows r) :
    row.WellFormed ∧ row.shape = a.sideRowShape r := by
  rw [Grid.sideRows] at mem
  rw [sideRowShape]
  split at mem
  · rename_i same
    rw [if_pos same]
    exact ⟨h.rows mem, shape_of_mem_rows mem⟩
  · rename_i other
    obtain rfl := List.mem_singleton.mp mem
    rw [if_neg other]
    exact ⟨h, rfl⟩

theorem WellFormed.items_sideRows (h : a.WellFormed) (positive : 0 < r) :
    (a.sideRows r).flatMap (·.items) = a.items := by
  rw [Grid.sideRows]
  split
  · rename_i same
    subst same
    obtain ⟨d, s, shape⟩ := List.exists_cons_of_length_pos positive
    exact congrArg Grid.items (stacked_rows h shape)
  · exact List.append_nil a.items

theorem WellFormed.count_sideRows (h : a.WellFormed) :
    Int.ofNat (a.sideRows r).length = if a.rank = r then a.rowCount else 1 := by
  rw [Grid.sideRows]
  split
  · rw [length_rows]
    exact Int.toNat_of_nonneg h.rowCount_nonneg
  · rfl

theorem stacked_sideRows (ha : a.WellFormed) (hb : b.WellFormed) (positive : 0 < r)
    (s : Shape) :
    stacked s (a.sideRows r ++ b.sideRows r) =
      ⟨((if a.rank = r then a.rowCount else 1) + if b.rank = r then b.rowCount else 1) :: s,
        a.items ++ b.items⟩ := by
  rw [stacked, List.flatMap_append, ha.items_sideRows positive, hb.items_sideRows positive,
    List.length_append, ← ha.count_sideRows, ← hb.count_sideRows]
  rfl

/-- A grid that has the shape of the rows of another one has one axis less. -/
theorem isRow_iff (fewer : a.rank < b.rank) :
    (a.rank + 1 = b.rank ∧ a.shape = b.rowShape) ↔ a.shape = b.rowShape := by
  refine and_iff_right_of_imp fun shape => ?_
  rw [Grid.rank, shape, Grid.rowShape, List.length_tail]
  exact Nat.sub_add_cancel (Nat.zero_lt_of_lt fewer)

/-- Grids are joined if the rows of both have the same shape, and are refused otherwise. -/
theorem join_eq (ha : a.WellFormed) (hb : b.WellFormed) :
    a.join b =
      if a.sideRowShape (joinRank a b) = b.sideRowShape (joinRank a b) then
        .ok (stacked (a.sideRowShape (joinRank a b))
          (a.sideRows (joinRank a b) ++ b.sideRows (joinRank a b)))
      else .error (.shape (.join a.shape b.shape)) := by
  rw [stacked_sideRows ha hb (joinRank_pos a b), join, sideRowShape, sideRowShape]
  rcases Nat.lt_trichotomy a.rank b.rank with fewer | same | more
  · have rank : joinRank a b = b.rank := by
      rw [joinRank]
      omega
    have single : a.rank ≠ b.rank := Nat.ne_of_lt fewer
    have beyond : b.rank + 1 ≠ a.rank := by omega
    simp only [rank, isRow_iff fewer, single, beyond, false_and, if_false, if_true]
    split
    · rename_i alike
      rw [alike, Int.add_comm]
    · rfl
  · by_cases axes : b.rank = joinRank a b
    · simp only [same, axes, Nat.succ_ne_self, true_and, false_and, if_false, if_true]
    · have none : a.shape = [] ∧ b.shape = [] := by
        have scalars : a.rank = 0 ∧ b.rank = 0 := by
          simp only [joinRank] at axes
          omega
        exact scalars.imp List.eq_nil_of_length_eq_zero List.eq_nil_of_length_eq_zero
      have rows : a.rowShape = [] ∧ b.rowShape = [] ∧ a.rowCount = 1 ∧ b.rowCount = 1 := by
        simp only [Grid.rowShape, Grid.rowCount, none.1, none.2, List.tail_nil, List.headD_nil,
          and_self]
      simp only [same, axes, none, rows, and_self, if_false, if_true]
  · have rank : joinRank a b = a.rank := by
      rw [joinRank]
      omega
    have single : b.rank ≠ a.rank := Nat.ne_of_lt more
    have beyond : a.rank + 1 ≠ b.rank := by omega
    simp only [rank, (isRow_iff more).trans eq_comm, single, single.symm, beyond, false_and,
      if_false, if_true]

/-- Where grids are joined, the rows of the one stand before those of the other. -/
theorem join_of_alike (ha : a.WellFormed) (hb : b.WellFormed)
    (alike : a.sideRowShape (joinRank a b) = b.sideRowShape (joinRank a b)) :
    ∃ c, a.join b = .ok c ∧ c.items = a.items ++ b.items ∧
      c.rows = a.sideRows (joinRank a b) ++ b.sideRows (joinRank a b) ∧
      c.shape = Int.ofNat (a.sideRows (joinRank a b) ++ b.sideRows (joinRank a b)).length ::
        a.sideRowShape (joinRank a b) := by
  refine ⟨_, (join_eq ha hb).trans (if_pos alike), ?_, rows_stacked fun row mem => ?_, rfl⟩
  · rw [stacked_sideRows ha hb (joinRank_pos a b)]
  · rcases List.mem_append.mp mem with first | second
    · exact ha.sideRows first
    · rw [alike]
      exact hb.sideRows second

/-- A single count takes no more rows than there are. -/
theorem hasSection_rows_iff (axes : a.rank ≠ 0) :
    Shape.HasSection [n] a.shape ↔ Int.ofNat n.natAbs ≤ a.rowCount := by
  obtain ⟨d, s, shape⟩ := List.exists_cons_of_ne_nil (mt List.length_eq_zero_iff.mpr axes)
  rw [shape, rowCount_of_shape shape]
  exact and_iff_left (.inr (Shape.hasSection_nil s))

/-- The rows that a count takes and those that dropping it leaves are the rows of the grid. They
are put together as a section is put back. -/
theorem take_join_drop (h : a.WellFormed) (axes : a.rank ≠ 0)
    (within : Int.ofNat n.natAbs ≤ a.rowCount) (cut : IsSection filler [n] a t) :
    (if 0 ≤ n then t.join (a.drop [n]) else (a.drop [n]).join t) = .ok a := by
  have rank : [n].length ≤ a.rank := Nat.pos_of_ne_zero axes
  have section_ : Shape.HasSection [n] a.shape := (hasSection_rows_iff axes).mpr within
  obtain ⟨r, undone, replaced⟩ := untake_isReplaced cut.wellFormed h rank section_ cut.shape
  rw [untake_of_shape_eq rank cut.shape, replaced.eq_of_isSection h section_ cut,
    replaceSection] at undone
  exact undone

end Grid

namespace Value

variable {f : Form} {counts : Operand} {n m : Int} {v : Value} {r : Nat}

theorem join_ofGrid (a b : Grid f.Element) :
    (ofGrid f a).join (ofGrid f b) = (do .ok (.ofGrid f (← a.join b))) := by
  match f with
  | .uniform k => cases k <;> rfl
  | .mixed k => cases k <;> rfl

/-- The rank at which two values are joined. -/
def joinRank (a b : Value) : Nat :=
  max (max a.rank b.rank) 1

/-- The rows that a value brings along when values are joined at a rank. A value of another rank
is a single row. -/
def sideRows (r : Nat) (v : Value) : List Value :=
  (v.grid.sideRows r).map (ofGrid v.form)

def sideRowShape (r : Nat) (v : Value) : Shape :=
  v.grid.sideRowShape r

theorem sideRows_ofGrid (a : Grid f.Element) :
    (ofGrid f a).sideRows r = (a.sideRows r).map (ofGrid f) :=
  form_grid_ofGrid (fun g b => (b.sideRows r).map (ofGrid g)) a

theorem sideRowShape_ofGrid (a : Grid f.Element) :
    (ofGrid f a).sideRowShape r = a.sideRowShape r :=
  form_grid_ofGrid (fun _ b => b.sideRowShape r) a

/-- What the counts take and what dropping them leaves are joined to the value again, in the order
that the sign of the count asks for. -/
def SplitBy (counts : Operand) (n : Int) (v : Value) : Prop :=
  ∃ t d, RowMajor.take counts (.value v) .none = .ok t ∧
    RowMajor.drop counts (.value v) = .ok d ∧ (if 0 ≤ n then t.join d else d.join t) = .ok v

/-- Counts that are read as a single one split every value that has so many rows. -/
theorem splitBy_of_read (wf : v.grid.WellFormed) (axes : v.rank ≠ 0)
    (within : Int.ofNat n.natAbs ≤ v.rowCount) (read : counts.asIntegers .indexList = .ok [n]) :
    v.SplitBy counts n := by
  obtain ⟨f, a, rfl⟩ := v.exists_form
  rw [grid_ofGrid_wellFormed] at wf
  rw [rank_ofGrid] at axes
  rw [rowCount_ofGrid] at within
  have rank : [n].length ≤ a.rank := Nat.pos_of_ne_zero axes
  have section_ := (Grid.hasSection_rows_iff axes).mpr within
  have outcome : Outcome _ _ (Grid.take f.kind (.error .absent) [n] a) :=
    Grid.take_isSection wf rank
  obtain ⟨t, -, cut, -⟩ | ⟨e, -, past, -⟩ := outcome.ok_or_error
  · have onGrids : (if 0 ≤ n then (ofGrid f t).join (ofGrid f (a.drop [n]))
          else (ofGrid f (a.drop [n])).join (ofGrid f t)) =
        (if 0 ≤ n then t.join (a.drop [n]) else (a.drop [n]).join t) >>= fun c =>
          .ok (ofGrid f c) := by
      split
      · exact join_ofGrid ..
      · exact join_ofGrid ..
    refine ⟨.ofGrid f t, .ofGrid f (a.drop [n]), ?_, drop_ofGrid read axes rank, ?_⟩
    · exact (take_ofGrid_eq_ok_iff read wf).mpr ⟨axes, rank, section_, t, cut, rfl⟩
    · rw [onGrids, Grid.take_join_drop wf axes within cut]
      rfl
  · exact absurd section_ past

/-- A list that holds the count is rounded, and splits a value that has so many rows as the rounded
count says. -/
theorem splitBy_listed_iff (wf : v.grid.WellFormed) (axes : v.rank ≠ 0) :
    v.SplitBy (.listed [n]) n ↔
      ∃ m, Binary64.rounded? n = some m ∧ Int.ofNat m.natAbs ≤ v.rowCount := by
  obtain ⟨ms, rounds⟩ | ⟨k, mem, large⟩ := exists_rounds_or_large [n]
  · obtain ⟨m, _, rounded, none, rfl⟩ := List.forall₂_cons_left_iff.mp rounds
    obtain rfl := List.forall₂_nil_left_iff.mp none
    have read : (Operand.listed [n]).asIntegers .indexList = .ok [m] :=
      Operand.asIntegers_listed rounds
    have sign : 0 ≤ m ↔ 0 ≤ n := by
      rw [← Int.not_lt, ← Int.not_lt, (Binary64.sign_rounded? rounded).1]
    constructor
    · rintro ⟨t, -, taken, -⟩
      obtain ⟨f, a, rfl⟩ := v.exists_form
      rw [grid_ofGrid_wellFormed] at wf
      rw [rank_ofGrid] at axes
      obtain ⟨-, -, section_, -⟩ := (take_ofGrid_eq_ok_iff read wf).mp taken
      rw [rowCount_ofGrid]
      exact ⟨m, rounded, (Grid.hasSection_rows_iff axes).mp section_⟩
    · rintro ⟨m', rounded', within⟩
      obtain rfl := Option.some.inj (rounded.symm.trans rounded')
      obtain ⟨t, d, taken, dropped, whole⟩ := splitBy_of_read wf axes within read
      refine ⟨t, d, taken, dropped, ?_⟩
      simpa only [sign] using whole
  · obtain rfl := List.mem_singleton.mp mem
    have unread : (Operand.listed [k]).asIntegers .indexList = .error .tooLarge :=
      Operand.asIntegers_listed_of_large mem large
    constructor
    · rintro ⟨t, -, taken, -⟩
      cases (take_of_unread unread axes .none).symm.trans taken
    · rintro ⟨m, rounded, -⟩
      cases large.symm.trans rounded

theorem joinRank_ofGrid (a b : Grid f.Element) :
    joinRank (ofGrid f a) (ofGrid f b) = Grid.joinRank a b := by
  rw [joinRank, rank_ofGrid, rank_ofGrid]
  rfl

/-- Values of one kind whose rows have the same shape are joined row by row. -/
theorem exists_joined {a b : Value} (ha : a.WellFormed) (hb : b.WellFormed) (same : a.kind = b.kind)
    (alike : a.sideRowShape (a.joinRank b) = b.sideRowShape (a.joinRank b)) :
    let rows := a.sideRows (a.joinRank b) ++ b.sideRows (a.joinRank b)
    ∃ c, a.join b = .ok c ∧ c.WellFormed ∧ c.kind = a.kind ∧
      c.shape = Int.ofNat rows.length :: a.sideRowShape (a.joinRank b) ∧ c.rows = rows ∧
      c.itemGrid.items = a.itemGrid.items ++ b.itemGrid.items := by
  obtain ⟨f, x, y, rfl, rfl⟩ := Value.exists_grids ha hb same
  obtain ⟨uniform, holdsX⟩ := Value.wellFormed_ofGrid_iff.mp ha
  obtain ⟨-, holdsY⟩ := Value.wellFormed_ofGrid_iff.mp hb
  rw [joinRank_ofGrid, sideRowShape_ofGrid, sideRowShape_ofGrid] at alike
  simp only [joinRank_ofGrid, sideRowShape_ofGrid, sideRows_ofGrid, ← List.map_append,
    List.length_map]
  obtain ⟨c, joined, items, rows, shape⟩ :=
    Grid.join_of_alike holdsX.wellFormed holdsY.wellFormed alike
  have holds : c.Holds f.Valid := by
    have yields := Grid.join_yields holdsX holdsY
    rwa [joined] at yields
  refine ⟨.ofGrid f c, ?_, wellFormed_ofGrid uniform holds, ?_, ?_, ?_, ?_⟩
  · rw [join_ofGrid, joined]
    rfl
  · rw [kind_ofGrid, kind_ofGrid]
  · rw [shape_ofGrid, shape]
  · rw [rows_ofGrid, rows]
  · simp only [itemGrid_ofGrid, Grid.items_map, items, List.map_append]

theorem join_of_apart {a b : Value} (ha : a.WellFormed) (hb : b.WellFormed) (same : a.kind = b.kind)
    (apart : a.sideRowShape (a.joinRank b) ≠ b.sideRowShape (a.joinRank b)) :
    a.join b = .error (.shape (.join a.shape b.shape)) := by
  obtain ⟨f, x, y, rfl, rfl⟩ := Value.exists_grids ha hb same
  rw [joinRank_ofGrid, sideRowShape_ofGrid, sideRowShape_ofGrid] at apart
  rw [join_ofGrid, Grid.join_eq ((grid_ofGrid_wellFormed x).mp ha.holds.wellFormed)
    ((grid_ofGrid_wellFormed y).mp hb.holds.wellFormed), if_neg apart, shape_ofGrid, shape_ofGrid]
  rfl

/-- The commands that join two values in shared storage: the elements of the first are copied, and
the copy is extended by those of the second. Two values without axes are listed anew. Where the
values are refused, nothing is done. -/
def joinCommands (a b : Value) (first second target : String) :
    List (Buffer.Command (Item Value)) :=
  match a.join b with
  | .error _ => []
  | .ok _ =>
    if a.rank = 0 ∧ b.rank = 0 then [.create target (a.itemGrid.items ++ b.itemGrid.items)]
    else [.clone first target, .extend target (.buffer second)]

theorem makes_joinCommands {a b c : Value} {s : Buffer.Separate (Item Value)}
    {first second target : String} (joined : a.join b = .ok c) (different : second ≠ target)
    (lent : s.get? first = some a.itemGrid.items) (more : s.get? second = some b.itemGrid.items) :
    s.Makes (a.joinCommands b first second target) target
      (a.itemGrid.items ++ b.itemGrid.items) := by
  rw [joinCommands, joined]
  show s.Makes (if a.rank = 0 ∧ b.rank = 0 then _ else _) target _
  split
  · exact .single rfl
  · refine .cons (Buffer.Separate.step_clone lent) (.single ?_)
    exact Buffer.Separate.step_extend_buffer Buffer.Table.get?_put_self
      ((Buffer.Table.get?_put_of_ne different).trans more)

end Value

/-- The two halves into which a count splits a value are joined to it again, for every count that
takes no more rows than there are. A list that holds the count is rounded before. Two values of
one kind are joined if their rows have the same shape, where a value of a lower rank is a single
row. The rows of the result are those of the first and then those of the second, and the buffers
of both show what they did. -/
theorem joining_keeps_rows {a b : Value} (ha : a.WellFormed) (hb : b.WellFormed)
    (same : a.kind = b.kind) :
    (∀ n : Int, a.rank ≠ 0 → Int.ofNat n.natAbs ≤ a.rowCount →
      (∀ counts : Operand, counts.asIntegers .indexList = .ok [n] → a.SplitBy counts n) ∧
      (a.SplitBy (.listed [n]) n ↔
        ∃ m, Binary64.rounded? n = some m ∧ Int.ofNat m.natAbs ≤ a.rowCount)) ∧
    let r := a.joinRank b
    let rows := a.sideRows r ++ b.sideRows r
    (a.sideRowShape r = b.sideRowShape r → ∃ c, a.join b = .ok c ∧ c.WellFormed ∧
      c.kind = a.kind ∧ c.shape = Int.ofNat rows.length :: a.sideRowShape r ∧ c.rows = rows ∧
      ∀ (before : List (Buffer.Command (Item Value))) (first second target : String),
        second ≠ target →
        let p := (Buffer.Pool.empty.run before).1
        p.shown.get? first = some a.itemGrid.items →
        p.shown.get? second = some b.itemGrid.items →
          p.Makes (a.joinCommands b first second target) target c.itemGrid.items) ∧
    (a.sideRowShape r ≠ b.sideRowShape r →
      a.join b = .error (.shape (.join a.shape b.shape)) ∧
        ∀ first second target, a.joinCommands b first second target = []) := by
  refine ⟨fun n axes within => ⟨fun counts read => ?_, ?_⟩, fun alike => ?_, fun apart => ?_⟩
  · exact Value.splitBy_of_read ha.holds.wellFormed axes within read
  · exact Value.splitBy_listed_iff ha.holds.wellFormed axes
  · obtain ⟨c, joined, wf, kind, shape, rows, items⟩ := Value.exists_joined ha hb same alike
    refine ⟨c, joined, wf, kind, shape, rows, ?_⟩
    intro before first second target different p lent more
    rw [items]
    exact Buffer.Pool.makes_of_shown (Buffer.Pool.consistent_run_empty before)
      (Value.makes_joinCommands joined different lent more)
  · have refused := Value.join_of_apart ha hb same apart
    refine ⟨refused, fun first second target => ?_⟩
    rw [Value.joinCommands, refused]

/-- The last line of a table is split off and put back, another line is joined to the table, and a
line that is too long is not. -/
theorem lines_joined :
    let a : Value := .character ⟨[2, 2], ['a', 'b', 'c', 'd']⟩
    let line : Value := .character ⟨[2], ['e', 'f']⟩
    let long : Value := .character ⟨[3], ['e', 'f', 'g']⟩
    let back : Operand := .value (.number (.vector [.ofBits 0xbff0000000000000]))
    let before : List (Buffer.Command (Item Value)) :=
      [.create "a" a.itemGrid.items, .create "b" line.itemGrid.items]
    let p := (Buffer.Pool.empty.run before).1
    let q := (p.run (a.joinCommands line "a" "b" "c")).1
    a.WellFormed ∧ line.WellFormed ∧ long.WellFormed ∧ a.kind = line.kind ∧ a.kind = long.kind ∧
      a.rank ≠ 0 ∧ Int.ofNat (Int.natAbs (-1)) ≤ a.rowCount ∧
      back.asIntegers .indexList = .ok [-1] ∧ a.SplitBy back (-1) ∧ a.SplitBy (.listed [-1]) (-1) ∧
      a.sideRowShape (a.joinRank line) = line.sideRowShape (a.joinRank line) ∧
      (∃ c, a.join line = .ok c ∧ c.shape = [3, 2] ∧ c.rows = a.rows ++ [line] ∧
        q.shown.get? "c" = some c.itemGrid.items ∧
        q.shown.get? "a" = some a.itemGrid.items ∧
        q.shown.get? "b" = some line.itemGrid.items) ∧
      a.sideRowShape (a.joinRank long) ≠ long.sideRowShape (a.joinRank long) ∧
      a.join long = .error (.shape (.join [2, 2] [3])) := by
  intro a line long back before p q
  have ha : a.WellFormed := .character (by decide)
  have hl : line.WellFormed := .character (by decide)
  have hl' : long.WellFormed := .character (by decide)
  have axes : a.rank ≠ 0 := by decide
  have within : Int.ofNat (Int.natAbs (-1)) ≤ a.rowCount := by decide
  have read : back.asIntegers .indexList = .ok [-1] := rfl
  have alike : a.sideRowShape (a.joinRank line) = line.sideRowShape (a.joinRank line) := rfl
  have apart : a.sideRowShape (a.joinRank long) ≠ long.sideRowShape (a.joinRank long) := by decide
  obtain ⟨split, joins, -⟩ := joining_keeps_rows ha hl rfl
  obtain ⟨given, listed⟩ := split (-1) axes within
  obtain ⟨c, joined, -, -, shape, rows, buffers⟩ := joins alike
  obtain ⟨-, -, refuses⟩ := joining_keeps_rows ha hl' rfl
  have first : p.shown.get? "a" = some a.itemGrid.items := rfl
  have second : p.shown.get? "b" = some line.itemGrid.items := rfl
  obtain ⟨-, made, others⟩ := buffers before "a" "b" "c" (by decide) first second
  exact ⟨ha, hl, hl', rfl, rfl, axes, within, read, given back read,
    listed.mpr ⟨-1, by decide +kernel, within⟩, alike,
    ⟨c, joined, shape, rows, made, (others "a" (by decide)).trans first,
      (others "b" (by decide)).trans second⟩, apart, (refuses apart).1⟩

/-- A count that is no number is rounded up, and asks for a row more than there is. -/
theorem odd_count_not_split :
    let a : Value := .byte ⟨[9007199254740995, 0], []⟩
    a.WellFormed ∧ a.rank ≠ 0 ∧ Int.ofNat (Int.natAbs 9007199254740995) ≤ a.rowCount ∧
      take (.listed [9007199254740995]) (.value a) .none =
        .error (.outside 9007199254740996 9007199254740995 0 a.shape MissingFill.absent.note) ∧
      ¬ a.SplitBy (.listed [9007199254740995]) 9007199254740995 := by
  intro a
  have rounds : Rounds [9007199254740995] [9007199254740996] := .cons (by decide +kernel) .nil
  have refused : take (.listed [9007199254740995]) (.value a) .none =
      .error (.outside 9007199254740996 9007199254740995 0 a.shape MissingFill.absent.note) := by
    rw [take_value (Operand.asIntegers_listed rounds)]
    rfl
  refine ⟨.byte (by decide), by decide, by decide, refused, ?_⟩
  rintro ⟨t, -, taken, -⟩
  cases refused.symm.trans taken

end RowMajor
