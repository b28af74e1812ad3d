import RowMajor.Proofs.Operand.Lists
import RowMajor.Proofs.Section.Overrunning
import RowMajor.Proofs.Section.Refusals
import RowMajor.Proofs.Value.Filling

/-!
# Sections with a fill element

Every element of a section stands at a distance from the side that its count takes from, and is
the element of the array at this distance if there is one. Beyond the array stands the fill
element. Bytes are promoted first if only numbers can be filled, so it is the promoted value
whose elements are taken, and whose form decides what can be filled. Without a fill element a
section is refused exactly if it reaches past the array.
-/

namespace RowMajor

variable {α : Type} {counts : List Int} {s : Shape}

/-- A section has one row for every unit of a count, and the other axes of the array. -/
theorem Shape.taken_eq (rank : counts.length ≤ s.length) :
    taken counts s = counts.map (fun n => Int.ofNat n.natAbs) ++ s.drop counts.length := by
  induction counts generalizing s with
  | nil => exact taken_nil s
  | cons n counts ih =>
      cases s with
      | nil => cases rank
      | cons d s => exact congrArg _ (ih (Nat.le_of_succ_le_succ rank))

namespace Grid

variable {a : Grid α} {kind : Kind} {filler : Filler α}

/-- Taking gives a section, unless one that reaches past the array cannot be filled. -/
theorem take_spec (h : a.WellFormed) (rank : counts.length ≤ a.rank) :
    Outcome
      (fun t => IsSection filler counts a t ∧
        (filler.toOption = none → ¬ Shape.ReachesPast counts a.shape))
      (fun e => filler.toOption = none ∧ Shape.ReachesPast counts a.shape ∧
        ∃ cause, e = .bounds cause)
      (take kind filler counts a) := by
  have cut : Outcome _ _ (take kind filler counts a) := take_isSection h rank
  cases filler with
  | ok x =>
      refine cut.mono (fun t section_ => ⟨section_.1, nofun⟩) fun e refused => ?_
      exact absurd rfl (refused.2 x)
  | error why =>
      have refusal : Outcome _ _ (take kind (.error why) counts a) := take_refusal h rank
      cases taken : take kind (.error why) counts a with
      | ok t =>
          rw [taken] at cut
          obtain ⟨section_, within | ⟨x, ⟨⟩⟩⟩ := cut
          exact ⟨section_, fun _ past => (Shape.reachesPast_iff.mp past).2 within⟩
      | error e =>
          rw [taken] at cut refusal
          obtain ⟨k, n, d, -, -, -, rfl⟩ := refusal
          exact ⟨rfl, Shape.reachesPast_iff.mpr ⟨rank, cut.1⟩, _, rfl⟩

end Grid

/-- Bytes become numbers first if only numbers can be filled. Taking is then refused exactly if the
section reaches past the array and there is nothing to fill it with. Otherwise every element of
the section is the one at the place it comes from, or the fill element. -/
def Value.TakesOrFills (v : Value) (fill : Fill) (counts : Operand) (ns : List Int) : Prop :=
  ∃ w, v.promoteFor fill = .ok w ∧
    (w = v ∨ ∃ bytes, v = .byte bytes ∧ w = .number (bytes.map .ofByte) ∧
      fill.element? v.form = none ∧ fill.element? w.form ≠ none) ∧
    (fill.element? w.form = none → Shape.ReachesPast ns v.shape →
      ∃ cause, RowMajor.take counts (.value v) fill = .error (.bounds cause)) ∧
    (¬ (fill.element? w.form = none ∧ Shape.ReachesPast ns v.shape) →
      ∃ r, RowMajor.take counts (.value v) fill = .ok r ∧ r.WellFormed ∧ r.form = w.form ∧
        r.shape = ns.map (fun n => Int.ofNat n.natAbs) ++ v.shape.drop ns.length ∧
        ∀ index ∈ r.shape.coordinates, r.cell? index =
          (w.itemGrid.at? (Shape.sectionSource ns v.shape index)).or
            ((fill.element? w.form).map w.form.item))

section Operations

variable {v : Value} {fill : Fill} {counts : Operand} {ns : List Int}

theorem takesOrFills_of_read (read : counts.asIntegers .indexList = .ok ns) (hv : v.WellFormed)
    (hf : fill.WellFormed) (axes : v.rank ≠ 0) (rank : ns.length ≤ v.rank) :
    v.TakesOrFills fill counts ns := by
  obtain ⟨w, promoted, wf, shape⟩ := Value.promoteFor_wellFormed hf hv
  have h : w.grid.WellFormed := wf.holds.wellFormed
  have same : v.shape = w.grid.shape := shape.symm
  have fewer : ns.length ≤ w.grid.rank := by
    rwa [Grid.rank, ← same]
  have result : take counts (.value v) fill = (do
      .ok (.ofGrid w.form (← Grid.take w.form.kind (fill.filler w.form) ns w.grid))) :=
    take_promoted read (promoted.trans (congrArg _ (Value.ofGrid_grid w).symm)) axes fewer
  refine ⟨w, promoted, ?_, ?_⟩
  · obtain stays | ⟨bytes, rfl, -, numbers⟩ := Value.promoteFor_cases hf hv
    · exact .inl (Except.ok.inj (promoted.symm.trans stays))
    · obtain rfl := Except.ok.inj (promoted.symm.trans numbers)
      exact .inr ⟨bytes, rfl, rfl, Value.usable_of_promoted hf promoted⟩
  · have outcome : Outcome _ _ (Grid.take w.form.kind (fill.filler w.form) ns w.grid) :=
      Grid.take_spec h fewer
    have holds : Yields _ (Grid.take w.form.kind (fill.filler w.form) ns w.grid) :=
      Grid.take_yields wf.holds (fun x given => hf.valid_of_filler wf.isUniform given) fewer
    rw [Fill.toOption_filler, ← same] at outcome
    rw [result]
    cases taken : Grid.take w.form.kind (fill.filler w.form) ns w.grid with
    | error e =>
        rw [taken] at outcome
        obtain ⟨missing, past, cause, rfl⟩ := outcome
        exact ⟨fun _ _ => ⟨cause, rfl⟩, fun filled => absurd ⟨missing, past⟩ filled⟩
    | ok t =>
        rw [taken] at outcome holds
        obtain ⟨cut, within⟩ := outcome
        refine ⟨fun missing past => absurd past (within missing), fun _ => ⟨_, rfl, ?_⟩⟩
        refine ⟨Value.wellFormed_ofGrid wf.isUniform holds.1, Value.form_ofGrid .., ?_, ?_⟩
        · rw [Value.shape_ofGrid, cut.shape, same, Shape.taken_eq fewer]
        · intro index mem
          rw [Value.shape_ofGrid] at mem
          have items : w.itemGrid = w.grid.map w.form.item := rfl
          rw [Value.cell?_ofGrid, cut.get? index mem, Fill.toOption_filler, items, Grid.at?_map,
            same, Option.map_or]

/-- Sections are read or filled, whichever operand gives the counts. It may be a list of integers
that the numbers store exactly. -/
theorem take_reads_or_fills (hv : v.WellFormed) (hf : fill.WellFormed) (axes : v.rank ≠ 0)
    (rank : ns.length ≤ v.rank) :
    (∀ counts : Operand, counts.asIntegers .indexList = .ok ns → v.TakesOrFills fill counts ns) ∧
    ((∀ n ∈ ns, Binary64.rounded? n = some n) → v.TakesOrFills fill (.listed ns) ns) :=
  ⟨fun _ read => takesOrFills_of_read read hv hf axes rank, fun stored =>
    takesOrFills_of_read (Operand.asIntegers_listed (rounds_self_iff.mpr stored)) hv hf axes rank⟩

/-- Of three lines that are taken from the end of a table with two, the first is filled with
dots. -/
theorem line_of_dots_taken :
    let counts : Operand := .value (.number (.vector [.ofBits 0xc008000000000000,
      .ofBits 0x3ff0000000000000]))
    let table : Value := .character ⟨[2, 2], ['a', 'b', 'c', 'd']⟩
    let fill : Fill := ⟨some (.character ⟨[], ['.']⟩)⟩
    counts.asIntegers .indexList = .ok [-3, 1] ∧ table.WellFormed ∧ fill.WellFormed ∧
      table.rank ≠ 0 ∧ [-3, 1].length ≤ table.rank ∧
      (∃ r, take counts (.value table) fill = .ok r ∧ r.shape = [3, 1] ∧
        r.cell? [0, 0] = some (.character '.') ∧ r.cell? [1, 0] = some (.character 'a') ∧
        r.cell? [2, 0] = some (.character 'c')) ∧
      (∀ n ∈ [(-3 : Int), 1], Binary64.rounded? n = some n) ∧
      table.TakesOrFills fill (.listed [-3, 1]) [-3, 1] := by
  intro counts table fill
  have read : counts.asIntegers .indexList = .ok [-3, 1] := rfl
  have hv : table.WellFormed := .character (by decide)
  have hf : fill.WellFormed := by
    intro v given
    cases given
    exact .character (by decide)
  have axes : table.rank ≠ 0 := by decide
  have rank : [(-3 : Int), 1].length ≤ table.rank := by decide
  have stored : ∀ n ∈ [(-3 : Int), 1], Binary64.rounded? n = some n := by decide +kernel
  obtain ⟨reads, listed⟩ := take_reads_or_fills hv hf axes rank
  obtain ⟨w, promoted, -, -, filled⟩ := reads counts read
  cases promoted
  obtain ⟨r, taken, -, -, shape, cells⟩ := filled fun missing => nomatch missing.1
  replace shape : r.shape = [3, 1] := shape
  rw [shape] at cells
  exact ⟨read, hv, hf, axes, rank, ⟨r, taken, shape, cells [0, 0] (by decide),
    cells [1, 0] (by decide), cells [2, 0] (by decide)⟩, stored, listed stored⟩

/-- A section of a byte that reaches past it is not refused, although bytes cannot be filled with
one half. It is a section of the number that equals the byte. -/
theorem short_bytes_taken_as_numbers :
    let counts : Operand := .value (.byte ⟨[1], [3]⟩)
    let bytes : Value := .byte ⟨[1], [1]⟩
    let half : Binary64 := .ofBits 0x3fe0000000000000
    let fill : Fill := ⟨some (.number ⟨[], [half]⟩)⟩
    counts.asIntegers .indexList = .ok [3] ∧ bytes.WellFormed ∧ fill.WellFormed ∧
      bytes.rank ≠ 0 ∧ [3].length ≤ bytes.rank ∧ fill.element? bytes.form = none ∧
      Shape.ReachesPast [3] bytes.shape ∧
      take counts (.value bytes) fill = .ok (.number ⟨[3], [.ofByte 1, half, half]⟩) := by
  intro counts bytes half fill
  have hf : fill.WellFormed := by
    intro v given
    cases given
    exact .number (by decide)
  have past : Shape.ReachesPast [3] bytes.shape :=
    Shape.reachesPast_iff.mpr ⟨Nat.le_refl 1, fun within => absurd within.1 (by decide)⟩
  exact ⟨rfl, .byte (by decide), hf, by decide, by decide, rfl, past, rfl⟩

end Operations

end RowMajor
