import RowMajor.Proofs.Grid.Assembly
import RowMajor.Proofs.Operand.Lists
import RowMajor.Proofs.Reshape.Dimensions
import RowMajor.Proofs.Value.Cells

/-!
# Elements laid out under new dimensions

The elements of a value keep their order when they are laid out under new dimensions. Those for
which there is no room are left out. Where more are asked for, the fill element stands for every
one of them, or the elements start over if there is none. Bytes are promoted first if only numbers
can be filled.

Dimensions that are given as a list of integers are rounded to numbers before they are read. A
list with a dimension that is no number is therefore laid out under other dimensions than it says.
-/

namespace RowMajor

variable {α : Type}

namespace Grid

variable {a t : Grid α} {filler : Filler α} {dims : List Int}

/-- The items of an endless repetition. -/
theorem getElem?_cycle {count i : Nat} {items : List α} (nonempty : items ≠ [])
    (below : i < count) : (cycle count items)[i]? = items[i % items.length]? := by
  have positive : 0 < items.length := List.length_pos_iff.mpr nonempty
  have copy : i / items.length < count / items.length + 1 :=
    Nat.lt_succ_of_le (Nat.div_le_div_right (Nat.le_of_lt below))
  have each : ∀ x ∈ List.replicate (count / items.length + 1) items, (id x).length = items.length :=
    fun x mem => congrArg List.length (List.eq_of_mem_replicate mem)
  calc (cycle count items)[i]?
      = ((List.replicate (count / items.length + 1) items).flatMap id)[
          i / items.length * items.length + i % items.length]? := by
        rw [cycle, List.getElem?_take_of_lt below, List.flatMap_id, Nat.div_add_mod']
    _ = (List.replicate (count / items.length + 1) items)[i / items.length]?.bind
          fun x => x[i % items.length]? :=
        getElem?_flatMap_of_length each (Nat.mod_lt i positive)
    _ = items[i % items.length]? := by
        rw [List.getElem?_replicate_of_lt copy]
        rfl

/-- The elements of a grid in order under new dimensions, filled up or started over if there are
too few. -/
structure IsLaidOut (a : Grid α) (filler : Option α) (dims : List Int) (t : Grid α) : Prop where
  shape : Shape.Resolves a.items.length filler.isSome dims t.shape
  items : ∀ i < t.items.length, t.items[i]? =
    if i < a.items.length then a.items[i]? else filler.or a.items[i % a.items.length]?

section

variable {s : Shape} {o : Option α} (resolves : Shape.Resolves a.items.length o.isSome dims s)
include resolves

theorem isLaidOut_take (enough : s.volume ≤ a.items.length) :
    a.IsLaidOut o dims ⟨s, a.items.take s.volume⟩ := by
  refine ⟨resolves, fun i below => ?_⟩
  rw [List.length_take, Nat.min_eq_left enough] at below
  rw [if_pos (Nat.lt_of_lt_of_le below enough), List.getElem?_take_of_lt below]

theorem isLaidOut_cycle (nonempty : a.items ≠ []) (none : o = none) :
    a.IsLaidOut o dims ⟨s, cycle s.volume a.items⟩ := by
  refine ⟨resolves, fun i below => ?_⟩
  rw [length_cycle nonempty] at below
  rw [getElem?_cycle nonempty below, none, Option.none_or]
  split
  · rename_i early
    rw [Nat.mod_eq_of_lt early]
  · rfl

/-- Dimensions fit if they ask for a shape, and for no elements where there are none. -/
theorem fits_of_resolves (enough : a.items = [] → o.isSome = false → 0 ∈ s) :
    ¬ Shape.Unfit a.items.length o.isSome dims := by
  rintro (underivable | ⟨empty, missing, t, other, positive⟩)
  · exact resolves.not_underivable underivable
  · rw [other.unique resolves] at positive
    exact positive (enough (List.length_eq_zero_iff.mp empty) missing)

end

theorem isLaidOut_append {s : Shape} {x : α}
    (resolves : Shape.Resolves a.items.length true dims s) :
    a.IsLaidOut (some x) dims
      ⟨s, a.items ++ List.replicate (s.volume - a.items.length) x⟩ := by
  refine ⟨resolves, fun i below => ?_⟩
  rw [List.length_append, List.length_replicate] at below
  split
  · rename_i early
    exact List.getElem?_append_left early
  · rename_i late
    rw [List.getElem?_append_right (Nat.not_lt.mp late), List.getElem?_replicate_of_lt (by omega)]
    rfl

/-- The elements are laid out, unless the dimensions do not fit. -/
theorem reshape_spec (h : a.WellFormed) :
    Outcome
      (fun t => a.IsLaidOut filler.toOption dims t ∧
        ¬ Shape.Unfit a.items.length filler.toOption.isSome dims)
      (fun e => Shape.Unfit a.items.length filler.toOption.isSome dims ∧ ∃ cause, e = .shape cause)
      (a.reshape filler dims) := by
  have usable : filler.isOk = filler.toOption.isSome := by cases filler <;> rfl
  rw [Grid.reshape, usable]
  refine Outcome.bind ((Shape.derive_spec h.fits.symm dims filler.toOption.isSome).mono
    (fun _ resolves => resolves) fun e refused => ⟨.inl refused.1, refused.2⟩) ?_
  intro shape resolves
  have volume : shape.volume = 0 ↔ 0 ∈ shape := Shape.volume_eq_zero_iff resolves.natural
  simp only
  split
  · rename_i enough
    refine ⟨isLaidOut_take resolves enough, fits_of_resolves resolves fun empty _ => ?_⟩
    rw [empty] at enough
    exact volume.mp (Nat.le_zero.mp enough)
  · rename_i few
    cases filler with
    | ok x => exact ⟨isLaidOut_append resolves, fits_of_resolves resolves nofun⟩
    | error why =>
        dsimp only
        split
        · rename_i empty
          rw [List.isEmpty_iff] at empty
          refine ⟨.inr ⟨List.length_eq_zero_iff.mpr empty, rfl, shape, resolves, ?_⟩, _, rfl⟩
          intro zero
          rw [volume.mpr zero] at few
          exact few (Nat.zero_le _)
        · rename_i nonempty
          rw [List.isEmpty_iff] at nonempty
          exact ⟨isLaidOut_cycle resolves nonempty rfl,
            fits_of_resolves resolves fun empty _ => absurd empty nonempty⟩

end Grid

variable {fill : Fill} {dims : List Int}

namespace Value

variable {v w r : Value}

/-- The element at a place in row-major order, as one of any kind. -/
def item? (v : Value) (i : Nat) : Option (Item Value) :=
  v.itemGrid.items[i]?

theorem item?_ofGrid {f : Form} (a : Grid f.Element) (i : Nat) :
    (ofGrid f a).item? i = a.items[i]?.map f.item := by
  rw [item?, itemGrid_ofGrid, Grid.items_map, List.getElem?_map]

/-- A well-formed value of the same form with the elements in order under new dimensions. -/
structure IsLaidOut (fill : Fill) (dims : List Int) (w r : Value) : Prop where
  wellFormed : r.WellFormed
  form : r.form = w.form
  shape : Shape.Resolves w.elementCount (fill.element? w.form).isSome dims r.shape
  items : ∀ i < r.elementCount, r.item? i =
    if i < w.elementCount then w.item? i
    else ((fill.element? w.form).map w.form.item).or (w.item? (i % w.elementCount))

/-- The elements cannot be laid out under the dimensions. -/
def Unfit (fill : Fill) (dims : List Int) (w : Value) : Prop :=
  Shape.Unfit w.elementCount (fill.element? w.form).isSome dims

/-- The elements are laid out, or refused if the dimensions do not fit. -/
structure LaysOut (fill : Fill) (dims : List Int) (w : Value) (result : Except Error Value) :
    Prop where
  refused : w.Unfit fill dims → ∃ cause, result = .error (.shape cause)
  done : ¬ w.Unfit fill dims → ∃ r, result = .ok r ∧ w.IsLaidOut fill dims r

theorem reshape_eq_ofGrid (promoted : v.promoteFor fill = .ok w) (dims : List Int) :
    v.reshape fill dims =
      (w.grid.reshape (fill.filler w.form) dims >>= fun a => .ok (.ofGrid w.form a)) := by
  rw [reshape, promoted]
  rfl

/-- What a reshape gives is the elements of the promoted value under new dimensions. -/
theorem exists_grid_of_reshape (h : w.grid.WellFormed) (promoted : v.promoteFor fill = .ok w)
    (done : v.reshape fill dims = .ok r) :
    ∃ t, r = .ofGrid w.form t ∧ w.grid.IsLaidOut (fill.element? w.form) dims t := by
  have outcome : Outcome _ _ (w.grid.reshape (fill.filler w.form) dims) := Grid.reshape_spec h
  rw [reshape_eq_ofGrid promoted] at done
  rw [Fill.toOption_filler] at outcome
  cases reshaped : w.grid.reshape (fill.filler w.form) dims with
  | error e =>
      rw [reshaped] at done
      cases done
  | ok t =>
      rw [reshaped] at done outcome
      cases done
      exact ⟨t, rfl, outcome.1⟩

theorem reshape_laysOut (hv : v.WellFormed) (hf : fill.WellFormed)
    (promoted : v.promoteFor fill = .ok w) (dims : List Int) :
    w.LaysOut fill dims (v.reshape fill dims) := by
  obtain ⟨w', promoted', wf, -⟩ := promoteFor_wellFormed hf hv
  obtain rfl := Except.ok.inj (promoted.symm.trans promoted')
  have outcome : Outcome _ _ (w.grid.reshape (fill.filler w.form) dims) :=
    Grid.reshape_spec wf.holds.wellFormed
  have holds : Yields _ (w.grid.reshape (fill.filler w.form) dims) :=
    Grid.reshape_yields wf.holds (fun x given => hf.valid_of_filler wf.isUniform given) dims
  rw [Fill.toOption_filler] at outcome
  rw [reshape_eq_ofGrid promoted]
  cases reshaped : w.grid.reshape (fill.filler w.form) dims with
  | error e =>
      rw [reshaped] at outcome
      obtain ⟨unfit, cause, rfl⟩ := outcome
      exact ⟨fun _ => ⟨cause, rfl⟩, fun fits => absurd unfit fits⟩
  | ok t =>
      rw [reshaped] at outcome holds
      obtain ⟨laid, fits⟩ := outcome
      refine ⟨fun unfit => absurd unfit fits, fun _ => ⟨_, rfl, ?_⟩⟩
      refine ⟨wellFormed_ofGrid wf.isUniform holds, form_ofGrid .., ?_, ?_⟩
      · rw [shape_ofGrid]
        exact laid.shape
      · intro i below
        rw [elementCount_ofGrid] at below
        have own (j : Nat) : w.item? j = w.grid.items[j]?.map w.form.item := by
          rw [← item?_ofGrid, ofGrid_grid]
        rw [item?_ofGrid, laid.items i below, own, own, apply_ite (Option.map w.form.item),
          Option.map_or]
        rfl

end Value

namespace Operand

/-- The operand holds the dimensions, and is not a natural number on its own. -/
structure GivesDims (x : Operand) (dims : List Int) : Prop where
  several : x.asNatural? = .ok none
  read : x.asIntegers .newShape = .ok dims

theorem givesDims_listed {ms : List Int} (rounds : Rounds dims ms) : (listed dims).GivesDims ms :=
  ⟨asNatural?_listed rounds, asIntegers_listed rounds⟩

end Operand

/-- Without a natural number the elements are laid out under the integers. -/
theorem reshape_of_several {shape : Operand} (several : shape.asNatural? = .ok none) (v : Value) :
    reshape shape (.value v) fill = shape.asIntegers .newShape >>= v.reshape fill := by
  show (shape.asNatural? >>= _) = _
  rw [several]
  rfl

theorem reshape_dims {shape : Operand} (given : shape.GivesDims dims) (v : Value) :
    reshape shape (.value v) fill = v.reshape fill dims := by
  rw [reshape_of_several given.several, given.read]
  rfl

theorem reshape_of_large {d : Int} (mem : d ∈ dims) (large : Binary64.rounded? d = none)
    (v : Value) : reshape (.listed dims) (.value v) fill = .error .tooLarge := by
  show ((Operand.listed dims).asNatural? >>= _) = _
  rw [Operand.asNatural?_listed_of_large mem large]
  rfl

section

variable {ms : List Int} (rounds : Rounds dims ms)
include rounds

/-- If the rounded dimensions can be read off the shape as well as the dimensions themselves, none
of them was changed. -/
theorem Rounds.exact_of_keeps {s : Shape}
    (given : List.Forall₂ (fun d e => 0 ≤ d → e = d) dims s)
    (stored : List.Forall₂ (fun m e => 0 ≤ m → e = m) ms s) :
    ∀ d ∈ dims, 0 ≤ d → Binary64.rounded? d = some d := by
  induction rounds generalizing s with
  | nil => nofun
  | @cons d m dims ms found _ ih =>
      cases given with
      | cons asked given =>
      cases stored with
      | cons kept stored =>
          intro n mem nonneg
          rcases List.mem_cons.mp mem with rfl | later
          · have sign : 0 ≤ m :=
              Int.not_lt.mp fun negative =>
                Int.not_lt.mpr nonneg ((Binary64.sign_rounded? found).1.mp negative)
            rw [found, ← kept sign, asked nonneg]
          · exact ih given stored n later nonneg

theorem Value.laysOut_iff_of_rounds {w : Value} {result : Except Error Value}
    (laid : w.LaysOut fill ms result) :
    w.LaysOut fill dims result ↔
      w.Unfit fill dims ∨ ∀ d ∈ dims, 0 ≤ d → Binary64.rounded? d = some d := by
  have same : w.Unfit fill dims ↔ w.Unfit fill ms :=
    Shape.unfit_congr (rounds.imp fun _ _ => Binary64.sign_rounded?)
  by_cases unfit : w.Unfit fill dims
  · exact iff_of_true ⟨fun _ => laid.refused (same.mp unfit), fun fits => absurd unfit fits⟩
      (.inl unfit)
  · obtain ⟨r, done, under⟩ := laid.done (mt same.mpr unfit)
    rw [or_iff_right unfit]
    constructor
    · intro given
      obtain ⟨r', done', asked⟩ := given.done unfit
      obtain rfl := Except.ok.inj (done.symm.trans done')
      exact rounds.exact_of_keeps asked.shape.keeps under.shape.keeps
    · intro stays
      have agree : List.Forall₂ (fun d m => m = d ∨ (d < 0 ∧ m < 0)) dims ms := by
        refine ((List.forall₂_and_left dims ms).mpr ⟨stays, rounds⟩).imp ?_
        rintro d m ⟨kept, found⟩
        rcases Int.lt_or_le d 0 with negative | nonneg
        · exact .inr ⟨negative, (Binary64.sign_rounded? found).1.mpr negative⟩
        · exact .inl (Option.some.inj (found.symm.trans (kept nonneg)))
      refine ⟨fun refused => absurd refused unfit, fun _ => ⟨r, done, ?_⟩⟩
      exact ⟨under.wellFormed, under.form, under.shape.of_agree agree, under.items⟩

end

/-- Dimensions that an operand holds are those under which the elements are laid out. A list of
integers holds the rounded integers, so it must not be changed by rounding unless the dimensions
do not fit. -/
theorem reshape_lays_out_iff {v : Value} (hv : v.WellFormed) (hf : fill.WellFormed)
    (dims : List Int) :
    ∃ w, v.promoteFor fill = .ok w ∧
      (w = v ∨ ∃ bytes, v = .byte bytes ∧ w = .number (bytes.map .ofByte) ∧
        fill.element? v.form = none ∧ fill.element? w.form ≠ none) ∧
      (∀ shape : Operand, shape.GivesDims dims →
        w.LaysOut fill dims (reshape shape (.value v) fill)) ∧
      (w.LaysOut fill dims (reshape (.listed dims) (.value v) fill) ↔
        (∀ d ∈ dims, (Binary64.rounded? d).isSome) ∧
          (w.Unfit fill dims ∨ ∀ d ∈ dims, 0 ≤ d → Binary64.rounded? d = some d)) := by
  obtain ⟨w, promoted, -, -⟩ := Value.promoteFor_wellFormed hf hv
  refine ⟨w, promoted, Value.eq_or_byte_of_promoted hf hv promoted, ?_, ?_⟩
  · intro shape given
    rw [reshape_dims given]
    exact Value.reshape_laysOut hv hf promoted dims
  · obtain ⟨ms, rounds⟩ | ⟨d, mem, large⟩ := exists_rounds_or_large dims
    · rw [and_iff_right (exists_rounds_iff.mp ⟨ms, rounds⟩),
        reshape_dims (Operand.givesDims_listed rounds)]
      exact Value.laysOut_iff_of_rounds rounds (Value.reshape_laysOut hv hf promoted ms)
    · rw [reshape_of_large mem large]
      refine iff_of_false (fun laid => ?_) fun both => by simpa [large] using both.1 d mem
      by_cases unfit : w.Unfit fill dims
      · obtain ⟨cause, ⟨⟩⟩ := laid.refused unfit
      · obtain ⟨r, ⟨⟩, -⟩ := laid.done unfit

/-- Three letters in two rows, the second of which is filled with a dot. -/
theorem letters_laid_out_with_dot :
    let letters : Value := .character ⟨[3], ['a', 'b', 'c']⟩
    let fill : Fill := ⟨some (.character ⟨[], ['.']⟩)⟩
    letters.WellFormed ∧ fill.WellFormed ∧
      ∃ r, reshape (.listed [2, -1]) (.value letters) fill = .ok r ∧ r.shape = [2, 2] ∧
        r.item? 2 = some (.character 'c') ∧ r.item? 3 = some (.character '.') := by
  intro letters fill
  have hv : letters.WellFormed := .character (by decide)
  have hf : fill.WellFormed := by
    intro v given
    cases given
    exact .character (by decide)
  obtain ⟨w, promoted, -, -, listed⟩ := reshape_lays_out_iff hv hf [2, -1]
  cases promoted
  have laid := listed.mpr ⟨by decide +kernel, .inr (by decide +kernel)⟩
  have fits : ¬ letters.Unfit fill [2, -1] := by
    rintro (underivable | ⟨⟨⟩, -⟩)
    exact absurd (Shape.underivable_iff.mp underivable) (by decide)
  obtain ⟨r, done, under⟩ := laid.done fits
  have derived : Shape.derive [3] [2, -1] true = .ok r.shape := under.shape.derive_eq rfl
  have shape : r.shape = [2, 2] := (Except.ok.inj derived).symm
  have count : r.elementCount = 4 := by
    rw [Value.elementCount, under.wellFormed.holds.length_eq]
    exact congrArg Shape.cellCount shape
  exact ⟨hv, hf, r, done, shape, under.items 2 (by rw [count]; decide),
    under.items 3 (by rw [count]; decide)⟩

/-- An axis whose length is no number gets another length, although an axis of length zero stands
beside it and there are no elements to lay out. -/
theorem odd_axis_laid_out_shorter :
    let empty : Value := .byte ⟨[0], []⟩
    let dims : List Int := [9007199254740993, 0]
    empty.WellFormed ∧ empty.promoteFor .none = .ok empty ∧
      reshape (.listed dims) (.value empty) .none = .ok (.byte ⟨[9007199254740992, 0], []⟩) ∧
      ¬ empty.LaysOut .none dims (reshape (.listed dims) (.value empty) .none) := by
  intro empty dims
  have rounds : Rounds dims [9007199254740992, 0] :=
    .cons (by decide +kernel) (.cons (by decide +kernel) .nil)
  have shorter : reshape (.listed dims) (.value empty) .none =
      .ok (.byte ⟨[9007199254740992, 0], []⟩) := by
    rw [reshape_dims (Operand.givesDims_listed rounds)]
    rfl
  have asked : Shape.Resolves 0 false dims dims := .given (by decide)
  refine ⟨.byte (by decide), rfl, shorter, fun laid => ?_⟩
  have fits : ¬ empty.Unfit .none dims := by
    rintro (underivable | ⟨-, -, s, other, positive⟩)
    · exact asked.not_underivable underivable
    · rw [other.unique asked] at positive
      exact positive (by decide)
  obtain ⟨r, done, under⟩ := laid.done fits
  cases shorter.symm.trans done
  exact absurd (under.shape.unique asked) (by decide)

end RowMajor
