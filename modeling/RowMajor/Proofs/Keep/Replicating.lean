import RowMajor.Proofs.Buffer.Copying
import RowMajor.Proofs.Keep.Merging
import RowMajor.Proofs.Operand.Naturals
import RowMajor.Proofs.Value.Cells
import RowMajor.Reshape

/-!
# Whole arrays repeated

A single count repeats a whole array, and so does reshaping to a natural number. The first makes
the leading axis longer, where an array without axes counts as one row, and the second adds an
axis in front. The copies are the rows along that axis. If it is merged with the axis behind it,
what keeping gives is left.

Both go on from a copy that shares its storage with the array. Neither of them changes what the
array shows.
-/

namespace RowMajor

variable {α : Type}

/-- A rank below that of a shape is reached by merging leading axes. -/
theorem Shape.rerank_of_lt {s : Shape} {rank : Nat} (fewer : rank < s.length) :
    s.rerank (Int.ofNat rank) =
      .ok (size (s.take (s.length - rank)) :: s.drop (s.length - rank)) := by
  have nonneg : 0 ≤ Int.ofNat rank := Int.natCast_nonneg rank
  have more : ¬ s.length ≤ (Int.ofNat rank).toNat := Nat.not_le.mpr fewer
  simp only [rerank]
  rw [if_pos nonneg, if_neg more]
  rfl

namespace Grid

theorem copies_eq_stacked (count : Nat) (a : Grid α) :
    a.copies count = stacked a.shape (List.replicate count a) := by
  rw [copies, stacked, multiplied_eq, repeated_eq, List.length_replicate, List.flatMap_replicate]

theorem rows_copies {a : Grid α} (h : a.WellFormed) (count : Nat) :
    (a.copies count).rows = List.replicate count a := by
  rw [copies_eq_stacked]
  refine rows_stacked fun row mem => ?_
  rw [List.eq_of_mem_replicate mem]
  exact ⟨h, rfl⟩

/-- The axis that counts the copies is merged with the leading axis of the copies. -/
theorem rerank_copies (a : Grid α) (count : Nat) :
    (a.copies count).shape.rerank (max (Int.ofNat a.rank - 1) 0) =
      .ok (a.rowCount * Int.ofNat count :: a.rowShape) := by
  obtain ⟨s, items⟩ := a
  cases s with
  | nil =>
      have merged : Shape.rerank [Int.ofNat count] (Int.ofNat 0) = _ :=
        Shape.rerank_of_lt Nat.one_pos
      have once : Int.ofNat count * 1 = 1 * Int.ofNat count := Int.mul_comm ..
      exact merged.trans (congrArg (fun d => Except.ok [d]) once)
  | cons d s =>
      have below : max (Int.ofNat (d :: s).length - 1) 0 = Int.ofNat s.length := by
        simp only [List.length_cons, Int.ofNat_eq_natCast]
        omega
      have merged : Shape.rerank (Int.ofNat count :: d :: s) (Int.ofNat s.length) = _ :=
        Shape.rerank_of_lt (Nat.lt_add_of_pos_right Nat.two_pos)
      have two : (Int.ofNat count :: d :: s).length - s.length = 2 :=
        Nat.add_sub_cancel_left s.length 2
      have product : Int.ofNat count * (d * 1) = d * Int.ofNat count := by
        rw [Int.mul_one, Int.mul_comm]
      rw [two] at merged
      rw [rank, below]
      exact merged.trans (congrArg (fun d => Except.ok (d :: s)) product)

/-- The copies hold the same elements as the repeated rows, in the same order. -/
theorem WellFormed.withShape_copies {a : Grid α} (h : a.WellFormed) (count : Nat) :
    (a.copies count).withShape (a.rowCount * Int.ofNat count :: a.rowShape) =
      a.repeatRows count := by
  rw [h.repeatRows_eq, copies, multiplied_eq]
  rfl

section Buffers

open Buffer

/-- The commands by which a single count repeats the buffer behind a grid under another name. Of a
grid without axes the one element is repeated in a buffer of its own. -/
def repeatCommands (count : Nat) (source target : String) (a : Grid α) : List (Command α) :=
  if a.rank = 0 then [.create target (repeated count (a.items.take 1))]
  else Command.extendCopy count source target

/-- They make the elements of the repeated grid. -/
theorem WellFormed.makes_repeatCommands {a : Grid α} (h : a.WellFormed) {s : Separate α}
    {source target : String} (different : source ≠ target) (count : Nat)
    (shown : s.get? source = some a.items) :
    s.Makes (a.repeatCommands count source target) target (a.repeatRows count).items := by
  rw [repeatCommands]
  split
  · rename_i scalar
    rw [repeatRows.eq_def, if_pos scalar]
    exact .single rfl
  · rw [h.repeatRows_eq, ← multiplied_eq]
    exact Separate.makes_extendCopy different count shown

end Buffers

end Grid

section Operations

variable {count rank : Operand} {n : Nat} {f : Form}

theorem reshape_natural (natural : count.asNatural? = .ok (some n)) (a : Grid f.Element)
    (fill : Fill) :
    reshape count (.value (.ofGrid f a)) fill = .ok (.ofGrid f (a.copies n)) := by
  have copied : (Value.ofGrid f a).copies n = .ofGrid f (a.copies n) :=
    Value.form_grid_ofGrid (fun g b => Value.ofGrid g (b.copies n)) a
  have read : (Operand.value (.ofGrid f a)).toValue = .ok (.ofGrid f a) := rfl
  rw [reshape, read]
  simp only [Bind.bind, Except.bind, natural]
  exact congrArg Except.ok copied

theorem keep_natural (natural : count.asNatural? = .ok (some n)) (a : Grid f.Element)
    (fill : Fill) :
    keep count (.value (.ofGrid f a)) fill = .ok (.ofGrid f (a.repeatRows n)) := by
  obtain ⟨amount, read, lone⟩ := Operand.exists_value_of_asNatural? natural
  obtain ⟨scalar, list⟩ := Value.naturalList_of_natural? .counts lone
  have repeated : (Value.ofGrid f a).repeatRows n = .ofGrid f (a.repeatRows n) :=
    Value.form_grid_ofGrid (fun g b => Value.ofGrid g (b.repeatRows n)) a
  show (count.toValue >>= fun amount => amount.naturalList .counts >>= fun list =>
    if amount.rank = 0 then Except.ok ((Value.ofGrid f a).repeatRows (list.headD 0))
    else (Value.ofGrid f a).keep fill list) = _
  rw [read]
  show amount.naturalList .counts >>= _ = _
  rw [list, ← repeated]
  exact if_pos scalar

theorem rerank_ofGrid {depth : Int} {s : Shape} (read : rank.asInteger .rank = .ok depth)
    {a : Grid f.Element} (merged : a.shape.rerank depth = .ok s) :
    rerank rank (.value (.ofGrid f a)) = .ok (.ofGrid f (a.withShape s)) := by
  show (rank.asInteger .rank >>= fun depth => (Value.ofGrid f a).shape.rerank depth >>= fun s =>
    Except.ok ((Value.ofGrid f a).withShape s)) = _
  rw [read]
  show (Value.ofGrid f a).shape.rerank depth >>= _ = _
  rw [Value.shape_ofGrid, merged, ← Value.withShape_ofGrid]
  rfl

end Operations

/-- Repeating an array by a single count is reshaping it to the count and merging the two leading
axes, or what there is of them. Each row of the reshaped array is the array itself. Whatever was
done to the buffers before, the commands of both make the new elements under a name of their own,
and every other buffer, that of the array among them, shows what it did. -/
def Value.Replicates (a : Value) (count : Operand) (n : Nat) : Prop :=
  ∀ fill fill' : Fill, ∃ copied kept : Grid a.form.Element,
    RowMajor.reshape count (.value a) fill = .ok (.ofGrid a.form copied) ∧
    RowMajor.keep count (.value a) fill' = .ok (.ofGrid a.form kept) ∧
    (∀ rank : Operand, rank.asInteger .rank = .ok (max (Int.ofNat a.rank - 1) 0) →
      RowMajor.rerank rank (.value (.ofGrid a.form copied)) = .ok (.ofGrid a.form kept)) ∧
    (Value.ofGrid a.form copied).rows = List.replicate n a ∧
    ∀ (before : List (Buffer.Command a.form.Element)) (source target : String),
      source ≠ target →
      let p := (Buffer.Pool.empty.run before).1
      p.shown.get? source = some a.grid.items →
        p.Makes (Buffer.Command.multiplyCopy n source target) target copied.items ∧
        p.Makes (a.grid.repeatCommands n source target) target kept.items

section Operations

variable {count : Operand} {n : Nat} {a : Value}

theorem replicates_of_natural (natural : count.asNatural? = .ok (some n))
    (h : a.grid.WellFormed) : a.Replicates count n := by
  intro fill fill'
  refine ⟨a.grid.copies n, a.grid.repeatRows n, ?_, ?_, fun rank below => ?_, ?_, ?_⟩
  · rw [← reshape_natural natural, Value.ofGrid_grid]
  · rw [← keep_natural natural, Value.ofGrid_grid]
  · rw [← h.withShape_copies]
    exact rerank_ofGrid below (Grid.rerank_copies a.grid n)
  · rw [Value.rows_ofGrid, Grid.rows_copies h, List.map_replicate, Value.ofGrid_grid]
  · intro before source target different p shown
    have consistent := Buffer.Pool.consistent_run_empty before
    exact ⟨Buffer.Pool.makes_of_shown consistent (Buffer.Separate.makes_multiplyCopy n shown),
      Buffer.Pool.makes_of_shown consistent (h.makes_repeatCommands different n shown)⟩

theorem reshape_integer_of_large {i : Int} {fill : Fill} (large : Binary64.rounded? i = none) :
    reshape (.integer i) (.value a) fill = .error .tooLarge := by
  rw [reshape, Operand.asNatural?, Operand.toValue_integer_of_large large]
  rfl

theorem keep_integer_of_large {i : Int} {fill : Fill} (large : Binary64.rounded? i = none) :
    keep (.integer i) (.value a) fill = .error .tooLarge := by
  rw [keep, Operand.toValue_integer_of_large large]
  rfl

/-- An integer replicates as often as it says if it is not rounded. -/
theorem replicates_integer_iff (h : a.grid.WellFormed) :
    a.Replicates (.integer (Int.ofNat n)) n ↔
      Binary64.rounded? (Int.ofNat n) = some (Int.ofNat n) := by
  constructor
  · intro replicates
    obtain ⟨copied, -, reshaped, -, -, rows, -⟩ := replicates .none .none
    cases found : Binary64.rounded? (Int.ofNat n) with
    | none => cases (reshape_integer_of_large found).symm.trans reshaped
    | some m =>
        have nonneg : 0 ≤ m := Int.not_lt.mp fun negative =>
          Int.not_lt.mpr (Int.natCast_nonneg n) ((Binary64.sign_rounded? found).1.mp negative)
        obtain ⟨m, rfl⟩ := Int.eq_ofNat_of_zero_le nonneg
        obtain ⟨other, -, same, -, -, copies, -⟩ :=
          replicates_of_natural (Operand.asNatural?_integer found) h .none .none
        have equal := Except.ok.inj (reshaped.symm.trans same)
        rw [equal, copies] at rows
        have count := congrArg List.length rows
        rw [List.length_replicate, List.length_replicate] at count
        rw [count]
        rfl
  · exact fun kept => replicates_of_natural (Operand.asNatural?_integer kept) h

/-- A single count replicates an array in both ways alike. It may be an integer if this is not
rounded. -/
theorem keep_eq_rerank_reshape (h : a.grid.WellFormed) :
    (∀ count : Operand, count.asNatural? = .ok (some n) → a.Replicates count n) ∧
    (a.Replicates (.integer (Int.ofNat n)) n ↔
      Binary64.rounded? (Int.ofNat n) = some (Int.ofNat n)) :=
  ⟨fun _ natural => replicates_of_natural natural h, replicates_integer_iff h⟩

/-- A word is repeated by both. Its own letters stay as they are while the copy that shares them
is extended. -/
theorem word_replicated :
    let count : Operand := .value (.byte ⟨[], [2]⟩)
    let rank : Operand := .value (.byte ⟨[], [0]⟩)
    let a : Value := .character ⟨[2], ['h', 'a']⟩
    let copied : Value := .character ⟨[2, 2], ['h', 'a', 'h', 'a']⟩
    let kept : Value := .character ⟨[4], ['h', 'a', 'h', 'a']⟩
    let p := (Buffer.Pool.empty.run [.create "word" ['h', 'a']]).1
    let q := (p.run (Buffer.Command.extendCopy 2 "word" "copy")).1
    count.asNatural? = .ok (some 2) ∧
      rank.asInteger .rank = .ok (max (Int.ofNat a.rank - 1) 0) ∧ a.grid.WellFormed ∧
      reshape count (.value a) .none = .ok copied ∧ keep count (.value a) .none = .ok kept ∧
      rerank rank (.value copied) = .ok kept ∧ copied.rows = [a, a] ∧
      q.shown.get? "copy" = some ['h', 'a', 'h', 'a'] ∧
      q.shown.get? "word" = some ['h', 'a'] ∧ a.Replicates (.integer 2) 2 := by
  intro count rank a copied kept p q
  have natural : count.asNatural? = .ok (some 2) := rfl
  have below : rank.asInteger .rank = .ok (max (Int.ofNat a.rank - 1) 0) := rfl
  have h : a.grid.WellFormed := by decide
  have reshaped : reshape count (.value a) .none = .ok copied := rfl
  have repeated : keep count (.value a) .none = .ok kept := rfl
  obtain ⟨reads, integers⟩ := keep_eq_rerank_reshape (n := 2) h
  obtain ⟨c, k, isCopied, isKept, reranked, rows, buffers⟩ := reads count natural .none .none
  obtain rfl : Grid.mk [2, 2] ['h', 'a', 'h', 'a'] = c :=
    Value.character.inj (Except.ok.inj (reshaped.symm.trans isCopied))
  obtain rfl : Grid.mk [4] ['h', 'a', 'h', 'a'] = k :=
    Value.character.inj (Except.ok.inj (repeated.symm.trans isKept))
  have word : p.shown.get? "word" = some ['h', 'a'] := rfl
  obtain ⟨-, made⟩ := buffers [.create "word" ['h', 'a']] "word" "copy" (by decide) word
  have stored : Binary64.rounded? (Int.ofNat 2) = some (Int.ofNat 2) := by decide +kernel
  exact ⟨natural, below, h, reshaped, repeated, reranked rank below, rows, made.made,
    (made.others "word" (by decide)).trans word, integers.mpr stored⟩

/-- An array without bytes could be repeated any number of times, but not if the number lies beyond
all numbers that are stored. -/
theorem copies_beyond_numbers_refused :
    let a : Value := .byte ⟨[0], []⟩
    let count : Operand := .integer (Int.ofNat (2 ^ 1024))
    a.grid.WellFormed ∧ reshape count (.value a) .none = .error .tooLarge ∧
      keep count (.value a) .none = .error .tooLarge ∧ ¬ a.Replicates count (2 ^ 1024) := by
  intro a count
  have h : a.grid.WellFormed := by decide
  have large : Binary64.rounded? (Int.ofNat (2 ^ 1024)) = none := by decide +kernel
  refine ⟨h, reshape_integer_of_large large, keep_integer_of_large large, fun replicates => ?_⟩
  cases large.symm.trans ((replicates_integer_iff h).mp replicates)

end Operations

end RowMajor
