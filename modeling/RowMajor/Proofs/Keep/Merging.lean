import RowMajor.Keep
import RowMajor.Proofs.Grid.Rows

/-!
# Copies of rows, and rows merged back

Keeping gives so many copies of every row, where the fill value completes a list of counts that
is too short. To undo it, the rows that were counted are taken from one list and the others from
another (`Merged`). This only asks which counts are zero. Where no count is larger than one, the
copies are what a merge takes, so the two undo each other.
-/

namespace RowMajor

variable {α β : Type}

/-- The counts for all rows: those that are given, if they are as many, and otherwise as many more
of the natural number to fill with as there are rows left. -/
inductive Fill.Completes (fill : Fill) (rows : Int) (counts : List Nat) : List Nat → Prop
  | exactly : Int.ofNat counts.length = rows → fill.Completes rows counts counts
  | filled {x : Binary64} {n : Nat} : Int.ofNat counts.length < rows →
      fill.filler (.uniform .number) = .ok x → x.toNat? = some n →
      fill.Completes rows counts (counts ++ List.replicate (rows.toNat - counts.length) n)

variable {fill : Fill} {rowCount : Int} {counts full : List Nat}

theorem fillCounts_eq_ok_iff {shape : Shape} :
    fillCounts fill shape rowCount counts = .ok full ↔ fill.Completes rowCount counts full := by
  constructor
  · intro completed
    rw [fillCounts] at completed
    split at completed
    · rename_i exactly
      cases completed
      exact .exactly exactly
    · split at completed
      · rename_i fewer
        split at completed
        · cases completed
        · rename_i x given
          split at completed
          · rename_i n natural
            cases completed
            exact .filled fewer given natural
          · cases completed
      · split at completed <;> cases completed
  · rintro (exactly | ⟨fewer, given, natural⟩)
    · exact if_pos exactly
    · rw [fillCounts, if_neg (Int.ne_of_lt fewer), if_pos fewer, given]
      simp only [natural]

namespace Fill.Completes

theorem length_eq (completed : fill.Completes rowCount counts full) :
    full.length = rowCount.toNat := by
  cases completed with
  | exactly length =>
      rw [← length]
      rfl
  | filled fewer _ _ =>
      rw [List.length_append, List.length_replicate]
      simp only [Int.ofNat_eq_natCast] at fewer
      omega

/-- The given counts are among them. -/
theorem mem {n : Nat} (completed : fill.Completes rowCount counts full) (mem : n ∈ counts) :
    n ∈ full := by
  cases completed with
  | exactly _ => exact mem
  | filled _ _ _ => exact List.mem_append_left _ mem

theorem unique {other : List Nat} (completed : fill.Completes rowCount counts full)
    (also : fill.Completes rowCount counts other) : full = other := by
  have once : fillCounts fill [] rowCount counts = .ok full := fillCounts_eq_ok_iff.mpr completed
  exact Except.ok.inj (once.symm.trans (fillCounts_eq_ok_iff.mpr also))

/-- Counts are completed if as many others are. -/
theorem exists_of_length {others : List Nat} (completed : fill.Completes rowCount counts full)
    (same : others.length = counts.length) : ∃ other, fill.Completes rowCount others other := by
  cases completed with
  | exactly length => exact ⟨_, .exactly (same ▸ length)⟩
  | filled fewer given natural => exact ⟨_, .filled (same ▸ fewer) given natural⟩

end Fill.Completes

/-- How many rows are counted at all. -/
def counted (counts : List Nat) : Nat :=
  counts.countP (0 < ·)

section Counted

variable {n : Nat}

theorem counted_cons (pos : 0 < n) : counted (n :: counts) = counted counts + 1 :=
  List.countP_cons_of_pos (decide_eq_true pos)

theorem counted_le_length (counts : List Nat) : counted counts ≤ counts.length :=
  List.countP_le_length

/-- If no count is larger than one, the counted rows are those with the count one. -/
theorem counted_eq_count_one (boolean : ∀ n ∈ counts, n ≤ 1) : counted counts = counts.count 1 := by
  refine List.countP_congr fun n mem => ?_
  have := boolean n mem
  simp only [decide_eq_true_eq, beq_iff_eq]
  omega

end Counted

/-- Each row as often as its count says. -/
def copies (counts : List Nat) (rows : List β) : List β :=
  (counts.zip rows).flatMap fun (n, row) => List.replicate n row

section Copies

variable {n : Nat} {rows : List β} {row : β}

theorem copies_cons (n : Nat) (counts : List Nat) (row : β) (rows : List β) :
    copies (n :: counts) (row :: rows) = List.replicate n row ++ copies counts rows := rfl

theorem length_copies (length : counts.length = rows.length) :
    (copies counts rows).length = counts.foldr (· + ·) 0 := by
  induction counts generalizing rows with
  | nil => rfl
  | cons n counts ih =>
      cases rows with
      | nil => cases length
      | cons row rows =>
          rw [copies_cons, List.length_append, List.length_replicate,
            ih (Nat.succ.inj length), List.foldr_cons]

/-- Copies of images are images of copies. -/
theorem copies_map {γ : Type} (f : β → γ) (counts : List Nat) (rows : List β) :
    copies counts (rows.map f) = (copies counts rows).map f := by
  rw [copies, copies, List.zip_map_right, List.flatMap_map, List.map_flatMap]
  exact List.flatMap_congr fun _ _ => List.map_replicate.symm

theorem mem_of_mem_copies (mem : row ∈ copies counts rows) : row ∈ rows := by
  obtain ⟨⟨n, other⟩, there, copied⟩ := List.mem_flatMap.mp mem
  rw [List.eq_of_mem_replicate copied]
  exact (List.of_mem_zip there).2

end Copies

/-- Of two lists of rows the first gives those that are not counted, and the second those that are,
one after the other. -/
inductive Merged : List Nat → List β → List β → List β → Prop
  | nil : Merged [] [] [] []
  | own {counts : List Nat} {rows kept merged : List β} (row : β) :
      Merged counts rows kept merged → Merged (0 :: counts) (row :: rows) kept (row :: merged)
  | kept {n : Nat} {counts : List Nat} {rows kept merged : List β} (row new : β) (pos : 0 < n) :
      Merged counts rows kept merged →
        Merged (n :: counts) (row :: rows) (new :: kept) (new :: merged)

namespace Merged

variable {n i : Nat} {row : β} {rows kept merged other : List β}

theorem length_kept (h : Merged counts rows kept merged) : kept.length = counted counts := by
  induction h with
  | nil => rfl
  | own _ _ ih => exact ih
  | kept _ _ pos _ ih => rw [counted_cons pos, List.length_cons, ih]

theorem length_merged (h : Merged counts rows kept merged) : merged.length = rows.length := by
  induction h with
  | nil => rfl
  | own _ _ ih => exact congrArg Nat.succ ih
  | kept _ _ _ _ ih => exact congrArg Nat.succ ih

theorem mem (h : Merged counts rows kept merged) (mem : row ∈ merged) :
    row ∈ rows ∨ row ∈ kept := by
  induction h with
  | nil => cases mem
  | own _ _ ih =>
      rcases List.mem_cons.mp mem with rfl | mem
      · exact .inl List.mem_cons_self
      · exact (ih mem).imp_left (List.mem_cons_of_mem _)
  | kept _ _ _ _ ih =>
      rcases List.mem_cons.mp mem with rfl | mem
      · exact .inr List.mem_cons_self
      · exact (ih mem).imp (List.mem_cons_of_mem _) (List.mem_cons_of_mem _)

/-- There is only one way to merge. -/
theorem unique (h : Merged counts rows kept merged) (also : Merged counts rows kept other) :
    merged = other := by
  induction h generalizing other with
  | nil =>
      cases also
      rfl
  | own row _ ih =>
      cases also with
      | own _ also => rw [ih also]
      | kept _ _ pos _ => exact absurd pos (Nat.lt_irrefl 0)
  | kept _ new pos _ ih =>
      cases also with
      | own _ _ => exact absurd pos (Nat.lt_irrefl 0)
      | kept _ _ _ also => rw [ih also]

/-- A row that is not counted stays as it is. -/
theorem getElem?_own (h : Merged counts rows kept merged) (here : counts[i]? = some 0) :
    merged[i]? = rows[i]? := by
  induction h generalizing i with
  | nil => rfl
  | own _ _ ih =>
      cases i with
      | zero => rfl
      | succ i => exact ih here
  | kept _ _ pos _ ih =>
      cases i with
      | zero =>
          cases here
          exact absurd pos (Nat.lt_irrefl 0)
      | succ i => exact ih here

/-- A row that is counted is the next one of those that were kept. -/
theorem getElem?_kept (h : Merged counts rows kept merged) (here : counts[i]? = some n)
    (pos : 0 < n) : merged[i]? = kept[counted (counts.take i)]? := by
  induction h generalizing i with
  | nil => cases here
  | own _ _ ih =>
      cases i with
      | zero =>
          cases here
          exact absurd pos (Nat.lt_irrefl 0)
      | succ i => exact ih here
  | kept _ _ first _ ih =>
      cases i with
      | zero => rfl
      | succ i =>
          rw [List.take_succ_cons, counted_cons first]
          exact ih here

/-- What was merged is kept again. -/
theorem copies_eq (h : Merged counts rows kept merged) (boolean : ∀ n ∈ counts, n ≤ 1) :
    copies counts merged = kept := by
  induction h with
  | nil => rfl
  | own _ _ ih => exact ih fun n mem => boolean n (List.mem_cons_of_mem _ mem)
  | kept _ new pos _ ih =>
      have one := Nat.le_antisymm (boolean _ List.mem_cons_self) pos
      rw [copies_cons, one, ih fun n mem => boolean n (List.mem_cons_of_mem _ mem)]
      rfl

end Merged

/-- Merging the copies of rows into the rows changes nothing. -/
theorem merged_copies {rows : List β} (length : counts.length = rows.length)
    (boolean : ∀ n ∈ counts, n ≤ 1) : Merged counts rows (copies counts rows) rows := by
  induction counts generalizing rows with
  | nil =>
      obtain rfl := List.length_eq_zero_iff.mp length.symm
      exact .nil
  | cons n counts ih =>
      cases rows with
      | nil => cases length
      | cons row rows =>
          have below := ih (Nat.succ.inj length) fun n mem => boolean n (List.mem_cons_of_mem _ mem)
          rcases Nat.le_one_iff_eq_zero_or_eq_one.mp (boolean n List.mem_cons_self) with rfl | rfl
          · exact .own row below
          · exact .kept row row Nat.one_pos below

namespace Grid

variable {rows kept : List (Grid α)} {s : Shape}

/-- Kept rows can be merged if they are as many as are counted and have the shape of the others. -/
theorem mergeKept_spec (length : counts.length = rows.length)
    (same : ∀ row ∈ rows, row.shape = s) :
    Outcome
      (fun merged => (∀ new ∈ kept, new.shape = s) ∧ Merged counts rows kept merged)
      (fun e => e.IsInverse ∧
        ¬ (kept.length = counted counts ∧ ∀ new ∈ kept, new.shape = s))
      (mergeKept counts rows kept) := by
  induction counts generalizing rows kept with
  | nil =>
      obtain rfl := List.length_eq_zero_iff.mp length.symm
      cases kept with
      | nil => exact ⟨fun _ never => absurd never List.not_mem_nil, .nil⟩
      | cons new kept => exact ⟨trivial, fun fits => Nat.succ_ne_zero _ fits.1⟩
  | cons n counts ih =>
      cases rows with
      | nil => cases length
      | cons row rows =>
          have shorter := Nat.succ.inj length
          have below : ∀ row ∈ rows, row.shape = s :=
            fun r mem => same r (List.mem_cons_of_mem _ mem)
          -- A row that is not counted asks for nothing. One that is counted asks for a kept row of
          -- its shape, and the rest for one less than before.
          rcases Nat.eq_zero_or_pos n with rfl | pos
          · rw [mergeKept.eq_def]
            exact (ih shorter below).bind fun merged fits => ⟨fits.1, .own row fits.2⟩
          · rw [mergeKept.eq_def]
            simp only [if_neg (Nat.ne_of_gt pos), counted_cons pos]
            cases kept with
            | nil => exact ⟨trivial, fun fits => Nat.succ_ne_zero _ fits.1.symm⟩
            | cons new kept =>
                simp only [same row List.mem_cons_self]
                by_cases shape : new.shape = s
                · simp only [if_pos shape, List.forall_mem_cons, List.length_cons,
                    Nat.add_right_cancel_iff]
                  refine ((ih shorter below).mono (fun _ => id) ?_).bind fun merged fits => ?_
                  · exact fun e refused => ⟨refused.1, fun fits => refused.2 ⟨fits.1, fits.2.2⟩⟩
                  · exact ⟨⟨shape, fits.1⟩, .kept row new pos fits.2⟩
                · simp only [if_neg shape]
                  exact ⟨trivial, fun fits => shape (fits.2 new List.mem_cons_self)⟩

/-- A mask has each row as often as its count says. -/
theorem maskedItems_eq_countedItems {a : Grid α} (boolean : ∀ n ∈ counts, n ≤ 1) :
    a.maskedItems counts = a.countedItems counts := by
  refine List.flatMap_congr ?_
  rintro ⟨n, row⟩ mem
  have small := boolean n (List.of_mem_zip mem).1
  simp only [repeated_eq]
  rcases Nat.le_one_iff_eq_zero_or_eq_one.mp small with rfl | rfl
  · rfl
  · exact (List.append_nil row.items).symm

/-- The element of a grid without axes is its row, and a mask counts the rows. -/
theorem keepRows_eq {a : Grid α} (length : counts.length = a.rows.length) :
    a.keepRows counts =
      ⟨Int.ofNat (counts.foldr (· + ·) 0) :: a.rowShape, a.countedItems counts⟩ := by
  rw [keepRows]
  split
  · rename_i scalar
    obtain ⟨s, items⟩ := a
    obtain rfl : s = [] := List.length_eq_zero_iff.mp scalar
    obtain ⟨n, rfl⟩ := List.length_eq_one_iff.mp length
    exact congrArg (Grid.mk [Int.ofNat n]) (List.append_nil _).symm
  · split
    · rename_i mask
      have boolean (n : Nat) (mem : n ∈ counts) : n ≤ 1 :=
        of_decide_eq_true (List.all_eq_true.mp mask n mem)
      rw [maskedItems_eq_countedItems boolean]
    · rfl

/-- The whole grid is repeated the same way in all cases. -/
theorem WellFormed.repeatRows_eq {a : Grid α} (h : a.WellFormed) (count : Nat) :
    a.repeatRows count = ⟨a.rowCount * Int.ofNat count :: a.rowShape, repeated count a.items⟩ := by
  obtain ⟨s, items⟩ := a
  rw [Grid.repeatRows.eq_def]
  split
  · rename_i scalar
    obtain rfl : s = [] := List.length_eq_zero_iff.mp scalar
    have one : items.length = 1 := Int.ofNat.inj h.fits
    rw [List.take_of_length_le (Nat.le_of_eq one)]
    exact congrArg (fun n => Grid.mk [n] (repeated count items)) (Int.one_mul _).symm
  · rename_i axes
    obtain ⟨d, s, rfl⟩ := List.exists_cons_of_length_pos (Nat.pos_of_ne_zero axes)
    rw [← multiplied_eq]
    split
    · exact congrArg (fun n => Grid.mk (n :: s) []) (Int.mul_zero d).symm
    · exact congr (congrArg (fun n => Grid.mk (n :: s)) (Int.mul_one d).symm)
        (multiplied_one items).symm
    · rfl

/-- Keeping stacks the copies of the rows. -/
theorem keepRows_eq_stacked {a : Grid α} (length : counts.length = a.rows.length) :
    a.keepRows counts = stacked a.rowShape (copies counts a.rows) := by
  rw [keepRows_eq length, stacked, length_copies length, copies, List.flatMap_assoc]
  refine congrArg (Grid.mk _) (List.flatMap_congr ?_)
  rintro ⟨n, row⟩ -
  exact (repeated_eq ..).trans (List.flatMap_replicate ..).symm

end Grid

end RowMajor
