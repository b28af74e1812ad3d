import RowMajor.Proofs.Buffer.Copying
import RowMajor.Proofs.Grid.Cells

/-!
# Buffers rewritten in place

The rows of a buffer can be repeated where they are, and single items can be written over.
Commands that are all granted lead from one table of lists to another, and sequences of
commands are followed through the tables in between. What no command of a sequence touches is
the same after the whole sequence.
-/

namespace RowMajor

variable {α β : Type}

/-- Every piece of the given size over and over again. -/
def repeatPieces (size count : Nat) (items : List α) : List α :=
  (pieces size (items.length / size) items).flatMap (repeated count)

theorem repeatPieces_zero (count : Nat) (items : List α) : repeatPieces 0 count items = [] := by
  rw [repeatPieces, Nat.div_zero]
  rfl

theorem repeated_map (f : α → β) (count : Nat) (items : List α) :
    repeated count (items.map f) = (repeated count items).map f := by
  rw [repeated_eq, repeated_eq, List.map_flatten, List.map_replicate]

theorem repeatPieces_map (f : α → β) (size count : Nat) (items : List α) :
    repeatPieces size count (items.map f) = (repeatPieces size count items).map f := by
  rw [repeatPieces, repeatPieces, List.length_map, pieces_map, List.flatMap_map, List.map_flatMap]
  exact List.flatMap_congr fun piece _ => repeated_map f count piece

/-- Write single items, one after the other. There is no place for an item beyond the last. -/
def writeAll (writes : List (Nat × α)) (items : List α) : List α :=
  writes.foldl (fun items (position, x) => items.set position x) items

variable {writes : List (Nat × α)} {items : List α}

theorem writeAll_cons (position : Nat) (x : α) (writes : List (Nat × α))
    (items : List α) :
    writeAll ((position, x) :: writes) items = writeAll writes (items.set position x) := rfl

theorem writeAll_append (first later : List (Nat × α)) (items : List α) :
    writeAll (first ++ later) items = writeAll later (writeAll first items) :=
  List.foldl_append

theorem writeAll_map (f : α → β) (writes : List (Nat × α)) (items : List α) :
    writeAll (writes.map (Prod.map id f)) (items.map f) = (writeAll writes items).map f := by
  induction writes generalizing items with
  | nil => rfl
  | cons write writes ih =>
      obtain ⟨position, x⟩ := write
      rw [List.map_cons, Prod.map_apply, id_eq, writeAll_cons, writeAll_cons, ← ih, List.map_set]

/-- What lies behind all the positions written to stays as it was. -/
theorem drop_writeAll {n : Nat} (before : ∀ write ∈ writes, write.1 < n) :
    (writeAll writes items).drop n = items.drop n := by
  induction writes generalizing items with
  | nil => rfl
  | cons write writes ih =>
      obtain ⟨first, rest⟩ := List.forall_mem_cons.mp before
      rw [writeAll_cons, ih rest, List.drop_set, if_pos first]

/-- Items written one behind the other. -/
theorem writeAll_zipIdx (done new old rest : List α) (same : new.length = old.length) :
    writeAll ((new.zipIdx done.length).map Prod.swap) (done ++ old ++ rest) =
      done ++ new ++ rest := by
  induction new generalizing done old with
  | nil =>
      rw [List.length_eq_zero_iff.mp same.symm]
      rfl
  | cons x new ih =>
      obtain ⟨y, old, rfl⟩ := List.exists_cons_of_length_eq_add_one same.symm
      have here : (done ++ y :: old ++ rest).set done.length x = done ++ [x] ++ old ++ rest := by
        simp
      have next := ih (done ++ [x]) old (Nat.succ.inj same)
      rw [List.length_append, List.length_singleton] at next
      rw [List.zipIdx_cons, List.map_cons, Prod.swap_prod_mk, writeAll_cons, here, next,
        List.append_assoc done]
      rfl

namespace Buffer

variable {c : Command α} {commands later : List (Command α)} {name other : String}

def Edit.repeatPieces (size count : Nat) : Edit α := fun xs =>
  .ok (RowMajor.repeatPieces size count xs, .nothing)

def Query.all : Query α := fun v => .ok (.items v.items)

namespace Command

/-- Repeat every row of a buffer. Rows without items leave nothing. -/
def repeatRows (name : String) (size count : Nat) : Command α :=
  if size = 0 then .truncate name 0 else .modify name (Edit.repeatPieces size count)

/-- Write over single items where they are. -/
def writeEach (name : String) (writes : List (Nat × α)) : List (Command α) :=
  writes.map fun (position, x) => .write name (Int.ofNat position) x

theorem touches_repeatRows {size count : Nat}
    (touched : (repeatRows name size count : Command α).Touches other) : other = name := by
  rw [repeatRows] at touched
  split at touched
  · exact touched
  · exact touched

theorem touches_writeEach (mem : c ∈ writeEach name writes) (touched : c.Touches other) :
    other = name := by
  obtain ⟨write, -, rfl⟩ := List.mem_map.mp mem
  exact touched

end Command

namespace Separate

variable {s t u : Separate α} {xs : List α}

theorem run_append (s : Separate α) (commands later : List (Command α)) :
    s.run (commands ++ later) = (((s.run commands).1.run later).1,
      (s.run commands).2 ++ ((s.run commands).1.run later).2) := by
  induction commands generalizing s with
  | nil => rfl
  | cons c commands ih =>
      simp only [List.cons_append, run, ih]

theorem get?_run (untouched : ∀ c ∈ commands, ¬ c.Touches other) :
    (s.run commands).1.get? other = s.get? other := by
  induction commands generalizing s with
  | nil => rfl
  | cons c commands ih =>
      obtain ⟨first, rest⟩ := List.forall_mem_cons.mp untouched
      rw [run]
      exact (ih rest).trans (get?_step first)

/-- All commands are granted, and they lead from one table of lists to another. -/
structure Reaches (s : Separate α) (commands : List (Command α)) (t : Separate α) : Prop where
  granted : ∀ answer ∈ (s.run commands).2, ∃ given, answer = .ok given
  last : (s.run commands).1 = t

namespace Reaches

theorem nil : s.Reaches [] s :=
  ⟨fun _ never => absurd never List.not_mem_nil, rfl⟩

theorem single {given : Answer α} (step : s.step c = (t, .ok given)) : s.Reaches [c] t := by
  have whole : s.run [c] = (t, [.ok given]) := by
    rw [run, step]
    rfl
  refine ⟨fun answer mem => ?_, congrArg Prod.fst whole⟩
  rw [whole] at mem
  exact ⟨given, List.mem_singleton.mp mem⟩

theorem append (first : s.Reaches commands t) (rest : t.Reaches later u) :
    s.Reaches (commands ++ later) u := by
  have whole := run_append s commands later
  rw [first.last] at whole
  constructor
  · rw [whole]
    intro answer mem
    rcases List.mem_append.mp mem with before | after
    · exact first.granted answer before
    · exact rest.granted answer after
  · rw [whole]
    exact rest.last

end Reaches

theorem step_repeatRows (size count : Nat) (found : s.get? name = some xs) :
    s.step (.repeatRows name size count) =
      (s.put name (repeatPieces size count xs), .ok .nothing) := by
  rw [Command.repeatRows]
  split
  · rename_i empty
    rw [empty, repeatPieces_zero]
    simp only [step, find_of_get? found]
    rfl
  · simp only [step, edit, find_of_get? found]
    rfl

theorem step_expose (found : s.get? name = some xs) :
    s.step (.expose name) = (s, .ok (.items xs)) := by
  simp only [step, find_of_get? found]
  rfl

theorem step_read_all (found : s.get? name = some xs) :
    s.step (.read name Query.all) = (s, .ok (.items xs)) := by
  simp only [step, find_of_get? found]
  rfl

theorem step_write {position : Nat} (x : α) (found : s.get? name = some xs)
    (there : position < xs.length) :
    s.step (.write name (Int.ofNat position) x) =
      (s.put name (xs.set position x), .ok .nothing) := by
  have resolved : resolveIndex (Int.ofNat position) xs.length = some position := by
    have within : ¬ (Int.ofNat position < -Int.ofNat xs.length ∨
        Int.ofNat xs.length ≤ Int.ofNat position) := by
      simp only [Int.ofNat_eq_natCast]
      omega
    exact (if_neg within).trans (congrArg some (if_pos (Int.natCast_nonneg position)))
  have written : Edit.set (Int.ofNat position) x xs = .ok (xs.set position x, .nothing) := by
    rw [Edit.set, resolved]
  simp only [step, edit, find_of_get? found, bind, Except.bind, written]
  rfl

theorem reaches_writeEach (there : ∀ write ∈ writes, write.1 < xs.length)
    (found : s.get? name = some xs) :
    ∃ t, s.Reaches (Command.writeEach name writes) t ∧
      t.get? name = some (writeAll writes xs) := by
  induction writes generalizing s xs with
  | nil => exact ⟨s, .nil, found⟩
  | cons write writes ih =>
      obtain ⟨here, rest⟩ := List.forall_mem_cons.mp there
      have first := step_write write.2 found here
      have still : ∀ later ∈ writes, later.1 < (xs.set write.1 write.2).length := by
        rw [List.length_set]
        exact rest
      obtain ⟨t, reached, shown⟩ := ih still (s := s.put name _) Table.get?_put_self
      exact ⟨t, (Reaches.single first).append reached, shown⟩

end Separate

namespace Pool

variable {p : Pool α} {left copy : String}

/-- All commands are granted. After them a buffer shows the given items, and all other buffers show
what they showed before, except a copy that the commands make for themselves. -/
structure Leaves (p : Pool α) (commands : List (Command α)) (left copy : String)
    (items : List α) : Prop where
  granted : ∀ answer ∈ (p.run commands).2, ∃ given, answer = .ok given
  shown : (p.run commands).1.shown.get? left = some items
  others : ∀ other, other ≠ left → other ≠ copy →
    (p.run commands).1.shown.get? other = p.shown.get? other

/-- What commands lead to on separate lists is what they leave in shared storage. -/
theorem leaves_of_reaches {t : Separate α} (consistent : Consistent p)
    (reached : p.shown.Reaches commands t) (found : t.get? left = some items)
    (touched : ∀ c ∈ commands, ∀ other, c.Touches other → other = left ∨ other = copy) :
    p.Leaves commands left copy items := by
  obtain ⟨-, shown, answers⟩ := run_simulates consistent commands
  constructor
  · rw [answers]
    exact reached.granted
  · rw [shown, reached.last]
    exact found
  · intro other notLeft notCopy
    rw [shown]
    refine Separate.get?_run fun c mem touches => ?_
    exact (touched c mem other touches).elim notLeft notCopy

end Pool

end Buffer

end RowMajor
