import RowMajor.Proofs.Buffer.Commands
import RowMajor.Proofs.Outcome

/-!
# Sharing is never visible

Over a run of any length, shared storage answers what separate lists answer and shows what
they hold. What is evident of separate lists therefore holds of shared storage as well: a
command changes what it names and nothing else, a command that is refused changes nothing,
and a buffer that is extended by itself is doubled.
-/

namespace RowMajor.Buffer

variable {α : Type} {other : String}

/-- The names under which a command may leave other items than before. -/
def Command.Touches : Command α → String → Prop
  | .create target _, other => other = target
  | .reserve target _, other => other = target
  | .clone _ target, other => other = target
  | .slice _ target _ _, other => other = target
  | .splitOff name target _, other => other = name ∨ other = target
  | .intoSlices _ stem _, other => ∃ i : Nat, other = stem ++ toString i
  | .release name, other => other = name
  | .extend name _, other => other = name
  | .truncate name _, other => other = name
  | .modify name _, other => other = name
  | .write name _ _, other => other = name
  | .expose _, _ => False
  | .read _ _, _ => False

namespace Separate

variable {s : Separate α}

/-- An attempt changes what its result changes, and nothing if it is refused. -/
theorem get?_attempt {result : Except Fault (Separate α × Answer α)}
    (h : Outcome (fun r => r.1.get? other = s.get? other) (fun _ => True) result) :
    (attempt s result).1.get? other = s.get? other := by
  cases result with
  | ok r => exact h
  | error fault => rfl

theorem attempt_refused {result : Except Fault (Separate α × Answer α)} {fault : Fault}
    (h : (attempt s result).2 = .error fault) : (attempt s result).1 = s := by
  cases result with
  | ok r => cases h
  | error fault => rfl

theorem get?_putSlices {xs : List α} {size : Nat} {stem : String} {starts : List Nat}
    (untouched : ∀ i : Nat, other ≠ stem ++ toString i) :
    (putSlices xs size stem starts s).get? other = s.get? other := by
  simp only [putSlices]
  generalize starts.zipIdx = places
  induction places generalizing s with
  | nil => rfl
  | cons place places ih =>
      rw [List.foldl_cons, ih, Table.get?_put_of_ne (untouched place.2)]

theorem edit_frame {name : String} {change : Edit α} (untouched : other ≠ name) :
    Outcome (fun r : Separate α × Answer α => r.1.get? other = s.get? other) (fun _ => True)
      (s.edit name change) := by
  refine Outcome.bind_any (fun _ _ => trivial) fun xs _ => ?_
  refine Outcome.bind_any (fun _ _ => trivial) fun r _ => ?_
  exact Table.get?_put_of_ne untouched

/-- A command leaves alone what it does not touch. -/
theorem get?_step {c : Command α} (untouched : ¬ c.Touches other) :
    (s.step c).1.get? other = s.get? other := by
  cases c with
  | create target items => exact Table.get?_put_of_ne untouched
  | reserve target capacity =>
      refine get?_attempt (.bind_any (fun _ _ => trivial) fun _ _ => ?_)
      exact Table.get?_put_of_ne untouched
  | clone name target =>
      refine get?_attempt (.bind_any (fun _ _ => trivial) fun _ _ => ?_)
      exact Table.get?_put_of_ne untouched
  | slice name target start stop =>
      refine get?_attempt (.bind_any (fun _ _ => trivial) fun _ _ => ?_)
      refine .bind_any (fun _ _ => trivial) fun _ _ => ?_
      exact Table.get?_put_of_ne untouched
  | splitOff name target position =>
      obtain ⟨notName, notTarget⟩ := not_or.mp untouched
      refine get?_attempt (.bind_any (fun _ _ => trivial) fun _ _ => ?_)
      refine .bind_any (fun _ _ => trivial) fun _ _ => ?_
      exact (Table.get?_put_of_ne notTarget).trans (Table.get?_put_of_ne notName)
  | intoSlices name stem size =>
      refine get?_attempt (.bind_any (fun _ _ => trivial) fun _ _ => ?_)
      refine .bind_any (fun _ _ => trivial) fun _ _ => ?_
      exact get?_putSlices (not_exists.mp untouched)
  | release name =>
      refine get?_attempt (.bind_any (fun _ _ => trivial) fun _ _ => ?_)
      exact Table.get?_remove_of_ne untouched
  | extend name source =>
      refine get?_attempt (.bind_any (fun _ _ => trivial) fun _ _ => ?_)
      exact edit_frame untouched
  | truncate name length =>
      refine get?_attempt (.bind_any (fun _ _ => trivial) fun _ _ => ?_)
      exact Table.get?_put_of_ne untouched
  | modify name edit => exact get?_attempt (edit_frame untouched)
  | write name position x => exact get?_attempt (edit_frame untouched)
  | expose name => exact get?_attempt (.bind_any (fun _ _ => trivial) fun _ _ => rfl)
  | read name query =>
      refine get?_attempt (.bind_any (fun _ _ => trivial) fun _ _ => ?_)
      exact .bind_any (fun _ _ => trivial) fun _ _ => rfl

/-- A command that is refused changes nothing. -/
theorem step_refused {c : Command α} {fault : Fault} (refused : (s.step c).2 = .error fault) :
    (s.step c).1 = s := by
  cases c with
  | create target items => cases refused
  | reserve target capacity => exact attempt_refused refused
  | clone name target => exact attempt_refused refused
  | slice name target start stop => exact attempt_refused refused
  | splitOff name target position => exact attempt_refused refused
  | intoSlices name stem size => exact attempt_refused refused
  | release name => exact attempt_refused refused
  | extend name source => exact attempt_refused refused
  | truncate name length => exact attempt_refused refused
  | modify name edit => exact attempt_refused refused
  | write name position x => exact attempt_refused refused
  | expose name => exact attempt_refused refused
  | read name query => exact attempt_refused refused

theorem find_of_get? {name : String} {items : List α} (found : s.get? name = some items) :
    s.find name = .ok items := by
  rw [find, found]

theorem step_extend_buffer {name : String} {items more : List α}
    (found : s.get? name = some items) (lent : s.get? other = some more) :
    s.step (.extend name (.buffer other)) = (s.put name (items ++ more), .ok .nothing) := by
  simp only [step, sourceItems, edit, find_of_get? found, find_of_get? lent]
  rfl

theorem step_extend_self {name : String} {items : List α} (found : s.get? name = some items) :
    s.step (.extend name (.buffer name)) = (s.put name (items ++ items), .ok .nothing) :=
  step_extend_buffer found found

end Separate

namespace Pool

/-- Shared storage answers every run as separate lists do and shows what they hold. Hence a
command changes nothing that it does not touch, changes nothing at all if it is refused, and a
buffer extended by itself has its items twice. -/
theorem run_transparent (commands : List (Command α)) :
    let shared := (empty : Pool α).run commands
    let separate := Separate.run ([] : Separate α) commands
    shared.2 = separate.2 ∧ shared.1.shown = separate.1 ∧
      (∀ c other, ¬ c.Touches other →
        (shared.1.step c).1.shown.get? other = shared.1.shown.get? other) ∧
      (∀ c fault, (shared.1.step c).2 = .error fault →
        (shared.1.step c).1.shown = shared.1.shown) ∧
      ∀ name items, shared.1.shown.get? name = some items →
        (shared.1.step (.extend name (.buffer name))).2 = .ok .nothing ∧
        (shared.1.step (.extend name (.buffer name))).1.shown.get? name =
          some (items ++ items) := by
  intro shared separate
  obtain ⟨consistent, shown, answers⟩ := run_simulates (consistent_empty (α := α)) commands
  refine ⟨answers, shown, ?_, ?_, ?_⟩
  · intro c other untouched
    rw [(step_simulates consistent c).shown]
    exact Separate.get?_step untouched
  · intro c fault refused
    have next := step_simulates consistent c
    rw [next.answer] at refused
    rw [next.shown, Separate.step_refused refused]
  · intro name items found
    have next := step_simulates consistent (.extend name (.buffer name))
    rw [next.answer, next.shown, Separate.step_extend_self found]
    exact ⟨rfl, Table.get?_put_self ..⟩

end Pool

end RowMajor.Buffer
