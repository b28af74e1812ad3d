import RowMajor.Grid.Basic
import RowMajor.Proofs.Buffer.Transparency

/-!
# Repeated copies of buffers

There are two ways to repeat what a buffer shows under another name. A copy of the buffer is
edited, and then its own items are what it is extended by. Or a copy is extended by the buffer
that it was made from, as often as is asked for. Both begin with a copy that shares its storage
with the buffer, and the second goes on reading the buffer while the copy grows.

It makes no difference which way is taken, and the buffer that is repeated shows the same items
as before. This is evident of separate lists and therefore holds of shared storage as well.
-/

namespace RowMajor.Buffer

variable {α : Type} {source target : String} {items more : List α} {commands : List (Command α)}

def Edit.multiply (count : Nat) : Edit α := fun xs => .ok (multiplied count xs, .nothing)

namespace Command

/-- Make a copy of a buffer, and extend it in one edit until its items are there `count` times. -/
def multiplyCopy (count : Nat) (source target : String) : List (Command α) :=
  [.clone source target, .modify target (Edit.multiply count)]

/-- Make a copy of a buffer, and extend it by the buffer until the items are there `count` times.
Nothing is copied if they are not to be there at all. -/
def extendCopy (count : Nat) (source target : String) : List (Command α) :=
  match count with
  | 0 => [.create target []]
  | more + 1 => .clone source target :: List.replicate more (.extend target (.buffer source))

end Command

namespace Separate

variable {s : Separate α}

/-- All commands are granted. They leave the given list under the name of the target, and under
all other names what was there before. -/
structure Makes (s : Separate α) (commands : List (Command α)) (target : String)
    (items : List α) : Prop where
  granted : ∀ answer ∈ (s.run commands).2, answer = .ok .nothing
  made : (s.run commands).1.get? target = some items
  others : ∀ other, other ≠ target → (s.run commands).1.get? other = s.get? other

namespace Makes

theorem nil (there : s.get? target = some items) : s.Makes [] target items :=
  ⟨fun _ never => absurd never List.not_mem_nil, there, fun _ _ => rfl⟩

/-- A command that enters a list under the name of the target may be followed by others that make
something of it. -/
theorem cons {c : Command α} (first : s.step c = (s.put target more, .ok .nothing))
    (rest : Makes (s.put target more) commands target items) :
    s.Makes (c :: commands) target items := by
  have whole : s.run (c :: commands) = ((run (s.put target more) commands).1,
      .ok .nothing :: (run (s.put target more) commands).2) := by
    rw [run, first]
  constructor
  · rw [whole]
    exact List.forall_mem_cons.mpr ⟨rfl, rest.granted⟩
  · rw [whole]
    exact rest.made
  · intro other different
    rw [whole]
    exact (rest.others other different).trans (Table.get?_put_of_ne different)

/-- A single command that enters a list under the name of the target. -/
theorem single {c : Command α} (step : s.step c = (s.put target items, .ok .nothing)) :
    s.Makes [c] target items :=
  cons step (nil Table.get?_put_self)

end Makes

theorem step_clone (found : s.get? source = some items) :
    s.step (.clone source target) = (s.put target items, .ok .nothing) := by
  simp only [step, find_of_get? found]
  rfl

theorem step_multiply (count : Nat) (found : s.get? target = some items) :
    s.step (.modify target (Edit.multiply count)) =
      (s.put target (multiplied count items), .ok .nothing) := by
  simp only [step, edit, find_of_get? found]
  rfl

section

variable {names : List String} {parts : List (List α)}

theorem forall₂_get?_put (new : target ∉ names)
    (lent : List.Forall₂ (fun name part => s.get? name = some part) names parts) :
    List.Forall₂ (fun name part => Table.get? (s.put target items) name = some part)
      names parts := by
  have apart : ∀ name ∈ names, name ≠ target := fun name mem => ne_of_mem_of_not_mem mem new
  exact ((List.forall₂_and_left _ _).mpr ⟨apart, lent⟩).imp fun _ _ ⟨different, shown⟩ =>
    (Table.get?_put_of_ne different).trans shown

/-- The buffers that are read are other ones than the one that grows, so each gives the same items
whenever its turn comes. -/
theorem makes_extendEach (new : target ∉ names)
    (found : s.get? target = some items)
    (lent : List.Forall₂ (fun name part => s.get? name = some part) names parts) :
    s.Makes (names.map fun name => .extend target (.buffer name)) target
      (items ++ parts.flatten) := by
  induction names generalizing s items parts with
  | nil =>
      obtain rfl := List.forall₂_nil_left_iff.mp lent
      rw [List.flatten_nil, List.append_nil]
      exact .nil found
  | cons name names ih =>
      obtain ⟨part, rest, first, others, rfl⟩ := List.forall₂_cons_left_iff.mp lent
      rw [List.mem_cons, not_or] at new
      rw [List.flatten_cons, ← List.append_assoc]
      exact .cons (step_extend_buffer found first)
        (ih new.2 Table.get?_put_self (forall₂_get?_put new.2 others))

end

theorem makes_extend (different : source ≠ target) (found : s.get? target = some items)
    (lent : s.get? source = some more) (count : Nat) :
    s.Makes (List.replicate count (.extend target (.buffer source))) target
      (items ++ repeated count more) := by
  have new : target ∉ List.replicate count source := fun mem =>
    different (List.eq_of_mem_replicate mem).symm
  have each : List.Forall₂ (fun name part => s.get? name = some part)
      (List.replicate count source) (List.replicate count more) := by
    refine List.forall₂_iff_get.mpr ⟨by simp, fun i _ _ => ?_⟩
    simpa using lent
  have whole := makes_extendEach new found each
  rwa [List.map_replicate, ← repeated_eq] at whole

theorem makes_multiplyCopy (count : Nat) (lent : s.get? source = some items) :
    s.Makes (Command.multiplyCopy count source target) target (multiplied count items) :=
  .cons (step_clone lent) (.single (step_multiply count Table.get?_put_self))

theorem makes_extendCopy (different : source ≠ target) (count : Nat)
    (lent : s.get? source = some items) :
    s.Makes (Command.extendCopy count source target) target (multiplied count items) := by
  cases count with
  | zero => exact .single rfl
  | succ count =>
      exact .cons (step_clone lent)
        (makes_extend different Table.get?_put_self ((Table.get?_put_of_ne different).trans lent)
          count)

end Separate

namespace Pool

variable {p : Pool α}

/-- All commands are granted. After them the target shows the given items, and all other buffers
show what they showed before. -/
structure Makes (p : Pool α) (commands : List (Command α)) (target : String)
    (items : List α) : Prop where
  granted : ∀ answer ∈ (p.run commands).2, answer = .ok .nothing
  made : (p.run commands).1.shown.get? target = some items
  others : ∀ other, other ≠ target →
    (p.run commands).1.shown.get? other = p.shown.get? other

/-- What commands make of separate lists they make of shared storage. -/
theorem makes_of_shown (consistent : Consistent p) (h : p.shown.Makes commands target items) :
    p.Makes commands target items := by
  obtain ⟨-, shown, answers⟩ := run_simulates consistent commands
  constructor
  · rw [answers]
    exact h.granted
  · rw [shown]
    exact h.made
  · rw [shown]
    exact h.others

/-- Shared storage as any commands leave it is consistent. -/
theorem consistent_run_empty (before : List (Command α)) :
    Consistent ((empty : Pool α).run before).1 :=
  (run_simulates consistent_empty before).1

end Pool

end RowMajor.Buffer
