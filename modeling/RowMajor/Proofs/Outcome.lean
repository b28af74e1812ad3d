import Mathlib.Data.List.Forall2
import RowMajor.Error

/-!
# Outcomes of computations that can fail

`Outcome good bad` says of a result that it satisfies `good` if there is one, and that the
failure satisfies `bad` otherwise. It passes through sequences of steps, so that what an
operation gives and how it fails are followed together. An operation yields something if
it gives that or refuses its operands for a reason of one of the four public classes.
-/

namespace RowMajor

variable {ε α β : Type} {good : α → Prop} {bad : ε → Prop}

def Outcome (good : α → Prop) (bad : ε → Prop) : Except ε α → Prop
  | .ok a => good a
  | .error e => bad e

namespace Outcome

theorem mono {good' : α → Prop} {bad' : ε → Prop} {x : Except ε α} (h : Outcome good bad x)
    (onGood : ∀ a, good a → good' a) (onBad : ∀ e, bad e → bad' e) : Outcome good' bad' x := by
  cases x with
  | ok a => exact onGood a h
  | error e => exact onBad e h

theorem ok_or_error {x : Except ε α} (h : Outcome good bad x) :
    (∃ a, x = .ok a ∧ good a) ∨ ∃ e, x = .error e ∧ bad e := by
  cases x with
  | ok a => exact .inl ⟨a, rfl, h⟩
  | error e => exact .inr ⟨e, rfl, h⟩

/-- What the first step gives is what the second starts from. -/
theorem bind {good' : β → Prop} {x : Except ε α} {f : α → Except ε β} (first : Outcome good bad x)
    (next : ∀ a, good a → Outcome good' bad (f a)) : Outcome good' bad (x >>= f) := by
  cases x with
  | ok a => exact next a first
  | error e => exact first

/-- Nothing is known of the first step but that its failures are allowed. -/
theorem bind_any {good' : β → Prop} {x : Except ε α} {f : α → Except ε β}
    (refused : ∀ e, x = .error e → bad e) (next : ∀ a, x = .ok a → Outcome good' bad (f a)) :
    Outcome good' bad (x >>= f) := by
  cases x with
  | ok a => exact next a rfl
  | error e => exact refused e rfl

/-- A computation that goes by a choice which is unique if there is one gives just what belongs
to this choice. -/
theorem map_eq_ok_iff {ι : Type} {choice : ι → Prop} {result : ι → α} {f : α → β} {b : β}
    {x : Except ε α} (h : Outcome (fun a => ∃ i, choice i ∧ a = result i)
      (fun _ => ∀ i, ¬ choice i) x) (unique : ∀ i j, choice i → choice j → i = j) :
    (x >>= fun a => .ok (f a)) = .ok b ↔ ∃ i, choice i ∧ b = f (result i) := by
  cases x with
  | ok a =>
      obtain ⟨i, chosen, rfl⟩ := h
      constructor
      · intro same
        exact ⟨i, chosen, (Except.ok.inj same).symm⟩
      · rintro ⟨j, other, rfl⟩
        rw [unique i j chosen other]
        rfl
  | error e =>
      constructor
      · intro never
        cases never
      · rintro ⟨i, chosen, -⟩
        exact absurd chosen (h i)

/-- A step for every item of a list gives one result for each. -/
theorem mapM {f : β → Except ε α} {xs : List β} (step : ∀ x ∈ xs, Outcome good bad (f x)) :
    Outcome (fun ys => ys.length = xs.length ∧ ∀ y ∈ ys, good y) bad (xs.mapM f) := by
  induction xs with
  | nil => exact ⟨rfl, fun _ hy => absurd hy List.not_mem_nil⟩
  | cons x xs ih =>
      rw [List.mapM_cons]
      apply (step x List.mem_cons_self).bind
      intro y hy
      refine (ih fun z hz => step z (List.mem_cons_of_mem _ hz)).bind fun ys hys => ?_
      refine ⟨congrArg Nat.succ hys.1, fun z hz => ?_⟩
      rcases List.mem_cons.mp hz with rfl | hz
      · exact hy
      · exact hys.2 z hz

/-- The results of a step for every item stand in the order of the items. -/
theorem mapM_forall₂ {good : β → α → Prop} {f : β → Except ε α} {xs : List β}
    (step : ∀ x ∈ xs, Outcome (good x) bad (f x)) :
    Outcome (List.Forall₂ good xs) bad (xs.mapM f) := by
  induction xs with
  | nil => exact .nil
  | cons x xs ih =>
      rw [List.mapM_cons]
      apply (step x List.mem_cons_self).bind
      intro y hy
      apply (ih fun z hz => step z (List.mem_cons_of_mem _ hz)).bind
      intro ys hys
      exact .cons hy hys

/-- Steps that agree on the items of a list agree on the list. -/
theorem mapM_congr {f g : β → Except ε α} {xs : List β}
    (same : ∀ x ∈ xs, f x = g x) : xs.mapM f = xs.mapM g := by
  induction xs with
  | nil => rfl
  | cons x xs ih =>
      rw [List.mapM_cons, List.mapM_cons, same x List.mem_cons_self,
        ih fun y hy => same y (List.mem_cons_of_mem _ hy)]

/-- Steps that agree on corresponding items agree on the lists. -/
theorem mapM_eq_of_forall₂ {γ : Type} {f : β → Except ε α} {g : γ → Except ε α} {xs : List β}
    {ys : List γ} (same : List.Forall₂ (fun x y => f x = g y) xs ys) : xs.mapM f = ys.mapM g := by
  induction same with
  | nil => rfl
  | cons head _ ih => rw [List.mapM_cons, List.mapM_cons, head, ih]

theorem mapM_eq_ok_iff {f : β → Except ε α} {xs : List β} {ys : List α} :
    xs.mapM f = .ok ys ↔ List.Forall₂ (fun x y => f x = .ok y) xs ys := by
  induction xs generalizing ys with
  | nil =>
      rw [List.mapM_nil, List.forall₂_nil_left_iff]
      exact ⟨fun same => (Except.ok.inj same).symm, fun none => congrArg Except.ok none.symm⟩
  | cons x xs ih =>
      rw [List.mapM_cons, List.forall₂_cons_left_iff]
      simp only [← ih]
      cases f x with
      | error e => exact iff_of_false nofun nofun
      | ok y =>
          cases xs.mapM f with
          | error e => exact iff_of_false nofun nofun
          | ok rest =>
              constructor
              · rintro ⟨⟩
                exact ⟨y, rest, rfl, rfl, rfl⟩
              · rintro ⟨_, _, ⟨⟩, ⟨⟩, rfl⟩
                rfl

/-- What succeeds with one step for every item succeeds with one that succeeds more often. -/
theorem mapM_ok_of_imp {f g : β → Except ε α} {xs : List β} {ys : List α}
    (stays : ∀ x y, f x = .ok y → g x = .ok y) (done : xs.mapM f = .ok ys) :
    xs.mapM g = .ok ys := by
  induction xs generalizing ys with
  | nil => exact done
  | cons x xs ih =>
      rw [List.mapM_cons] at done ⊢
      cases first : f x with
      | error e =>
          rw [first] at done
          cases done
      | ok y =>
          cases rest : xs.mapM f with
          | error e =>
              rw [first, rest] at done
              cases done
          | ok zs =>
              rw [first, rest] at done
              rw [stays x y first, ih rest]
              exact done

/-- Steps that all succeed give the list of what they give. -/
theorem mapM_eq_ok {f : β → Except ε α} {g : β → α} {xs : List β}
    (each : ∀ x ∈ xs, f x = .ok (g x)) : xs.mapM f = .ok (xs.map g) := by
  induction xs with
  | nil => rfl
  | cons x xs ih =>
      rw [List.mapM_cons, each x List.mem_cons_self,
        ih fun y hy => each y (List.mem_cons_of_mem _ hy)]
      rfl

theorem mapM_singleton {f : β → Except ε α} {x : β} {y : α} (one : f x = .ok y) :
    [x].mapM f = .ok [y] := by
  rw [List.mapM_cons, one, List.mapM_nil]
  rfl

theorem mapM_replicate {f : β → Except ε α} {x : β} {y : α} (one : f x = .ok y) (count : Nat) :
    (List.replicate count x).mapM f = .ok (List.replicate count y) := by
  have each : ∀ z ∈ List.replicate count x, f z = .ok ((fun _ => y) z) := by
    intro z mem
    rw [List.eq_of_mem_replicate mem, one]
  rw [mapM_eq_ok each, List.map_replicate]

theorem length_of_mapM_eq_ok {f : β → Except ε α} {xs : List β} {ys : List α}
    (done : xs.mapM f = .ok ys) : ys.length = xs.length := by
  have each : Outcome (fun ys => ys.length = xs.length ∧ ∀ y ∈ ys, True) (fun _ => True)
      (xs.mapM f) := mapM fun x _ => by cases f x <;> trivial
  rw [done] at each
  exact each.1

/-- What is done with every result can be done in the end. -/
theorem mapM_bind_ok {γ : Type} (f : β → Except ε α) (g : α → γ) (xs : List β) :
    xs.mapM (fun x => f x >>= fun y => .ok (g y)) = xs.mapM f >>= fun ys => .ok (ys.map g) := by
  induction xs with
  | nil => rfl
  | cons x xs ih =>
      rw [List.mapM_cons, List.mapM_cons, ih]
      cases f x with
      | error e => rfl
      | ok y => cases xs.mapM f <;> rfl

/-- Lists taken one after the other, or their items one after the other. -/
theorem mapM_flatten (f : β → Except ε α) (xss : List (List β)) :
    xss.flatten.mapM f = xss.mapM (·.mapM f) >>= fun yss => .ok yss.flatten := by
  induction xss with
  | nil => rfl
  | cons xs xss ih =>
      rw [List.flatten_cons, List.mapM_append, ih, List.mapM_cons]
      cases xs.mapM f with
      | error e => rfl
      | ok ys => cases xss.mapM (·.mapM f) <;> rfl

/-- If a step for every item of a list fails, it is the first step to fail that does. -/
theorem mapM_eq_error {f : β → Except ε α} {xs : List β} {e : ε} (failed : xs.mapM f = .error e) :
    ∃ (n : Nat) (x : β), xs[n]? = some x ∧ f x = .error e ∧
      ∀ m < n, ∀ y, xs[m]? = some y → ∃ z, f y = .ok z := by
  induction xs with
  | nil => cases failed
  | cons x xs ih =>
      rw [List.mapM_cons] at failed
      cases first : f x with
      | error e' =>
          rw [first] at failed
          cases failed
          exact ⟨0, x, rfl, first, fun m before => absurd before (Nat.not_lt_zero m)⟩
      | ok z =>
          have rest : xs.mapM f = .error e := by
            rw [first] at failed
            cases below : xs.mapM f with
            | error e' => rw [below] at failed; exact failed
            | ok zs => rw [below] at failed; cases failed
          obtain ⟨n, y, here, failed, before⟩ := ih rest
          refine ⟨n + 1, y, here, failed, fun m bound w there => ?_⟩
          cases m with
          | zero => exact ⟨z, Option.some.inj there ▸ first⟩
          | succ m => exact before m (Nat.lt_of_succ_lt_succ bound) w there

end Outcome

theorem exists_of_map_eq_ok {x : Except ε α} {f : α → β} {b : β} (h : x.map f = .ok b) :
    ∃ a, x = .ok a ∧ f a = b := by
  cases x with
  | error e => cases h
  | ok a => exact ⟨a, rfl, Except.ok.inj h⟩

theorem eq_error_of_map_eq_error {x : Except ε α} {f : α → β} {e : ε} (h : x.map f = .error e) :
    x = .error e := by
  cases x with
  | error e' => exact congrArg _ (Except.error.inj h)
  | ok a => cases h

section

variable {g : β → Option α} {xs : List β} {ys : List α}

theorem mapM_eq_some_iff : xs.mapM g = some ys ↔ List.Forall₂ (fun x y => g x = some y) xs ys := by
  induction xs generalizing ys with
  | nil =>
      rw [List.mapM_nil, List.forall₂_nil_left_iff, eq_comm]
      exact Option.some_inj
  | cons x xs ih =>
      rw [List.mapM_cons, List.forall₂_cons_left_iff]
      simp only [Option.bind_eq_bind, Option.bind_eq_some_iff, ih]
      constructor
      · rintro ⟨y, first, rest, others, same⟩
        exact ⟨y, rest, first, others, (Option.some.inj same).symm⟩
      · rintro ⟨y, rest, first, others, rfl⟩
        exact ⟨y, first, rest, others, rfl⟩

theorem mapM_eq_none_iff : xs.mapM g = none ↔ ∃ x ∈ xs, g x = none := by
  induction xs with
  | nil => exact iff_of_false nofun (by simp)
  | cons x xs ih =>
      rw [List.mapM_cons, List.exists_mem_cons_iff, ← ih]
      cases g x with
      | none => exact iff_of_true rfl (.inl rfl)
      | some y => cases xs.mapM g <;> simp

end

/-- The error belongs to one of the four classes that operations raise for operands that do not
fit. -/
def Error.IsRefusal : Error → Prop
  | .shape _ | .kind _ | .inverse _ | .bounds _ => True
  | .mismatch .. | .tooLarge | .notNumeral _ | .buffer _ => False

/-- The error says that there is nothing that could be undone. -/
def Error.IsInverse : Error → Prop
  | .inverse _ => True
  | _ => False

theorem Error.isInverse_iff {e : Error} : e.IsInverse ↔ ∃ cause, e = .inverse cause := by
  constructor
  · cases e with
    | inverse cause => exact fun _ => ⟨cause, rfl⟩
    | _ => exact False.elim
  · rintro ⟨cause, rfl⟩
    trivial

/-- The result satisfies a condition, or the operands were refused. -/
abbrev Yields (good : α → Prop) : Except Error α → Prop :=
  Outcome good Error.IsRefusal

end RowMajor
