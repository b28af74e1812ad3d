import RowMajor.Operand.Integers
import RowMajor.Proofs.Value.Filling

/-!
# Reading well-formed operands

Integers are read off a well-formed value or refused for its kind, its rank or an element
that is no integer. An operation on values is carried out on the grids behind them, so what
it yields for grids of any uniform form it yields for values.
-/

namespace RowMajor

variable {γ : Type} {v a b : Value} {fill : Fill}

theorem Binary64.integer_yields (role : Role) (x : Binary64) :
    Yields (fun _ => True) (x.integer role) := by
  rw [Binary64.integer]
  split <;> trivial

/-- The numbers of a vector are read one by one. -/
theorem Operand.asIntegers_numbers (role : Role) (xs : List Binary64) :
    asIntegers role (.value (.number (.vector xs))) = xs.mapM (Binary64.integer role) := rfl

theorem Operand.asIntegerGrid_numbers {role : Role} {xs : List Binary64} {ints : List Int}
    (read : xs.mapM (Binary64.integer role) = .ok ints) :
    asIntegerGrid role (.value (.number (.vector xs))) = .ok (.vector ints) := by
  have each : Yields (fun ints => ints.length = xs.length ∧ ∀ n ∈ ints, True)
      (xs.mapM (Binary64.integer role)) := Outcome.mapM fun x _ => x.integer_yields role
  rw [read] at each
  show (xs.mapM (Binary64.integer role) >>= fun ints =>
    .ok (Grid.mk [Int.ofNat xs.length] ints)) = .ok (Grid.mk [Int.ofNat ints.length] ints)
  rw [read, each.1]
  rfl

namespace Value

/-- There is one integer for every element. -/
theorem integers_yields (role : Role) (h : v.WellFormed) :
    Yields (fun ints => ints.length = v.elementCount) (v.integers role) := by
  cases h with
  | number h =>
      exact (Outcome.mapM fun x _ => x.integer_yields role).mono (fun _ read => read.1)
        fun _ refused => refused
  | byte h => exact List.length_map _
  | complex h => trivial
  | character h => trivial
  | box h inner => trivial

theorem integerGrid_yields (role : Role) (h : v.WellFormed) :
    Yields Grid.WellFormed (v.integerGrid role) := by
  apply (integers_yields role h).bind
  intro ints length
  exact Grid.wellFormed_iff.mpr ⟨h.natural, length.trans h.holds.length_eq⟩

theorem integerList_yields (role : Role) (h : v.WellFormed) :
    Yields (fun _ => True) (v.integerList role) := by
  rw [integerList]
  split
  · trivial
  · exact (integers_yields role h).mono (fun _ _ => trivial) fun _ refused => refused

theorem givenIntegers_yields (role : Role) (h : v.WellFormed) :
    Yields (fun _ => True) (v.givenIntegers role) := by
  cases h <;> exact (integers_yields role (by constructor <;> assumption)).bind fun _ _ => trivial

theorem naturalList_yields (role : Role) (h : v.WellFormed) :
    Yields (fun _ => True) (v.naturalList role) := by
  apply (integerList_yields role h).bind
  intro ints _
  apply (givenIntegers_yields role h).bind
  intro given _
  split <;> trivial

theorem integer_yields (role : Role) (h : v.WellFormed) :
    Yields (fun _ => True) (v.integer role) := by
  rw [integer]
  split
  · trivial
  · exact (integers_yields role h).bind fun _ _ => trivial

/-- Only mixed values can hold a character where a number is looked for. -/
theorem asNatural?_value (h : v.WellFormed) :
    (Operand.value v).asNatural? = .ok v.natural? := by
  cases h <;> rfl

theorem yields_ofGrid {f : Form} {result : Except Error (Grid f.Element)} (uniform : f.IsUniform)
    (h : Yields (Grid.Holds f.Valid) result) :
    Yields WellFormed (result >>= fun a => .ok (ofGrid f a)) :=
  h.bind fun _ => wellFormed_ofGrid uniform

theorem WellFormed.yields_map {result : Except Error (Grid v.form.Element)} (h : v.WellFormed)
    (changed : v.grid.Holds v.form.Valid → Yields (Grid.Holds v.form.Valid) result) :
    Yields WellFormed (result >>= fun a => .ok (ofGrid v.form a)) :=
  yields_ofGrid h.isUniform (changed h.holds)

/-- After promotion for the fill value an operation goes on with a well-formed value of the same
shape, and with a fill element that is valid for it. -/
theorem promoteFor_yields {good : γ → Prop} {op : Value → Except Error γ} (hf : fill.WellFormed)
    (h : v.WellFormed)
    (next : ∀ w : Value, w.WellFormed → (∀ x, fill.filler w.form = .ok x → w.form.Valid x) →
      Yields good (op w)) : Yields good (v.promoteFor fill >>= op) := by
  obtain ⟨w, promoted, wf, -⟩ := promoteFor_wellFormed hf h
  rw [promoted]
  exact next w wf fun x given => hf.valid_of_filler wf.isUniform given

/-- What an operation yields for two grids of one form it yields for two values. -/
theorem unify_yields {op : (f : Form) → Grid f.Element → Grid f.Element →
    Except Error (Grid f.Element)} (pairing : Pairing) (ha : a.WellFormed) (hb : b.WellFormed)
    (next : ∀ (f : Form) (x y : Grid f.Element), x.Holds f.Valid → y.Holds f.Valid →
      Yields (Grid.Holds f.Valid) (op f x y)) :
    Yields WellFormed (unify pairing a b >>= fun both =>
      op both.form both.first both.second >>= fun c => .ok (ofGrid both.form c)) := by
  apply (unify_wellFormed pairing ha hb).bind
  intro both wf
  exact yields_ofGrid wf.isUniform (next both.form both.first both.second wf.first wf.second)

end Value

end RowMajor
