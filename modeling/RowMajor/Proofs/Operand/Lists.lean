import RowMajor.Proofs.Binary64.Integers
import RowMajor.Proofs.Operand.Nesting
import RowMajor.Proofs.Value.Reading

/-!
# Lists of integers

A list of integers that is given as an operand becomes a vector of numbers before the integers are
read off it again. So every integer of the list is rounded, and the list is refused if one of them
lies beyond all numbers.
-/

namespace RowMajor

/-- The integers of one list are stored as those of the other. -/
def Rounds (ns ms : List Int) : Prop :=
  List.Forall₂ (fun n m => Binary64.rounded? n = some m) ns ms

variable {ns ms : List Int} {role : Role}

theorem exists_rounds_iff :
    (∃ ms, Rounds ns ms) ↔ ∀ n ∈ ns, (Binary64.rounded? n).isSome := by
  constructor
  · rintro ⟨ms, rounds⟩ n mem
    obtain ⟨m, -, found⟩ := exists_of_forall₂_right rounds.flip mem
    rw [found]
    rfl
  · intro stored
    obtain ⟨ms, rounds⟩ := exists_forall₂ fun n mem => Option.isSome_iff_exists.mp (stored n mem)
    exact ⟨ms, rounds.flip⟩

/-- A list is rounded, unless one of its integers is too large. -/
theorem exists_rounds_or_large (ns : List Int) :
    (∃ ms, Rounds ns ms) ∨ ∃ n ∈ ns, Binary64.rounded? n = none := by
  rw [exists_rounds_iff]
  refine (Classical.em _).imp_right fun large => ?_
  simpa using large

theorem rounds_self_iff : Rounds ns ns ↔ ∀ n ∈ ns, Binary64.rounded? n = some n :=
  List.forall₂_same

theorem Rounds.unique {others : List Int} (rounds : Rounds ns ms) (stored : Rounds ns others) :
    ms = others :=
  List.right_unique_forall₂' (fun _ _ _ one other => Option.some.inj (one.symm.trans other)) rounds
    stored

theorem Rounds.ne_nil (rounds : Rounds ns ms) (some : ns ≠ []) : ms ≠ [] := by
  rintro rfl
  exact some (List.length_eq_zero_iff.mp rounds.length_eq)

/-- Opposite integers stay opposite. -/
theorem Rounds.neg (rounds : Rounds ns ms) : Rounds (ns.map (- ·)) (ms.map (- ·)) := by
  rw [Rounds, List.forall₂_map_left_iff, List.forall₂_map_right_iff]
  exact rounds.imp fun _ _ found => Binary64.rounded?_neg found

/-- A list comes back unchanged if all its integers do. -/
theorem Rounds.eq_iff (rounds : Rounds ns ms) :
    ms = ns ↔ ∀ n ∈ ns, Binary64.rounded? n = some n := by
  constructor
  · rintro rfl
    exact rounds_self_iff.mp rounds
  · intro exact_
    induction rounds with
    | nil => rfl
    | cons found _ ih =>
        have kept := exact_ _ List.mem_cons_self
        rw [Option.some.inj (found.symm.trans kept),
          ih fun n mem => exact_ n (List.mem_cons_of_mem _ mem)]

theorem Rounds.natural (rounds : Rounds ns ms) (natural : Shape.Natural ns) :
    Shape.Natural ms := by
  intro m mem
  obtain ⟨n, there, found⟩ := exists_of_forall₂_right rounds mem
  exact Int.not_lt.mp fun negative =>
    Int.not_lt.mpr (natural n there) ((Binary64.sign_rounded? found).1.mp negative)

namespace Binary64

/-- The numbers that store integers equal what these are rounded to. -/
theorem forall₂_toInt?_iff {xs : List Binary64} (stores : List.Forall₂ Stores xs ns) :
    List.Forall₂ (fun x m => x.toInt? = some m) xs ms ↔ Rounds ns ms := by
  induction stores generalizing ms with
  | nil => rw [Rounds, List.forall₂_nil_left_iff, List.forall₂_nil_left_iff]
  | cons head _ ih =>
      cases ms with
      | nil => exact iff_of_false nofun nofun
      | cons m ms => rw [Rounds, List.forall₂_cons, List.forall₂_cons, ih, head.toInt?_eq, Rounds]

theorem eq_map_of_forall₂_stores {xs : List Binary64} (stores : List.Forall₂ Stores xs ns) :
    xs = ns.map ofSmallInt := by
  induction stores with
  | nil => rfl
  | cons head _ ih => rw [List.map_cons, ← head.eq, ← ih]

end Binary64

namespace Kind

theorem coerceNumber_integer_eq_ok_iff {n : Int} {x : Binary64} :
    coerceNumber (.integer n) = .ok x ↔ x.Stores n := by
  rw [coerceNumber, Operand.toReal?, Binary64.Stores]
  cases Binary64.ofInt? n with
  | none =>
      constructor
      · rintro ⟨⟩
      · rintro ⟨⟩
  | some y =>
      rw [Option.some_inj]
      exact ⟨Except.ok.inj, congrArg Except.ok⟩

theorem coerceNumber_integer_of_large {n : Int} (large : Binary64.rounded? n = none) :
    coerceNumber (.integer n) = .error .tooLarge := by
  rw [coerceNumber, Operand.toReal?, Binary64.rounded?_eq_none_iff.mp large]
  rfl

/-- Integers are stored one by one. -/
theorem mapM_coerceNumber_eq_ok_iff {xs : List Binary64} :
    ns.mapM (fun n => coerceNumber (.integer n)) = .ok xs ↔
      List.Forall₂ Binary64.Stores xs ns := by
  rw [Outcome.mapM_eq_ok_iff]
  simp only [coerceNumber_integer_eq_ok_iff]
  exact ⟨List.Forall₂.flip, List.Forall₂.flip⟩

theorem mapM_coerceNumber_of_large {n : Int} (mem : n ∈ ns)
    (large : Binary64.rounded? n = none) :
    ns.mapM (fun n => coerceNumber (.integer n)) = .error .tooLarge := by
  cases stored : ns.mapM (fun n => coerceNumber (.integer n)) with
  | ok xs =>
      obtain ⟨x, -, stores⟩ := exists_of_forall₂_right (mapM_coerceNumber_eq_ok_iff.mp stored) mem
      have some := Binary64.exists_stores_iff.mp ⟨x, stores⟩
      rw [large] at some
      cases some
  | error e =>
      obtain ⟨-, m, -, failed, -⟩ := Outcome.mapM_eq_error stored
      cases beyond : Binary64.rounded? m with
      | none =>
          cases failed.symm.trans (coerceNumber_integer_of_large beyond)
          rfl
      | some r =>
          obtain ⟨x, stores⟩ := Binary64.exists_stores_iff.mpr (Option.isSome_of_eq_some beyond)
          cases failed.symm.trans (coerceNumber_integer_eq_ok_iff.mpr stores)

end Kind

theorem Shape.ofNats_toNat {s : Shape} (natural : s.Natural) : ofNats (s.map Int.toNat) = s := by
  rw [ofNats, List.map_map]
  exact (List.map_congr_left fun d mem => Int.toNat_of_nonneg (natural d mem)).trans (List.map_id s)

namespace Operand

/-- A list of integers as an operand. -/
def listed (ns : List Int) : Operand :=
  .list (ns.map .integer)

theorem stack_scalars (leaves : List Operand) :
    Grid.stack [] (leaves.map .scalar) = .ok (.vector leaves) := by
  cases leaves with
  | nil => rfl
  | cons leaf leaves =>
      rw [List.map_cons, Grid.stack]
      split
      · rename_i other found
        obtain ⟨x, -, rfl⟩ := List.mem_map.mp (List.mem_of_find?_eq_some found)
        have differ := List.find?_some found
        exact absurd rfl (of_decide_eq_true differ)
      · simp [Grid.vector, Grid.scalar, List.flatMap_map]

theorem flatten_listed (ns : List Int) :
    (listed ns).flatten = .ok (.vector (ns.map .integer)) := by
  have leaves : (ns.map Operand.integer).mapM flatten = .ok ((ns.map .integer).map .scalar) := by
    apply Outcome.mapM_eq_ok
    intro x mem
    obtain ⟨n, -, rfl⟩ := List.mem_map.mp mem
    rfl
  rw [listed, flatten, flattenItems_eq, leaves]
  simp only [Bind.bind, Except.bind, stack_scalars]

theorem kindOf_integers (ns : List Int) : kindOf (ns.map .integer) = .number := by
  have reals : (ns.map Operand.integer).all isReal = true := by
    rw [List.all_map]
    exact List.all_eq_true.mpr fun _ _ => rfl
  rw [kindOf, if_pos reals]

/-- The integers are stored one by one. -/
theorem toValue_listed (ns : List Int) :
    (listed ns).toValue = ns.mapM (fun n => Kind.coerceNumber (.integer n)) >>= fun xs =>
      .ok (.number (.vector xs)) := by
  have value : (listed ns).toValue =
      (listed ns).flatten >>= fun nested => build (kindOf nested.items) none nested := rfl
  have fits : (Grid.vector (ns.map Operand.integer)).Fits := (Grid.wellFormed_vector _).fits
  rw [value, flatten_listed]
  show build (kindOf (ns.map .integer)) none (.vector (ns.map .integer)) = _
  rw [kindOf_integers]
  show (if (Grid.vector (ns.map Operand.integer)).Fits then _ else _) = _
  rw [if_pos fits]
  show ((ns.map Operand.integer).mapM Kind.coerceNumber >>= _) = _
  rw [List.mapM_map]
  show (ns.mapM (fun n => Kind.coerceNumber (.integer n)) >>= _) = _
  cases stored : ns.mapM (fun n => Kind.coerceNumber (.integer n)) with
  | error e => rfl
  | ok xs =>
      show Except.ok (Value.number ⟨[Int.ofNat (ns.map Operand.integer).length], xs⟩) = _
      rw [List.length_map, ← Outcome.length_of_mapM_eq_ok stored]
      rfl

/-- The operand of a list is a vector of numbers that equal the rounded integers. -/
theorem exists_vector_of_rounds (rounds : Rounds ns ms) :
    ∃ xs, (listed ns).toValue = .ok (.number (.vector xs)) ∧
      ∀ role, xs.mapM (Binary64.integer role) = .ok ms := by
  have each : ∃ xs, List.Forall₂ Binary64.Stores xs ns ∧
      ∀ role, xs.mapM (Binary64.integer role) = .ok ms := by
    induction rounds with
    | nil => exact ⟨[], .nil, fun _ => rfl⟩
    | @cons n m ns ms found rest ih =>
        obtain ⟨x, stored, whole⟩ := Binary64.rounded?_eq_some_iff.mp found
        obtain ⟨xs, others, read⟩ := ih
        refine ⟨x :: xs, .cons stored others, fun role => ?_⟩
        rw [List.mapM_cons, Binary64.integer, whole, read role]
        rfl
  obtain ⟨xs, stored, read⟩ := each
  refine ⟨xs, ?_, read⟩
  rw [toValue_listed, Kind.mapM_coerceNumber_eq_ok_iff.mpr stored]
  rfl

theorem toValue_listed_of_large {n : Int} (mem : n ∈ ns) (large : Binary64.rounded? n = none) :
    (listed ns).toValue = .error .tooLarge := by
  rw [toValue_listed, Kind.mapM_coerceNumber_of_large mem large]
  rfl

/-- A list is not a natural number. -/
theorem asNatural?_listed (rounds : Rounds ns ms) : (listed ns).asNatural? = .ok none := by
  obtain ⟨xs, value, -⟩ := exists_vector_of_rounds rounds
  rw [asNatural?, value]
  rfl

theorem asNatural?_listed_of_large {n : Int} (mem : n ∈ ns) (large : Binary64.rounded? n = none) :
    (listed ns).asNatural? = .error .tooLarge := by
  rw [asNatural?, toValue_listed_of_large mem large]
  rfl

theorem asIntegers_listed (rounds : Rounds ns ms) : (listed ns).asIntegers role = .ok ms := by
  obtain ⟨xs, value, read⟩ := exists_vector_of_rounds rounds
  rw [asIntegers, value]
  exact (asIntegers_numbers role xs).trans (read role)

theorem asIntegers_listed_of_large {n : Int} (mem : n ∈ ns) (large : Binary64.rounded? n = none) :
    (listed ns).asIntegers role = .error .tooLarge := by
  rw [asIntegers, toValue_listed_of_large mem large]
  rfl

/-- The operand of a list of natural numbers is read as what they are rounded to. -/
theorem exists_vector_of_natural (rounds : Rounds ns ms) (natural : Shape.Natural ns) :
    ∃ xs, (listed ns).toValue = .ok (.number (.vector xs)) ∧
      ∀ role, (Value.number (.vector xs)).naturalList role = .ok (ms.map Int.toNat) := by
  obtain ⟨xs, value, read⟩ := exists_vector_of_rounds rounds
  have plus : (ms.map Operand.integer).find? Operand.isNegative = none := by
    rw [List.find?_eq_none]
    intro x mem
    obtain ⟨m, there, rfl⟩ := List.mem_map.mp mem
    have nonneg := rounds.natural natural m there
    exact fun negative => Int.not_lt.mpr nonneg (of_decide_eq_true negative)
  have flat : ¬ 1 < (Value.number (.vector xs)).rank := Nat.lt_irrefl 1
  refine ⟨xs, value, fun role => ?_⟩
  have ints : (Value.number (.vector xs)).integers role = .ok ms := read role
  rw [Value.naturalList, Value.integerList, if_neg flat]
  simp only [Value.givenIntegers, ints, Bind.bind, Except.bind, plus]

theorem asNaturals_listed (rounds : Rounds ns ms) (natural : Shape.Natural ns) :
    (listed ns).asNaturals role = .ok (ms.map Int.toNat) := by
  obtain ⟨xs, value, read⟩ := exists_vector_of_natural rounds natural
  rw [asNaturals, value]
  exact read role

theorem asNaturals_listed_of_large {n : Int} (mem : n ∈ ns) (large : Binary64.rounded? n = none) :
    (listed ns).asNaturals role = .error .tooLarge := by
  rw [asNaturals, toValue_listed_of_large mem large]
  rfl

end Operand

end RowMajor
