import Mathlib.Data.List.Induction
import Mathlib.Data.List.Nodup
import RowMajor.Search.Codes
import RowMajor.Search.Keys

/-!
# Lines of truth values and dictionaries of positions

A query by codes reads one line of truth values, and a query by keys looks up a list of
positions. The positions that a dictionary holds for a key are the true places of the line
for that key. This is kept when answers are used up: marking an answered place as used
takes from the true places of its own line the first one, just as the dictionary does, and
nothing from the lines of other keys.
-/

namespace RowMajor.Search

variable {κ ρ : Type} [DecidableEq κ]

/-- The places at which a line is true, in increasing order. -/
def truePlaces (marks : List Bool) : List Nat :=
  (List.range marks.length).filter fun i => marks[i]? == some true

theorem mem_truePlaces {marks : List Bool} {i : Nat} :
    i ∈ truePlaces marks ↔ marks[i]? = some true := by
  rw [truePlaces, List.mem_filter, List.mem_range, beq_iff_eq, and_iff_right_iff_imp]
  intro found
  exact (List.getElem?_eq_some_iff.mp found).1

theorem nodup_truePlaces (marks : List Bool) : (truePlaces marks).Nodup :=
  List.nodup_range.filter _

/-- The first true entry is the first true place. -/
theorem firstTrue_eq (marks : List Bool) (missing : Nat) :
    firstTrue marks missing = (truePlaces marks).headD missing := by
  rw [firstTrue, List.headD_eq_head?_getD, truePlaces, List.head?_filter]
  by_cases any : marks.any id = true
  · have before : marks.findIdx id < marks.length :=
      List.findIdx_lt_length_of_exists (List.any_eq_true.mp any)
    have found : (List.range marks.length).find? (fun i => marks[i]? == some true) =
        some (marks.findIdx id) := by
      rw [List.find?_range_eq_some]
      refine ⟨?_, List.mem_range.mpr before, fun j earlier => ?_⟩
      · have here : marks[marks.findIdx id] = true := List.findIdx_getElem (w := before)
        rw [List.getElem?_eq_getElem before, here]
        rfl
      · have absent := List.not_of_lt_findIdx earlier
        rw [List.getElem?_eq_getElem (Nat.lt_trans earlier before)]
        simpa using absent
    rw [if_pos any, found]
    rfl
  · have nowhere : (List.range marks.length).find? (fun i => marks[i]? == some true) = none := by
      rw [List.find?_range_eq_none]
      intro i before
      rw [List.getElem?_eq_getElem before]
      have absent := List.any_eq_false.mp (Bool.not_eq_true _ ▸ any) _ (List.getElem_mem before)
      simpa using absent
    rw [if_neg any, nowhere]
    rfl

theorem truePlaces_concat (marks : List Bool) (b : Bool) :
    truePlaces (marks ++ [b]) = truePlaces marks ++ if b then [marks.length] else [] := by
  rw [truePlaces, List.length_append, List.length_singleton, List.range_succ, List.filter_append]
  congr 1
  · refine List.filter_congr fun i hi => ?_
    rw [List.getElem?_append_left (List.mem_range.mp hi)]
  · rw [List.filter_singleton, List.getElem?_concat_length]
    cases b <;> rfl

/-- The entries of a line that are true and not used up. -/
def available (marks used : List Bool) : List Bool :=
  marks.zipWith (fun same u => same && !u) used

theorem getElem?_available {marks used : List Bool} {i : Nat} :
    (available marks used)[i]? = some true ↔ marks[i]? = some true ∧ used[i]? = some false := by
  rw [available, List.getElem?_zipWith]
  rcases marks[i]? with _ | same <;> rcases used[i]? with _ | u <;> simp

/-- Nothing is used up at first. -/
theorem available_replicate (marks : List Bool) :
    available marks (List.replicate marks.length false) = marks := by
  induction marks with
  | nil => rfl
  | cons b marks ih =>
      rw [List.length_cons, List.replicate_succ, available, List.zipWith_cons_cons]
      exact congr (congrArg List.cons (Bool.and_true b)) ih

/-- A place that is marked as used is available no more, and all others stay as they are. -/
theorem truePlaces_mark (marks used : List Bool) (place : Nat) :
    truePlaces (available marks (used.set place true)) =
      (truePlaces (available marks used)).filter (· ≠ place) := by
  have sizes : (available marks (used.set place true)).length = (available marks used).length := by
    simp [available]
  rw [truePlaces, truePlaces, sizes, List.filter_filter]
  refine List.filter_congr fun i _ => ?_
  rw [Bool.eq_iff_iff, Bool.and_eq_true, beq_iff_eq, beq_iff_eq, decide_eq_true_eq,
    getElem?_available, getElem?_available, List.getElem?_set]
  grind

namespace Positions

theorem placesOf_cons (first other : κ) (places : List Nat) (table : Positions κ) :
    placesOf ((first, places) :: table) other =
      if other = first then places else table.placesOf other := by
  by_cases same : other = first
  · simp [placesOf, same]
  · have distinct : (other == first) = false := by simp [same]
    simp only [placesOf, List.lookup_cons, distinct, if_neg same]

theorem placesOf_add (table : Positions κ) (key other : κ) (i : Nat) :
    (table.add key i).placesOf other =
      table.placesOf other ++ if other = key then [i] else [] := by
  induction table with
  | nil => exact placesOf_cons key other [i] []
  | cons entry table ih =>
      obtain ⟨first, places⟩ := entry
      rw [add, placesOf_cons]
      split
      · rw [placesOf_cons]
        grind
      · rw [placesOf_cons, ih]
        grind

theorem placesOf_removeFirst (table : Positions κ) (key other : κ) :
    (table.removeFirst key).placesOf other =
      if other = key then (table.placesOf other).tail else table.placesOf other := by
  induction table with
  | nil => exact (ite_self []).symm
  | cons entry table ih =>
      obtain ⟨first, places⟩ := entry
      rw [removeFirst, placesOf_cons]
      split
      · rw [placesOf_cons]
        grind
      · rw [placesOf_cons, ih]
        grind

end Positions

/-- Where a key stands among others. -/
def lineOf (keys : List κ) (key : κ) : List Bool :=
  keys.map fun other => decide (key = other)

/-- A dictionary holds the places of each key. -/
theorem placesOf_ofKeys (keys : List κ) (key : κ) :
    (Positions.ofKeys keys).placesOf key = truePlaces (lineOf keys key) := by
  induction keys using List.reverseRecOn with
  | nil => rfl
  | append_singleton keys last ih =>
      rw [lineOf, List.map_append, List.map_singleton, truePlaces_concat, List.length_map]
      rw [Positions.ofKeys, List.zipIdx_append, List.foldl_append]
      simp only [List.zipIdx_singleton, List.foldl_cons, List.foldl_nil, Positions.placesOf_add]
      rw [Positions.ofKeys] at ih
      rw [ih, lineOf, Nat.zero_add]
      simp

theorem any_lineOf (keys : List κ) (key : κ) : (lineOf keys key).any id = keys.contains key := by
  rw [lineOf, List.any_map, List.contains_eq_any_beq]
  rfl

theorem getElem?_of_mem_places {keys : List κ} {used : List Bool} {key : κ} {i : Nat}
    (mem : i ∈ truePlaces (available (lineOf keys key) used)) : keys[i]? = some key := by
  have here := (getElem?_available.mp (mem_truePlaces.mp mem)).1
  rw [lineOf, List.getElem?_map] at here
  obtain ⟨found, atPlace, equal⟩ := Option.map_eq_some_iff.mp here
  rw [atPlace, of_decide_eq_true equal]

theorem filter_ne_eq_self {places : List Nat} {place : Nat} (absent : place ∉ places) :
    places.filter (· ≠ place) = places := by
  refine List.filter_eq_self.mpr fun i hi => decide_eq_true ?_
  rintro rfl
  exact absent hi

/-- Using up the first place where a key stands leaves the other places of that key, and every
place of another key. -/
theorem filter_ne_headD (keys : List κ) (used : List Bool) (key other : κ) {missing : Nat}
    (size : missing = keys.length) :
    let place := (truePlaces (available (lineOf keys key) used)).headD missing
    (truePlaces (available (lineOf keys other) used)).filter (· ≠ place) =
      if other = key then (truePlaces (available (lineOf keys other) used)).tail
      else truePlaces (available (lineOf keys other) used) := by
  intro place
  cases places : truePlaces (available (lineOf keys key) used) with
  | nil =>
      have beyond : place = keys.length := by simp only [place, places, List.headD_nil, size]
      have absent : place ∉ truePlaces (available (lineOf keys other) used) := by
        intro mem
        have found := getElem?_of_mem_places mem
        rw [beyond, List.getElem?_eq_none (Nat.le_refl _)] at found
        cases found
      rw [filter_ne_eq_self absent]
      split
      · subst other
        rw [places, List.tail_nil]
      · rfl
  | cons first rest =>
      have here : place = first := by simp only [place, places, List.headD_cons]
      have atFirst : keys[first]? = some key :=
        getElem?_of_mem_places (places ▸ List.mem_cons_self)
      split
      · subst other
        have apart : first ∉ rest :=
          (List.nodup_cons.mp (places ▸ nodup_truePlaces _)).1
        rw [places, here, List.tail_cons, List.filter_cons_of_neg (by simp)]
        exact filter_ne_eq_self apart
      · rename_i different
        refine filter_ne_eq_self fun mem => different ?_
        have found := getElem?_of_mem_places mem
        rw [here, atFirst] at found
        exact (Option.some.inj found).symm

section

variable {queries searched : List ρ} {code : ρ → List Int} {key : ρ → κ}

/-- What the codes of a query say of the searched rows is what its key says. -/
theorem line_eq {query : ρ}
    (same : ∀ row ∈ searched, sameCodes (code query) (code row) = decide (key query = key row)) :
    (searched.map code).map (sameCodes (code query)) = lineOf (searched.map key) (key query) := by
  rw [lineOf, List.map_map, List.map_map]
  exact List.map_congr_left same

variable (same : ∀ query ∈ queries, ∀ row ∈ searched,
  sameCodes (code query) (code row) = decide (key query = key row))
include same

theorem membersByCode_eq :
    membersByCode (queries.map code) (searched.map code) =
      membersByKey (queries.map key) (searched.map key) := by
  rw [membersByCode, equalityMatrix, membersByKey, List.map_map, List.map_map, List.map_map]
  refine List.map_congr_left fun query hq => ?_
  simp only [Function.comp_apply]
  rw [line_eq (same query hq), any_lineOf]

theorem firstByCode_eq :
    firstByCode (queries.map code) (searched.map code) =
      firstByKey (queries.map key) (searched.map key) := by
  rw [firstByCode, equalityMatrix, firstByKey, List.map_map, List.map_map, List.map_map]
  refine List.map_congr_left fun query hq => ?_
  simp only [Function.comp_apply]
  rw [line_eq (same query hq), firstTrue_eq, placesOf_ofKeys, List.length_map, List.length_map]

/-- The scan and the dictionary go through the queries in step: what is marked as used is what
has been taken out. -/
theorem scanUnused_eq {used : List Bool} {table : Positions κ}
    (inStep : ∀ k, table.placesOf k =
      truePlaces (available (lineOf (searched.map key) k) used)) :
    scanUnused (searched.map code) used (queries.map code) =
      takeByKey searched.length table (queries.map key) := by
  induction queries generalizing used table with
  | nil => rfl
  | cons query queries ih =>
      have marks := line_eq (same query List.mem_cons_self)
      have answer : firstTrue (available (lineOf (searched.map key) (key query)) used)
          (searched.map code).length = (table.placesOf (key query)).headD searched.length := by
        rw [firstTrue_eq, inStep, List.length_map]
      rw [List.map_cons, List.map_cons, scanUnused, takeByKey, marks]
      show firstTrue (available _ used) _ :: scanUnused _ (used.set (firstTrue (available _ used) _)
        true) _ = _
      rw [answer]
      have others := fun q hq => same q (List.mem_cons_of_mem _ hq)
      refine congrArg (List.cons _) (ih others fun k => ?_)
      have size : searched.length = (searched.map key).length := (List.length_map key).symm
      rw [Positions.placesOf_removeFirst, truePlaces_mark, inStep, inStep,
        filter_ne_headD (searched.map key) used (key query) k size]

theorem nextByCode_eq :
    nextByCode (queries.map code) (searched.map code) =
      nextByKey (queries.map key) (searched.map key) := by
  rw [nextByCode, nextByKey, List.length_map, List.length_map]
  refine scanUnused_eq same fun k => ?_
  have size : (lineOf (searched.map key) k).length = searched.length := by
    rw [lineOf, List.length_map, List.length_map]
  rw [placesOf_ofKeys, ← size, available_replicate]

end

end RowMajor.Search
