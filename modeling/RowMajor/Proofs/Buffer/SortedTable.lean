import RowMajor.Buffer.Table

/-!
# Sorted tables

In a table whose names strictly increase, every name has at most one entry. Entering
something then replaces exactly the entry of that name: up to order the new table is the
new entry in front of the old table without the name (`put_perm`). Changing all entries
by one function commutes with looking up, entering and removing.
-/

namespace RowMajor.Buffer.Table

variable {β γ : Type} {name other : String}

/-- The names strictly increase. -/
def Sorted (t : Table β) : Prop :=
  t.Pairwise fun e f => e.1 < f.1

/-- The same names with changed entries. -/
def mapEntries (f : β → γ) (t : Table β) : Table γ :=
  t.map fun (name, entry) => (name, f entry)

@[simp] theorem get?_cons (entry : β) (t : Table β) :
    get? ((other, entry) :: t) name = if name = other then some entry else get? t name := by
  by_cases h : name = other
  · simp [get?, h]
  · have distinct : (name == other) = false := by simp [h]
    simp [get?, List.lookup_cons, distinct, h]

@[simp] theorem mem_remove {e : String × β} {t : Table β} :
    e ∈ t.remove name ↔ e ∈ t ∧ e.1 ≠ name := by
  simp [remove]

theorem remove_cons_self (entry : β) (t : Table β) :
    remove name ((name, entry) :: t) = remove name t := by
  simp [remove]

theorem remove_cons_of_ne (entry : β) (t : Table β) (h : other ≠ name) :
    remove name ((other, entry) :: t) = (other, entry) :: remove name t := by
  simp [remove, h]

theorem mem_of_mem_put {entry : β} {t : Table β} {e : String × β} (h : e ∈ t.put name entry) :
    e = (name, entry) ∨ e ∈ t := by
  induction t with
  | nil => simpa [put] using h
  | cons first rest ih =>
      obtain ⟨other, old⟩ := first
      simp only [put] at h
      split at h
      · exact (List.mem_cons.mp h).imp id (List.mem_cons_of_mem _)
      · split at h
        · exact List.mem_cons.mp h
        · rcases List.mem_cons.mp h with rfl | h
          · exact .inr List.mem_cons_self
          · exact (ih h).imp id (List.mem_cons_of_mem _)

theorem sorted_put {entry : β} {t : Table β} (h : t.Sorted) : (t.put name entry).Sorted := by
  induction t with
  | nil => exact List.pairwise_singleton _ _
  | cons first rest ih =>
      obtain ⟨other, old⟩ := first
      obtain ⟨below, sorted⟩ := List.pairwise_cons.mp h
      simp only [put]
      split
      case isTrue same =>
        exact List.pairwise_cons.mpr ⟨fun e he => by simpa [same] using below e he, sorted⟩
      case isFalse different =>
        split
        case isTrue less =>
          refine List.pairwise_cons.mpr ⟨fun e he => ?_, h⟩
          rcases List.mem_cons.mp he with rfl | he
          · exact less
          · exact String.lt_trans less (below e he)
        case isFalse notLess =>
          have greater : other < name :=
            String.not_le.mp fun le => different (String.le_antisymm le (String.not_lt.mp notLess))
          refine List.pairwise_cons.mpr ⟨fun e he => ?_, ih sorted⟩
          rcases mem_of_mem_put he with rfl | he
          · exact greater
          · exact below e he

theorem sorted_remove {t : Table β} (h : t.Sorted) : (t.remove name).Sorted :=
  h.filter _

/-- No entry of the name, nothing to remove. -/
theorem remove_eq_self {t : Table β} (h : ∀ e ∈ t, e.1 ≠ name) : t.remove name = t := by
  simpa [remove] using h

theorem put_perm {entry : β} {t : Table β} (h : t.Sorted) :
    (t.put name entry).Perm ((name, entry) :: t.remove name) := by
  induction t with
  | nil => exact .refl _
  | cons first rest ih =>
      obtain ⟨other, old⟩ := first
      obtain ⟨below, sorted⟩ := List.pairwise_cons.mp h
      simp only [put]
      split
      case isTrue same =>
        subst same
        have absent : remove name rest = rest :=
          remove_eq_self fun e he => (String.ne_of_lt (below e he)).symm
        rw [remove_cons_self, absent]
      case isFalse different =>
        rw [remove_cons_of_ne _ _ (Ne.symm different)]
        split
        case isTrue less =>
          rw [remove_eq_self fun e he => (String.ne_of_lt (String.lt_trans less (below e he))).symm]
        case isFalse notLess =>
          exact ((ih sorted).cons _).trans (.swap ..)

/-- The entry of a name stands in front of the rest of the table, up to order. -/
theorem perm_of_get? {entry : β} {t : Table β} (h : t.Sorted) (found : t.get? name = some entry) :
    t.Perm ((name, entry) :: t.remove name) := by
  induction t with
  | nil => cases found
  | cons first rest ih =>
      obtain ⟨other, old⟩ := first
      obtain ⟨below, sorted⟩ := List.pairwise_cons.mp h
      rw [get?_cons] at found
      by_cases same : name = other
      · subst same
        rw [if_pos rfl, Option.some.injEq] at found
        have absent : remove name rest = rest :=
          remove_eq_self fun e he => (String.ne_of_lt (below e he)).symm
        rw [remove_cons_self, absent, found]
      · rw [if_neg same] at found
        rw [remove_cons_of_ne _ _ (Ne.symm same)]
        exact ((ih sorted found).cons _).trans (.swap ..)

theorem ne_of_get?_none {t : Table β} (h : t.get? name = none) : ∀ e ∈ t, e.1 ≠ name := by
  intro e he same
  have := List.lookup_eq_none_iff.mp h e he
  simp [same] at this

theorem mem_of_get? {entry : β} {t : Table β} (h : t.get? name = some entry) :
    (name, entry) ∈ t := by
  obtain ⟨before, after, rfl, -⟩ := List.lookup_eq_some_iff.mp h
  simp

theorem get?_eq_some_iff {entry : β} {t : Table β} (h : t.Sorted) :
    t.get? name = some entry ↔ (name, entry) ∈ t := by
  refine ⟨mem_of_get?, fun mem => ?_⟩
  cases found : t.get? name with
  | none => exact absurd rfl (ne_of_get?_none found _ mem)
  | some first =>
      rcases List.mem_cons.mp ((perm_of_get? h found).mem_iff.mp mem) with same | rest
      · simp [(Prod.mk.injEq ..).mp same]
      · exact absurd rfl (mem_remove.mp rest).2

@[simp] theorem get?_put_self {entry : β} {t : Table β} :
    (t.put name entry).get? name = some entry := by
  induction t with
  | nil => simp [put]
  | cons first rest ih =>
      obtain ⟨other, old⟩ := first
      simp only [put]
      split
      · simp
      · split
        · simp
        · simp [*]

theorem get?_put_of_ne {entry : β} {t : Table β} (h : other ≠ name) :
    (t.put name entry).get? other = t.get? other := by
  induction t with
  | nil => simp [put, h, get?]
  | cons first rest ih =>
      obtain ⟨third, old⟩ := first
      simp only [put]
      split
      case isTrue same => simp [← same, h]
      case isFalse => split <;> simp [h, ih]

theorem get?_remove_of_ne {t : Table β} (h : other ≠ name) :
    (t.remove name).get? other = t.get? other := by
  induction t with
  | nil => rfl
  | cons first rest ih =>
      obtain ⟨third, old⟩ := first
      by_cases same : third = name
      · subst same
        rw [remove_cons_self, ih, get?_cons, if_neg h]
      · rw [remove_cons_of_ne _ _ same, get?_cons, get?_cons, ih]

/-- Entering what is there already changes nothing. -/
theorem put_eq_self {entry : β} {t : Table β} (h : t.Sorted) (found : t.get? name = some entry) :
    t.put name entry = t := by
  induction t with
  | nil => cases found
  | cons first rest ih =>
      obtain ⟨other, old⟩ := first
      obtain ⟨below, sorted⟩ := List.pairwise_cons.mp h
      rw [get?_cons] at found
      by_cases same : name = other
      · rw [if_pos same, Option.some.injEq] at found
        rw [put, if_pos same, same, found]
      · rw [if_neg same] at found
        have greater : other < name := below _ (mem_of_get? found)
        rw [put, if_neg same, if_neg (String.lt_asymm greater), ih sorted found]

@[simp] theorem get?_mapEntries (f : β → γ) (t : Table β) :
    (t.mapEntries f).get? name = (t.get? name).map f := by
  induction t with
  | nil => rfl
  | cons first rest ih =>
      obtain ⟨other, old⟩ := first
      show get? ((other, f old) :: mapEntries f rest) name = _
      rw [get?_cons, get?_cons, ih]
      split <;> rfl

theorem mapEntries_put (f : β → γ) (entry : β) (t : Table β) :
    (t.put name entry).mapEntries f = (t.mapEntries f).put name (f entry) := by
  induction t with
  | nil => rfl
  | cons first rest ih =>
      obtain ⟨other, old⟩ := first
      show _ = put name (f entry) ((other, f old) :: mapEntries f rest)
      simp only [put]
      rw [← ih]
      split
      · rfl
      · split <;> rfl

theorem mapEntries_remove (f : β → γ) (t : Table β) :
    (t.remove name).mapEntries f = (t.mapEntries f).remove name := by
  simp only [remove, mapEntries, List.filter_map]
  rfl

theorem mapEntries_congr {f g : β → γ} {t : Table β} (h : ∀ e ∈ t, f e.2 = g e.2) :
    t.mapEntries f = t.mapEntries g :=
  List.map_congr_left fun e he => by simp [h e he]

/-- What the old entry of a name is changed into does not matter once it is replaced. -/
theorem put_mapEntries_congr {f g : β → γ} {t : Table β} (sorted : t.Sorted) (new : γ)
    (h : ∀ e ∈ t, e.1 ≠ name → f e.2 = g e.2) :
    (t.mapEntries f).put name new = (t.mapEntries g).put name new := by
  induction t with
  | nil => rfl
  | cons first rest ih =>
      obtain ⟨other, old⟩ := first
      obtain ⟨below, sorted⟩ := List.pairwise_cons.mp sorted
      show put name new ((other, f old) :: mapEntries f rest) =
        put name new ((other, g old) :: mapEntries g rest)
      have tail := ih sorted fun e he => h e (List.mem_cons_of_mem _ he)
      simp only [put]
      split
      case isTrue same =>
        rw [mapEntries_congr fun e he => h e (List.mem_cons_of_mem _ he)
          (same ▸ (String.ne_of_lt (below e he)).symm)]
      case isFalse different =>
        have head : f old = g old := h (other, old) List.mem_cons_self (Ne.symm different)
        split
        case isTrue less =>
          rw [head, mapEntries_congr fun e he => h e (List.mem_cons_of_mem _ he)
            (String.ne_of_lt (String.lt_trans less (below e he))).symm]
        case isFalse => rw [head, tail]

end RowMajor.Buffer.Table
