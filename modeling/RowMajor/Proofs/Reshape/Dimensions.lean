import Mathlib.Data.Rat.Floor
import RowMajor.Proofs.Operations.Reshape

/-!
# Dimensions that are derived

Of a list of dimensions at most one may be negative. It stands for what the number of elements
leaves for its axis: their quotient by the product of the other dimensions, rounded up if there
is something to fill the last row with, and rounded down if not. No quotient can be had if that
product is zero, and it cannot be told which axis is meant if there are more negative dimensions
than one. Of all other lists there is just one shape that they ask for.
-/

namespace RowMajor.Shape

variable {total : Nat} {roundUp : Bool} {dims : List Int} {old s t : Shape}

/-- The length of an axis that leaves room for so many elements beside the product of the other
axes, or for as many as make up whole rows. -/
def quotient (total : Nat) (others : Int) (roundUp : Bool) : Int :=
  if roundUp then ⌈(total / others : ℚ)⌉ else ⌊(total / others : ℚ)⌋

/-- The shape that dimensions ask for, given the number of elements. -/
inductive Resolves (total : Nat) (roundUp : Bool) : List Int → Shape → Prop
  | given {dims : List Int} (natural : Natural dims) : Resolves total roundUp dims dims
  | derived {front back : List Int} {d : Int} (negative : d < 0)
      (natural : Natural (front ++ back)) (nonzero : size (front ++ back) ≠ 0) :
      Resolves total roundUp (front ++ d :: back)
        (front ++ quotient total (size (front ++ back)) roundUp :: back)

/-- No shape can be derived: two or more dimensions are negative, or one is and the product of the
others is zero. -/
def Underivable (dims : List Int) : Prop :=
  2 ≤ dims.countP (· < 0) ∨
    ∃ (front back : List Int) (d : Int), dims = front ++ d :: back ∧ d < 0 ∧
      Natural (front ++ back) ∧ size (front ++ back) = 0

/-- Elements, if there are any, cannot be laid out under the dimensions: no shape can be derived,
or there is none and nothing to fill with, and the shape asks for some. -/
def Unfit (total : Nat) (filled : Bool) (dims : List Int) : Prop :=
  Underivable dims ∨
    (total = 0 ∧ filled = false ∧ ∃ s, Resolves total filled dims s ∧ 0 ∉ s)

/-- Before dividing, one less than the divisor is added instead of what is missing. -/
theorem add_pred_ediv {n : Int} (positive : 0 < n) (m : Int) : (m + n - 1) / n = -(-m / n) := by
  have whole := Int.mul_ediv_add_emod (-m) n
  have nonneg := Int.emod_nonneg (-m) (Int.ne_of_gt positive)
  have below := Int.emod_lt_of_pos (-m) positive
  have parts : n - 1 - -m % n + n * -(-m / n) = m + n - 1 := by
    rw [Int.mul_neg]
    omega
  exact ((Int.ediv_emod_unique positive).mpr ⟨parts, by omega, by omega⟩).1

theorem derivedLength_eq {others : Int} (positive : 0 < others) (roundUp : Bool) :
    derivedLength total others roundUp = quotient total others roundUp := by
  obtain ⟨n, rfl⟩ := Int.eq_ofNat_of_zero_le (Int.le_of_lt positive)
  rw [derivedLength, quotient]
  cases roundUp with
  | false => exact (Rat.floor_intCast_div_natCast total n).symm
  | true => exact (add_pred_ediv positive total).trans (Rat.ceil_intCast_div_natCast total n).symm

theorem countP_negative_eq_zero : dims.countP (· < 0) = 0 ↔ Natural dims := by
  rw [List.countP_eq_zero]
  refine forall₂_congr fun d _ => ?_
  rw [decide_eq_true_eq, Int.not_lt]

section

variable {front back : List Int} {d : Int} (negative : d < 0)
include negative

theorem countP_negative_derived :
    (front ++ d :: back).countP (· < 0) = (front ++ back).countP (· < 0) + 1 := by
  rw [List.countP_append, List.countP_append, List.countP_cons, if_pos (decide_eq_true negative)]
  rfl

variable (natural : Natural (front ++ back))
include natural

theorem filter_derived : (front ++ d :: back).filter (0 ≤ ·) = front ++ back := by
  have out : ¬ decide (0 ≤ d) = true := by simpa using negative
  rw [List.filter_append, List.filter_cons, if_neg out, ← List.filter_append]
  exact List.filter_eq_self.mpr fun e mem => decide_eq_true (natural e mem)

theorem map_derived (length : Int) :
    (front ++ d :: back).map (fun e => if e < 0 then length else e) = front ++ length :: back := by
  obtain ⟨first, last⟩ := natural_append.mp natural
  have stays {ds : List Int} (natural : Natural ds) :
      ds.map (fun e => if e < 0 then length else e) = ds :=
    (List.map_congr_left fun e mem => if_neg (Int.not_lt.mpr (natural e mem))).trans
      (List.map_id ds)
  rw [List.map_append, List.map_cons, if_pos negative, stays first, stays last]

end

theorem exists_negative (one : dims.countP (· < 0) = 1) :
    ∃ (front back : List Int) (d : Int), dims = front ++ d :: back ∧ d < 0 ∧
      Natural (front ++ back) := by
  have some : 0 < dims.countP (· < 0) := one ▸ Nat.one_pos
  obtain ⟨d, mem, negative⟩ := List.countP_pos_iff.mp some
  obtain ⟨front, back, rfl⟩ := List.append_of_mem mem
  have negative := of_decide_eq_true negative
  rw [countP_negative_derived negative] at one
  exact ⟨front, back, d, rfl, negative, countP_negative_eq_zero.mp (Nat.succ.inj one)⟩

/-- Every list of dimensions asks for a shape or cannot be derived. -/
theorem resolves_or_underivable (total : Nat) (roundUp : Bool) (dims : List Int) :
    (∃ s, Resolves total roundUp dims s) ∨ Underivable dims := by
  match count : dims.countP (· < 0) with
  | 0 => exact .inl ⟨dims, .given (countP_negative_eq_zero.mp count)⟩
  | 1 =>
      obtain ⟨front, back, d, rfl, negative, natural⟩ := exists_negative count
      by_cases zero : size (front ++ back) = 0
      · exact .inr (.inr ⟨front, back, d, rfl, negative, natural, zero⟩)
      · exact .inl ⟨_, .derived negative natural zero⟩
  | n + 2 => exact .inr (.inl (count ▸ Nat.le_add_left 2 n))

theorem Resolves.derive_eq (h : Resolves total roundUp dims s) (size : old.size = Int.ofNat total) :
    old.derive dims roundUp = .ok s := by
  cases h with
  | given natural =>
      rw [derive, countP_negative_eq_zero.mpr natural]
      rfl
  | derived negative natural nonzero =>
      have positive := lt_of_le_of_ne (size_nonneg natural) (Ne.symm nonzero)
      rw [derive, countP_negative_derived negative, countP_negative_eq_zero.mpr natural,
        Nat.zero_add]
      simp only [filter_derived negative natural, if_neg nonzero, map_derived negative natural,
        size, Int.ofNat_eq_natCast, derivedLength_eq positive]

theorem Underivable.derive_eq (h : Underivable dims) (old : Shape) (roundUp : Bool) :
    ∃ cause, old.derive dims roundUp = .error (.shape cause) := by
  rcases h with several | ⟨front, back, d, rfl, negative, natural, zero⟩
  · obtain ⟨n, count⟩ := Nat.exists_eq_add_of_le' several
    refine ⟨.severalDerived (n + 2), ?_⟩
    rw [derive, count]
    rfl
  · rw [derive, countP_negative_derived negative, countP_negative_eq_zero.mpr natural,
      Nat.zero_add]
    simp only [filter_derived negative natural, if_pos zero]
    exact ⟨_, rfl⟩

/-- Deriving finds the shape, and fails if there is none. -/
theorem derive_spec (size : old.size = Int.ofNat total) (dims : List Int) (roundUp : Bool) :
    Outcome (Resolves total roundUp dims)
      (fun e => Underivable dims ∧ ∃ cause, e = .shape cause) (old.derive dims roundUp) := by
  obtain ⟨s, resolves⟩ | none := resolves_or_underivable total roundUp dims
  · rw [resolves.derive_eq size]
    exact resolves
  · obtain ⟨cause, refused⟩ := none.derive_eq old roundUp
    rw [refused]
    exact ⟨none, cause, rfl⟩

theorem Resolves.not_underivable (h : Resolves total roundUp dims s) : ¬ Underivable dims := by
  intro none
  obtain ⟨cause, refused⟩ := none.derive_eq [Int.ofNat total] roundUp
  cases refused.symm.trans (h.derive_eq (Int.mul_one _))

/-- Dimensions ask for one shape only. -/
theorem Resolves.unique (h : Resolves total roundUp dims s) (h' : Resolves total roundUp dims t) :
    s = t := by
  have size : Shape.size [Int.ofNat total] = Int.ofNat total := Int.mul_one _
  exact Except.ok.inj ((h.derive_eq size).symm.trans (h'.derive_eq size))

theorem Resolves.natural (h : Resolves total roundUp dims s) : s.Natural := by
  have old : Natural [Int.ofNat total] :=
    (natural_cons ..).mpr ⟨Int.natCast_nonneg total, natural_nil⟩
  have derived : Yields Natural (derive [Int.ofNat total] dims roundUp) :=
    derive_yields old dims roundUp
  rwa [h.derive_eq (Int.mul_one _)] at derived

theorem size_eq_zero_iff : size s = 0 ↔ 0 ∈ s := by
  induction s with
  | nil => exact iff_of_false (by decide) List.not_mem_nil
  | cons d s ih => rw [size_cons, Int.mul_eq_zero, ih, List.mem_cons, eq_comm]

theorem volume_eq_zero_iff (natural : s.Natural) : s.volume = 0 ↔ 0 ∈ s := by
  rw [volume, ← size_eq_zero_iff]
  have nonneg := size_nonneg natural
  omega

theorem underivable_iff :
    Underivable dims ↔
      2 ≤ dims.countP (· < 0) ∨ (dims.countP (· < 0) = 1 ∧ 0 ∈ dims) := by
  refine or_congr_right ⟨?_, ?_⟩
  · rintro ⟨front, back, d, rfl, negative, natural, zero⟩
    rw [countP_negative_derived negative, countP_negative_eq_zero.mpr natural]
    exact ⟨rfl, (List.sublist_cons_self d back).append_left front |>.mem (size_eq_zero_iff.mp zero)⟩
  · rintro ⟨one, mem⟩
    obtain ⟨front, back, d, rfl, negative, natural⟩ := exists_negative one
    have others : 0 ∈ front ++ back := by
      simpa [Int.ne_of_gt negative] using mem
    exact ⟨front, back, d, rfl, negative, natural, size_eq_zero_iff.mpr others⟩

/-- If there are no elements, a derived axis has length zero. -/
theorem exists_resolves_iff :
    (∃ s, Resolves 0 false dims s ∧ 0 ∉ s) ↔ dims.countP (· < 0) = 0 ∧ 0 ∉ dims := by
  constructor
  · rintro ⟨s, resolves, positive⟩
    cases resolves with
    | given natural => exact ⟨countP_negative_eq_zero.mpr natural, positive⟩
    | derived negative natural nonzero =>
        refine absurd (List.mem_append_right _ (List.mem_cons.mpr (.inl ?_))) positive
        simp [quotient]
  · rintro ⟨none, positive⟩
    exact ⟨dims, .given (countP_negative_eq_zero.mp none), positive⟩

section

variable {dims' : List Int}

section

variable (signs : List.Forall₂ (fun d e => (e < 0 ↔ d < 0) ∧ (e = 0 ↔ d = 0)) dims dims')
include signs

theorem countP_negative_congr : dims.countP (· < 0) = dims'.countP (· < 0) := by
  induction signs with
  | nil => rfl
  | cons sign _ ih => rw [List.countP_cons, List.countP_cons, ih, decide_eq_decide.mpr sign.1]

theorem zero_mem_congr : 0 ∈ dims ↔ 0 ∈ dims' := by
  induction signs with
  | nil => exact Iff.rfl
  | cons sign _ ih => rw [List.mem_cons, List.mem_cons, ih, eq_comm, ← sign.2, eq_comm]

/-- Whether dimensions fit depends on their signs only. -/
theorem unfit_congr {filled : Bool} : Unfit total filled dims ↔ Unfit total filled dims' := by
  have negatives := countP_negative_congr signs
  have zeros := zero_mem_congr signs
  refine or_congr ?_ ?_
  · rw [underivable_iff, underivable_iff, negatives, zeros]
  · refine and_congr_right fun empty => and_congr_right fun missing => ?_
    rw [empty, missing, exists_resolves_iff, exists_resolves_iff, negatives, zeros]

end

/-- A shape has the dimensions that are not negative. -/
theorem Resolves.keeps (h : Resolves total roundUp dims s) :
    List.Forall₂ (fun d e => 0 ≤ d → e = d) dims s := by
  cases h with
  | given => exact List.forall₂_same.mpr fun _ _ _ => rfl
  | derived negative =>
      refine List.rel_append (List.forall₂_same.mpr fun _ _ _ => rfl) (.cons ?_ ?_)
      · exact fun nonneg => absurd negative (Int.not_lt.mpr nonneg)
      · exact List.forall₂_same.mpr fun _ _ _ => rfl

theorem eq_of_agree (agree : List.Forall₂ (fun d e => e = d ∨ (d < 0 ∧ e < 0)) dims dims')
    (natural : Natural dims') : dims' = dims := by
  induction agree with
  | nil => rfl
  | cons first _ ih =>
      obtain ⟨nonneg, rest⟩ := (natural_cons ..).mp natural
      rw [ih rest, first.resolve_right fun both => Int.not_lt.mpr nonneg both.2]

/-- Which negative number stands for an axis that is derived does not matter. -/
theorem Resolves.of_agree (h : Resolves total roundUp dims' s)
    (agree : List.Forall₂ (fun d e => e = d ∨ (d < 0 ∧ e < 0)) dims dims') :
    Resolves total roundUp dims s := by
  cases h with
  | given natural =>
      obtain rfl := eq_of_agree agree natural
      exact .given natural
  | @derived front back e negative natural nonzero =>
      obtain ⟨first, last⟩ := natural_append.mp natural
      have split := List.take_append_drop front.length dims
      have before := eq_of_agree (List.forall₂_take_append _ _ _ agree) first
      obtain ⟨d, rest, here, after, tail⟩ :=
        List.forall₂_cons_right_iff.mp (List.forall₂_drop_append _ _ _ agree)
      have after := eq_of_agree after last
      have placeholder : d < 0 := here.elim (fun same => same ▸ negative) And.left
      rw [← split, tail, ← before, ← after]
      exact .derived placeholder natural nonzero

end

end RowMajor.Shape
