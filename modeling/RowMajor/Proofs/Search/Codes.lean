import RowMajor.Proofs.Binary64.Magnitudes
import RowMajor.Search.Rows

/-!
# Codes tell elements apart as keys do

The code of an element is a function of the element wherever there is one, and elements of
one kind that have codes have the same code exactly if they have the same key. Rows of
codes that are equally long then agree in every column exactly if the rows of keys are
equal.
-/

namespace RowMajor

namespace Kind

/-- The integer that stands for an element. It tells elements apart only where they have codes. -/
def code : (k : Kind) → k.Element → Int
  | .number, x => x.truncate
  | .byte, b => Int.ofNat b.toNat
  | .character, c => Int.ofNat c.toNat
  | .complex, _ => 0
  | .box, _ => 0

def HasCode : (k : Kind) → k.Element → Prop
  | .number, x => x.toInt? = some x.truncate
  | .byte, _ => True
  | .character, _ => True
  | .complex, _ => False
  | .box, _ => False

theorem numberCode?_eq_some_iff {x : Binary64} {n : Int} :
    numberCode? x = some n ↔ x.toInt? = some n ∧ inCodeRange n := by
  rw [numberCode?, Option.bind_eq_some_iff]
  constructor
  · rintro ⟨m, whole, coded⟩
    obtain ⟨ranged, same⟩ := Option.ite_none_right_eq_some.mp coded
    obtain rfl := Option.some.inj same
    exact ⟨whole, ranged⟩
  · rintro ⟨whole, ranged⟩
    exact ⟨n, whole, if_pos ranged⟩

theorem numberCode?_eq_some {x : Binary64} {n : Int} (h : numberCode? x = some n) :
    x.toInt? = some n ∧ n = x.truncate := by
  have whole := (numberCode?_eq_some_iff.mp h).1
  exact ⟨whole, (Binary64.truncate_of_toInt? whole).symm⟩

/-- The codes of a list are those of its elements. -/
theorem codes?_eq_some {k : Kind} {items : List k.Element} {codes : List Int}
    (h : k.codes? items = some codes) :
    codes = items.map k.code ∧ ∀ x ∈ items, k.HasCode x := by
  cases k with
  | complex => cases h
  | box => cases h
  | byte => exact ⟨(Option.some.inj h).symm, fun _ _ => trivial⟩
  | character => exact ⟨(Option.some.inj h).symm, fun _ _ => trivial⟩
  | number =>
      simp only [codes?] at h
      induction items generalizing codes with
      | nil => exact ⟨(Option.some.inj h).symm, fun _ hx => absurd hx List.not_mem_nil⟩
      | cons x items ih =>
          rw [List.mapM_cons] at h
          obtain ⟨n, first, h⟩ := Option.bind_eq_some_iff.mp h
          obtain ⟨rest, others, h⟩ := Option.bind_eq_some_iff.mp h
          obtain ⟨integral, rfl⟩ := numberCode?_eq_some first
          obtain ⟨rfl, coded⟩ := ih others
          refine ⟨(Option.some.inj h).symm, fun y hy => ?_⟩
          rcases List.mem_cons.mp hy with rfl | hy
          · exact integral
          · exact coded y hy

theorem code_eq_iff {k : Kind} {x y : k.Element} (hx : k.HasCode x) (hy : k.HasCode y) :
    k.code x = k.code y ↔ k.key x = k.key y := by
  cases k with
  | complex => cases hx
  | box => cases hx
  | number =>
      have same := Binary64.toInt?_eq_iff hx hy
      simpa only [code, key, Key.real.injEq] using same
  | byte =>
      simp only [code, key, Key.ofByte, Key.real.injEq, Binary64.ofByte_inj]
      exact Int.ofNat_inj.trans UInt8.toNat_inj
  | character =>
      simp only [code, key, Key.character.injEq]
      exact Int.ofNat_inj.trans Char.toNat_inj

end Kind

namespace Search

variable {α κ : Type} [DecidableEq κ] {code : α → Int} {key : α → κ}

/-- Rows of one length have the same codes in every column exactly if their keys are equal. -/
theorem sameCodes_map {xs ys : List α} (length : xs.length = ys.length)
    (faithful : ∀ x ∈ xs, ∀ y ∈ ys, code x = code y ↔ key x = key y) :
    sameCodes (xs.map code) (ys.map code) = decide (xs.map key = ys.map key) := by
  induction xs generalizing ys with
  | nil =>
      obtain rfl := List.length_eq_zero_iff.mp length.symm
      rfl
  | cons x xs ih =>
      cases ys with
      | nil => cases length
      | cons y ys =>
          have head := faithful x List.mem_cons_self y List.mem_cons_self
          have tail := ih (Nat.succ.inj length) fun u hu v hv =>
            faithful u (List.mem_cons_of_mem _ hu) v (List.mem_cons_of_mem _ hv)
          simp only [sameCodes] at tail
          simp only [sameCodes, List.map_cons, List.zip_cons_cons, List.all_cons, tail,
            List.cons.injEq, Bool.decide_and, ← head]
          rfl

end Search

end RowMajor
