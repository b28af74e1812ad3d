import RowMajor.Proofs.Search.Answers

/-!
# Searching yields well-formed values

Every query is answered once. A truth value goes into a byte, and so does the mark of a window. A
position becomes a number, and that fails only if there are more rows than any number counts. Codes
give the same answers as keys, which is why only keys are looked at here. A needle is compared at
the corners where it fits, and there are such corners because it exceeds the haystack along no axis.
-/

namespace RowMajor

namespace Search

variable {k : Kind}

theorem findIn_yields {needle haystack : Grid k.Element} (wf : haystack.WellFormed)
    (room : List.Forall₂ (fun w d => w ≤ d + 1) (padShape haystack.rank needle.shape)
      haystack.shape) :
    Yields (Grid.Holds (· ≤ 1))
      (Grid.fit .byte (findIn .keysOnly (.uniform k) needle haystack)) := by
  have marks : (matchWindows (needle.map k.key) (haystack.map k.key)).Holds (· ≤ 1) :=
    matchWindows_holds room
  rw [findIn_keysOnly wf room]
  exact marks.fit

/-- A mark is a truth value. -/
theorem find_yields {fill : Option k.Element} {needle haystack : Grid k.Element}
    (wf : haystack.WellFormed) :
    Yields (Grid.Holds (· ≤ 1)) (find .keysOnly (.uniform k) fill needle haystack) := by
  unfold find
  split
  · cases fill with
    | none =>
        have unmarked : Fills (· ≤ 1) haystack.items.length
            (List.replicate haystack.items.length 0) := by
          refine fills_replicate ?_ _
          exact Nat.zero_le 1
        exact (unmarked.cast wf.length_eq).holds wf.natural
    | some x =>
        refine (Grid.resize_yields wf.holds_trivial (commonShape_natural wf.natural)
          trivial).bind fun padded common => findIn_yields common.1.wellFormed ?_
        rw [Grid.rank, common.2]
        exact room_in_commonShape needle.shape haystack.shape
  · rename_i within
    have fits := exceeds_eq_false_iff.mp (Bool.eq_false_iff.mpr within)
    exact findIn_yields wf (room_of_fitsIn wf.natural fits)

end Search

variable {a b : Value} {fill : Fill}

theorem member_yields (ha : a.WellFormed) (hb : b.WellFormed) (options : Search.Options) :
    Yields Value.WellFormed (member (.value a) (.value b) options) := by
  have met := Value.unify_wellFormed .members ha hb
  have asked : member (.value a) (.value b) options =
      Value.searchRows .member .members options a b := rfl
  cases unified : Value.unify .members a b with
  | error e =>
      rw [asked, Value.searchRows, unified]
      rwa [unified] at met
  | ok both =>
      rw [unified] at met
      have first := met.first.wellFormed
      have second := met.second.wellFormed
      rw [asked, Value.searchRows_of_unify ha hb unified, Search.given_member first second]
      exact .byte ((Search.exactAnswers_wellFormed .member first second).map _)

/-- Where positions are asked for, the operands may also be refused because there are more rows than
any number counts. -/
def PositionsRefused (a b : Value) (e : Error) : Prop :=
  e.IsRefusal ∨ e = .tooLarge ∧ Binary64.rounded? (Search.searchedCount a.shape b.shape) = none

theorem searchRows_outcome {question : Search.Question} (asked : question ≠ .member)
    (pairing : Pairing) (ha : a.WellFormed) (hb : b.WellFormed) (options : Search.Options) :
    Outcome Value.WellFormed (PositionsRefused a b)
      (Value.searchRows question pairing options a b) := by
  have met := Value.unify_wellFormed pairing ha hb
  cases unified : Value.unify pairing a b with
  | error e =>
      rw [Value.searchRows, unified]
      rw [unified] at met
      exact .inl met
  | ok both =>
      rw [unified] at met
      obtain ⟨first, second⟩ := Value.shapes_of_unify ha hb unified
      have out := Search.given_outcome (f := both.form) asked met.first.wellFormed
        met.second.wellFormed
      rw [first, second] at out
      rw [Value.searchRows_of_unify ha hb unified]
      exact out.mono (fun _ wf => wf) fun _ large => .inr large

theorem indexOf_outcome (ha : a.WellFormed) (hb : b.WellFormed) (options : Search.Options) :
    Outcome Value.WellFormed (PositionsRefused a b) (indexOf (.value a) (.value b) options) :=
  searchRows_outcome (by decide) .indices ha hb options

theorem indexOf_of_large {f : Form} {x y : Grid f.Element} (hx : (Value.ofGrid f x).WellFormed)
    (hy : (Value.ofGrid f y).WellFormed) (early : Search.CountStored x.shape y.shape)
    (large : Binary64.rounded? y.rowCount = none) (options : Search.Options) :
    indexOf (.value (.ofGrid f x)) (.value (.ofGrid f y)) options = .error .tooLarge := by
  have wf := (Value.wellFormed_ofGrid_iff.mp hx).2.wellFormed
  rw [indexOf_ofGrid hx hy options]
  exact Search.given_of_large (by decide) wf early large

theorem progressiveIndexOf_outcome (ha : a.WellFormed) (hb : b.WellFormed)
    (options : Search.Options) :
    Outcome Value.WellFormed (PositionsRefused a b)
      (progressiveIndexOf (.value a) (.value b) options) :=
  searchRows_outcome (by decide) .indices ha hb options

theorem find_yields (ha : a.WellFormed) (hb : b.WellFormed) (hf : fill.WellFormed)
    (options : Search.Options) :
    Yields Value.WellFormed (find (.value a) (.value b) fill options) := by
  show Yields Value.WellFormed (Value.find options fill a b)
  rw [Value.find_eq options hf ha hb]
  apply (Value.unify_wellFormed .find ha hb).bind
  intro both wf
  rw [Unified.loosenFor_eq hf wf]
  obtain ⟨f, first, second⟩ := both
  cases f with
  | mixed k => exact absurd wf.isUniform (Form.not_isUniform_mixed k)
  | uniform k =>
      apply (Search.find_yields wf.second.wellFormed).bind
      intro marks h
      exact .byte (h.wellFormed.map _)

end RowMajor
