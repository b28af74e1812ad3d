import Mathlib.Data.List.Forall2
import Mathlib.Data.List.Zip
import RowMajor.Proofs.Operations.Windows
import RowMajor.Search.Find

/-!
# Room for a needle

A window has room in a haystack if there is a corner for every step that it can be moved along
each axis. Then all places of the windows lie in the haystack, and it makes no difference whether
the elements of a window are gathered before they are compared, as codes are, or read one by one
while they are compared, as is done for keys. Both come to `matchWindows`.
-/

namespace RowMajor.Search

/-- There is a corner for every step that the window can be moved along each axis, which may be
none. -/
theorem natural_corners {s window : Shape} (room : List.Forall₂ (fun w d => w ≤ d + 1) window s) :
    (s.corners window).Natural := by
  induction room with
  | nil => exact Shape.natural_nil
  | @cons w d window s steps _ ih =>
      have corners : 0 ≤ d + 1 - w := by omega
      exact (Shape.natural_cons ..).mpr ⟨corners, ih⟩

theorem room_for_ones {s : Shape} (h : s.Natural) :
    List.Forall₂ (fun w d => w ≤ d + 1) (List.replicate s.length 1) s := by
  induction s with
  | nil => exact .nil
  | cons d s ih =>
      obtain ⟨length, natural⟩ := (Shape.natural_cons d s).mp h
      exact .cons (by omega) (ih natural)

theorem forall₂_take_iff {α : Type} {R : α → α → Prop} {l m : List α}
    (length : l.length ≤ m.length) :
    List.Forall₂ R l (m.take l.length) ↔ ∀ p ∈ l.zip m, R p.1 p.2 := by
  induction l generalizing m with
  | nil => simp
  | cons x l ih =>
      cases m with
      | nil => cases length
      | cons y m =>
          rw [List.length_cons, List.take_succ_cons, List.forall₂_cons, List.zip_cons_cons,
            List.forall_mem_cons, ih (Nat.le_of_succ_le_succ length)]

/-- No axis of the needle is longer than the one of the haystack that it is aligned with from the
last, and every one of them is aligned with some. -/
def FitsIn (needle haystack : Shape) : Prop :=
  List.Forall₂ (· ≤ ·) needle (haystack.drop (haystack.length - needle.length))

theorem exceeds_eq_false_iff {needle haystack : Shape} :
    exceeds needle haystack = false ↔ FitsIn needle haystack := by
  rw [exceeds, Bool.or_eq_false_iff, decide_eq_false_iff_not, Nat.not_lt]
  by_cases length : needle.length ≤ haystack.length
  · have aligned : FitsIn needle haystack ↔
        ∀ p ∈ needle.reverse.zip haystack.reverse, p.1 ≤ p.2 := by
      have lengths : needle.reverse.length ≤ haystack.reverse.length := by simpa using length
      have reversed := forall₂_take_iff (R := (· ≤ ·)) lengths
      rw [List.length_reverse] at reversed
      rw [FitsIn, ← List.forall₂_reverse_iff, List.reverse_drop, Nat.sub_sub_self length, reversed]
    rw [aligned, and_iff_right length, List.any_eq_false]
    refine forall₂_congr fun p _ => ?_
    rw [decide_eq_true_eq, Int.not_lt]
  · refine iff_of_false (fun h => length h.1) fun fits => ?_
    have same := fits.length_eq
    rw [List.length_drop] at same
    omega

/-- A needle that fits into the haystack has room in it. -/
theorem room_of_fitsIn {needle haystack : Shape} (natural : haystack.Natural)
    (fits : FitsIn needle haystack) :
    List.Forall₂ (fun w d => w ≤ d + 1) (padShape haystack.length needle) haystack := by
  have last : List.Forall₂ (fun w d => w ≤ d + 1) needle
      (haystack.drop (haystack.length - needle.length)) := fits.imp fun _ _ => Int.le_add_one
  have first := room_for_ones (natural.take (haystack.length - needle.length))
  rw [List.length_take, Nat.min_eq_left (Nat.sub_le ..)] at first
  have both : List.Forall₂ (fun w d => w ≤ d + 1) (padShape haystack.length needle)
      (haystack.take (haystack.length - needle.length) ++
        haystack.drop (haystack.length - needle.length)) := List.rel_append first last
  rwa [List.take_append_drop] at both

/-- The needle has room in the common shape. -/
theorem room_of_max {s t : Shape} (length : s.length = t.length) :
    List.Forall₂ (fun w d => w ≤ d + 1) t (s.zipWith max t) := by
  induction s generalizing t with
  | nil =>
      obtain rfl := List.length_eq_zero_iff.mp length.symm
      exact .nil
  | cons d s ih =>
      cases t with
      | nil => cases length
      | cons w t => exact .cons (by omega) (ih (Nat.succ.inj length))

theorem length_padShape {rank : Nat} {s : Shape} (h : s.length ≤ rank) :
    (padShape rank s).length = rank := by
  rw [padShape, List.length_append, List.length_replicate]
  exact Nat.sub_add_cancel h

theorem natural_zipWith_max {s t : Shape} (hs : s.Natural) : Shape.Natural (s.zipWith max t) := by
  intro d hd
  obtain ⟨i, hi, rfl⟩ := List.getElem_of_mem hd
  rw [List.getElem_zipWith]
  exact Int.le_trans (hs _ (List.getElem_mem _)) (Int.le_max_left ..)

theorem commonShape_natural {s t : Shape} (hs : s.Natural) : (commonShape s t).Natural :=
  natural_zipWith_max ((Shape.natural_replicate_one _).append hs)

theorem length_commonShape (s t : Shape) :
    (commonShape s t).length = max s.length t.length := by
  rw [commonShape, List.length_zipWith, length_padShape (Nat.le_max_left ..),
    length_padShape (Nat.le_max_right ..), Nat.min_self]

theorem length_commonShape_of_le {s t : Shape} (h : t.length ≤ s.length) :
    (commonShape s t).length = s.length := by
  rw [length_commonShape, Nat.max_eq_left h]

theorem rank_le_commonShape (s t : Shape) : s.length ≤ (commonShape s t).length :=
  length_commonShape s t ▸ Nat.le_max_left ..

theorem room_in_commonShape (needle haystack : Shape) :
    List.Forall₂ (fun w d => w ≤ d + 1)
      (padShape (commonShape haystack needle).length needle) (commonShape haystack needle) := by
  have padded : (padShape (max haystack.length needle.length) haystack).length =
      (padShape (max haystack.length needle.length) needle).length := by
    rw [length_padShape (Nat.le_max_left ..), length_padShape (Nat.le_max_right ..)]
  rw [length_commonShape]
  exact room_of_max padded

variable {α κ : Type} [DecidableEq κ] {needle haystack : Grid κ}

/-- One for every window of the haystack that equals the needle, zero for the others. -/
def matchWindows (needle haystack : Grid κ) : Grid Nat :=
  markWindows needle haystack fun spots =>
    ((haystack.gather spots).zip needle.items).all fun (x, y) => decide (x = y)

/-- Tests that agree on the places of every window mark the same windows. -/
theorem markWindows_congr {needle haystack : Grid α} {test test' : List Nat → Bool}
    (same : ∀ spots, (∀ i ∈ spots, i ∈ haystack.shape.windowOffsets
      (padShape haystack.rank needle.shape)) → test spots = test' spots) :
    markWindows needle haystack test = markWindows needle haystack test' := by
  refine congrArg (Grid.mk _) (List.map_congr_left fun spots mem => ?_)
  rw [same spots fun i hi => mem_of_mem_pieces mem hi]

/-- Whether the codes of the needle or those of the window come first makes no difference. -/
theorem matchCodes_eq (needle haystack : Grid Int) :
    matchCodes needle haystack = matchWindows needle haystack := by
  refine markWindows_congr fun spots _ => ?_
  rw [sameCodes, ← List.zip_swap, List.all_map, Bool.eq_iff_iff, List.all_eq_true,
    List.all_eq_true]
  refine forall₂_congr fun pair _ => ?_
  rw [Function.comp_apply, beq_iff_eq, decide_eq_true_eq]
  exact eq_comm

theorem gather_map {β : Type} (f : α → β) (places : List Nat) (a : Grid α) :
    (a.map f).gather places = (a.gather places).map f := by
  simp only [Grid.gather, Grid.items_map, List.getElem?_map, List.map_filterMap]

/-- Elements that are all there may be compared one by one as they are looked up. -/
theorem all_zip_gather {items : List κ} {spots : List Nat}
    (there : ∀ i ∈ spots, i < haystack.items.length) :
    ((haystack.gather spots).zip items).all (fun (x, y) => decide (x = y)) =
      (spots.zip items).all fun (i, y) => decide (haystack.items[i]? = some y) := by
  induction spots generalizing items with
  | nil => rfl
  | cons i spots ih =>
      obtain ⟨here, rest⟩ := List.forall_mem_cons.mp there
      have found := List.getElem?_eq_getElem here
      cases items with
      | nil => simp only [List.zip_nil_right, List.all_nil]
      | cons y items =>
          have step : haystack.gather (i :: spots) =
              haystack.items[i] :: haystack.gather spots := List.filterMap_cons_some found
          rw [step, List.zip_cons_cons, List.zip_cons_cons, List.all_cons, List.all_cons, ih rest]
          simp only [found, Option.some.injEq]

theorem matchKeys_eq {f : Form} {needle haystack : Grid f.Element} (wf : haystack.WellFormed)
    (length : (padShape haystack.rank needle.shape).length = haystack.rank) :
    matchKeys f needle haystack = matchWindows (needle.map f.key) (haystack.map f.key) := by
  have counted : (needle.map f.key).items.length = needle.items.length := List.length_map _
  rw [matchWindows, markWindows, counted]
  refine markWindows_congr fun spots mem => ?_
  have there : ∀ i ∈ spots, i < (haystack.map f.key).items.length := by
    intro i hi
    rw [Grid.items_map, List.length_map, wf.length_eq]
    exact Shape.lt_of_mem_windowOffsets wf.natural length (mem i hi)
  rw [all_zip_gather there]
  simp only [Grid.items_map, List.getElem?_map]

/-- Where the needle has room, there is one mark for every corner. -/
theorem matchWindows_holds
    (room : List.Forall₂ (fun w d => w ≤ d + 1) (padShape haystack.rank needle.shape)
      haystack.shape) : (matchWindows needle haystack).Holds (· ≤ 1) := by
  have corners := natural_corners room
  refine Grid.holds_mk corners ?_ fun n hn => ?_
  · rw [List.length_map, length_pieces, Shape.cellCount_eq_volume corners]
  · obtain ⟨spots, -, rfl⟩ := List.mem_map.mp hn
    exact Bool.toNat_le _

end RowMajor.Search
