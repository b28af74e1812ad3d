import RowMajor.Operand.Equality
import RowMajor.Proofs.Search.Windows
import RowMajor.Proofs.Value.Bytes

/-!
# Bytes and numbers

A search sees only the keys of its operands and of the fill element, and a byte has the key
of the number that stands for it. So a block is found among bytes where it is found among
the numbers, as long as both are filled alike. They are not where the needle does not fit and
the fill value is a number but not a byte: bytes are not promoted for it, so the needle is
nowhere among them, and their haystack keeps its shape where the one of numbers is resized.
-/

namespace RowMajor

namespace Search

section

variable {f g : Form} {x : Option f.Element} {y : Option g.Element}
  {needle haystack : Grid f.Element} {needle' haystack' : Grid g.Element}

/-- Operands with the same keys are searched alike, if they are filled alike where they have to
be filled. -/
theorem find_congr_keys (hh : haystack.WellFormed) (hh' : haystack'.WellFormed)
    (needles : needle.map f.key = needle'.map g.key)
    (haystacks : haystack.map f.key = haystack'.map g.key)
    (fills : ¬ FitsIn needle.shape haystack.shape → x.map f.key = y.map g.key) :
    find .keysOnly f x needle haystack = find .keysOnly g y needle' haystack' := by
  have needleShapes : needle.shape = needle'.shape := congrArg Grid.shape needles
  have shapes : haystack.shape = haystack'.shape := congrArg Grid.shape haystacks
  by_cases fits : FitsIn needle.shape haystack.shape
  · rw [find_of_fitsIn hh fits,
      find_of_fitsIn hh' (needleShapes ▸ shapes ▸ fits), needles, haystacks]
  · have apart : ¬ FitsIn needle'.shape haystack'.shape := needleShapes ▸ shapes ▸ fits
    cases x with
    | none =>
        obtain rfl : y = none := Option.map_eq_none_iff.mp (fills fits).symm
        rw [find_without_fill fits, find_without_fill apart, hh.length_eq, hh'.length_eq, shapes]
    | some x =>
        obtain ⟨y, rfl, same⟩ := Option.map_eq_some_iff.mp (fills fits).symm
        rw [find_with_fill hh fits, find_with_fill hh' apart, Grid.map_padTo, Grid.map_padTo,
          needles, haystacks, same, shapes, needleShapes]

end

/-- Along every axis one of the two has length one, and the other is not empty. Missing leading
axes of the needle count as axes of length one. -/
def Crossed (needle haystack : Shape) : Prop :=
  List.Forall₂ (fun w d => min w d = 1) (padShape haystack.length needle) haystack

theorem Crossed.length_le {needle haystack : Shape} (crossed : Crossed needle haystack) :
    needle.length ≤ haystack.length := by
  have lengths := crossed.length_eq
  rw [padShape, List.length_append] at lengths
  omega

theorem Crossed.one_le {needle haystack : Shape} (crossed : Crossed needle haystack) :
    ∀ d ∈ needle, 1 ≤ d := by
  have positive : ∀ d ∈ padShape haystack.length needle, 1 ≤ d := by
    rw [Crossed] at crossed
    generalize padShape haystack.length needle = window at crossed
    induction crossed with
    | nil => exact List.forall_mem_nil _
    | cons same _ ih => exact List.forall_mem_cons.mpr ⟨by omega, ih⟩
  exact fun d own => positive d (List.mem_append_right _ own)

theorem commonShape_of_le {needle haystack : Shape} (rank : needle.length ≤ haystack.length) :
    commonShape haystack needle = haystack.zipWith max (padShape haystack.length needle) := by
  simp only [commonShape, Nat.max_eq_left rank]
  rw [padShape, Nat.sub_self, List.replicate_zero, List.nil_append]

theorem corners_zipWith_max_eq_iff {s window : Shape} (length : window.length = s.length) :
    (Shape.corners (s.zipWith max window) window = s) ↔
      List.Forall₂ (fun w d => min w d = 1) window s := by
  induction s generalizing window with
  | nil =>
      obtain rfl := List.length_eq_zero_iff.mp length
      exact iff_of_true rfl .nil
  | cons d s ih =>
      cases window with
      | nil => cases length
      | cons w window =>
          have first : max d w + 1 - w = d ↔ min w d = 1 := by omega
          rw [List.forall₂_cons, ← ih (Nat.succ.inj length), ← first]
          exact List.cons.injEq .. ▸ Iff.rfl

/-- The resized haystack has as many corners along every axis as the haystack has places exactly
if the two cross. -/
theorem corners_commonShape_eq_iff {needle haystack : Shape} :
    (commonShape haystack needle).corners
        (padShape (commonShape haystack needle).length needle) = haystack ↔
      Crossed needle haystack := by
  have rank := length_commonShape haystack needle
  by_cases within : needle.length ≤ haystack.length
  · rw [rank, Nat.max_eq_left within, commonShape_of_le within]
    exact corners_zipWith_max_eq_iff (length_padShape within)
  · refine iff_of_false (fun same => ?_) fun crossed => within crossed.length_le
    have lengths := congrArg List.length same
    rw [Shape.length_corners (length_padShape (rank ▸ Nat.le_max_right ..)), rank] at lengths
    omega

/-- The last place of every axis. -/
def lastPlace (s : Shape) : List Nat :=
  s.map fun d => (d - 1).toNat

theorem lastPlace_mem_coordinates {s : Shape} (positive : ∀ d ∈ s, 1 ≤ d) :
    lastPlace s ∈ s.coordinates := by
  induction s with
  | nil => exact List.mem_singleton_self _
  | cons d s ih =>
      obtain ⟨here, below⟩ := List.forall_mem_cons.mp positive
      have last : (d - 1).toNat < d.toNat := by omega
      exact Shape.cons_mem_coordinates.mpr ⟨last, ih below⟩

/-- A window whose last place lies in the shape is no longer than it along any axis. -/
theorem forall₂_le_of_contains {s window : Shape} {corner : List Nat}
    (length : window.length = s.length) (rank : corner.length = s.length)
    (inside : s.contains (corner.zipWith (· + ·) (lastPlace window)) = true) :
    List.Forall₂ (· ≤ ·) window s := by
  induction s generalizing window corner with
  | nil =>
      obtain rfl := List.length_eq_zero_iff.mp length
      exact .nil
  | cons d s ih =>
      cases window with
      | nil => cases length
      | cons w window =>
          cases corner with
          | nil => cases rank
          | cons i corner =>
              obtain ⟨here, below⟩ := Shape.contains_cons.mp inside
              have last : i + (w - 1).toNat < d.toNat := here
              refine .cons ?_ (ih (Nat.succ.inj length) (Nat.succ.inj rank) below)
              omega

theorem fitsIn_of_padShape {needle haystack : Shape}
    (fits : List.Forall₂ (· ≤ ·) (padShape haystack.length needle) haystack) :
    FitsIn needle haystack := by
  have last := List.forall₂_drop (haystack.length - needle.length) fits
  have ones : (List.replicate (haystack.length - needle.length) (1 : Int)).length =
      haystack.length - needle.length := List.length_replicate ..
  rwa [padShape, List.drop_left' ones] at last

section

variable {κ : Type} {needle haystack : Grid κ} {x : κ} {corner : List Nat}

/-- A needle that is longer than the haystack along some axis, and empty along none, reaches the
fill element wherever it is compared. It begins nowhere if it has no such element. -/
theorem not_beginsAt_padTo (natural : haystack.shape.Natural) (rank : needle.rank ≤ haystack.rank)
    (positive : ∀ d ∈ needle.shape, 1 ≤ d) (apart : ¬ FitsIn needle.shape haystack.shape)
    (foreign : x ∉ needle.items)
    (mem : corner ∈ ((commonShape haystack.shape needle.shape).corners
      (padShape haystack.rank needle.shape)).coordinates) :
    ¬ BeginsAt needle (haystack.padTo (commonShape haystack.shape needle.shape) x) corner := by
  have ranks : (commonShape haystack.shape needle.shape).length = haystack.rank :=
    length_commonShape_of_le rank
  have length : (padShape haystack.rank needle.shape).length =
      (commonShape haystack.shape needle.shape).length := by
    rw [ranks]
    exact length_padShape rank
  have placed : corner.length = haystack.rank := by
    rw [Shape.length_of_mem_coordinates mem, Shape.length_corners length, ranks]
  have ones : ∀ d ∈ padShape haystack.rank needle.shape, 1 ≤ d := by
    intro d hd
    rcases List.mem_append.mp hd with leading | own
    · exact Int.le_of_eq (List.eq_of_mem_replicate leading).symm
    · exact positive d own
  -- the last element of the needle is compared with one outside of the haystack
  have last := lastPlace_mem_coordinates ones
  have within := Shape.mem_coordinates_iff.mpr (Shape.contains_corner_add_place length mem last)
  have outside : corner.zipWith (· + ·) (lastPlace (padShape haystack.rank needle.shape)) ∉
      haystack.shape.coordinates := by
    intro inside
    refine apart (fitsIn_of_padShape (forall₂_le_of_contains (length.trans ranks) placed ?_))
    exact (Shape.mem_coordinates_iff.mp inside).2
  intro begins
  rw [BeginsAt, Grid.rank, Grid.shape_padTo, ranks] at begins
  obtain ⟨y, found, own⟩ := begins _ last
  rw [Grid.get?_padTo_of_not_mem (commonShape_natural natural) ranks within outside] at found
  cases found
  have element : x ∈ (needle.withShape (padShape haystack.rank needle.shape)).items :=
    Grid.mem_of_get? own
  exact foreign element

theorem MarksWindows.eq_of_nowhere {marks : Grid UInt8}
    (marked : MarksWindows needle haystack marks)
    (nowhere : ∀ corner ∈ marks.shape.coordinates, ¬ BeginsAt needle haystack corner) :
    marks = .tabulate marks.shape fun _ => 0 := by
  have natural := marked.wellFormed.natural
  refine marked.wellFormed.ext (Grid.wellFormed_tabulate natural _) rfl fun corner mem => ?_
  rw [marked.zero corner mem (nowhere corner mem), Grid.get?_tabulate natural mem]

/-- Nothing is marked then, and where the two cross there are as many marks as places. -/
theorem matchWindows_padTo_of_crossed [DecidableEq κ] (hn : needle.WellFormed)
    (hh : haystack.WellFormed) (apart : ¬ FitsIn needle.shape haystack.shape)
    (foreign : x ∉ needle.items) (crossed : Crossed needle.shape haystack.shape) :
    (matchWindows needle (haystack.padTo (commonShape haystack.shape needle.shape) x)).map
      UInt8.ofNat = .tabulate haystack.shape fun _ => 0 := by
  have padded := Grid.wellFormed_padTo (commonShape_natural (t := needle.shape) hh.natural) x
    haystack
  have marked := marksWindows_matchWindows hn (room_in_padTo needle haystack x) padded
  have ranks : (commonShape haystack.shape needle.shape).length = haystack.rank :=
    length_commonShape_of_le crossed.length_le
  have shape := marked.shape
  rw [Grid.rank, Grid.shape_padTo] at shape
  rw [marked.eq_of_nowhere fun corner mem => ?_, shape, corners_commonShape_eq_iff.mpr crossed]
  rw [shape, ranks] at mem
  exact not_beginsAt_padTo hh.natural crossed.length_le crossed.one_le apart foreign mem

end

end Search

/-- Bytes, and the numbers they are converted to, are searched with equal results. -/
def SearchedAlike (needle haystack : Grid UInt8) (fill : Fill) (options : Search.Options) : Prop :=
  ∃ needle' haystack' found found',
    Value.convert .number (.byte needle) = .ok needle' ∧
    Value.convert .number (.byte haystack) = .ok haystack' ∧
    find (.value (.byte needle)) (.value (.byte haystack)) fill options = .ok found ∧
    find (.value needle') (.value haystack') fill options = .ok found' ∧
    Operand.equals (.value found) (.value found') = true

section

variable {a b : Grid UInt8} {fill : Fill}

theorem searchedAlike_iff {marks marks' : Grid Nat} (ha : a.WellFormed) (hb : b.WellFormed)
    (hf : fill.WellFormed) (options : Search.Options)
    (bytes : Search.find .keysOnly (.uniform .byte) (fill.element? (.uniform .byte)) a b =
      .ok marks)
    (numbers : Search.find .keysOnly (.uniform .number) (fill.element? (.uniform .number))
      (a.map Binary64.ofByte) (b.map Binary64.ofByte) = .ok marks') :
    SearchedAlike a b fill options ↔ marks.map UInt8.ofNat = marks'.map UInt8.ofNat := by
  have found : find (.value (.byte a)) (.value (.byte b)) fill options =
      .ok (.byte (marks.map .ofNat)) := by
    refine (find_ofGrid (f := .uniform .byte) (.byte ha) (.byte hb) hf options).trans ?_
    rw [bytes]
    rfl
  have found' : find (.value (.number (a.map .ofByte))) (.value (.number (b.map .ofByte))) fill
      options = .ok (.byte (marks'.map .ofNat)) := by
    refine (find_ofGrid (f := .uniform .number) (.number (ha.map _)) (.number (hb.map _)) hf
      options).trans ?_
    rw [numbers]
    rfl
  have equal : Operand.equals (.value (.byte (marks.map .ofNat)))
      (.value (.byte (marks'.map .ofNat))) = true ↔
        marks.map UInt8.ofNat = marks'.map UInt8.ofNat := by
    rw [Operand.equals, beq_iff_eq, Value.key_byte_inj]
  rw [← equal, SearchedAlike, Value.convert_number_byte, Value.convert_number_byte]
  constructor
  · rintro ⟨_, _, _, _, ⟨⟩, ⟨⟩, first, second, same⟩
    cases found.symm.trans first
    cases found'.symm.trans second
    exact same
  · exact fun same => ⟨_, _, _, _, rfl, rfl, found, found', same⟩

/-- Where the needle fits, and where bytes are filled with what numbers are filled with, both are
searched alike. -/
theorem searchedAlike_of_fills (ha : a.WellFormed) (hb : b.WellFormed) (hf : fill.WellFormed)
    (options : Search.Options)
    (fills : ¬ Search.FitsIn a.shape b.shape →
      (fill.element? (.uniform .byte)).map Kind.byte.key =
        (fill.element? (.uniform .number)).map Kind.number.key) :
    SearchedAlike a b fill options := by
  have same := Search.find_congr_keys (f := .uniform .byte) (g := .uniform .number) hb (hb.map _)
    (Grid.map_key_ofByte a).symm (Grid.map_key_ofByte b).symm fills
  obtain ⟨marks, found⟩ : ∃ marks, Search.find .keysOnly (.uniform .byte)
      (fill.element? (.uniform .byte)) a b = .ok marks := Search.exists_find hb
  exact (searchedAlike_iff ha hb hf options found (same.symm.trans found)).mpr rfl

/-- Numbers that stand for bytes, searched with a fill element that need not be a byte. -/
theorem find_numbers {x : Binary64} (hb : b.WellFormed)
    (apart : ¬ Search.FitsIn a.shape b.shape) :
    Search.find .keysOnly (.uniform .number) (some x) (a.map Binary64.ofByte)
      (b.map Binary64.ofByte) =
        .ok (Search.matchWindows (a.map Kind.byte.key)
          ((b.map Kind.byte.key).padTo (Search.commonShape b.shape a.shape)
            (Kind.number.key x))) := by
  have numbers : Search.find .keysOnly (.uniform .number) (some x) (a.map Binary64.ofByte)
      (b.map Binary64.ofByte) = .ok (Search.matchWindows
        ((a.map Binary64.ofByte).map Kind.number.key)
        (((b.map Binary64.ofByte).padTo (Search.commonShape b.shape a.shape) x).map
          Kind.number.key)) :=
    Search.find_with_fill (hb.map _) apart
  rw [numbers, Grid.map_padTo, Grid.map_key_ofByte, Grid.map_key_ofByte]

/-- Where only numbers can be filled, what is found among them has the shape of the resized
haystack, and bytes are left without a mark in their own. -/
theorem searchedAlike_iff_crossed {x : Binary64} (ha : a.WellFormed) (hb : b.WellFormed)
    (hf : fill.WellFormed) (options : Search.Options) (apart : ¬ Search.FitsIn a.shape b.shape)
    (supplied : fill.element? (.uniform .number) = some x) (other : x.toByte? = none) :
    SearchedAlike a b fill options ↔ Search.Crossed a.shape b.shape := by
  have bytes : Search.find .keysOnly (.uniform .byte) (fill.element? (.uniform .byte)) a b =
      .ok ⟨b.shape, List.replicate b.items.length 0⟩ := by
    rw [hf.element?_byte, supplied, Option.bind_some, other]
    exact Search.find_without_fill apart
  have numbers := find_numbers (x := x) hb apart
  rw [← supplied] at numbers
  have unmarked : (Grid.mk b.shape (List.replicate b.items.length 0)).map UInt8.ofNat =
      .tabulate b.shape fun _ => 0 := by
    rw [hb.length_eq, ← Grid.tabulate_const, Grid.map_tabulate]
    rfl
  rw [searchedAlike_iff ha hb hf options bytes numbers, unmarked]
  constructor
  · intro same
    exact Search.corners_commonShape_eq_iff.mp (congrArg Grid.shape same).symm
  · intro crossed
    have foreign : Kind.number.key x ∉ (a.map Kind.byte.key).items := by
      intro mem
      obtain ⟨b, -, same⟩ := List.mem_map.mp mem
      have equal := Binary64.toByte?_eq_some_iff.mpr (Key.real.inj same).symm
      rw [other] at equal
      cases equal
    have marks := Search.matchWindows_padTo_of_crossed (ha.map Kind.byte.key)
      (hb.map Kind.byte.key) apart foreign crossed
    exact marks.symm

/-- Bytes are searched as the numbers they are converted to exactly if the needle fits into the
haystack, or the fill value can be used for bytes or not even for numbers, or resizing adds as
many places along every axis as the needle takes away. -/
theorem searchedAlike_bytes_iff (ha : a.WellFormed) (hb : b.WellFormed) (hf : fill.WellFormed)
    (options : Search.Options) :
    SearchedAlike a b fill options ↔
      Search.FitsIn a.shape b.shape ∨ fill.fills .byte = true ∨ fill.fills .number = false ∨
        Search.Crossed a.shape b.shape := by
  rw [hf.fills_eq, hf.fills_eq, hf.element?_byte]
  by_cases fits : Search.FitsIn a.shape b.shape
  · exact iff_of_true (searchedAlike_of_fills ha hb hf options (absurd fits)) (.inl fits)
  · cases supplied : fill.element? (.uniform .number) with
    | none =>
        refine iff_of_true (searchedAlike_of_fills ha hb hf options fun _ => ?_)
          (.inr (.inr (.inl rfl)))
        rw [hf.element?_byte, supplied]
        rfl
    | some x =>
        rw [Option.bind_some]
        cases equal : x.toByte? with
        | some c =>
            refine iff_of_true (searchedAlike_of_fills ha hb hf options fun _ => ?_)
              (.inr (.inl rfl))
            have key : Kind.number.key x = Kind.byte.key c :=
              congrArg Key.real (Binary64.toByte?_eq_some_iff.mp equal)
            rw [hf.element?_byte, supplied, Option.bind_some, equal, Option.map_some,
              Option.map_some, key]
        | none =>
            rw [searchedAlike_iff_crossed ha hb hf options fits supplied equal]
            simp [fits]

end

/-- A row is not found across a column, whichever way both are stored. -/
theorem row_across_column_searched_alike :
    let row : Grid UInt8 := ⟨[1, 2], [7, 8]⟩
    let column : Grid UInt8 := ⟨[2, 1], [7, 7]⟩
    let half : Fill := ⟨some (.number (.scalar (.ofBits 0x3FE0000000000000)))⟩
    row.WellFormed ∧ column.WellFormed ∧ half.WellFormed ∧
      ¬ Search.FitsIn row.shape column.shape ∧ SearchedAlike row column half .standard := by
  intro row column half
  have hr : row.WellFormed := by decide
  have hc : column.WellFormed := by decide
  have hf : half.WellFormed := by
    rintro v ⟨⟩
    exact .number (Grid.wellFormed_scalar _)
  have apart : ¬ Search.FitsIn row.shape column.shape := by
    rw [← Search.exceeds_eq_false_iff]
    decide
  have crossed : Search.Crossed row.shape column.shape :=
    Search.corners_commonShape_eq_iff.mp (by decide)
  exact ⟨hr, hc, hf, apart,
    (searchedAlike_bytes_iff hr hc hf .standard).mpr (.inr (.inr (.inr crossed)))⟩

/-- Three bytes are nowhere at the two places of a shorter haystack. Among numbers, the haystack
is resized with the fill value and has a single place for them. -/
theorem longer_needle_told_apart :
    ¬ SearchedAlike ⟨[3], [1, 2, 3]⟩ ⟨[2], [1, 2]⟩
      ⟨some (.number (.scalar (.ofBits 0x3FE0000000000000)))⟩ .standard := by
  have hf : Fill.WellFormed ⟨some (.number (.scalar (.ofBits 0x3FE0000000000000)))⟩ := by
    rintro v ⟨⟩
    exact .number (Grid.wellFormed_scalar _)
  have apart : ¬ Search.FitsIn [3] [2] := by
    rw [← Search.exceeds_eq_false_iff]
    decide
  have uncrossed : ¬ Search.Crossed [3] [2] := by
    rw [← Search.corners_commonShape_eq_iff]
    decide
  rwa [searchedAlike_iff_crossed (by decide) (by decide) hf .standard apart rfl
    (by decide +kernel)]

end RowMajor
