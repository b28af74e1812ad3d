import RowMajor.Proofs.Binary64.Values
import RowMajor.Proofs.Grid.Rows
import RowMajor.Proofs.Search.Codes
import RowMajor.Proofs.Value.Bytes
import RowMajor.Search.Rows

/-!
# Codes of lists

Every code is an integer of 32 bits, and two elements of one kind have the same code exactly if
they have the same key. A number that stands for such an integer is coded as this integer, and
a list of numbers has no codes if any of them stands for something else. Bytes may be held among
numbers, where they are coded like the numbers that they are.
-/

namespace RowMajor

/-- The rational number that an element of any kind stands for. -/
def Item.value? {β : Type} (x : Item β) : Option ℚ :=
  x.real?.bind Binary64.value?

namespace Kind

variable {k : Kind} {x y : Item Value} {c d : Int}

/-- The kinds whose elements have codes. -/
def IsCoded (k : Kind) : Prop :=
  k = .number ∨ k = .byte ∨ k = .character

/-- The elements that belong to a coded kind. A byte may be held among numbers. -/
def Admits : Kind → Item Value → Prop
  | .number, .number _ | .number, .byte _ | .byte, .byte _ | .character, .character _ => True
  | _, _ => False

theorem inCodeRange_iff {n : Int} : inCodeRange n ↔ -2 ^ 31 ≤ n ∧ n ≤ 2 ^ 31 - 1 := by
  rw [inCodeRange, Bool.and_eq_true, decide_eq_true_iff, decide_eq_true_iff]
  rfl

theorem inCodeRange_byte (b : UInt8) : inCodeRange (Int.ofNat b.toNat) := by
  have small := b.toNat_lt
  rw [inCodeRange_iff, Int.ofNat_eq_natCast]
  omega

theorem inCodeRange_character (c : Char) : inCodeRange (Int.ofNat c.toNat) := by
  have small : c.toNat < 0xd800 ∨ 0xdfff < c.toNat ∧ c.toNat < 0x110000 := c.valid
  rw [inCodeRange_iff, Int.ofNat_eq_natCast]
  omega

/-- Among numbers and bytes an element is coded as the integer that it equals. -/
theorem Admits.exists_real (admitted : k.Admits x) (numeric : k = .number ∨ k = .byte)
    (coded : k.itemCode? x = some c) :
    ∃ r : Binary64, r.toInt? = some c ∧ Value.itemKey k x = .real r.key ∧ inCodeRange c := by
  have ofByte (b : UInt8) (here : some (Int.ofNat b.toNat) = some c) :
      ∃ r : Binary64, r.toInt? = some c ∧ Key.ofByte b = .real r.key ∧ inCodeRange c := by
    obtain rfl := Option.some.inj here
    refine ⟨.ofByte b, Binary64.toInt?_ofByte b, ?_, inCodeRange_byte b⟩
    rw [Binary64.key_ofByte]
    rfl
  rcases numeric with rfl | rfl
  · cases x with
    | number r =>
        obtain ⟨whole, ranged⟩ := numberCode?_eq_some_iff.mp coded
        exact ⟨r, whole, rfl, ranged⟩
    | byte b => exact ofByte b coded
    | complex _ | character _ | box _ => cases admitted
  · cases x with
    | byte b => exact ofByte b coded
    | number _ | complex _ | character _ | box _ => cases admitted

/-- Among characters an element is coded as its code point. -/
theorem Admits.exists_character (admitted : Kind.character.Admits x)
    (coded : Kind.character.itemCode? x = some c) :
    ∃ ch : Char, x = .character ch ∧ c = Int.ofNat ch.toNat := by
  cases x with
  | character ch => exact ⟨ch, rfl, (Option.some.inj coded).symm⟩
  | number _ | byte _ | complex _ | box _ => cases admitted

theorem Admits.inCodeRange (admitted : k.Admits x) (coded : k.itemCode? x = some c) :
    inCodeRange c := by
  cases k with
  | number =>
      obtain ⟨-, -, -, ranged⟩ := admitted.exists_real (.inl rfl) coded
      exact ranged
  | byte =>
      obtain ⟨-, -, -, ranged⟩ := admitted.exists_real (.inr rfl) coded
      exact ranged
  | character =>
      obtain ⟨ch, -, rfl⟩ := admitted.exists_character coded
      exact inCodeRange_character ch
  | complex | box => cases coded

/-- Elements have the same code exactly if they have the same key. -/
theorem itemCode?_eq_iff (hx : k.Admits x) (hy : k.Admits y) (first : k.itemCode? x = some c)
    (second : k.itemCode? y = some d) : c = d ↔ Value.itemKey k x = Value.itemKey k y := by
  have ofReals (numeric : k = .number ∨ k = .byte) :
      c = d ↔ Value.itemKey k x = Value.itemKey k y := by
    obtain ⟨r, whole, key, -⟩ := hx.exists_real numeric first
    obtain ⟨q, whole', key', -⟩ := hy.exists_real numeric second
    rw [key, key', Key.real.injEq]
    exact Binary64.toInt?_eq_iff whole whole'
  cases k with
  | number => exact ofReals (.inl rfl)
  | byte => exact ofReals (.inr rfl)
  | character =>
      obtain ⟨ch, rfl, rfl⟩ := hx.exists_character first
      obtain ⟨ch', rfl, rfl⟩ := hy.exists_character second
      rw [Value.itemKey, Value.itemKey, Key.character.injEq]
      exact Int.ofNat_inj.trans Char.toNat_inj
  | complex | box => cases first

/-- What stands among numbers is coded as the integer of 32 bits that it stands for. -/
theorem itemCode?_number_eq_some_iff :
    Kind.number.itemCode? x = some c ↔ x.value? = some (c : ℚ) ∧ Kind.inCodeRange c := by
  cases x with
  | number r =>
      rw [Item.value?, Item.real?, Option.bind_some, ← Binary64.toInt?_eq_some_iff]
      exact numberCode?_eq_some_iff
  | byte b =>
      rw [Item.value?, Item.real?, Option.bind_some, ← Binary64.toInt?_eq_some_iff,
        Binary64.toInt?_ofByte]
      refine (and_iff_left_of_imp fun same => ?_).symm
      rw [← Option.some.inj same]
      exact inCodeRange_byte b
  | complex _ | character _ | box _ => exact iff_of_false nofun fun h => nomatch h.1

/-- Bytes and characters are all coded. -/
theorem Admits.exists_code (admitted : k.Admits x) (always : k = .byte ∨ k = .character) :
    ∃ c, k.itemCode? x = some c := by
  rcases always with rfl | rfl
  · cases x with
    | byte b => exact ⟨_, rfl⟩
    | number _ | complex _ | character _ | box _ => cases admitted
  · cases x with
    | character ch => exact ⟨_, rfl⟩
    | number _ | byte _ | complex _ | box _ => cases admitted

theorem leaf_of_itemCode? (admitted : Kind.byte.Admits x)
    (coded : Kind.byte.itemCode? x = some c) : x.leaf = .integer c := by
  cases x with
  | byte b => exact congrArg Operand.integer (Option.some.inj coded)
  | number _ | complex _ | character _ | box _ => cases admitted

end Kind

namespace Form

variable {f : Form} {xs : List f.Element} {cs : List Int}

theorem key_eq_itemKey (f : Form) (x : f.Element) : f.key x = Value.itemKey f.kind (f.item x) := by
  match f, x with
  | .uniform .number, x | .uniform .byte, x | .uniform .character, x | .mixed _, x => rfl
  | .uniform .complex, z =>
      show Key.ofComplex z = if Kind.complex = .complex then Key.ofComplex z else Key.ofStray z
      exact (if_pos rfl).symm
  | .uniform .box, v => rfl

/-- Elements of a coded kind are coded one by one. -/
theorem codes?_eq_mapM (coded : f.kind.IsCoded) :
    f.codes? xs = xs.mapM fun x => f.kind.itemCode? (f.item x) := by
  match f, xs with
  | .uniform .number, xs | .mixed _, xs => rfl
  | .uniform .byte, xs | .uniform .character, xs =>
      refine (mapM_eq_some_iff.mpr ?_).symm
      exact List.forall₂_map_right_iff.mpr (List.forall₂_same.mpr fun _ _ => rfl)
  | .uniform .complex, _ | .uniform .box, _ => rcases coded with h | h | h <;> cases h

theorem exists_codes (admitted : ∀ x ∈ xs, f.kind.Admits (f.item x))
    (always : f.kind = .byte ∨ f.kind = .character) : ∃ cs, f.codes? xs = some cs := by
  rw [codes?_eq_mapM (.inr always), ← Option.ne_none_iff_exists', Ne, mapM_eq_none_iff]
  rintro ⟨x, mem, uncoded⟩
  obtain ⟨c, code⟩ := (admitted x mem).exists_code always
  cases uncoded.symm.trans code

theorem forall₂_of_codes? (coded : f.kind.IsCoded)
    (admitted : ∀ x ∈ xs, f.kind.Admits (f.item x)) (found : f.codes? xs = some cs) :
    List.Forall₂ (fun x c => f.kind.Admits (f.item x) ∧ f.kind.itemCode? (f.item x) = some c)
      xs cs := by
  rw [codes?_eq_mapM coded] at found
  exact (List.forall₂_and_left _ _).mpr ⟨admitted, mapM_eq_some_iff.mp found⟩

end Form

/-- The codes that are given out for a value are those by which it is searched. -/
theorem Value.givenCodes?_ofGrid {f : Form} {a : Grid f.Element}
    (admitted : ∀ x ∈ a.items, f.kind.Admits (f.item x)) :
    (ofGrid f a).givenCodes? = (f.codes? a.items).map (List.map Operand.integer) := by
  have unfolded : (ofGrid f a).givenCodes? =
      if f.kind = .byte then some (a.items.map f.leaf)
      else (f.codes? a.items).map (List.map Operand.integer) :=
    form_grid_ofGrid (fun g b => if g.kind = .byte then some (b.items.map g.leaf)
      else (g.codes? b.items).map (List.map Operand.integer)) a
  rw [unfolded]
  split
  · rename_i byte
    obtain ⟨cs, found⟩ := Form.exists_codes admitted (.inl byte)
    have each := Form.forall₂_of_codes? (.inr (.inl byte)) admitted found
    rw [found, Option.map_some, Option.some.injEq]
    refine map_eq_map_of_forall₂ (each.imp fun x c ⟨belongs, code⟩ => ?_)
    rw [byte] at belongs code
    exact Kind.leaf_of_itemCode? belongs code
  · rfl

/-- Codes have the places of their elements, are integers of 32 bits, and are the same exactly where
the keys are. Bytes and characters always have codes. Numbers have them if each stands for such an
integer, which neither the infinities nor the NaN do. -/
theorem codes_tell_keys_apart {f g : Form} {xs : List f.Element} {ys : List g.Element}
    (coded : f.kind.IsCoded) (same : f.kind = g.kind)
    (hx : ∀ x ∈ xs, f.kind.Admits (f.item x)) (hy : ∀ y ∈ ys, g.kind.Admits (g.item y)) :
    (∀ cs ds, f.codes? xs = some cs → g.codes? ys = some ds →
      cs.length = xs.length ∧ ds.length = ys.length ∧
      (∀ c ∈ cs ++ ds, -2 ^ 31 ≤ c ∧ c ≤ 2 ^ 31 - 1) ∧
      ∀ i j (hi : i < xs.length) (hj : j < ys.length),
        cs[i]? = ds[j]? ↔ f.key xs[i] = g.key ys[j]) ∧
    (f.kind = .number → (f.codes? xs = none ↔ ∃ x ∈ xs, ¬ ∃ n : Int,
      (f.item x).value? = some (n : ℚ) ∧ -2 ^ 31 ≤ n ∧ n ≤ 2 ^ 31 - 1)) ∧
    (f.kind = .byte ∨ f.kind = .character → ∃ cs, f.codes? xs = some cs) ∧
    ∀ shape, (Value.ofGrid f ⟨shape, xs⟩).givenCodes? =
      (f.codes? xs).map (List.map Operand.integer) := by
  refine ⟨fun cs ds found found' => ?_, fun number => ?_, Form.exists_codes hx, fun shape => ?_⟩
  · have first := Form.forall₂_of_codes? coded hx found
    have second := Form.forall₂_of_codes? (same ▸ coded) hy found'
    obtain ⟨length, each⟩ := List.forall₂_iff_get.mp first
    obtain ⟨length', each'⟩ := List.forall₂_iff_get.mp second
    refine ⟨length.symm, length'.symm, fun c mem => ?_, fun i j hi hj => ?_⟩
    · rw [← Kind.inCodeRange_iff]
      rcases List.mem_append.mp mem with mem | mem
      · obtain ⟨x, -, belongs, code⟩ := exists_of_forall₂_right first mem
        exact belongs.inCodeRange code
      · obtain ⟨y, -, belongs, code⟩ := exists_of_forall₂_right second mem
        exact belongs.inCodeRange code
    · obtain ⟨belongs, code⟩ := each i hi (length ▸ hi)
      obtain ⟨belongs', code'⟩ := each' j hj (length' ▸ hj)
      -- As elements of any kind the two can be compared, though they may be held in two forms.
      rw [← same] at belongs' code'
      rw [List.getElem?_eq_getElem (length ▸ hi), List.getElem?_eq_getElem (length' ▸ hj),
        Option.some.injEq, Form.key_eq_itemKey, Form.key_eq_itemKey, ← same]
      exact Kind.itemCode?_eq_iff belongs belongs' code code'
  · rw [Form.codes?_eq_mapM coded, mapM_eq_none_iff, number]
    refine exists_congr fun x => and_congr_right fun _ => ?_
    simp only [Option.eq_none_iff_forall_ne_some, Ne, Kind.itemCode?_number_eq_some_iff,
      Kind.inCodeRange_iff, not_exists]
  · exact Value.givenCodes?_ofGrid hx

theorem zeros_and_bytes_coded_by_value :
    (Form.uniform .number).codes? [.negativeZero, .ofSmallNat 7] = some [0, 7] ∧
    (Form.mixed .number).codes? [.byte 7, .number .zero] = some [7, 0] ∧
    (Form.uniform .number).key .negativeZero = (Form.mixed .number).key (.number .zero) ∧
    (Form.uniform .number).key .negativeZero ≠ (Form.mixed .number).key (.byte 7) ∧
    (Form.mixed .number).codes? [.byte 7, .number .nan] = none := by
  have first : (Form.uniform .number).codes? [.negativeZero, .ofSmallNat 7] = some [0, 7] := by
    decide +kernel
  have second : (Form.mixed .number).codes? [.byte 7, .number .zero] = some [7, 0] := by
    decide +kernel
  have admitted : ∀ x ∈ [.negativeZero, .ofSmallNat 7],
      Kind.number.Admits ((Form.uniform .number).item x) := fun _ _ => trivial
  have admittedMixed : ∀ r, ∀ y ∈ [.byte 7, .number r],
      Kind.number.Admits ((Form.mixed .number).item y) := by
    simp [Form.item, Kind.Admits]
  obtain ⟨-, -, -, same⟩ :=
    (codes_tell_keys_apart (f := .uniform .number) (g := .mixed .number) (.inl rfl) rfl admitted
      (admittedMixed .zero)).1 _ _ first second
  obtain ⟨-, missing, -⟩ :=
    codes_tell_keys_apart (f := .mixed .number) (g := .mixed .number) (.inl rfl) rfl
      (admittedMixed .nan) (admittedMixed .nan)
  refine ⟨first, second, (same 0 1 (by decide) (by decide)).mp rfl, fun equal => ?_, ?_⟩
  · cases (same 0 0 (by decide) (by decide)).mpr equal
  · refine (missing rfl).mpr ⟨.number .nan, by simp, ?_⟩
    rintro ⟨n, value, -⟩
    cases value

end RowMajor
