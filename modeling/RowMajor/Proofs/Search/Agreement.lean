import RowMajor.Proofs.Search.Codes
import RowMajor.Proofs.Search.Matching
import RowMajor.Proofs.Search.Room
import RowMajor.Proofs.Value.Filling

/-!
# Searching by codes and by keys

Rows and windows of well-formed grids of one kind are told apart by codes exactly as they
are by keys, so every question has the same answer whether codes are used or not. The
questions themselves only see lines and dictionaries; what ties these to the grids is that
corresponding rows are equally long.
-/

namespace RowMajor

namespace Search

variable {α β : Type} {k : Kind}

/-- Rows are compared by their keys, whatever the number of elements. -/
def Options.keysOnly : Options :=
  ⟨false, 0⟩

theorem codePair?_keysOnly (f : Form) (a b : Grid f.Element) :
    codePair? .keysOnly f a b = none :=
  if_neg fun h => Bool.false_ne_true h.1

theorem codePair?_eq_some {options : Options} {a b : Grid k.Element} {first second : Grid Int}
    (h : codePair? options (.uniform k) a b = some (first, second)) :
    first = a.map k.code ∧ second = b.map k.code ∧
      ∀ x ∈ a.items, ∀ y ∈ b.items, k.code x = k.code y ↔ k.key x = k.key y := by
  obtain ⟨-, pair⟩ := Option.ite_none_right_eq_some.mp h
  obtain ⟨codes, found, pair⟩ := Option.bind_eq_some_iff.mp pair
  obtain ⟨codes', found', pair⟩ := Option.bind_eq_some_iff.mp pair
  obtain ⟨rfl, coded⟩ := Kind.codes?_eq_some found
  obtain ⟨rfl, coded'⟩ := Kind.codes?_eq_some found'
  cases pair
  exact ⟨rfl, rfl, fun x hx y hy => Kind.code_eq_iff (coded x hx) (coded' y hy)⟩

theorem rowItems_map (f : α → β) (a : Grid α) :
    rowItems (a.map f) = (rowItems a).map (List.map f) := by
  rw [rowItems, Grid.rows_map, List.map_map, rowItems, List.map_map]
  rfl

theorem length_of_mem_rowItems {a : Grid α} {row : List α} (h : a.WellFormed)
    (mem : row ∈ rowItems a) : row.length = a.rowShape.cellCount := by
  obtain ⟨c, hc, rfl⟩ := List.mem_map.mp mem
  rw [(h.rows hc).length_eq, Grid.shape_of_mem_rows hc]

theorem mem_of_mem_rowItems {a : Grid α} {row : List α} {x : α} (mem : row ∈ rowItems a)
    (hx : x ∈ row) : x ∈ a.items := by
  obtain ⟨c, hc, rfl⟩ := List.mem_map.mp mem
  exact Grid.mem_of_mem_cells hc hx

theorem byCode_eq_byKey (question : Question) {queries searched : List (List α)}
    {code : α → Int} {key : α → Key}
    (same : ∀ query ∈ queries, ∀ row ∈ searched, sameCodes (query.map code) (row.map code) =
      decide (query.map key = row.map key)) :
    question.byCode (queries.map (List.map code)) (searched.map (List.map code)) =
      question.byKey (queries.map (List.map key)) (searched.map (List.map key)) := by
  cases question with
  | member => exact membersByCode_eq same
  | first => exact firstByCode_eq same
  | next => exact nextByCode_eq same

theorem amongEqualRows_keysOnly (question : Question) (f : Form) (a b : Grid f.Element) :
    amongEqualRows question .keysOnly f a b =
      question.byKey (rowItems (a.map f.key)) (rowItems (b.map f.key)) := by
  simp only [amongEqualRows, codePair?_keysOnly, ite_self]

theorem amongEqualRows_eq (question : Question) (options : Options) {a b : Grid k.Element}
    (ha : a.WellFormed) (hb : b.WellFormed) (rows : a.rowShape = b.rowShape) :
    amongEqualRows question options (.uniform k) a b =
      amongEqualRows question .keysOnly (.uniform k) a b := by
  have byKeys : amongEqualRows question .keysOnly (.uniform k) a b =
      question.byKey (rowItems (a.map k.key)) (rowItems (b.map k.key)) :=
    amongEqualRows_keysOnly question (.uniform k) a b
  rw [byKeys, amongEqualRows]
  by_cases empty : a.rowCount = 0 ∨ b.rowCount = 0
  · rw [if_pos empty]
    rfl
  · rw [if_neg empty]
    cases pair : codePair? options (.uniform k) a b with
    | none => rfl
    | some codes =>
        obtain ⟨first, second⟩ := codes
        obtain ⟨rfl, rfl, faithful⟩ := codePair?_eq_some pair
        simp only [rowItems_map]
        refine byCode_eq_byKey question fun query hq row hr => sameCodes_map ?_ ?_
        · rw [length_of_mem_rowItems ha hq, length_of_mem_rowItems hb hr, rows]
        · intro x hx y hy
          exact faithful x (mem_of_mem_rowItems hq hx) y (mem_of_mem_rowItems hr hy)

theorem amongRows_eq (question : Question) (options : Options) {a b : Grid k.Element}
    (ha : a.WellFormed) (hb : b.WellFormed) :
    amongRows question options (.uniform k) a b =
      amongRows question .keysOnly (.uniform k) a b := by
  rw [amongRows, amongRows]
  split
  · rfl
  · rename_i comparable
    have rows : a.rowShape = b.rowShape := by
      by_contra different
      exact comparable (.inl different)
    rw [amongEqualRows_eq question options ha hb rows]

theorem storedRows_eq (question : Question) (options : Options) {a b : Grid k.Element}
    (ha : a.WellFormed) (hb : b.WellFormed) :
    storedRows question options (.uniform k) a b =
      storedRows question .keysOnly (.uniform k) a b := by
  rw [storedRows, storedRows, amongRows_eq question options ha hb]

theorem answers_eq (question : Question) (options : Options) {a b : Grid k.Element}
    (ha : a.WellFormed) (hb : b.WellFormed) :
    answers question options (.uniform k) a b = answers question .keysOnly (.uniform k) a b := by
  rw [answers, answers]
  split
  · have parts := Outcome.mapM_congr fun cell (mem : cell ∈ a.cells (a.rank - b.rank)) =>
      congrArg (· >>= fun items => Grid.fit question.kind ⟨cell.shape.take 1, items⟩)
        (storedRows_eq question options (ha.cells mem) hb)
    simp only [parts]
  · rfl

theorem matchWindows_map {κ κ' : Type} [DecidableEq κ] [DecidableEq κ'] {code : α → κ}
    {key : α → κ'} {needle haystack : Grid α}
    (faithful : ∀ x ∈ needle.items, ∀ y ∈ haystack.items, code x = code y ↔ key x = key y) :
    matchWindows (needle.map code) (haystack.map code) =
      matchWindows (needle.map key) (haystack.map key) := by
  simp only [matchWindows, markWindows, Grid.items_map, Grid.shape_map, Grid.rank,
    List.length_map]
  congr 1
  refine List.map_congr_left fun spots _ => ?_
  rw [gather_map, gather_map, List.zip_map, List.zip_map, List.all_map, List.all_map]
  congr 1
  rw [Bool.eq_iff_iff, List.all_eq_true, List.all_eq_true]
  refine forall₂_congr fun pair mem => ?_
  obtain ⟨inWindow, inNeedle⟩ := List.of_mem_zip mem
  have same := faithful pair.2 inNeedle pair.1 (Grid.mem_of_mem_gather inWindow)
  simp only [Function.comp_apply, Prod.map, decide_eq_true_eq]
  rw [eq_comm, same, eq_comm]

theorem findIn_keysOnly {f : Form} {needle haystack : Grid f.Element} (wf : haystack.WellFormed)
    (room : List.Forall₂ (fun w d => w ≤ d + 1) (padShape haystack.rank needle.shape)
      haystack.shape) :
    findIn .keysOnly f needle haystack = matchWindows (needle.map f.key) (haystack.map f.key) := by
  rw [findIn, codePair?_keysOnly]
  exact matchKeys_eq wf room.length_eq

theorem findIn_eq (options : Options) {needle haystack : Grid k.Element}
    (wf : haystack.WellFormed)
    (room : List.Forall₂ (fun w d => w ≤ d + 1) (padShape haystack.rank needle.shape)
      haystack.shape) :
    findIn options (.uniform k) needle haystack =
      findIn .keysOnly (.uniform k) needle haystack := by
  rw [findIn_keysOnly wf room, findIn]
  cases pair : codePair? options (.uniform k) needle haystack with
  | none => exact matchKeys_eq wf room.length_eq
  | some codes =>
      obtain ⟨first, second⟩ := codes
      obtain ⟨rfl, rfl, faithful⟩ := codePair?_eq_some pair
      exact (matchCodes_eq _ _).trans (matchWindows_map faithful)

theorem find_eq (options : Options) (fill : Option k.Element) {needle haystack : Grid k.Element}
    (wf : haystack.WellFormed) :
    find options (.uniform k) fill needle haystack =
      find .keysOnly (.uniform k) fill needle haystack := by
  unfold find
  split
  · cases fill with
    | none => rfl
    | some x =>
        have resized : Yields _ (haystack.resize k (commonShape haystack.shape needle.shape) x) :=
          Grid.resize_yields wf.holds_trivial (commonShape_natural wf.natural) trivial
        show (haystack.resize k _ x >>= _) = (haystack.resize k _ x >>= _)
        cases padding : haystack.resize k (commonShape haystack.shape needle.shape) x with
        | error e => rfl
        | ok padded =>
            rw [padding] at resized
            obtain ⟨held, shape⟩ := resized
            have room := room_in_commonShape needle.shape haystack.shape
            rw [← shape] at room
            exact congrArg (Grid.fit .byte) (findIn_eq options held.wellFormed room)
  · rename_i within
    have fits := exceeds_eq_false_iff.mp (Bool.eq_false_iff.mpr within)
    rw [findIn_eq options wf (room_of_fitsIn wf.natural fits)]

end Search

namespace Value

variable {a b : Value} {fill : Fill}

/-- What follows a unification of well-formed values need only be known for uniform forms. -/
theorem unify_bind_congr {γ : Type} {f g : Unified → Except Error γ} (pairing : Pairing)
    (ha : a.WellFormed) (hb : b.WellFormed)
    (same : ∀ both : Unified, both.WellFormed → f both = g both) :
    (unify pairing a b >>= f) = (unify pairing a b >>= g) := by
  have met := unify_wellFormed pairing ha hb
  cases unified : unify pairing a b with
  | error e => rfl
  | ok both =>
      rw [unified] at met
      exact same both met

theorem searchRows_eq (question : Search.Question) (pairing : Pairing) (options : Search.Options)
    (ha : a.WellFormed) (hb : b.WellFormed) :
    searchRows question pairing options a b = searchRows question pairing .keysOnly a b := by
  refine unify_bind_congr pairing ha hb fun both wf => ?_
  obtain ⟨f, first, second⟩ := both
  cases f with
  | mixed k => exact absurd wf.isUniform (Form.not_isUniform_mixed k)
  | uniform k =>
      simp only [Search.answers_eq question options wf.first.wellFormed wf.second.wellFormed]

theorem find_eq (options : Search.Options) (hf : fill.WellFormed) (ha : a.WellFormed)
    (hb : b.WellFormed) : Value.find options fill a b = Value.find .keysOnly fill a b := by
  refine unify_bind_congr .find ha hb fun both wf => ?_
  rw [Unified.loosenFor_eq hf wf]
  obtain ⟨f, first, second⟩ := both
  cases f with
  | mixed k => exact absurd wf.isUniform (Form.not_isUniform_mixed k)
  | uniform k => simp only [Search.find_eq options _ wf.second.wellFormed]

end Value

/-- Two grids of one kind meet as they are. If all their elements have codes, these are what the
standard options compare, and what is never looked at where only keys are. -/
theorem codes_compared {k : Kind} {x y : Grid k.Element} (pairing : Pairing)
    (hx : (k.codes? x.items).isSome) (hy : (k.codes? y.items).isSome) :
    Value.unify pairing (.ofGrid (.uniform k) x) (.ofGrid (.uniform k) y) =
        .ok ⟨.uniform k, x, y⟩ ∧
      Search.codePair? .standard (.uniform k) x y = some (x.map k.code, y.map k.code) ∧
      Search.codePair? .keysOnly (.uniform k) x y = none := by
  refine ⟨?_, ?_, Search.codePair?_keysOnly ..⟩
  · cases k <;> rfl
  · obtain ⟨codes, found⟩ := Option.isSome_iff_exists.mp hx
    obtain ⟨codes', found'⟩ := Option.isSome_iff_exists.mp hy
    have pair : Search.codePair? .standard (.uniform k) x y =
        some (⟨x.shape, codes⟩, ⟨y.shape, codes'⟩) := by
      have admitted : Search.Options.standard.useCodes = true ∧
          Search.Options.standard.minElements ≤ x.items.length + y.items.length :=
        ⟨rfl, Nat.zero_le _⟩
      rw [Search.codePair?, if_pos admitted, Form.codes?, Form.codes?, found, found']
      rfl
    obtain ⟨first, second, -⟩ := Search.codePair?_eq_some pair
    rw [pair, first, second]

/-- Well-formed operands are searched alike by codes and by keys, whatever the kinds, ranks and
shapes. Where all elements of two values of one kind have codes, the standard options do go by
them. -/
theorem search_by_codes_eq_by_keys {a b : Value} {fill : Fill} (ha : a.WellFormed)
    (hb : b.WellFormed) (hf : fill.WellFormed) (options : Search.Options) :
    member (.value a) (.value b) options = member (.value a) (.value b) .keysOnly ∧
      indexOf (.value a) (.value b) options = indexOf (.value a) (.value b) .keysOnly ∧
      progressiveIndexOf (.value a) (.value b) options =
        progressiveIndexOf (.value a) (.value b) .keysOnly ∧
      find (.value a) (.value b) fill options = find (.value a) (.value b) fill .keysOnly ∧
      ∀ (k : Kind) (x y : Grid k.Element), a = .ofGrid (.uniform k) x → b = .ofGrid (.uniform k) y →
        (k.codes? x.items).isSome → (k.codes? y.items).isSome → ∀ pairing,
          Value.unify pairing a b = .ok ⟨.uniform k, x, y⟩ ∧
          Search.codePair? .standard (.uniform k) x y = some (x.map k.code, y.map k.code) ∧
          Search.codePair? .keysOnly (.uniform k) x y = none := by
  refine ⟨?_, ?_, ?_, ?_, ?_⟩
  · exact Value.searchRows_eq .member .members options ha hb
  · exact Value.searchRows_eq .first .indices options ha hb
  · exact Value.searchRows_eq .next .indices options ha hb
  · exact Value.find_eq options hf ha hb
  · rintro k x y rfl rfl hx hy pairing
    exact codes_compared pairing hx hy

/-- Both zeros are found at the places of either, one after the other. -/
theorem signed_zeros_found_alike :
    let a : Value := .number ⟨[3], [.negativeZero, .zero, .zero]⟩
    let b : Value := .number ⟨[2], [.zero, .negativeZero]⟩
    a.WellFormed ∧ b.WellFormed ∧ Fill.none.WellFormed ∧
      member (.value a) (.value b) .standard = member (.value a) (.value b) .keysOnly ∧
      indexOf (.value a) (.value b) .standard = indexOf (.value a) (.value b) .keysOnly ∧
      progressiveIndexOf (.value a) (.value b) .standard =
        progressiveIndexOf (.value a) (.value b) .keysOnly ∧
      find (.value b) (.value a) .none .standard = find (.value b) (.value a) .none .keysOnly := by
  intro a b
  have ha : a.WellFormed := .number (by decide)
  have hb : b.WellFormed := .number (by decide)
  have hf : Fill.none.WellFormed := fun _ present => nomatch present
  obtain ⟨members, first, next, -, -⟩ := search_by_codes_eq_by_keys ha hb hf .standard
  obtain ⟨-, -, -, found, -⟩ := search_by_codes_eq_by_keys hb ha hf .standard
  exact ⟨ha, hb, hf, members, first, next, found⟩

end RowMajor
