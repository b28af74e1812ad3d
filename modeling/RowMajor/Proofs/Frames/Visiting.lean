import Mathlib.Data.List.TakeWhile
import RowMajor.Proofs.Buffer.Rewriting
import RowMajor.Proofs.Frames.Alignment

/-!
# Visiting aligned rows

The rows of two aligned grids are visited pair by pair, and whoever visits them may write over
the elements of the first grid. All the elements are held in one list while the visits go on, so
a row is found as earlier visits have left it. As long as every visit keeps to its own row, each
row is found as it was in the grid.

The buffer of the first grid is rewritten where it is. If the rows of the second have to be
repeated, or if leading axes of it are left out, that is done to a copy.
-/

namespace RowMajor

variable {α β γ σ : Type}

/-- What is told of a row when it is visited: the elements as they are found, the position of the
first, and the partner of the row. -/
structure Visit (α β : Type) where
  rowShape : Shape
  row : List α
  start : Nat
  otherShape : Shape
  other : List β
deriving DecidableEq

namespace Visit

/-- A position in the row. -/
def Owns (visit : Visit α β) (position : Nat) : Prop :=
  visit.start ≤ position ∧ position < visit.start + visit.rowShape.volume

instance (visit : Visit α β) (position : Nat) : Decidable (visit.Owns position) :=
  inferInstanceAs (Decidable (_ ∧ _))

/-- The row that begins at a position of a list. -/
def found (rowShape otherShape : Shape) (items : List α) (start : Nat) (other : List β) :
    Visit α β :=
  { rowShape, row := (items.drop start).take rowShape.volume, start, otherShape, other }

end Visit

/-- The visits that were made, each with the single elements that it wrote. -/
abbrev VisitLog (α β : Type) := List (Visit α β × List (Nat × α))

namespace VisitLog

/-- All elements that were written, in order. -/
def writes (log : VisitLog α β) : List (Nat × α) :=
  log.flatMap Prod.snd

/-- Every visit wrote in its own row only. -/
def KeepsToRows (log : VisitLog α β) : Prop :=
  ∀ entry ∈ log, ∀ write ∈ entry.2, entry.1.Owns write.1

instance (log : VisitLog α β) : Decidable log.KeepsToRows :=
  inferInstanceAs (Decidable (∀ entry ∈ log, ∀ write ∈ entry.2, entry.1.Owns write.1))

end VisitLog

/-- A visitor sees the whole list of elements besides the row, says which elements to write where,
and remembers something for the next visit. -/
abbrev Visitor (σ α β : Type) := σ → List α → Visit α β → σ × List (Nat × α)

namespace Visitor

variable {f : Visitor σ α β} {rowShape otherShape : Shape} {others : List (List β)} {start : Nat}
  {s : σ} {items : List α}

/-- Visit one row after the other, beginning at a position, with a partner for each. -/
def visitFrom (f : Visitor σ α β) (rowShape otherShape : Shape) :
    List (List β) → Nat → σ → List α → VisitLog α β
  | [], _, _, _ => []
  | other :: others, start, s, items =>
    let visit := Visit.found rowShape otherShape items start other
    let (s, writes) := f s items visit
    (visit, writes) ::
      visitFrom f rowShape otherShape others (start + rowShape.volume) s (writeAll writes items)

/-- What was written before a row does not change how it is found. -/
theorem found_writeAll {writes : List (Nat × α)} (before : ∀ write ∈ writes, write.1 < start)
    (other : List β) :
    Visit.found rowShape otherShape (writeAll writes items) start other =
      Visit.found rowShape otherShape items start other := by
  rw [Visit.found, Visit.found, drop_writeAll before]

/-- Visits that keep to their rows find all rows as they were before the first of them. -/
theorem map_fst_visitFrom
    (keeps : (f.visitFrom rowShape otherShape others start s items).KeepsToRows) :
    (f.visitFrom rowShape otherShape others start s items).map Prod.fst =
      others.zipIdx.map fun entry =>
        Visit.found rowShape otherShape items (start + entry.2 * rowShape.volume) entry.1 := by
  induction others generalizing start s items with
  | nil => rfl
  | cons other others ih =>
      obtain ⟨first, rest⟩ := List.forall_mem_cons.mp keeps
      -- the later visits start from what the first one has left, which the later rows do not show
      rw [visitFrom, List.map_cons, ih rest, List.zipIdx_cons, List.map_cons, Nat.zero_mul,
        Nat.add_zero, List.zipIdx_succ, List.map_map]
      refine congrArg _ (List.map_congr_left fun (other, k) _ => ?_)
      have next : start + (k + 1) * rowShape.volume =
          start + rowShape.volume + k * rowShape.volume := by
        rw [Nat.succ_mul, Nat.add_comm (k * _), Nat.add_assoc]
      simp only [Function.comp_apply, next]
      exact found_writeAll (fun write mem => Nat.lt_add_right _ (first write mem).2) other

/-- The visitor that puts something else in the place of every row. -/
def rewriting (g : List α → List β → List α) : Visitor Unit α β := fun _ _ visit =>
  ((), ((g visit.row visit.other).zipIdx visit.start).map Prod.swap)

/-- Rows are rewritten between those that have been and the elements that are left. -/
theorem writeAll_rewriting {g : List α → List β → List α} {pairs : List (List α × List β)}
    (rows : ∀ pair ∈ pairs, pair.1.length = rowShape.volume)
    (keeps : ∀ pair ∈ pairs, (g pair.1 pair.2).length = rowShape.volume)
    (done rest : List α) :
    let items := done ++ pairs.flatMap Prod.fst ++ rest
    writeAll ((rewriting g).visitFrom rowShape otherShape (pairs.map Prod.snd) done.length ()
        items).writes items =
      done ++ (pairs.flatMap fun (row, other) => g row other) ++ rest := by
  intro items
  -- `done` grows by the rows that have been rewritten, so its length is where the next row starts
  induction pairs generalizing done with
  | nil => rfl
  | cons pair pairs ih =>
      obtain ⟨row, other⟩ := pair
      obtain ⟨length, rows⟩ := List.forall_mem_cons.mp rows
      obtain ⟨length', keeps⟩ := List.forall_mem_cons.mp keeps
      replace length : row.length = rowShape.volume := length
      replace length' : (g row other).length = rowShape.volume := length'
      have split : items = done ++ row ++ (pairs.flatMap Prod.fst ++ rest) := by
        simp only [items, List.flatMap_cons, List.append_assoc]
      have here : (items.drop done.length).take rowShape.volume = row := by
        rw [split, List.append_assoc, List.drop_left' rfl, List.take_left' length]
      have written := writeAll_zipIdx done (g row other) row (pairs.flatMap Prod.fst ++ rest)
        (length'.trans length.symm)
      have next := ih rows keeps (done ++ g row other)
      rw [List.length_append, length'] at next
      rw [← split, ← List.append_assoc] at written
      simp only [List.map_cons, visitFrom, rewriting, Visit.found, here, VisitLog.writes,
        List.flatMap_cons, writeAll_append, written] at next ⊢
      simpa only [List.append_assoc] using next

end Visitor

namespace Aligned

variable {x : Aligned α β} {f : Visitor σ α β} {s : σ}

/-- The elements of the first grid, whose rows are visited where they are. -/
def items (x : Aligned α β) : List α :=
  x.pairs.flatMap Prod.fst ++ x.unpaired

def visits (f : Visitor σ α β) (s : σ) (x : Aligned α β) : VisitLog α β :=
  f.visitFrom x.rowShape x.otherShape (x.pairs.map Prod.snd) 0 s x.items

theorem found_row (rows : ∀ pair ∈ x.pairs, pair.1.length = x.rowShape.volume) {k : Nat}
    {pair : List α × List β} (there : x.pairs[k]? = some pair) :
    (x.items.drop (k * x.rowShape.volume)).take x.rowShape.volume = pair.1 := by
  have each : ∀ row ∈ x.pairs.map Prod.fst, row.length = x.rowShape.volume := by
    intro row mem
    obtain ⟨pair, here, rfl⟩ := List.mem_map.mp mem
    exact rows pair here
  have whole : x.items.take (x.pairs.length * x.rowShape.volume) = x.pairs.flatMap Prod.fst :=
    List.take_left' (length_flatMap_eq rows)
  have cut := pieces_flatten each
  rw [List.length_map, ← List.flatMap_def, ← whole, pieces_take] at cut
  have below : k < x.pairs.length := (List.getElem?_eq_some_iff.mp there).1
  have row : (x.pairs.map Prod.fst)[k]? = _ := cut ▸ getElem?_pieces below x.items
  rw [List.getElem?_map, there] at row
  exact (Option.some.inj row).symm

/-- If all rows have their full length and every visit keeps to its own, the pairs are visited in
order. -/
theorem map_fst_visits (rows : ∀ pair ∈ x.pairs, pair.1.length = x.rowShape.volume)
    (keeps : (x.visits f s).KeepsToRows) :
    (x.visits f s).map Prod.fst = x.pairs.zipIdx.map fun ((row, other), k) =>
      ⟨x.rowShape, row, k * x.rowShape.volume, x.otherShape, other⟩ := by
  rw [visits, Visitor.map_fst_visitFrom keeps, List.zipIdx_map, List.map_map]
  refine List.map_congr_left fun ((row, other), k) mem => ?_
  have there : x.pairs[k]? = some (row, other) := List.mk_mem_zipIdx_iff_getElem?.mp mem
  simp only [Function.comp_apply, Prod.map, id_eq, Visit.found, Nat.zero_add, found_row rows there]

/-- Rewriting the rows one by one where they are is changing the grid row by row. -/
theorem writeAll_visits_rewriting {g : List α → List β → List α}
    (rows : ∀ pair ∈ x.pairs, pair.1.length = x.rowShape.volume)
    (keeps : ∀ pair ∈ x.pairs, (g pair.1 pair.2).length = x.rowShape.volume) :
    writeAll (x.visits (Visitor.rewriting g) ()).writes x.items = (x.mapRows g).items :=
  Visitor.writeAll_rewriting rows keeps [] x.unpaired

end Aligned

namespace Shape

/-- Leading axes of length one are passed at coordinate zero. -/
theorem offset_zeros (n : Nat) (s : Shape) (place : List Nat) :
    offset (List.replicate n 1 ++ s) (List.replicate n 0 ++ place) = s.offset place := by
  induction n with
  | zero => rfl
  | succ n ih =>
      rw [List.replicate_succ, List.replicate_succ, List.cons_append, List.cons_append, offset, ih,
        Nat.zero_mul, Nat.zero_add]

theorem ones_append_dropWhile (s : Shape) :
    List.replicate (s.length - (s.dropWhile (· == 1)).length) 1 ++ s.dropWhile (· == 1) = s := by
  have units : s.takeWhile (· == 1) = List.replicate (s.takeWhile (· == 1)).length 1 :=
    List.eq_replicate_of_mem fun d mem => by
      have one : (d == 1) = true := List.mem_takeWhile_imp (p := (· == 1)) mem
      exact beq_iff_eq.mp one
  have whole := List.takeWhile_append_dropWhile (p := (· == 1)) (l := s)
  have lengths := congrArg List.length whole
  rw [List.length_append] at lengths
  rw [← lengths, Nat.add_sub_cancel, ← units, whole]

/-- What matching leaves out of a frame are leading axes of length one. -/
theorem ones_append_matched (s t : Shape) :
    List.replicate (s.length - (matched s t).1.length) 1 ++ (matched s t).1 = s ∧
      List.replicate (t.length - (matched s t).2.length) 1 ++ (matched s t).2 = t := by
  rw [matched]
  split
  · rw [Nat.sub_self, Nat.sub_self]
    exact ⟨rfl, rfl⟩
  · exact ⟨ones_append_dropWhile s, ones_append_dropWhile t⟩

end Shape

namespace Grid

variable {a : Grid α} {b : Grid β} {frame : Shape} {place : List Nat} {depth otherDepth : Nat}

/-- The row of a grid below a place of a longer frame, if `frame` is what has been left of its own
one. Axes that were left out have coordinate zero. -/
def rowBelow (depth : Nat) (frame : Shape) (place : List Nat) (a : Grid α) : Grid α :=
  a.cellAt
    (List.replicate ((a.shape.take depth).length - frame.length) 0 ++ place.take frame.length)

theorem cellAt_zeros {n : Nat} {s : Shape} (shape : a.shape = List.replicate n 1 ++ s)
    (place : List Nat) :
    a.cellAt (List.replicate n 0 ++ place) = (a.withShape s).cellAt place := by
  have rest : (List.replicate n (1 : Int) ++ s).drop (n + place.length) = s.drop place.length := by
    rw [← List.drop_drop, List.drop_left' List.length_replicate]
  rw [cellAt, cellAt, shape, List.length_append, List.length_replicate, rest, Shape.offset_zeros]
  rfl

theorem rowBelow_eq (ones : List.replicate ((a.shape.take depth).length - frame.length) 1 ++ frame =
    a.shape.take depth) (place : List Nat) :
    a.rowBelow depth frame place =
      (a.withShape (frame ++ a.shape.drop depth)).cellAt (place.take frame.length) := by
  refine cellAt_zeros ?_ _
  rw [← List.append_assoc, ones, List.take_append_drop]

section

variable {whole : Shape} (h : a.Reached frame depth)
include h

/-- All elements on the frame are held, also if there are no rows. -/
theorem items_along (b : Grid β) :
    (along whole frame depth otherDepth a b).items = (a.onFrame frame depth).items := by
  simp only [along, Aligned.items, List.append_nil]
  split
  · rename_i empty
    have none := h.length_onFrame
    rw [empty, Nat.mul_zero] at none
    exact (List.length_eq_zero_iff.mp none).symm
  · rw [List.flatMap_map]
    rfl

theorem length_row_along (b : Grid β) :
    ∀ pair ∈ (along whole frame depth otherDepth a b).pairs,
      pair.1.length = (along whole frame depth otherDepth a b).rowShape.volume := by
  intro pair mem
  simp only [along] at mem ⊢
  rw [← Shape.cellCount_eq_volume (h.wellFormed.natural.drop depth)]
  split at mem
  · cases mem
  · obtain ⟨place, there, rfl⟩ := List.mem_map.mp mem
    exact h.length_cell there

/-- The visits along a frame are made at its places, in order. -/
theorem map_fst_visits_along {f : Visitor σ α β} {s : σ} {b : Grid β} {rowShape otherShape : Shape}
    (back : a.shape.drop depth = rowShape) (otherBack : b.shape.drop otherDepth = otherShape)
    (keeps : ((along whole frame depth otherDepth a b).visits f s).KeepsToRows) :
    ((along whole frame depth otherDepth a b).visits f s).map Prod.fst =
      if rowShape.cellCount = 0 then []
      else frame.coordinates.zipIdx.map fun (place, k) =>
        { rowShape
          row := (a.cellAt (place.take depth)).items
          start := k * rowShape.cellCount
          otherShape
          other := (b.cellAt (place.take otherDepth)).items } := by
  have natural := h.wellFormed.natural.drop depth
  subst back otherBack
  rw [Aligned.map_fst_visits (length_row_along h b) keeps]
  simp only [along, Shape.cellCount_eq_volume natural]
  split
  · rfl
  · rw [List.zipIdx_map, List.map_map]
    rfl

/-- What visits write in their rows is written within the elements. -/
theorem write_lt_length {f : Visitor σ α β} {s : σ} (b : Grid β)
    (keeps : ((along whole frame depth otherDepth a b).visits f s).KeepsToRows)
    {write : Nat × α} (mem : write ∈ ((along whole frame depth otherDepth a b).visits f s).writes) :
    write.1 < (a.onFrame frame depth).items.length := by
  obtain ⟨entry, made, wrote⟩ := List.mem_flatMap.mp mem
  have own := keeps entry made write wrote
  have told := List.mem_map_of_mem (f := Prod.fst) made
  rw [map_fst_visits_along h rfl rfl keeps] at told
  split at told
  · cases told
  · obtain ⟨⟨place, k⟩, there, same⟩ := List.mem_map.mp told
    have below : k < frame.cellCount := by
      rw [← Shape.length_coordinates]
      exact (List.getElem?_eq_some_iff.mp (List.mk_mem_zipIdx_iff_getElem?.mp there)).1
    have within := Nat.mul_le_mul_right (Shape.cellCount (a.shape.drop depth)) below
    rw [← same, Visit.Owns, ← Shape.cellCount_eq_volume (h.wellFormed.natural.drop depth)] at own
    rw [Nat.succ_mul] at within
    rw [h.length_onFrame]
    exact Nat.lt_of_lt_of_le own.2 within

end

/-- Rows that were aligned all have their full length. -/
theorem align_rows {kinds : Kind × Kind} {x : Aligned α β} (ha : a.WellFormed) (hb : b.WellFormed)
    (aligned : a.align kinds (Int.ofNat depth) b (Int.ofNat otherDepth) = .ok x) :
    x.rowShape.Natural ∧ ∀ pair ∈ x.pairs, pair.1.length = x.rowShape.volume := by
  have along := align_eq ha hb kinds depth otherDepth
  simp only [aligned] at along
  split at along
  · rename_i agree
    have reached := ha.reached_matched depth agree
    obtain rfl := Except.ok.inj along
    exact ⟨reached.wellFormed.natural.drop _, length_row_along reached _⟩
  · cases along

/-- The elements of a grid once its rows have been repeated over the axes that its frame, the first
of two, lacks. -/
def spreadItems (frames : Shape × Shape) (rowShape : Shape) (items : List α) : List α :=
  if frames.1.length < frames.2.length then
    repeatPieces rowShape.volume (Shape.volume (frames.2.drop frames.1.length)) items
  else items

theorem spreadItems_map (i : α → γ) (frames : Shape × Shape) (rowShape : Shape)
    (items : List α) :
    spreadItems frames rowShape (items.map i) = (spreadItems frames rowShape items).map i := by
  rw [spreadItems, spreadItems]
  split
  · exact repeatPieces_map ..
  · rfl

/-- On the longer of two frames stands every row as often as it was repeated. -/
theorem WellFormed.items_onFrame_longer {frames : Shape × Shape} {rowShape : Shape}
    (h : a.WellFormed) (shape : a.shape = frames.1 ++ rowShape) (natural : frames.2.Natural)
    (agree : Shape.Compatible frames.1 frames.2) :
    (a.onFrame (Shape.longer frames.1 frames.2) frames.1.length).items =
      spreadItems frames rowShape a.items := by
  have front : a.shape.take frames.1.length = frames.1 := by rw [shape, List.take_left]
  have back : a.shape.drop frames.1.length = rowShape := by rw [shape, List.drop_left]
  have rank : frames.1.length ≤ a.rank := by
    rw [Grid.rank, shape]
    exact (List.prefix_append ..).length_le
  have lead := agree.take_longer_left
  rw [spreadItems]
  rw [Shape.longer] at lead ⊢
  split
  · rename_i shorter
    rw [if_pos shorter] at lead
    have whole : a.shape.take frames.1.length ++ frames.2.drop frames.1.length = frames.2 := by
      rw [front]
      nth_rewrite 1 [← lead]
      exact List.take_append_drop ..
    have spread := h.spread_eq_onFrame rank (natural.drop frames.1.length)
    rw [whole] at spread
    rw [← spread, ← back]
    rfl
  · have whole := onFrame_self h frames.1.length
    rw [front] at whole
    rw [whole]

end Grid

namespace Buffer

variable {frames : Shape × Shape} {rowShape otherShape : Shape} {left right lent copy : String}
  {writes : List (Nat × γ)}

namespace Command

/-- Repeat the rows of a buffer over the axes that its frame lacks. Where it is the second of two
buffers whose frame is shorter, a copy of it is made and takes its place. -/
def spreadRows (frames : Shape × Shape) (rowShape otherShape : Shape)
    (left lent copy : String) : List (Command γ) :=
  if frames.1.length < frames.2.length then
    [.repeatRows left rowShape.volume (Shape.volume (frames.2.drop frames.1.length))]
  else if frames.2.length < frames.1.length then
    [.clone lent copy,
      .repeatRows copy otherShape.volume (Shape.volume (frames.1.drop frames.2.length))]
  else []

/-- Write in the rows of a buffer, after the partners have been read from another. -/
def writeRows (left lent : String) (writes : List (Nat × γ)) : List (Command γ) :=
  .expose left :: .read lent Query.all :: writeEach left writes

/-- The commands by which rows are visited along two frames, where the writes are those that the
visits ask for. Of the second buffer a copy is made if leading axes are left out, and nothing else
is done if the frames do not agree. -/
def visitRows (frames : Shape × Shape) (copied : Bool) (rowShape otherShape : Shape)
    (left right copy : String) (writes : List (Nat × γ)) : List (Command γ) :=
  let lent := if copied then copy else right
  let read := if frames.2.length < frames.1.length then copy else lent
  (if copied then [.clone right copy] else []) ++
    if Shape.Compatible frames.1 frames.2 then
      spreadRows frames rowShape otherShape left lent copy ++
        if rowShape.cellCount = 0 then [] else writeRows left read writes
    else []

theorem touches_spreadRows : ∀ c ∈ (spreadRows frames rowShape otherShape left lent copy :
    List (Command γ)), ∀ name, c.Touches name → name = left ∨ name = copy := by
  rw [spreadRows]
  split
  · exact List.forall_mem_singleton.mpr fun name touched => .inl (touches_repeatRows touched)
  · split
    · refine List.forall_mem_cons.mpr ⟨fun name touched => .inr touched, ?_⟩
      exact List.forall_mem_singleton.mpr fun name touched => .inr (touches_repeatRows touched)
    · exact List.forall_mem_nil _

theorem touches_writeRows : ∀ c ∈ writeRows left lent writes, ∀ name, c.Touches name →
    name = left := by
  refine List.forall_mem_cons.mpr ⟨fun _ never => never.elim, ?_⟩
  refine List.forall_mem_cons.mpr ⟨fun _ never => never.elim, ?_⟩
  exact fun c mem name touched => touches_writeEach mem touched

/-- The second buffer is not touched by visits. -/
theorem touches_visitRows {copied : Bool} :
    ∀ c ∈ visitRows frames copied rowShape otherShape left right copy writes,
      ∀ name, c.Touches name → name = left ∨ name = copy := by
  refine List.forall_mem_append.mpr ⟨?_, ?_⟩
  · split
    · exact List.forall_mem_singleton.mpr fun name touched => .inr touched
    · exact List.forall_mem_nil _
  · split
    · refine List.forall_mem_append.mpr ⟨touches_spreadRows, ?_⟩
      split
      · exact List.forall_mem_nil _
      · exact fun c mem name touched => .inl (touches_writeRows c mem name touched)
    · exact List.forall_mem_nil _

end Command

namespace Separate

variable {s : Separate γ} {xs ys : List γ} {copied : Bool}

theorem reaches_copied (copied : Bool) (notCopy : copy ≠ left) (mine : s.get? left = some xs)
    (found : s.get? right = some ys) :
    ∃ t, s.Reaches (if copied then [.clone right copy] else []) t ∧ t.get? left = some xs ∧
      t.get? (if copied then copy else right) = some ys := by
  cases copied with
  | true =>
      refine ⟨_, .single (step_clone found), ?_, Table.get?_put_self⟩
      exact (Table.get?_put_of_ne notCopy.symm).trans mine
  | false => exact ⟨s, .nil, mine, found⟩

theorem reaches_spreadRows (frames : Shape × Shape) (rowShape otherShape : Shape)
    (notLent : lent ≠ left) (notCopy : copy ≠ left) (mine : s.get? left = some xs)
    (found : s.get? lent = some ys) :
    ∃ t zs, s.Reaches (Command.spreadRows frames rowShape otherShape left lent copy) t ∧
      t.get? left = some (Grid.spreadItems frames rowShape xs) ∧
      t.get? (if frames.2.length < frames.1.length then copy else lent) = some zs := by
  rw [Command.spreadRows, Grid.spreadItems]
  split
  · rename_i shorter
    refine ⟨_, ys, .single (step_repeatRows _ _ mine), Table.get?_put_self, ?_⟩
    rw [if_neg (Nat.not_lt_of_gt shorter)]
    exact (Table.get?_put_of_ne notLent).trans found
  · split
    · have cloned : s.Reaches [.clone lent copy] (s.put copy ys) := .single (step_clone found)
      have spread := Reaches.single (step_repeatRows (s := s.put copy ys) otherShape.volume
        (Shape.volume (frames.1.drop frames.2.length)) Table.get?_put_self)
      refine ⟨_, _, cloned.append spread, ?_, Table.get?_put_self⟩
      rw [Table.get?_put_of_ne notCopy.symm, Table.get?_put_of_ne notCopy.symm, mine]
    · exact ⟨s, ys, .nil, mine, found⟩

theorem reaches_writeRows (there : ∀ write ∈ writes, write.1 < xs.length)
    (mine : s.get? left = some xs) (found : s.get? lent = some ys) :
    ∃ t, s.Reaches (Command.writeRows left lent writes) t ∧
      t.get? left = some (writeAll writes xs) := by
  obtain ⟨t, reached, shown⟩ := reaches_writeEach there mine
  exact ⟨t, (Reaches.single (step_expose mine)).append
    ((Reaches.single (step_read_all found)).append reached), shown⟩

/-- Along frames that agree, the elements are there once for every row of the longer one, with what
was written in them. Without elements in the rows there is nothing to write. -/
theorem reaches_visitRows (otherShape : Shape) (agree : Shape.Compatible frames.1 frames.2)
    (apart : right ≠ left) (notCopy : copy ≠ left) (idle : rowShape.cellCount = 0 → writes = [])
    (there : ∀ write ∈ writes, write.1 < (Grid.spreadItems frames rowShape xs).length)
    (mine : s.get? left = some xs) (found : s.get? right = some ys) :
    ∃ t, s.Reaches (Command.visitRows frames copied rowShape otherShape left right copy writes) t ∧
      t.get? left = some (writeAll writes (Grid.spreadItems frames rowShape xs)) := by
  have notLent : (if copied then copy else right) ≠ left := by
    split
    · exact notCopy
    · exact apart
  obtain ⟨t, first, mine, found⟩ := reaches_copied copied notCopy mine found
  obtain ⟨u, zs, second, mine, found⟩ :=
    reaches_spreadRows frames rowShape otherShape notLent notCopy mine found
  obtain ⟨v, third, written⟩ := reaches_writeRows there mine found
  rw [Command.visitRows, if_pos agree]
  by_cases empty : rowShape.cellCount = 0
  · rw [if_pos empty, List.append_nil, idle empty]
    exact ⟨u, first.append second, mine⟩
  · rw [if_neg empty]
    exact ⟨v, first.append (second.append third), written⟩

/-- Along frames that do not agree nothing is written. -/
theorem reaches_visitRows_of_disagree (otherShape : Shape)
    (disagree : ¬ Shape.Compatible frames.1 frames.2) (notCopy : copy ≠ left)
    (mine : s.get? left = some xs) (found : s.get? right = some ys) :
    ∃ t, s.Reaches (Command.visitRows frames copied rowShape otherShape left right copy writes) t ∧
      t.get? left = some xs := by
  obtain ⟨t, reached, mine, -⟩ := reaches_copied copied notCopy mine found
  rw [Command.visitRows, if_neg disagree, List.append_nil]
  exact ⟨t, reached, mine⟩

end Separate

end Buffer

namespace Grid

open Buffer (Command Pool Separate)

variable {a : Grid α} {b : Grid β} {depth otherDepth : Nat}

/-- The commands by which the rows of two grids are visited in shared storage. -/
def visitCommands (a : Grid α) (depth : Nat) (b : Grid β) (otherDepth : Nat)
    (left right copy : String) (writes : List (Nat × γ)) : List (Command γ) :=
  let s : Shape := a.shape.take depth
  let t : Shape := b.shape.take otherDepth
  let copied : Bool := ¬ Shape.Compatible s t ∧ b.shape.head? = some 1
  Command.visitRows (Shape.matched s t) copied (a.shape.drop depth) (b.shape.drop otherDepth)
    left right copy writes

/-- After the visits the buffer of the first grid shows the given items, and all other buffers, that
of the second grid among them, show what they showed before. The copy is an exception. This is so
whatever the elements of the two grids stand for in storage. -/
def VisitsLeave (a : Grid α) (depth : Nat) (b : Grid β) (otherDepth : Nat)
    (writes : List (Nat × α)) (items : List α) : Prop :=
  ∀ {γ : Type} (i : α → γ) (j : β → γ) (before : List (Command γ)) (left right copy : String),
    right ≠ left → copy ≠ left → right ≠ copy →
    let p := (Pool.empty.run before).1
    let commands :=
      a.visitCommands depth b otherDepth left right copy (writes.map (Prod.map id i))
    p.shown.get? left = some (a.items.map i) → p.shown.get? right = some (b.items.map j) →
      p.Leaves commands left copy (items.map i) ∧
        (p.run commands).1.shown.get? right = some (b.items.map j)

/-- What the commands lead to on separate lists is what they leave in shared storage. -/
theorem visitsLeave_of_reaches {writes : List (Nat × α)} {items : List α}
    (reach : ∀ {γ : Type} (i : α → γ) (s : Separate γ) (ys : List γ) (left right copy : String),
      right ≠ left → copy ≠ left → s.get? left = some (a.items.map i) → s.get? right = some ys →
      ∃ t, s.Reaches
          (a.visitCommands depth b otherDepth left right copy (writes.map (Prod.map id i))) t ∧
        t.get? left = some (items.map i)) :
    a.VisitsLeave depth b otherDepth writes items := by
  intro γ i j before left right copy apart notCopy notTaken p commands mine found
  obtain ⟨t, reached, shown⟩ := reach i p.shown _ left right copy apart notCopy mine found
  have leaves := Pool.leaves_of_reaches (Pool.consistent_run_empty before) reached shown
    Command.touches_visitRows
  exact ⟨leaves, (leaves.others right apart notTaken).trans found⟩

theorem visitsLeave_of_agree {frames : Shape × Shape} {writes : List (Nat × α)}
    (matched : Shape.matched (a.shape.take depth) (b.shape.take otherDepth) = frames)
    (agree : Shape.Compatible frames.1 frames.2)
    (idle : Shape.cellCount (a.shape.drop depth) = 0 → writes = [])
    (there : ∀ write ∈ writes,
      write.1 < (spreadItems frames (a.shape.drop depth) a.items).length) :
    a.VisitsLeave depth b otherDepth writes
      (writeAll writes (spreadItems frames (a.shape.drop depth) a.items)) := by
  refine visitsLeave_of_reaches fun i s ys left right copy apart notCopy mine found => ?_
  have inside : ∀ write ∈ writes.map (Prod.map id i),
      write.1 < (spreadItems frames (a.shape.drop depth) (a.items.map i)).length := by
    intro write mem
    obtain ⟨old, wrote, rfl⟩ := List.mem_map.mp mem
    rw [spreadItems_map, List.length_map]
    exact there old wrote
  obtain ⟨t, reached, shown⟩ := Separate.reaches_visitRows (b.shape.drop otherDepth) agree apart
    notCopy (fun empty => List.map_eq_nil_iff.mpr (idle empty)) inside mine found
  rw [spreadItems_map, writeAll_map] at shown
  rw [visitCommands, matched]
  exact ⟨t, reached, shown⟩

theorem visitsLeave_of_disagree {frames : Shape × Shape}
    (matched : Shape.matched (a.shape.take depth) (b.shape.take otherDepth) = frames)
    (disagree : ¬ Shape.Compatible frames.1 frames.2) (writes : List (Nat × α)) :
    a.VisitsLeave depth b otherDepth writes a.items := by
  refine visitsLeave_of_reaches fun i s ys left right copy apart notCopy mine found => ?_
  rw [visitCommands, matched]
  exact Separate.reaches_visitRows_of_disagree _ disagree notCopy mine found

end Grid

/-- Grids are visited row by row along the longer of their frames, which have to agree as they are
or without leading axes of length one. There is one visit for each place of the frame, in order, as
long as every visit keeps to its own row, and it is told the rows of the two grids that the place
leads to. Rows without elements are not visited. If the frames do not agree, nothing is visited
and the elements stay as they are. In either case the second grid does. -/
theorem visits_follow_frames {a : Grid α} {b : Grid β} (ha : a.WellFormed) (hb : b.WellFormed)
    (kinds : Kind × Kind) (depth otherDepth : Nat) :
    let frames := Shape.matched (a.shape.take depth) (b.shape.take otherDepth)
    let frame := Shape.longer frames.1 frames.2
    let rowShape : Shape := a.shape.drop depth
    let otherShape : Shape := b.shape.drop otherDepth
    let result := a.align kinds (Int.ofNat depth) b (Int.ofNat otherDepth)
    (Shape.Compatible frames.1 frames.2 → ∃ x, result = .ok x ∧
      ∀ {σ : Type} (f : Visitor σ α β) (s : σ), (x.visits f s).KeepsToRows →
        (x.visits f s).map Prod.fst =
          (if rowShape.cellCount = 0 then []
          else frame.coordinates.zipIdx.map fun (place, k) =>
            { rowShape
              row := (a.rowBelow depth frames.1 place).items
              start := k * rowShape.cellCount
              otherShape
              other := (b.rowBelow otherDepth frames.2 place).items }) ∧
        a.VisitsLeave depth b otherDepth (x.visits f s).writes
          (writeAll (x.visits f s).writes x.items)) ∧
    (¬ Shape.Compatible frames.1 frames.2 → ∃ left : Grid α,
      result = .error ⟨.shape (.frames (frames.1 ++ rowShape) (frames.2 ++ otherShape)
        frames.1 frames.2), left⟩ ∧
      left.items = a.items ∧ ∀ writes, a.VisitsLeave depth b otherDepth writes a.items) := by
  intro frames frame rowShape otherShape result
  have aligned := Grid.align_eq ha hb kinds depth otherDepth
  obtain ⟨ones, otherOnes⟩ :=
    Shape.ones_append_matched (a.shape.take depth) (b.shape.take otherDepth)
  constructor
  · intro agree
    have reached := ha.reached_matched depth agree
    have natural : Shape.Natural frames.2 := by
      have whole := hb.natural.take otherDepth
      rw [← otherOnes] at whole
      exact (Shape.natural_append.mp whole).2
    have spread : ((a.withShape (frames.1 ++ rowShape)).onFrame frame frames.1.length).items =
        Grid.spreadItems frames rowShape a.items :=
      (ha.matched depth _).items_onFrame_longer rfl natural agree
    refine ⟨_, aligned.trans (if_pos agree), fun f s keeps => ?_⟩
    have back : (a.withShape (frames.1 ++ rowShape)).shape.drop frames.1.length = rowShape :=
      List.drop_left
    have visited := Grid.map_fst_visits_along reached back List.drop_left keeps
    have row (place : List Nat) : a.rowBelow depth frames.1 place =
        (a.withShape (frames.1 ++ rowShape)).cellAt (place.take frames.1.length) :=
      Grid.rowBelow_eq ones place
    have other (place : List Nat) : b.rowBelow otherDepth frames.2 place =
        (b.withShape (frames.2 ++ otherShape)).cellAt (place.take frames.2.length) :=
      Grid.rowBelow_eq otherOnes place
    constructor
    · simp only [row, other]
      exact visited
    · rw [(Grid.items_along reached _).trans spread]
      refine Grid.visitsLeave_of_agree rfl agree (fun empty => ?_) fun write mem => ?_
      · replace empty : rowShape.cellCount = 0 := empty
        rw [if_pos empty, List.map_eq_nil_iff] at visited
        rw [visited]
        rfl
      · exact spread ▸ Grid.write_lt_length reached _ keeps mem
  · intro disagree
    refine ⟨_, aligned.trans (if_neg disagree), rfl, fun writes => ?_⟩
    exact Grid.visitsLeave_of_disagree rfl disagree writes

/-- A visitor that numbers the rows in their first column visits each of two rows twice, as two
numbers of a table with a leading axis of length one lie below it. Three numbers do not match the
rows. -/
theorem numbered_rows_visited :
    let a : Grid Char := ⟨[2, 2], ['a', 'b', 'c', 'd']⟩
    let b : Grid Nat := ⟨[1, 2, 2], [1, 2, 3, 4]⟩
    let three : Grid Nat := ⟨[3], [1, 2, 3]⟩
    let f : Visitor Nat Char Nat := fun count _ visit =>
      (count + 1, [(visit.start, Char.ofNat (48 + count))])
    let before : List (Buffer.Command (Char ⊕ Nat)) :=
      [.create "a" (a.items.map .inl), .create "b" (b.items.map .inr)]
    let p := (Buffer.Pool.empty.run before).1
    let x : Aligned Char Nat := {
      rowShape := [2]
      otherShape := []
      pairs := [(['a', 'b'], [1]), (['a', 'b'], [2]), (['c', 'd'], [3]), (['c', 'd'], [4])]
      unpaired := []
      shape := [2, 2, 2] }
    let log := x.visits f 0
    let q := (p.run (a.visitCommands 1 b 3 "a" "b" "c" (log.writes.map (Prod.map id .inl)))).1
    a.WellFormed ∧ b.WellFormed ∧ three.WellFormed ∧
      Shape.matched [2] [1, 2, 2] = ([2], [2, 2]) ∧ Shape.Compatible [2] [2, 2] ∧
      a.align (.character, .byte) 1 b 3 = .ok x ∧ log.KeepsToRows ∧
      log.map Prod.fst =
        [⟨[2], ['a', 'b'], 0, [], [1]⟩, ⟨[2], ['a', 'b'], 2, [], [2]⟩,
          ⟨[2], ['c', 'd'], 4, [], [3]⟩, ⟨[2], ['c', 'd'], 6, [], [4]⟩] ∧
      q.shown.get? "a" = some (['0', 'b', '1', 'b', '2', 'd', '3', 'd'].map .inl) ∧
      q.shown.get? "b" = some (b.items.map .inr) ∧ ¬ Shape.Compatible [2] [3] ∧
      ∃ left : Grid Char, a.align (.character, .byte) 1 three 1 =
        .error ⟨.shape (.frames [2, 2] [3] [2] [3]), left⟩ ∧ left.items = a.items := by
  intro a b three f before p x log q
  have ha : a.WellFormed := by decide
  have hb : b.WellFormed := by decide
  have ht : three.WellFormed := by decide
  have agree : Shape.Compatible [2] [2, 2] := by decide
  have disagree : ¬ Shape.Compatible [2] [3] := by decide
  have keeps : log.KeepsToRows := by decide
  have known : a.align (.character, .byte) 1 b 3 = .ok x :=
    (Grid.align_eq ha hb (.character, .byte) 1 3).trans (if_pos agree)
  obtain ⟨y, aligned, visits⟩ := (visits_follow_frames ha hb (.character, .byte) 1 3).1 agree
  obtain rfl : y = x := Except.ok.inj (aligned.symm.trans known)
  obtain ⟨told, leave⟩ := visits f 0 keeps
  obtain ⟨leaves, second⟩ := leave .inl .inr before "a" "b" "c" (by decide) (by decide) (by decide)
    rfl rfl
  obtain ⟨left, refused, items, -⟩ :=
    (visits_follow_frames ha ht (.character, .byte) 1 1).2 disagree
  have held : writeAll log.writes x.items = ['0', 'b', '1', 'b', '2', 'd', '3', 'd'] := by decide
  exact ⟨ha, hb, ht, rfl, agree, known, keeps, told.trans (by decide), held ▸ leaves.shown, second,
    disagree, left, refused, items⟩

end RowMajor
