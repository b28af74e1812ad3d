import RowMajor.Proofs.Operations.Frames
import RowMajor.Proofs.Operations.Keep
import RowMajor.Proofs.Operations.Pick
import RowMajor.Proofs.Operations.Reshape
import RowMajor.Proofs.Operations.Rotate
import RowMajor.Proofs.Operations.Search
import RowMajor.Proofs.Operations.Section
import RowMajor.Proofs.Operations.Select
import RowMajor.Proofs.Operations.Windows

/-!
# Which operations crash

The operations that cut arrays up and put them together again are gathered in one type, each
with the arrays it is given. Run on well-formed arrays, all of them give a well-formed array or
refuse what they were given, with the exception of a search for positions among more rows than any
number counts. Shape and elements never disagree on the way, and no part of a buffer is asked for
that is not there.
-/

namespace RowMajor

/-- An operation together with the arrays it is given, the fill value and the options that it
reads. Depths are natural numbers. -/
inductive Operation where
  | reshape (shape value : Value) (fill : Fill)
  | unreshape (value oldShape : Value)
  | rerank (rank value : Value)
  | unrerank (value rank oldShape : Value)
  | keep (counts value : Value) (fill : Fill)
  | unkeep (kept counts into : Value) (fill : Fill)
  | rotate (offsets value : Value) (fill : Fill)
  | rotateDepth (offsets value : Value) (offsetDepth depth : Nat) (fill : Fill)
  | windows (sizes value : Value)
  | find (needle haystack : Value) (fill : Fill) (options : Search.Options)
  | member (elems searched : Value) (options : Search.Options)
  | indexOf (elems searched : Value) (options : Search.Options)
  | progressiveIndexOf (elems searched : Value) (options : Search.Options)
  | pick (index value : Value) (fill : Fill)
  | unpick (picked index into : Value)
  | take (counts value : Value) (fill : Fill)
  | untake (taken counts into : Value)
  | drop (counts value : Value)
  | undrop (dropped counts into : Value)
  | select (indices value : Value) (fill : Fill)
  | unselect (selected indices into : Value)

namespace Operation

def run : Operation → Except Error Value
  | reshape shape value fill => RowMajor.reshape (.value shape) (.value value) fill
  | unreshape value oldShape => RowMajor.unreshape (.value value) (.value oldShape)
  | rerank rank value => RowMajor.rerank (.value rank) (.value value)
  | unrerank value rank oldShape =>
    RowMajor.unrerank (.value value) (.value rank) (.value oldShape)
  | keep counts value fill => RowMajor.keep (.value counts) (.value value) fill
  | unkeep kept counts into fill =>
    RowMajor.unkeep (.value kept) (.value counts) (.value into) fill
  | rotate offsets value fill => RowMajor.rotate (.value offsets) (.value value) fill
  | rotateDepth offsets value offsetDepth depth fill =>
    RowMajor.rotateDepth (.value offsets) (.value value) offsetDepth depth fill
  | windows sizes value => RowMajor.windows (.value sizes) (.value value)
  | find needle haystack fill options =>
    RowMajor.find (.value needle) (.value haystack) fill options
  | member elems searched options => RowMajor.member (.value elems) (.value searched) options
  | indexOf elems searched options => RowMajor.indexOf (.value elems) (.value searched) options
  | progressiveIndexOf elems searched options =>
    RowMajor.progressiveIndexOf (.value elems) (.value searched) options
  | pick index value fill => RowMajor.pick (.value index) (.value value) fill
  | unpick picked index into => RowMajor.unpick (.value picked) (.value index) (.value into)
  | take counts value fill => RowMajor.take (.value counts) (.value value) fill
  | untake taken counts into => RowMajor.untake (.value taken) (.value counts) (.value into)
  | drop counts value => RowMajor.drop (.value counts) (.value value)
  | undrop dropped counts into => RowMajor.undrop (.value dropped) (.value counts) (.value into)
  | select indices value fill => RowMajor.select (.value indices) (.value value) fill
  | unselect selected indices into =>
    RowMajor.unselect (.value selected) (.value indices) (.value into)

/-- The arrays are well formed, the fill value among them. -/
def WellFormed : Operation → Prop
  | reshape v w fill | keep v w fill | rotate v w fill | rotateDepth v w _ _ fill
  | find v w fill _ | pick v w fill | take v w fill | select v w fill =>
    v.WellFormed ∧ w.WellFormed ∧ fill.WellFormed
  | unkeep u v w fill => u.WellFormed ∧ v.WellFormed ∧ w.WellFormed ∧ fill.WellFormed
  | unreshape v w | rerank v w | windows v w | member v w _ | indexOf v w _
  | progressiveIndexOf v w _ | drop v w => v.WellFormed ∧ w.WellFormed
  | unrerank u v w | unpick u v w | untake u v w | undrop u v w | unselect u v w =>
    u.WellFormed ∧ v.WellFormed ∧ w.WellFormed

/-- The number of rows among which positions are looked for. -/
def searchedCount? : Operation → Option Int
  | indexOf elems searched _ | progressiveIndexOf elems searched _ =>
    some (Search.searchedCount elems.shape searched.shape)
  | _ => none

/-- The arrays do not fit the operation, or there are more rows than any number counts. -/
def Refuses (op : Operation) (e : Error) : Prop :=
  e.IsRefusal ∨ e = .tooLarge ∧ ∃ n, op.searchedCount? = some n ∧ Binary64.rounded? n = none

theorem run_outcome {op : Operation} (h : op.WellFormed) :
    Outcome Value.WellFormed op.Refuses op.run := by
  have yields {result : Except Error Value} (done : Yields Value.WellFormed result) :
      Outcome Value.WellFormed op.Refuses result :=
    done.mono (fun _ wf => wf) fun _ refusal => .inl refusal
  cases op with
  | reshape shape value fill =>
      obtain ⟨hs, hv, hf⟩ := h
      exact yields (reshape_yields hs hv hf)
  | unreshape value oldShape =>
      obtain ⟨hv, hs⟩ := h
      exact yields (unreshape_yields hv hs)
  | rerank rank value =>
      obtain ⟨hr, hv⟩ := h
      exact yields (rerank_yields hr hv)
  | unrerank value rank oldShape =>
      obtain ⟨hv, hr, hs⟩ := h
      exact yields (unrerank_yields hv hr hs)
  | keep counts value fill =>
      obtain ⟨hc, hv, -⟩ := h
      exact yields (keep_yields hc hv)
  | unkeep kept counts into fill =>
      obtain ⟨hk, hc, hi, -⟩ := h
      exact yields (unkeep_yields hk hc hi)
  | rotate offsets value fill =>
      obtain ⟨ho, hv, hf⟩ := h
      exact yields (rotate_yields ho hv hf)
  | rotateDepth offsets value offsetDepth depth fill =>
      obtain ⟨ho, hv, hf⟩ := h
      exact yields (rotateDepth_yields ho hv hf offsetDepth depth)
  | windows sizes value =>
      obtain ⟨hs, hv⟩ := h
      exact yields (windows_yields hs hv)
  | find needle haystack fill options =>
      obtain ⟨hn, hh, hf⟩ := h
      exact yields (find_yields hn hh hf options)
  | member elems searched options =>
      obtain ⟨he, hs⟩ := h
      exact yields (member_yields he hs options)
  | indexOf elems searched options =>
      obtain ⟨he, hs⟩ := h
      exact (indexOf_outcome he hs options).mono (fun _ wf => wf) fun _ refused =>
        refused.imp_right fun ⟨large, count⟩ => ⟨large, _, rfl, count⟩
  | progressiveIndexOf elems searched options =>
      obtain ⟨he, hs⟩ := h
      exact (progressiveIndexOf_outcome he hs options).mono (fun _ wf => wf) fun _ refused =>
        refused.imp_right fun ⟨large, count⟩ => ⟨large, _, rfl, count⟩
  | pick index value fill =>
      obtain ⟨hi, hv, hf⟩ := h
      exact yields (pick_yields hi hv hf)
  | unpick picked index into =>
      obtain ⟨hp, hx, hi⟩ := h
      exact yields (unpick_yields hp hx hi)
  | take counts value fill =>
      obtain ⟨hc, hv, hf⟩ := h
      exact yields (take_yields hc hv hf)
  | untake taken counts into =>
      obtain ⟨ht, hc, hi⟩ := h
      exact yields (untake_yields ht hc hi)
  | drop counts value =>
      obtain ⟨hc, hv⟩ := h
      exact yields (drop_yields hc hv)
  | undrop dropped counts into =>
      obtain ⟨hd, hc, hi⟩ := h
      exact yields (undrop_yields hd hc hi)
  | select indices value fill =>
      obtain ⟨hx, hv, hf⟩ := h
      exact yields (select_yields hx hv hf)
  | unselect selected indices into =>
      obtain ⟨hs, hx, hi⟩ := h
      exact yields (unselect_yields hs hx hi)

/-- No operation crashes but for one reason. On well-formed arrays it gives a well-formed array, or
refuses them for their shape, their kind, an index out of bounds, or because there is nothing to
undo. Only where positions are looked for among so many rows that their number lies beyond all that
are stored, it may fail to store one. -/
theorem run_safe (op : Operation) (h : op.WellFormed) :
    ((∃ v, op.run = .ok v ∧ v.WellFormed) ∨ ∃ e, op.run = .error e ∧ e.IsRefusal) ∨
      op.run = .error .tooLarge ∧
        ∃ n, op.searchedCount? = some n ∧ Binary64.rounded? n = none := by
  obtain done | ⟨e, failed, refusal | ⟨rfl, large⟩⟩ := (run_outcome h).ok_or_error
  · exact .inl (.inl done)
  · exact .inl (.inr ⟨e, failed, refusal⟩)
  · exact .inr ⟨failed, large⟩

/-- Three rows are taken of a table that has none, and all of them are filled. -/
theorem take_without_rows_safe :
    let op : Operation := .take (.byte ⟨[1], [3]⟩) (.character ⟨[0, 2], []⟩)
      ⟨some (.character (.scalar 'x'))⟩
    op.WellFormed ∧ op.run = .ok (.character ⟨[3, 2], ['x', 'x', 'x', 'x', 'x', 'x']⟩) ∧
      op.searchedCount? = none ∧
      ((∃ v, op.run = .ok v ∧ v.WellFormed) ∨ ∃ e, op.run = .error e ∧ e.IsRefusal) := by
  intro op
  have hf : Fill.WellFormed ⟨some (.character (.scalar 'x'))⟩ := by
    rintro v ⟨⟩
    exact .character (Grid.wellFormed_scalar 'x')
  have h : op.WellFormed := ⟨.byte (by decide), .character (by decide), hf⟩
  have unasked : op.searchedCount? = none := rfl
  refine ⟨h, rfl, unasked, (run_safe op h).resolve_right ?_⟩
  rintro ⟨-, n, counted, -⟩
  cases unasked.symm.trans counted

/-- A table has more empty rows than any number counts. -/
theorem positions_beyond_numbers :
    let op : Operation := .indexOf (.byte ⟨[1, 1], [1]⟩) (.byte ⟨[2 ^ 1024, 0], []⟩) .standard
    op.WellFormed ∧ op.run = .error .tooLarge ∧
      ¬ ((∃ v, op.run = .ok v ∧ v.WellFormed) ∨ ∃ e, op.run = .error e ∧ e.IsRefusal) := by
  intro op
  have row : (Value.byte ⟨[1, 1], [1]⟩).WellFormed := .byte (by decide)
  have table : (Value.byte ⟨[2 ^ 1024, 0], []⟩).WellFormed := .byte (by decide +kernel)
  have failed : op.run = .error .tooLarge :=
    indexOf_of_large (f := .uniform .byte) row table (by decide +kernel) (by decide +kernel)
      .standard
  refine ⟨⟨row, table⟩, failed, ?_⟩
  rintro (⟨v, done, -⟩ | ⟨e, refused, refusal⟩)
  · cases failed.symm.trans done
  · cases failed.symm.trans refused
    exact refusal

end Operation

end RowMajor
