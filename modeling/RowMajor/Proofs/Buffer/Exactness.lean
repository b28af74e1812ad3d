import RowMajor.Proofs.Buffer.Commands
import RowMajor.Proofs.Outcome

/-!
# The owners are exact

A storage is written to in place only by a handle that passes for its only owner, so the
safety of all others rests on the owners being exact. In every pool that commands can
reach they are: a handle counts as the only owner just if no other handle refers to its
storage. No command changes the items of a storage that a handle other than the one it
writes through refers to, and a handle that has been written through owns what it shows.
-/

namespace RowMajor.Buffer

variable {α : Type}

/-- The name through whose handle a command writes items. -/
def Command.written? : Command α → Option String
  | .extend name _ => some name
  | .modify name _ => some name
  | .write name _ _ => some name
  | _ => none

namespace Pool

variable {p q : Pool α} {h g : Handle} {name other : String} {items : List α}

/-- The handles of the table lie within their storages, the storages know them exactly, and what
can be asked of handles is answered rightly. -/
structure Exact (p : Pool α) : Prop where
  window : ∀ name h, p.handles.get? name = some h →
    h.start ≤ h.stop ∧ h.stop ≤ (p.stored h).length
  allocated : ∀ name h, p.handles.get? name = some h → h.storage < p.storages.length
  owners : ∀ i s, p.storages[i]? = some s → s.owners.Nodup ∧
    ∀ n, n ∈ s.owners ↔ ∃ name h, p.handles.get? name = some h ∧ h.storage = i ∧ h.number = n
  numbers : ∀ name h other g, p.handles.get? name = some h → p.handles.get? other = some g →
    h.number = g.number → name = other
  unique : ∀ name h, p.handles.get? name = some h → (p.isUnique h = true ↔
    ∀ other g, p.handles.get? other = some g → other ≠ name → g.storage ≠ h.storage)
  copies : ∀ name h other g, p.handles.get? name = some h → p.handles.get? other = some g →
    h.isCopyOf g = true → p.contents h = p.contents g

/-- The handle under a name is the only owner of its storage and shows all of it. -/
def OwnsNamed (p : Pool α) (name : String) : Prop :=
  ∃ h, p.handles.get? name = some h ∧ p.isUnique h = true ∧ p.isFullExtent h = true

/-- A command leaves alone the storage of every handle but the one it writes through, and after
writing through a handle, or making it ready for that, the handle owns what it shows. -/
structure WritesApart (p : Pool α) (c : Command α) : Prop where
  frame : ∀ name h, p.handles.get? name = some h → c.written? ≠ some name →
    (p.step c).1.stored h = p.stored h
  modified : ∀ name edit answer, c = .modify name edit → (p.step c).2 = .ok answer →
    (p.step c).1.OwnsNamed name
  extended : ∀ name source answer, c = .extend name source → (p.step c).2 = .ok answer →
    (p.step c).1.OwnsNamed name
  written : ∀ name position x h, c = .write name position x → p.handles.get? name = some h →
    (p.step c).1.OwnsNamed name
  exposed : ∀ name h, c = .expose name → p.handles.get? name = some h →
    (p.step c).1.OwnsNamed name

theorem number_injective (consistent : Consistent p) (found : p.handles.get? name = some h)
    (lent : p.handles.get? other = some g) (same : h.number = g.number) : name = other := by
  by_contra distinct
  have mem := mem_liveExcept (Table.mem_of_get? lent) (Ne.symm distinct)
  have apart := (List.nodup_cons.mp (consistent.split found).distinct).1
  exact apart (List.mem_map.mpr ⟨g, mem, same.symm⟩)

theorem isUnique_iff_get? (consistent : Consistent p) (found : p.handles.get? name = some h) :
    p.isUnique h = true ↔
      ∀ other g, p.handles.get? other = some g → other ≠ name → g.storage ≠ h.storage := by
  rw [(consistent.split found).isUnique_iff]
  constructor
  · intro apart other g lent distinct
    exact apart g (mem_liveExcept (Table.mem_of_get? lent) distinct)
  · intro apart g mem
    obtain ⟨e, he, rfl⟩ := List.mem_map.mp mem
    obtain ⟨entered, distinct⟩ := Table.mem_remove.mp he
    exact apart e.1 e.2 ((Table.get?_eq_some_iff consistent.sorted).mpr entered) distinct

theorem owners_exact (consistent : Consistent p) {i : Nat} {s : Storage α}
    (hs : p.storages[i]? = some s) : s.owners.Nodup ∧
      ∀ n, n ∈ s.owners ↔
        ∃ name h, p.handles.get? name = some h ∧ h.storage = i ∧ h.number = n := by
  have owners := consistent.accounts.owners i s hs
  constructor
  · refine owners.nodup_iff.mpr (consistent.accounts.distinct.sublist ?_)
    exact (List.filter_sublist).map _
  · intro n
    rw [owners.mem_iff]
    constructor
    · intro mem
      obtain ⟨h, kept, number⟩ := List.mem_map.mp mem
      obtain ⟨live, storage⟩ := List.mem_filter.mp kept
      obtain ⟨e, he, rfl⟩ := List.mem_map.mp live
      exact ⟨e.1, e.2, (Table.get?_eq_some_iff consistent.sorted).mpr he,
        of_decide_eq_true storage, number⟩
    · rintro ⟨name, h, found, storage, number⟩
      have live : h ∈ p.handles.map Prod.snd := List.mem_map_of_mem (Table.mem_of_get? found)
      exact List.mem_map.mpr ⟨h, List.mem_filter.mpr ⟨live, decide_eq_true storage⟩, number⟩

theorem contents_of_isCopyOf (copy : h.isCopyOf g = true) : p.contents h = p.contents g := by
  simp only [Handle.isCopyOf, Bool.and_eq_true, beq_iff_eq] at copy
  obtain ⟨⟨storage, start⟩, stop⟩ := copy
  rw [contents, contents, stored, stored, Handle.length, Handle.length, storage, start, stop]

theorem Consistent.exact (consistent : Consistent p) : Exact p where
  window := fun _ _ found => consistent.window found
  allocated := fun _ _ found => consistent.allocated found
  owners := fun _ _ hs => owners_exact consistent hs
  numbers := fun _ _ _ _ found lent same => number_injective consistent found lent same
  unique := fun _ _ found => isUnique_iff_get? consistent found
  copies := fun _ _ _ _ _ _ copy => contents_of_isCopyOf copy

theorem stored_attempt {result : Except Fault (Pool α × Answer α)}
    (h : Outcome (fun r => r.1.stored g = p.stored g) (fun _ => True) result) :
    (p.attempt result).1.stored g = p.stored g := by
  cases result with
  | ok r => exact h
  | error fault => rfl

theorem stored_create (target : String) (items : List α) (old : g.storage < p.storages.length) :
    (p.create target items).stored g = p.stored g :=
  (stored_bind ..).trans (stored_storeFor_of_lt old)

theorem stored_bindSlices (h : Handle) (size : Nat) (stem : String) (starts : List Nat) :
    (p.bindSlices h size stem starts).stored g = p.stored g := by
  simp only [bindSlices]
  generalize starts.zipIdx = places
  induction places generalizing p with
  | nil => rfl
  | cons place places ih => rw [List.foldl_cons, ih, stored_bind, stored_share]

theorem stored_own (old : g.storage < p.storages.length) :
    (p.own h).1.stored g = p.stored g := by
  rw [own]
  split
  · rfl
  · rw [replace, stored_storeFor_of_lt ((length_release p h).symm ▸ old), stored_release]

theorem modifyNamed_frame {edit : Edit α} (consistent : Consistent p)
    (found : p.handles.get? name = some h) (distinct : name ≠ other) :
    Outcome (fun r => r.1.stored h = p.stored h) (fun _ => True) (p.modifyNamed other edit) := by
  refine .bind_any (fun _ _ => trivial) fun g lent => ?_
  have split := consistent.split (get?_of_find lent)
  cases edited : edit (p.contents g) with
  | error fault =>
      rw [modify_refused edited]
      trivial
  | ok result =>
      obtain ⟨q, g', modified, settled⟩ := modify_settled split edited
      rw [modified]
      exact settled.others h (mem_liveExcept (Table.mem_of_get? found) distinct)

theorem write_frame {position : Int} {x : α} (consistent : Consistent p)
    (found : p.handles.get? name = some h) (distinct : name ≠ other) :
    (p.step (.write other position x)).1.stored h = p.stored h := by
  cases lent : p.handles.get? other with
  | none =>
      simp only [step, find_eq_error lent]
  | some g =>
      have mem := mem_liveExcept (Table.mem_of_get? found) distinct
      have ready := (own_settled (consistent.split lent)).others h mem
      simp only [step, find_eq_ok lent, stored_ownNamed consistent lent]
      cases written : Edit.set position x (p.contents g) with
      | error fault => exact ready
      | ok result =>
          have settled := overwrite_own_settled consistent lent (length_of_set written)
          exact settled.others h mem

/-- The storage of a handle keeps its items unless the command writes through that handle. -/
theorem stored_step {c : Command α} (consistent : Consistent p)
    (found : p.handles.get? name = some h) (apart : c.written? ≠ some name) :
    (p.step c).1.stored h = p.stored h := by
  have old := consistent.allocated found
  cases c with
  | create target items => exact stored_create target items old
  | reserve target capacity =>
      exact stored_attempt (.bind_any (fun _ _ => trivial) fun _ _ => stored_create target [] old)
  | clone source target =>
      refine stored_attempt (.bind_any (fun _ _ => trivial) fun g _ => ?_)
      exact (stored_bind ..).trans (stored_share p g h g.start g.stop)
  | slice source target start stop =>
      refine stored_attempt (.bind_any (fun _ _ => trivial) fun g _ => ?_)
      refine .bind_any (fun _ _ => trivial) fun part _ => ?_
      exact (stored_bind ..).trans (stored_share p g h part.1 part.2)
  | splitOff source target position =>
      refine stored_attempt (.bind_any (fun _ _ => trivial) fun g _ => ?_)
      refine .bind_any (fun _ _ => trivial) fun _ _ => ?_
      exact (stored_bind ..).trans (stored_storeFor_of_lt old)
  | intoSlices source stem size =>
      refine stored_attempt (.bind_any (fun _ _ => trivial) fun g _ => ?_)
      exact .bind_any (fun _ _ => trivial) fun _ _ => stored_bindSlices ..
  | release source =>
      exact stored_attempt (.bind_any (fun _ _ => trivial) fun g _ => stored_release p g h)
  | extend target source =>
      have distinct : name ≠ target := fun same => apart (congrArg some same.symm)
      refine stored_attempt (.bind_any (fun _ _ => trivial) fun edit _ => ?_)
      exact modifyNamed_frame consistent found distinct
  | truncate source length =>
      exact stored_attempt (.bind_any (fun _ _ => trivial) fun _ _ => rfl)
  | modify target edit =>
      have distinct : name ≠ target := fun same => apart (congrArg some same.symm)
      exact stored_attempt (modifyNamed_frame consistent found distinct)
  | write target position x =>
      exact write_frame consistent found fun same => apart (congrArg some same.symm)
  | expose source =>
      exact stored_attempt (.bind_any (fun _ _ => trivial) fun g _ => stored_own old)
  | read source query =>
      refine stored_attempt (.bind_any (fun _ _ => trivial) fun _ _ => ?_)
      exact .bind_any (fun _ _ => trivial) fun _ _ => rfl

theorem Settled.ownsNamed {live : List Handle} (settled : Settled p q live h items) :
    (q.rebind name h).OwnsNamed name := by
  obtain ⟨unique, full⟩ := Bool.and_eq_true_iff.mp settled.owned
  exact ⟨h, Table.get?_put_self .., unique, full⟩

theorem modifyNamed_ownsNamed {edit : Edit α} {answer : Answer α} (consistent : Consistent p)
    (accepted : (p.attempt (p.modifyNamed name edit)).2 = .ok answer) :
    (p.attempt (p.modifyNamed name edit)).1.OwnsNamed name := by
  cases found : p.handles.get? name with
  | none =>
      rw [modifyNamed, find_eq_error found] at accepted
      cases accepted
  | some h =>
      cases edited : edit (p.contents h) with
      | error fault =>
          simp only [modifyNamed, find_eq_ok found, Bind.bind, Except.bind,
            modify_refused edited] at accepted
          cases accepted
      | ok result =>
          obtain ⟨q, g, modified, settled⟩ := modify_settled (consistent.split found) edited
          simp only [modifyNamed, find_eq_ok found, Bind.bind, Except.bind, modified]
          exact settled.ownsNamed

theorem extend_ownsNamed {source : Source α} {answer : Answer α} (consistent : Consistent p)
    (accepted : (p.step (.extend name source)).2 = .ok answer) :
    (p.step (.extend name source)).1.OwnsNamed name := by
  simp only [step] at accepted ⊢
  cases extended : p.extension name source with
  | error fault =>
      rw [extended] at accepted
      cases accepted
  | ok edit =>
      rw [extended] at accepted
      exact modifyNamed_ownsNamed consistent accepted

/-- The handle is made ready before the position is looked at. -/
theorem write_ownsNamed {position : Int} {x : α} (consistent : Consistent p)
    (found : p.handles.get? name = some h) :
    (p.step (.write name position x)).1.OwnsNamed name := by
  simp only [step, find_eq_ok found, stored_ownNamed consistent found]
  cases written : Edit.set position x (p.contents h) with
  | error fault => exact (own_settled (consistent.split found)).ownsNamed
  | ok result =>
      exact (overwrite_own_settled consistent found (length_of_set written)).ownsNamed

theorem expose_ownsNamed (consistent : Consistent p) (found : p.handles.get? name = some h) :
    (p.step (.expose name)).1.OwnsNamed name := by
  simp only [step, find_eq_ok found]
  exact (own_settled (consistent.split found)).ownsNamed

theorem Consistent.writesApart (consistent : Consistent p) (c : Command α) : WritesApart p c where
  frame := fun _ _ found apart => stored_step consistent found apart
  modified := fun _ _ _ here accepted => by
    subst here
    exact modifyNamed_ownsNamed consistent accepted
  extended := fun _ _ _ here accepted => by
    subst here
    exact extend_ownsNamed consistent accepted
  written := fun _ _ _ _ here found => by
    subst here
    exact write_ownsNamed consistent found
  exposed := fun _ _ here found => by
    subst here
    exact expose_ownsNamed consistent found

/-- In every pool that commands reach, the owners are exact and writes stay apart. -/
theorem run_exact (commands : List (Command α)) :
    let p := ((empty : Pool α).run commands).1
    Exact p ∧ ∀ c, WritesApart p c := by
  intro p
  have consistent : Consistent p := (run_simulates consistent_empty commands).1
  exact ⟨consistent.exact, consistent.writesApart⟩

end Pool

end RowMajor.Buffer
