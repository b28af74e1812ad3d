import RowMajor.Buffer.Pool

/-!
# Accounts of shared storage

A pool keeps exact accounts of a list of live handles when every window lies inside its
storage and every storage lists as owners precisely the live handles that refer to it,
each once. A handle is then the only owner according to its storage if and only if no
other live handle refers to that storage (`Accounts.isUnique_iff`), and writing to a
storage in place is invisible to everyone else.

The list of live handles is a parameter here, so that a handle that has just been made
counts before it has a name. Every operation on the pool is described by what it does to
that list.
-/

namespace RowMajor.Buffer.Pool

variable {α : Type} {p : Pool α} {h g : Handle} {live : List Handle} {items : List α}

/-- The owners of the storages are the live handles. -/
structure Accounts (p : Pool α) (live : List Handle) : Prop where
  window : ∀ h ∈ live, h.start ≤ h.stop ∧ h.stop ≤ (p.stored h).length
  allocated : ∀ h ∈ live, h.storage < p.storages.length
  owners : ∀ i (s : Storage α), p.storages[i]? = some s →
    s.owners.Perm ((live.filter (·.storage = i)).map Handle.number)
  distinct : (live.map Handle.number).Nodup
  fresh : ∀ h ∈ live, h.number < p.nextNumber

theorem accounts_empty : Accounts (empty : Pool α) [] := by
  constructor <;> simp [empty]

theorem contents_congr {q : Pool α} (stored : q.stored h = p.stored h) :
    q.contents h = p.contents h := by
  rw [contents, contents, stored]

/-- A window inside its storage shows as many items as it is long. -/
theorem length_contents (inside : h.stop ≤ (p.stored h).length) :
    (p.contents h).length = h.length := by
  rw [contents, List.length_take, List.length_drop, Handle.length]
  omega

theorem contents_of_whole (start : h.start = 0) (stop : h.stop = (p.stored h).length) :
    p.contents h = p.stored h := by
  rw [contents, start, List.drop_zero, Handle.length, start, stop, Nat.sub_zero, List.take_length]

theorem isFullExtent_iff :
    p.isFullExtent h = true ↔ h.start = 0 ∧ h.stop = (p.stored h).length := by
  rw [isFullExtent, Bool.and_eq_true, beq_iff_eq, beq_iff_eq]

theorem contents_of_isFullExtent (full : p.isFullExtent h = true) : p.contents h = p.stored h := by
  obtain ⟨start, stop⟩ := isFullExtent_iff.mp full
  exact contents_of_whole start stop

/-- A position of a window inside its storage is the one of the storage that lies as far behind
the start of the window. -/
theorem getElem?_contents {i : Nat} (within : i < h.length) :
    (p.contents h)[i]? = (p.stored h)[h.start + i]? := by
  rw [contents, List.getElem?_take_of_lt within, List.getElem?_drop]

/-- An item that is looked up in the storage is the one that the list of shown items has there. -/
theorem item_eq (inside : h.stop ≤ (p.stored h).length) (i : Int) :
    p.item h i = (View.ofList (p.contents h)).item i := by
  simp only [item, View.ofList, length_contents inside, resolveIndex, Int.ofNat_eq_natCast]
  generalize index : (if i < 0 then i + (h.length : Int) else i) = place
  by_cases outside : place < 0 ∨ (h.length : Int) ≤ place
  · have refused : i < -(h.length : Int) ∨ (h.length : Int) ≤ i := by
      split at index <;> omega
    rw [if_pos outside, if_pos refused]
    rfl
  · have granted : ¬ (i < -(h.length : Int) ∨ (h.length : Int) ≤ i) := by
      split at index <;> omega
    have named : (if 0 ≤ i then i.toNat else ((h.length : Int) + i).toNat) = place.toNat := by
      split at index <;> split <;> omega
    have within : place.toNat < h.length := by omega
    have same := getElem?_contents (p := p) within
    cases found : (p.stored h)[h.start + place.toNat]? with
    | none =>
        rw [found] at same
        simp only [if_neg outside, if_neg granted, named, Option.bind_some, same]
    | some x =>
        rw [found] at same
        simp only [if_neg outside, if_neg granted, named, Option.bind_some, same]

/-- A handle is read as the list of what it shows. -/
theorem view_eq (inside : h.stop ≤ (p.stored h).length) :
    p.view h = .ofList (p.contents h) := by
  have items : p.item h = (View.ofList (p.contents h)).item := funext (item_eq inside)
  rw [view, items, ← length_contents inside]
  rfl

/-- A window within a window of the same storage shows a part of what that one shows. -/
theorem contents_part {part : Handle} (storage : part.storage = h.storage)
    (start : h.start ≤ part.start) (stop : part.stop ≤ h.stop) :
    p.contents part =
      ((p.contents h).drop (part.start - h.start)).take (part.stop - part.start) := by
  have stored : p.stored part = p.stored h := by rw [Pool.stored, Pool.stored, storage]
  rw [contents, contents, stored, Handle.length, Handle.length, List.drop_take, List.drop_drop,
    List.take_take, Nat.add_sub_cancel' start]
  congr 1
  omega

theorem contents_truncate (n : Int) : p.contents (h.truncate n) = (p.contents h).take n.toNat := by
  have same : p.stored (h.truncate n) = p.stored h := rfl
  rw [contents, contents, same, List.take_take]
  simp only [Handle.truncate, Handle.length]
  congr 1
  omega

theorem getElem?_updateStorage (p : Pool α) (i j : Nat) (f : Storage α → Storage α) :
    (p.updateStorage i f).storages[j]? =
      if i = j then p.storages[j]?.map f else p.storages[j]? := by
  rw [updateStorage, List.getElem?_modify]
  split
  · rfl
  · exact Option.map_id_apply

@[simp] theorem length_updateStorage (p : Pool α) (i : Nat) (f : Storage α → Storage α) :
    (p.updateStorage i f).storages.length = p.storages.length := by
  simp [updateStorage]

/-- Changing the owners of a storage leaves its items alone. -/
theorem stored_updateOwners (p : Pool α) (i : Nat) (f : List Nat → List Nat) (g : Handle) :
    (p.updateStorage i fun s => { s with owners := f s.owners }).stored g = p.stored g := by
  rw [stored, stored, getElem?_updateStorage]
  split
  · cases p.storages[g.storage]? <;> rfl
  · rfl

@[simp] theorem stored_release (p : Pool α) (h g : Handle) : (p.release h).stored g = p.stored g :=
  stored_updateOwners p h.storage (·.erase h.number) g

@[simp] theorem stored_share (p : Pool α) (h g : Handle) (start stop : Nat) :
    (p.share h start stop).1.stored g = p.stored g :=
  stored_updateOwners _ h.storage (· ++ [p.nextNumber]) g

@[simp] theorem stored_bind (name : String) (p : Pool α) (h g : Handle) :
    (p.bind name h).stored g = p.stored g := by
  simp only [bind]
  split
  · exact stored_release ..
  · rfl

@[simp] theorem length_release (p : Pool α) (h : Handle) :
    (p.release h).storages.length = p.storages.length :=
  length_updateStorage ..

@[simp] theorem length_share (p : Pool α) (h : Handle) (start stop : Nat) :
    (p.share h start stop).1.storages.length = p.storages.length :=
  length_updateStorage ..

@[simp] theorem length_bind (name : String) (p : Pool α) (h : Handle) :
    (p.bind name h).storages.length = p.storages.length := by
  simp only [bind]
  split
  · exact length_release ..
  · rfl

theorem stored_storeFor_of_lt {number : Nat} (old : g.storage < p.storages.length) :
    (p.storeFor number items).1.stored g = p.stored g := by
  simp only [stored, storeFor, List.getElem?_append_left old]

@[simp] theorem stored_storeFor_self (number : Nat) :
    (p.storeFor number items).1.stored (p.storeFor number items).2 = items := by
  simp [stored, storeFor]

theorem stored_overwrite_of_ne (other : g.storage ≠ h.storage) :
    (p.overwrite h items).1.stored g = p.stored g := by
  rw [stored, stored, overwrite, getElem?_updateStorage, if_neg (Ne.symm other)]

theorem stored_overwrite_self (allocated : h.storage < p.storages.length) :
    (p.overwrite h items).1.stored (p.overwrite h items).2 = items := by
  simp only [stored, overwrite, getElem?_updateStorage, if_pos, List.getElem?_eq_getElem allocated,
    Option.map_some, Option.getD_some]

namespace Accounts

theorem perm {other : List Handle} (acc : Accounts p live) (same : live.Perm other) :
    Accounts p other where
  window := fun h hh => acc.window h (same.mem_iff.mpr hh)
  allocated := fun h hh => acc.allocated h (same.mem_iff.mpr hh)
  owners := fun i s hs => (acc.owners i s hs).trans ((same.filter _).map _)
  distinct := (same.map _).nodup_iff.mp acc.distinct
  fresh := fun h hh => acc.fresh h (same.mem_iff.mpr hh)

/-- According to its storage a handle is the only owner exactly if no other live handle
refers to that storage. -/
theorem isUnique_iff (acc : Accounts p (h :: live)) :
    p.isUnique h = true ↔ ∀ g ∈ live, g.storage ≠ h.storage := by
  have allocated := acc.allocated h List.mem_cons_self
  have count := (acc.owners h.storage _ (List.getElem?_eq_getElem allocated)).length_eq
  rw [List.length_map, List.filter_cons_of_pos (by simp), List.length_cons] at count
  simp only [isUnique, List.getElem?_eq_getElem allocated, Option.map_some, beq_iff_eq,
    Option.some.injEq, count, Nat.add_eq_right, List.length_eq_zero_iff, List.filter_eq_nil_iff,
    decide_eq_true_eq]

theorem release (acc : Accounts p (h :: live)) : Accounts (p.release h) live where
  window := fun g hg => by
    rw [stored_release]
    exact acc.window g (List.mem_cons_of_mem _ hg)
  allocated := fun g hg => by
    rw [length_release]
    exact acc.allocated g (List.mem_cons_of_mem _ hg)
  owners := fun i s hs => by
    rw [Pool.release, getElem?_updateStorage] at hs
    split at hs
    case isTrue same =>
      obtain ⟨old, found, rfl⟩ := Option.map_eq_some_iff.mp hs
      have before := acc.owners i old found
      rw [List.filter_cons_of_pos (by simp [same]), List.map_cons] at before
      exact (before.erase h.number).trans (by rw [List.erase_cons_head])
    case isFalse other =>
      have before := acc.owners i s hs
      rwa [List.filter_cons_of_neg (by simp [other])] at before
  distinct := (List.nodup_cons.mp acc.distinct).2
  fresh := fun g hg => acc.fresh g (List.mem_cons_of_mem _ hg)

/-- A live handle whose window is made narrower. -/
theorem narrow {part : Handle} (acc : Accounts p (h :: live)) (number : part.number = h.number)
    (storage : part.storage = h.storage) (ordered : part.start ≤ part.stop)
    (stop : part.stop ≤ h.stop) : Accounts p (part :: live) where
  window := fun g hg => by
    rcases List.mem_cons.mp hg with rfl | hg
    · have stored : p.stored g = p.stored h := by rw [Pool.stored, Pool.stored, storage]
      rw [stored]
      exact ⟨ordered, Nat.le_trans stop (acc.window h List.mem_cons_self).2⟩
    · exact acc.window g (List.mem_cons_of_mem _ hg)
  allocated := fun g hg => by
    rcases List.mem_cons.mp hg with rfl | hg
    · exact storage ▸ acc.allocated h List.mem_cons_self
    · exact acc.allocated g (List.mem_cons_of_mem _ hg)
  owners := fun i s hs => by
    have before := acc.owners i s hs
    rw [List.filter_cons] at before ⊢
    simpa only [storage, apply_ite (List.map Handle.number), List.map_cons, number] using before
  distinct := by simpa only [List.map_cons, number] using acc.distinct
  fresh := fun g hg => by
    rcases List.mem_cons.mp hg with rfl | hg
    · exact number ▸ acc.fresh h List.mem_cons_self
    · exact acc.fresh g (List.mem_cons_of_mem _ hg)

theorem truncate (acc : Accounts p (h :: live)) (n : Int) :
    Accounts p (h.truncate n :: live) := by
  have ordered := (acc.window h List.mem_cons_self).1
  refine acc.narrow rfl rfl ?_ (Nat.min_le_right _ _)
  simp only [Handle.truncate]
  omega

/-- A fresh storage for a handle whose number no live handle bears. -/
theorem storeFor {number : Nat} (acc : Accounts p live) (unused : number ∉ live.map Handle.number)
    (known : number < p.nextNumber) (items : List α) :
    Accounts (p.storeFor number items).1 ((p.storeFor number items).2 :: live) where
  window := fun g hg => by
    rcases List.mem_cons.mp hg with rfl | hg
    · rw [stored_storeFor_self]
      exact ⟨Nat.zero_le _, Nat.le_refl _⟩
    · rw [stored_storeFor_of_lt (acc.allocated g hg)]
      exact acc.window g hg
  allocated := fun g hg => by
    simp only [Pool.storeFor, List.length_append, List.length_singleton]
    rcases List.mem_cons.mp hg with rfl | hg
    · exact Nat.lt_succ_self _
    · exact Nat.lt_succ_of_lt (acc.allocated g hg)
  owners := fun i s hs => by
    simp only [Pool.storeFor] at hs ⊢
    by_cases old : i < p.storages.length
    · rw [List.getElem?_append_left old] at hs
      rw [List.filter_cons_of_neg (by simpa using (Nat.ne_of_lt old).symm)]
      exact acc.owners i s hs
    · have last : i = p.storages.length := by
        have := (List.getElem?_eq_some_iff.mp hs).1
        simp only [List.length_append, List.length_singleton] at this
        omega
      subst last
      have none : live.filter (·.storage = p.storages.length) = [] :=
        List.filter_eq_nil_iff.mpr fun g hg => by simpa using Nat.ne_of_lt (acc.allocated g hg)
      rw [List.getElem?_concat_length, Option.some.injEq] at hs
      rw [List.filter_cons_of_pos (by simp), none, ← hs]
      exact .refl _
  distinct := List.nodup_cons.mpr ⟨unused, acc.distinct⟩
  fresh := fun g hg => by
    rcases List.mem_cons.mp hg with rfl | hg
    · exact known
    · exact acc.fresh g hg

/-- A number that has not been given out yet can be reserved. -/
theorem reserve (acc : Accounts p live) :
    Accounts { p with nextNumber := p.nextNumber + 1 } live :=
  ⟨acc.window, acc.allocated, acc.owners, acc.distinct,
    fun h hh => Nat.lt_succ_of_lt (acc.fresh h hh)⟩

theorem nextNumber_unused (acc : Accounts p live) : p.nextNumber ∉ live.map Handle.number := by
  intro mem
  obtain ⟨g, hg, same⟩ := List.mem_map.mp mem
  exact Nat.ne_of_lt (acc.fresh g hg) same

theorem allocate (acc : Accounts p live) (items : List α) :
    Accounts (p.allocate items).1 ((p.allocate items).2 :: live) :=
  acc.reserve.storeFor acc.nextNumber_unused (Nat.lt_succ_self _) items

/-- A new window of a storage. The handle that lends its storage need not be live. -/
theorem share {start stop : Nat} (acc : Accounts p live) (allocated : h.storage < p.storages.length)
    (ordered : start ≤ stop) (inside : stop ≤ (p.stored h).length) :
    Accounts (p.share h start stop).1 ((p.share h start stop).2 :: live) where
  window := fun g hg => by
    rw [stored_share]
    rcases List.mem_cons.mp hg with rfl | hg
    · exact ⟨ordered, inside⟩
    · exact acc.window g hg
  allocated := fun g hg => by
    rw [length_share]
    rcases List.mem_cons.mp hg with rfl | hg
    · exact allocated
    · exact acc.allocated g hg
  owners := fun i s hs => by
    simp only [Pool.share, getElem?_updateStorage] at hs ⊢
    split at hs
    case isTrue same =>
      obtain ⟨old, found, rfl⟩ := Option.map_eq_some_iff.mp hs
      rw [List.filter_cons_of_pos (by simp [same]), List.map_cons]
      exact List.perm_append_comm.trans ((acc.owners i old found).cons _)
    case isFalse other =>
      rw [List.filter_cons_of_neg (by simp [other])]
      exact acc.owners i s hs
  distinct := List.nodup_cons.mpr ⟨acc.nextNumber_unused, acc.distinct⟩
  fresh := fun g hg => by
    rcases List.mem_cons.mp hg with rfl | hg
    · exact Nat.lt_succ_self _
    · exact Nat.lt_succ_of_lt (acc.fresh g hg)

/-- Writing in place keeps the accounts if nobody else refers to the storage. -/
theorem overwrite (acc : Accounts p (h :: live)) (unique : p.isUnique h = true)
    (start : h.start = 0) (items : List α) :
    Accounts (p.overwrite h items).1 ((p.overwrite h items).2 :: live) where
  window := fun g hg => by
    rcases List.mem_cons.mp hg with rfl | hg
    · rw [stored_overwrite_self (acc.allocated h List.mem_cons_self)]
      exact ⟨start ▸ Nat.zero_le _, Nat.le_refl _⟩
    · rw [stored_overwrite_of_ne (acc.isUnique_iff.mp unique g hg)]
      exact acc.window g (List.mem_cons_of_mem _ hg)
  allocated := fun g hg => by
    simp only [Pool.overwrite, length_updateStorage]
    rcases List.mem_cons.mp hg with rfl | hg
    · exact acc.allocated h List.mem_cons_self
    · exact acc.allocated g (List.mem_cons_of_mem _ hg)
  owners := fun i s hs => by
    simp only [Pool.overwrite, getElem?_updateStorage] at hs ⊢
    obtain ⟨old, found, same⟩ : ∃ old, p.storages[i]? = some old ∧ s.owners = old.owners := by
      split at hs
      · obtain ⟨old, found, rfl⟩ := Option.map_eq_some_iff.mp hs
        exact ⟨old, found, rfl⟩
      · exact ⟨s, hs, rfl⟩
    have before := acc.owners i old found
    rw [List.filter_cons] at before ⊢
    simpa only [same, apply_ite (List.map Handle.number), List.map_cons] using before
  distinct := acc.distinct
  fresh := fun g hg => by
    rcases List.mem_cons.mp hg with rfl | hg
    · exact acc.fresh h List.mem_cons_self
    · exact acc.fresh g (List.mem_cons_of_mem _ hg)

end Accounts

end RowMajor.Buffer.Pool
