import RowMajor.Proofs.Buffer.Accounts

/-!
# Moving to a storage of one's own

Before a handle is written to, it must be the only owner of its storage and show all of
it. It is then either written to in place or moved to a fresh storage, and in both cases
the outcome is the same to the outside: `Settled` says that the handle owns exactly the
new items and that the storages of all other live handles are untouched.
-/

namespace RowMajor.Buffer.Pool

variable {α : Type} {p q : Pool α} {h : Handle} {live : List Handle} {items : List α}

/-- A handle that has come to own the items, with everything else as it was in `p`. -/
structure Settled (p q : Pool α) (live : List Handle) (h : Handle) (items : List α) : Prop where
  accounts : Accounts q (h :: live)
  handles : q.handles = p.handles
  owned : q.isOwned h = true
  stored : q.stored h = items
  others : ∀ g ∈ live, q.stored g = p.stored g

theorem Settled.contents (settled : Settled p q live h items) : q.contents h = items := by
  have full := (Bool.and_eq_true_iff.mp settled.owned).2
  rw [contents_of_isFullExtent full, settled.stored]

/-- A fresh storage belongs to one handle, which shows all of it. -/
theorem isOwned_storeFor {number : Nat}
    (acc : Accounts (p.storeFor number items).1 ((p.storeFor number items).2 :: live))
    (old : ∀ g ∈ live, g.storage < p.storages.length) :
    (p.storeFor number items).1.isOwned (p.storeFor number items).2 = true := by
  have unique := acc.isUnique_iff.mpr fun g hg => Nat.ne_of_lt (old g hg)
  rw [isOwned, unique, Bool.true_and, isFullExtent, stored_storeFor_self]
  simp [storeFor]

theorem replace_settled (acc : Accounts p (h :: live)) (items : List α) :
    Settled p (p.replace h items).1 live (p.replace h items).2 items := by
  have unused := (List.nodup_cons.mp acc.distinct).1
  have known := acc.fresh h List.mem_cons_self
  have moved := acc.release.storeFor unused known items
  refine ⟨moved, rfl, isOwned_storeFor moved acc.release.allocated, stored_storeFor_self _, ?_⟩
  intro g hg
  exact (stored_storeFor_of_lt (acc.release.allocated g hg)).trans (stored_release ..)

theorem overwrite_settled (acc : Accounts p (h :: live)) (owned : p.isOwned h = true)
    (items : List α) : Settled p (p.overwrite h items).1 live (p.overwrite h items).2 items := by
  obtain ⟨unique, full⟩ := Bool.and_eq_true_iff.mp owned
  have start : h.start = 0 := (isFullExtent_iff.mp full).1
  have others := acc.isUnique_iff.mp unique
  have written := acc.overwrite unique start items
  have stored : (p.overwrite h items).1.stored (p.overwrite h items).2 = items :=
    stored_overwrite_self (acc.allocated h List.mem_cons_self)
  refine ⟨written, rfl, ?_, stored, fun g hg => stored_overwrite_of_ne (others g hg)⟩
  rw [isOwned, written.isUnique_iff.mpr others, Bool.true_and, isFullExtent, stored]
  simp [overwrite, start]

/-- A storage that may be written to is edited where it is, and that is as if the shown items were
edited, because they are all there are. -/
theorem modify_eq (p : Pool α) (h : Handle) (edit : Edit α) :
    p.modify h edit = edit (p.contents h) >>= fun (items, answer) =>
      let (q, g) := if p.isOwned h then p.overwrite h items else p.replace h items
      .ok (q, g, answer) := by
  by_cases owned : p.isOwned h = true
  · have full := (Bool.and_eq_true_iff.mp owned).2
    simp only [modify, if_pos owned, contents_of_isFullExtent full]
  · simp only [modify, if_neg owned]

/-- An edit that is not refused leaves its handle as the owner of what the edit gave. -/
theorem modify_settled {edit : Edit α} {answer : Answer α} (acc : Accounts p (h :: live))
    (edited : edit (p.contents h) = .ok (items, answer)) :
    ∃ q g, p.modify h edit = .ok (q, g, answer) ∧ Settled p q live g items := by
  rw [modify_eq, edited]
  by_cases owned : p.isOwned h = true
  · refine ⟨_, _, ?_, overwrite_settled acc owned items⟩
    simp only [Bind.bind, Except.bind, if_pos owned]
  · refine ⟨_, _, ?_, replace_settled acc items⟩
    simp only [Bind.bind, Except.bind, if_neg owned]

theorem modify_refused {edit : Edit α} {fault : Fault}
    (refused : edit (p.contents h) = .error fault) :
    p.modify h edit = .error fault := by
  rw [modify_eq, refused]
  rfl

theorem own_settled (acc : Accounts p (h :: live)) :
    Settled p (p.own h).1 live (p.own h).2 (p.contents h) := by
  by_cases owned : p.isOwned h = true
  · have full := (Bool.and_eq_true_iff.mp owned).2
    rw [own, if_pos owned]
    exact ⟨acc, rfl, owned, (contents_of_isFullExtent full).symm, fun _ _ => rfl⟩
  · rw [own, if_neg owned]
    exact replace_settled acc _

/-- A handle that owns its items can be written to again. -/
theorem Settled.overwrite (settled : Settled p q live h items) (new : List α) :
    Settled p (q.overwrite h new).1 live (q.overwrite h new).2 new := by
  have again := overwrite_settled settled.accounts settled.owned new
  refine ⟨again.accounts, again.handles.trans settled.handles, again.owned, again.stored, ?_⟩
  intro g hg
  exact (again.others g hg).trans (settled.others g hg)

end RowMajor.Buffer.Pool
