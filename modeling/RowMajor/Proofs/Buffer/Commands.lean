import RowMajor.Proofs.Buffer.Simulation

/-!
# Every command is simulated

The commands are taken one by one. Each is first related to the operations that enter
handles, and the requests that a command checks (the part to slice, the point to split at,
the size of pieces) are refused on shared storage exactly if they are refused on the plain
list. `step_simulates` collects the cases and `run_simulates` follows by induction on the
commands.
-/

namespace RowMajor.Buffer.Pool

variable {α : Type} {p q : Pool α} {h : Handle} {name : String} {items : List α}

/-- The same answer, with every buffer showing what its separate list holds. -/
structure Simulates (shared : Pool α × Except Fault (Answer α))
    (separate : Separate α × Except Fault (Answer α)) : Prop where
  consistent : Consistent shared.1
  shown : shared.1.shown = separate.1
  answer : shared.2 = separate.2

theorem simulates_ok {s : Separate α} (answer : Answer α) (next : Consistent q ∧ q.shown = s) :
    Simulates (p.attempt (.ok (q, answer))) (Separate.attempt p.shown (.ok (s, answer))) :=
  ⟨next.1, next.2, rfl⟩

theorem simulates_error (consistent : Consistent p) (fault : Fault) :
    Simulates (p.attempt (.error fault)) (Separate.attempt p.shown (.error fault)) :=
  ⟨consistent, rfl, rfl⟩

theorem find_eq_ok (found : p.handles.get? name = some h) : p.find name = .ok h := by
  rw [find, found]

theorem get?_of_find (found : p.find name = .ok h) : p.handles.get? name = some h := by
  cases entry : p.handles.get? name with
  | none => rw [find, entry] at found; cases found
  | some g => rw [find, entry] at found; cases found; rfl

theorem find_eq_error (missing : p.handles.get? name = none) :
    p.find name = .error (.unknown name) := by
  rw [find, missing]

theorem separate_find_eq_ok (found : p.handles.get? name = some h) :
    Separate.find name p.shown = .ok (p.contents h) := by
  rw [Separate.find, shown_eq, Table.get?_mapEntries, found]
  rfl

theorem separate_find_eq_error (missing : p.handles.get? name = none) :
    Separate.find name p.shown = .error (.unknown name) := by
  rw [Separate.find, shown_eq, Table.get?_mapEntries, missing]
  rfl

/-- A command that begins with a buffer is simulated if it is once the buffer is found. -/
theorem simulates_find {f : Handle → Except Fault (Pool α × Answer α)}
    {g : List α → Except Fault (Separate α × Answer α)} (consistent : Consistent p)
    (name : String)
    (step : ∀ h, p.handles.get? name = some h →
      Simulates (p.attempt (f h)) (Separate.attempt p.shown (g (p.contents h)))) :
    Simulates (p.attempt (p.find name >>= f))
      (Separate.attempt p.shown (Separate.find name p.shown >>= g)) := by
  cases found : p.handles.get? name with
  | none =>
      rw [find_eq_error found, separate_find_eq_error found]
      exact simulates_error consistent _
  | some h =>
      rw [find_eq_ok found, separate_find_eq_ok found]
      exact step h found

/-- What is asked of a window, in terms of its length. -/
theorem window_eq (ordered : h.start ≤ h.stop) (start : Int) (stop : Option Int) :
    window h start stop =
      let last := stop.getD (Int.ofNat h.length)
      if start < 0 ∨ last < start ∨ Int.ofNat h.length < last then
        .error (.slice start stop h.length)
      else .ok ((Int.ofNat h.start + start).toNat, (Int.ofNat h.start + last).toNat) := by
  have size : Int.ofNat h.start + Int.ofNat h.length = Int.ofNat h.stop := by
    simp only [Handle.length, Int.ofNat_eq_natCast]
    omega
  cases stop with
  | none =>
      simp only [window, Option.getD_none, size]
      exact ite_congr (propext (by omega)) (fun _ => rfl) fun _ => rfl
  | some s =>
      simp only [window, Option.getD_some]
      exact ite_congr (propext (by omega)) (fun _ => rfl) fun _ => rfl

/-- What `window` grants is the part of the list that is asked for, and both refuse alike. -/
theorem window_eq_part (ordered : h.start ≤ h.stop) (inside : h.stop ≤ (p.stored h).length)
    (start : Int) (stop : Option Int) :
    (∃ fault, window h start stop = .error fault ∧
      Separate.part (p.contents h) start stop = .error fault) ∨
    ∃ first last, window h start stop = .ok (first, last) ∧
      h.start ≤ first ∧ first ≤ last ∧ last ≤ h.stop ∧
      Separate.part (p.contents h) start stop =
        .ok (((p.contents h).drop (first - h.start)).take (last - first)) := by
  have size : h.length + h.start = h.stop := Nat.sub_add_cancel ordered
  rw [window_eq ordered, Separate.part, length_contents inside]
  generalize stop.getD (Int.ofNat h.length) = last
  simp only [Int.ofNat_eq_natCast]
  by_cases refused : start < 0 ∨ last < start ∨ (h.length : Int) < last
  · exact .inl ⟨_, if_pos refused, if_pos refused⟩
  · refine .inr ⟨_, _, if_neg refused, by omega, by omega, by omega, ?_⟩
    have first : ((h.start : Int) + start).toNat - h.start = start.toNat := by omega
    have count : ((h.start : Int) + last).toNat - ((h.start : Int) + start).toNat =
        (last - start).toNat := by omega
    rw [if_neg refused, first, count]

theorem le_length_of_mem_sliceStarts {size : Int} {length start : Nat} {starts : List Nat}
    (granted : sliceStarts size length = .ok starts) (mem : start ∈ starts) :
    start + size.toNat ≤ length := by
  simp only [sliceStarts] at granted
  split at granted
  · cases granted
  · cases granted
    obtain ⟨i, hi, rfl⟩ := List.mem_map.mp mem
    have before : i + 1 ≤ length / size.toNat := List.mem_range.mp hi
    calc i * size.toNat + size.toNat = (i + 1) * size.toNat := (Nat.succ_mul ..).symm
      _ ≤ length / size.toNat * size.toNat := Nat.mul_le_mul_right _ before
      _ ≤ length := Nat.div_mul_le_self ..

/-- Slices entered one after the other. The buffer that they are cut from may itself be
replaced on the way, but its storage stays. -/
theorem bindSlices_simulates {size : Nat} {places : List (Nat × Nat)} (stem : String)
    (consistent : Consistent p) (allocated : h.storage < p.storages.length)
    (ordered : h.start ≤ h.stop) (inside : h.stop ≤ (p.stored h).length)
    (covered : ∀ e ∈ places, e.1 + size ≤ h.length) :
    let next := places.foldl (fun p (start, i) =>
      let (p, piece) := p.share h (h.start + start) (h.start + start + size)
      p.bind (stem ++ toString i) piece) p
    Consistent next ∧ next.shown = places.foldl (fun s (start, i) =>
      s.put (stem ++ toString i) (((p.contents h).drop start).take size)) p.shown := by
  induction places generalizing p with
  | nil => exact ⟨consistent, rfl⟩
  | cons place places ih =>
      obtain ⟨start, i⟩ := place
      have fits : start + size ≤ h.length := covered (start, i) List.mem_cons_self
      have last : h.start + start + size ≤ h.stop := by
        simp only [Handle.length] at fits
        omega
      obtain ⟨entered, shown⟩ := share_simulates (stem ++ toString i) consistent allocated
        (Nat.le_add_right ..) (Nat.le_add_right ..) last inside
      generalize next : (p.share h (h.start + start) (h.start + start + size)).1.bind
        (stem ++ toString i) (p.share h (h.start + start) (h.start + start + size)).2 = q
          at entered shown
      have stored : q.stored h = p.stored h := by
        rw [← next, stored_bind, stored_share]
      have storages : q.storages.length = p.storages.length := by
        rw [← next, length_bind, length_share]
      have rest := ih entered (storages ▸ allocated) (stored ▸ inside) fun e he =>
        covered e (List.mem_cons_of_mem _ he)
      rw [shown, contents_congr stored, Nat.add_sub_cancel_left, Nat.add_sub_cancel_left] at rest
      rw [← next] at rest
      exact rest

/-- An edit through a handle is the same edit of the list, and is refused alike. -/
theorem modifyNamed_simulates (consistent : Consistent p) (name : String) (edit : Edit α) :
    Simulates (p.attempt (p.modifyNamed name edit))
      (Separate.attempt p.shown (p.shown.edit name edit)) := by
  refine simulates_find consistent name fun h found => ?_
  cases edited : edit (p.contents h) with
  | error fault =>
      rw [modify_refused edited]
      exact simulates_error consistent fault
  | ok result =>
      obtain ⟨items, answer⟩ := result
      obtain ⟨q, g, modified, settled⟩ := modify_settled (consistent.split found) edited
      rw [modified]
      exact simulates_ok answer (settled.rebind_simulates consistent)

theorem appendOwn_eq {start count : Nat} {xs : List α} (inside : start + count ≤ xs.length) :
    Edit.appendOwn start count xs = xs ++ (xs.drop start).take count := by
  induction count generalizing start xs with
  | zero => simp [Edit.appendOwn]
  | succ count ih =>
      have before : start < xs.length := by omega
      have grown : start + 1 + count ≤ (xs ++ [xs[start]]).length := by
        rw [List.length_append, List.length_singleton]
        omega
      have room : count ≤ (xs.drop (start + 1)).length := by
        rw [List.length_drop]
        omega
      rw [Edit.appendOwn, List.getElem?_eq_getElem before]
      calc Edit.appendOwn (start + 1) count (xs ++ [xs[start]])
          = xs ++ [xs[start]] ++ ((xs ++ [xs[start]]).drop (start + 1)).take count := ih grown
        _ = xs ++ [xs[start]] ++ (xs.drop (start + 1)).take count := by
            rw [List.drop_append_of_le_length before, List.take_append_of_le_length room]
        _ = xs ++ (xs.drop start).take (count + 1) := by
            rw [List.append_assoc, List.singleton_append, List.drop_eq_getElem_cons before,
              List.take_succ_cons]

/-- The storage of a handle that may be written to is shown by no other handle, so a buffer that
is found to show the list that grows is the one that grows. -/
theorem eq_of_isOwned {other : String} {g : Handle} (consistent : Consistent p)
    (found : p.handles.get? name = some h) (lent : p.handles.get? other = some g)
    (owned : p.isOwned h = true) (storage : g.storage = h.storage) : g = h := by
  by_cases same : other = name
  · rw [same, found] at lent
    exact (Option.some.inj lent).symm
  · have unique := (Bool.and_eq_true_iff.mp owned).1
    have mem := mem_liveExcept (Table.mem_of_get? lent) same
    exact absurd storage ((consistent.split found).isUnique_iff.mp unique g mem)

/-- Reading a buffer while the list grows comes to appending what it showed at first. -/
theorem extension_eq_ok {other : String} {g : Handle} (consistent : Consistent p)
    (found : p.handles.get? name = some h) (lent : p.handles.get? other = some g) :
    ∃ edit, p.extension name (.buffer other) = .ok edit ∧
      edit (p.contents h) = Edit.extend (p.contents g) (p.contents h) := by
  simp only [extension, find_eq_ok found, find_eq_ok lent, Bind.bind, Except.bind]
  by_cases aliased : p.isOwned h = true ∧ g.storage = h.storage
  · rw [if_pos aliased]
    refine ⟨_, rfl, ?_⟩
    obtain ⟨owned, storage⟩ := aliased
    have full := (Bool.and_eq_true_iff.mp owned).2
    have start : h.start = 0 := (isFullExtent_iff.mp full).1
    have length : h.length = (p.contents h).length := (consistent.length_contents found).symm
    rw [eq_of_isOwned consistent found lent owned storage, Edit.extendOwn, start, length,
      appendOwn_eq (Nat.le_of_eq (Nat.zero_add _)), List.drop_zero, List.take_length]
    rfl
  · rw [if_neg aliased]
    exact ⟨_, rfl, rfl⟩

theorem modifyNamed_congr {edit edit' : Edit α} (found : p.handles.get? name = some h)
    (same : edit (p.contents h) = edit' (p.contents h)) :
    p.modifyNamed name edit = p.modifyNamed name edit' := by
  simp only [modifyNamed, find_eq_ok found, modify_eq, same, Bind.bind, Except.bind]

theorem extend_simulates (consistent : Consistent p) (name : String) (source : Source α) :
    Simulates (p.step (.extend name source))
      (Separate.step p.shown (.extend name source)) := by
  cases source with
  | items xs => exact modifyNamed_simulates consistent name (Edit.extend xs)
  | buffer other =>
      simp only [step, Separate.step, Separate.sourceItems]
      cases lent : p.handles.get? other with
      | none =>
          rw [extension, find_eq_error lent, separate_find_eq_error lent]
          exact simulates_error consistent _
      | some g =>
          rw [separate_find_eq_ok lent]
          cases found : p.handles.get? name with
          | none =>
              rw [extension, find_eq_ok lent, find_eq_error found]
              simp only [Bind.bind, Except.bind, Separate.edit, separate_find_eq_error found]
              exact simulates_error consistent _
          | some h =>
              obtain ⟨edit, extended, applied⟩ := extension_eq_ok consistent found lent
              rw [extended]
              simp only [Bind.bind, Except.bind]
              rw [modifyNamed_congr found applied]
              exact modifyNamed_simulates consistent name (Edit.extend (p.contents g))

/-- Making a handle ready for writing is not visible. -/
theorem ownNamed_simulates (consistent : Consistent p) (found : p.handles.get? name = some h) :
    Consistent (p.ownNamed name h).1 ∧ (p.ownNamed name h).1.shown = p.shown := by
  have settled := own_settled (consistent.split found)
  have entered := settled.rebind_simulates consistent
  refine ⟨entered.1, entered.2.trans ?_⟩
  rw [shown_eq, ← Table.mapEntries_put, Table.put_eq_self consistent.sorted found]

theorem stored_ownNamed (consistent : Consistent p) (found : p.handles.get? name = some h) :
    (p.ownNamed name h).1.stored (p.ownNamed name h).2 = p.contents h :=
  (own_settled (consistent.split found)).stored

theorem length_of_set {xs items : List α} {answer : Answer α} {position : Int} {x : α}
    (written : Edit.set position x xs = .ok (items, answer)) : items.length = xs.length := by
  simp only [Edit.set] at written
  split at written
  · cases written
    exact List.length_set
  · cases written

/-- Writing one item keeps the length, so the handle still shows all of its storage. -/
theorem overwrite_own_settled (consistent : Consistent p)
    (found : p.handles.get? name = some h) (length : items.length = (p.contents h).length) :
    Settled p ((p.own h).1.overwrite (p.own h).2 items).1 (p.liveExcept name) (p.own h).2
      items := by
  have settled := own_settled (consistent.split found)
  have full := (Bool.and_eq_true_iff.mp settled.owned).2
  have stop : (p.own h).2.stop = items.length := by
    rw [(isFullExtent_iff.mp full).2, settled.stored, length]
  have same : ((p.own h).1.overwrite (p.own h).2 items).2 = (p.own h).2 := by
    simp only [overwrite, ← stop]
  exact same ▸ settled.overwrite items

theorem overwrite_ownNamed_simulates (consistent : Consistent p)
    (found : p.handles.get? name = some h) (length : items.length = (p.contents h).length) :
    let owned := p.ownNamed name h
    let next := (owned.1.overwrite owned.2 items).1
    Consistent next ∧ next.shown = p.shown.put name items :=
  (overwrite_own_settled consistent found length).rebind_simulates consistent

theorem clone_simulates (consistent : Consistent p) (name target : String) :
    Simulates (p.step (.clone name target)) (Separate.step p.shown (.clone name target)) := by
  refine simulates_find consistent name fun h found => ?_
  obtain ⟨ordered, inside⟩ := consistent.window found
  have copied := share_simulates target consistent (consistent.allocated found) (Nat.le_refl _)
    ordered (Nat.le_refl _) inside
  have whole : h.stop - h.start = (p.contents h).length := (consistent.length_contents found).symm
  rw [Nat.sub_self, List.drop_zero, whole, List.take_length] at copied
  exact simulates_ok .nothing copied

theorem slice_simulates (consistent : Consistent p) (name target : String) (start : Int)
    (stop : Option Int) :
    Simulates (p.step (.slice name target start stop))
      (Separate.step p.shown (.slice name target start stop)) := by
  refine simulates_find consistent name fun h found => ?_
  obtain ⟨ordered, inside⟩ := consistent.window found
  rcases window_eq_part ordered inside start stop with
    ⟨fault, refused, refusedPart⟩ | ⟨first, last, granted, low, between, high, part⟩
  · rw [refused, refusedPart]
    exact simulates_error consistent fault
  · rw [granted, part]
    exact simulates_ok .nothing
      (share_simulates target consistent (consistent.allocated found) low between high inside)

theorem splitOff_simulates (consistent : Consistent p) (name target : String) (position : Int) :
    Simulates (p.step (.splitOff name target position))
      (Separate.step p.shown (.splitOff name target position)) := by
  refine simulates_find consistent name fun h found => ?_
  rw [consistent.length_contents found]
  cases splitPosition position h.length with
  | error fault => exact simulates_error consistent fault
  | ok at_ =>
      obtain ⟨kept, shown⟩ := truncate_simulates consistent found (Int.ofNat at_)
      have entered := create_simulates target kept ((p.contents h).drop at_)
      rw [shown] at entered
      exact simulates_ok .nothing entered

theorem intoSlices_simulates (consistent : Consistent p) (name stem : String) (size : Int) :
    Simulates (p.step (.intoSlices name stem size))
      (Separate.step p.shown (.intoSlices name stem size)) := by
  refine simulates_find consistent name fun h found => ?_
  rw [consistent.length_contents found]
  cases granted : sliceStarts size h.length with
  | error fault => exact simulates_error consistent fault
  | ok starts =>
      obtain ⟨ordered, inside⟩ := consistent.window found
      have covered : ∀ e ∈ starts.zipIdx, e.1 + size.toNat ≤ h.length := fun e he =>
        le_length_of_mem_sliceStarts granted (List.fst_mem_of_mem_zipIdx he)
      exact simulates_ok .nothing (bindSlices_simulates stem consistent
        (consistent.allocated found) ordered inside covered)

theorem write_simulates (consistent : Consistent p) (name : String) (position : Int) (x : α) :
    Simulates (p.step (.write name position x))
      (Separate.step p.shown (.write name position x)) := by
  cases found : p.handles.get? name with
  | none =>
      simp only [step, Separate.step, Separate.edit, find_eq_error found,
        separate_find_eq_error found]
      exact simulates_error consistent _
  | some h =>
      obtain ⟨ready, shown⟩ := ownNamed_simulates consistent found
      simp only [step, Separate.step, Separate.edit, find_eq_ok found, separate_find_eq_ok found,
        stored_ownNamed consistent found]
      show Simulates _ (Separate.attempt p.shown
        (Edit.set position x (p.contents h) >>= fun r => .ok (p.shown.put name r.1, r.2)))
      cases written : Edit.set position x (p.contents h) with
      | error fault => exact ⟨ready, shown, rfl⟩
      | ok result =>
          obtain ⟨items, answer⟩ := result
          obtain ⟨next, after⟩ :=
            overwrite_ownNamed_simulates consistent found (length_of_set written)
          exact ⟨next, after, rfl⟩

theorem expose_simulates (consistent : Consistent p) (name : String) :
    Simulates (p.step (.expose name)) (Separate.step p.shown (.expose name)) := by
  refine simulates_find consistent name fun h found => ?_
  obtain ⟨ready, shown⟩ := ownNamed_simulates consistent found
  exact ⟨ready, shown, congrArg (fun items => Except.ok (Answer.items items))
    (stored_ownNamed consistent found)⟩

theorem read_simulates (consistent : Consistent p) (name : String) (query : Query α) :
    Simulates (p.step (.read name query)) (Separate.step p.shown (.read name query)) := by
  refine simulates_find consistent name fun h found => ?_
  rw [view_eq (consistent.window found).2]
  cases query (.ofList (p.contents h)) with
  | error fault => exact simulates_error consistent fault
  | ok answer => exact simulates_ok answer ⟨consistent, rfl⟩

/-- Each command does to a consistent pool what it does to the lists that the pool shows. -/
theorem step_simulates (consistent : Consistent p) (c : Command α) :
    Simulates (p.step c) (Separate.step p.shown c) := by
  cases c with
  | create target items =>
      obtain ⟨next, shown⟩ := create_simulates target consistent items
      exact ⟨next, shown, rfl⟩
  | reserve target capacity =>
      simp only [step, Separate.step]
      cases checkCapacity capacity with
      | error fault => exact simulates_error consistent fault
      | ok _ => exact simulates_ok .nothing (create_simulates target consistent [])
  | clone name target => exact clone_simulates consistent name target
  | slice name target start stop => exact slice_simulates consistent name target start stop
  | splitOff name target position => exact splitOff_simulates consistent name target position
  | intoSlices name stem size => exact intoSlices_simulates consistent name stem size
  | release name =>
      exact simulates_find consistent name fun h found =>
        simulates_ok .nothing (release_simulates consistent found)
  | extend name source => exact extend_simulates consistent name source
  | truncate name length =>
      exact simulates_find consistent name fun h found =>
        simulates_ok .nothing (truncate_simulates consistent found length)
  | modify name edit => exact modifyNamed_simulates consistent name edit
  | write name position x => exact write_simulates consistent name position x
  | expose name => exact expose_simulates consistent name
  | read name query => exact read_simulates consistent name query

/-- What one step preserves, a run preserves. -/
theorem run_simulates (consistent : Consistent p) (commands : List (Command α)) :
    Consistent (p.run commands).1 ∧
      (p.run commands).1.shown = (Separate.run p.shown commands).1 ∧
      (p.run commands).2 = (Separate.run p.shown commands).2 := by
  induction commands generalizing p with
  | nil => exact ⟨consistent, rfl, rfl⟩
  | cons c commands ih =>
      obtain ⟨next, shown, answer⟩ := step_simulates consistent c
      obtain ⟨last, finalShown, answers⟩ := ih next
      rw [shown] at finalShown answers
      exact ⟨last, finalShown, congr (congrArg List.cons answer) answers⟩

end RowMajor.Buffer.Pool
