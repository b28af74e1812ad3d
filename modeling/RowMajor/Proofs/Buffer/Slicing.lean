import RowMajor.Proofs.Buffer.Copying

/-!
# Slices of buffers

A buffer is cut into slices of one size, which are windows onto the storage that it shows itself.
Each slice is entered under a name of its own, and everything else is as it was before. When a
new buffer is extended by the slices they are still what they were when they were cut, since what
grows is never the storage that they show.
-/

namespace RowMajor.Buffer

variable {α : Type} {source name : String} {xs part : List α} {names : List String}
  {parts : List (List α)} {start size : Nat}

/-- Cut slices of one size out of a buffer, beginning with the given one. -/
def Command.cutFrom (start : Nat) (size : Int) (source : String) (names : List String) :
    List (Command α) :=
  (names.zipIdx start).map fun (name, i) =>
    .slice source name (Int.ofNat i * size) (some ((Int.ofNat i + 1) * size))

namespace Separate

variable {s t : Separate α}

/-- One table has the given parts under the given names, and under all other names what another
table has. -/
structure Gains (s t : Separate α) (names : List String) (parts : List (List α)) : Prop where
  gained : List.Forall₂ (fun name part => t.get? name = some part) names parts
  others : ∀ other, other ∉ names → t.get? other = s.get? other

namespace Gains

theorem nil : s.Gains s [] [] :=
  ⟨.nil, fun _ _ => rfl⟩

/-- The first part is there to the end, since its name is not among the later ones. -/
theorem cons (new : name ∉ names) (rest : Gains (s.put name part) t names parts) :
    s.Gains t (name :: names) (part :: parts) := by
  refine ⟨.cons ((rest.others name new).trans Table.get?_put_self) rest.gained, ?_⟩
  intro other apart
  rw [List.mem_cons, not_or] at apart
  exact (rest.others other apart.2).trans (Table.get?_put_of_ne apart.1)

end Gains

theorem step_slice {i : Nat} (found : s.get? source = some xs) (room : (i + 1) * size ≤ xs.length) :
    s.step (.slice source name (Int.ofNat i * Int.ofNat size)
        (some ((Int.ofNat i + 1) * Int.ofNat size))) =
      (s.put name ((xs.drop (i * size)).take size), .ok .nothing) := by
  have inside : ¬ (Int.ofNat (i * size) < 0 ∨ Int.ofNat ((i + 1) * size) < Int.ofNat (i * size) ∨
      Int.ofNat xs.length < Int.ofNat ((i + 1) * size)) := by
    rw [Nat.succ_mul] at room ⊢
    simp only [Int.ofNat_eq_natCast]
    omega
  have length : (Int.ofNat ((i + 1) * size) - Int.ofNat (i * size)).toNat = size := by
    rw [Nat.succ_mul]
    simp only [Int.ofNat_eq_natCast]
    omega
  have cut : Separate.part xs (Int.ofNat (i * size)) (some (Int.ofNat ((i + 1) * size))) =
      .ok ((xs.drop (i * size)).take size) := by
    rw [Separate.part]
    refine (if_neg inside).trans ?_
    rw [Option.getD_some, length]
    rfl
  show s.step (.slice source name (Int.ofNat (i * size)) (some (Int.ofNat ((i + 1) * size)))) = _
  simp only [step, find_of_get? found, bind, Except.bind, cut]
  rfl

/-- The buffer is not among the slices, so it is still whole when the last of them is cut. -/
theorem run_cutFrom (distinct : names.Nodup) (new : source ∉ names)
    (found : s.get? source = some xs) (room : (start + names.length) * size ≤ xs.length) :
    (∀ answer ∈ (s.run (Command.cutFrom start (Int.ofNat size) source names)).2,
      answer = .ok .nothing) ∧
    s.Gains (s.run (Command.cutFrom start (Int.ofNat size) source names)).1 names
      (pieces size names.length (xs.drop (start * size))) := by
  induction names generalizing s start with
  | nil => exact ⟨fun _ never => absurd never List.not_mem_nil, .nil⟩
  | cons name names ih =>
      rw [List.nodup_cons] at distinct
      rw [List.mem_cons, not_or] at new
      rw [List.length_cons, Nat.add_comm names.length, ← Nat.add_assoc] at room
      have here : (start + 1) * size ≤ xs.length :=
        Nat.le_trans (Nat.mul_le_mul_right size (Nat.le_add_right ..)) room
      obtain ⟨granted, gains⟩ := ih (s := s.put name _) distinct.2 new.2
        ((Table.get?_put_of_ne new.1).trans found) room
      rw [Command.cutFrom, List.zipIdx_cons, List.map_cons, run, step_slice found here,
        List.length_cons, pieces, List.drop_drop, ← Nat.succ_mul]
      exact ⟨List.forall_mem_cons.mpr ⟨rfl, granted⟩, .cons distinct.1 gains⟩

end Separate

/-- The slices show the pieces of the buffer in their order, and nothing else has changed. -/
theorem Pool.run_cutFrom_zero {p : Pool α} (consistent : Consistent p) (distinct : names.Nodup)
    (new : source ∉ names) (found : p.shown.get? source = some xs)
    (room : names.length * size ≤ xs.length) :
    let cut := p.run (Command.cutFrom 0 (Int.ofNat size) source names)
    Consistent cut.1 ∧ (∀ answer ∈ cut.2, answer = .ok .nothing) ∧
      p.shown.Gains cut.1.shown names (pieces size names.length xs) := by
  intro cut
  obtain ⟨still, shown, answers⟩ := run_simulates consistent
    (Command.cutFrom 0 (Int.ofNat size) source names)
  rw [← Nat.zero_add names.length] at room
  obtain ⟨granted, gains⟩ := Separate.run_cutFrom distinct new found room
  rw [Nat.zero_mul, List.drop_zero, ← shown] at gains
  rw [← answers] at granted
  exact ⟨still, granted, gains⟩

end RowMajor.Buffer
