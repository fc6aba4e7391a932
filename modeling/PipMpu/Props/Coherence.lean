import PipMpu.Props.Removal

/-!
This module contains how the blocks of a partition agree with those of its parent over whole runs: the parent has
the same block, just as accessible, unless the child has cut it.
-/

/--
The block `a` of a child of `q` agrees with the block of `q` it lies in.
-/
structure State.AgreesAbove (s : State) (q a : Nat) : Prop where
  /-- There is exactly one block with the same bounds, and it is just as accessible. -/
  uncut : (s.slotOf a).Uncut → ∃ B, s.HasBlock q B ∧ (s.slotOf B).startAddr = (s.slotOf a).startAddr
    ∧ (s.slotOf B).endAddr = (s.slotOf a).endAddr ∧ (s.slotOf B).accessible = (s.slotOf a).accessible
    ∧ ∀ B', s.HasBlock q B' → (s.slotOf B').startAddr = (s.slotOf a).startAddr →
      (s.slotOf B').endAddr = (s.slotOf a).endAddr → B' = B
  cut : ¬(s.slotOf a).Uncut → ∃ B, s.LiesIn a q B ∧ (s.slotOf B).accessible = false
    ∧ ∀ B', s.LiesIn a q B' → B' = B

namespace Sim

variable {s : State} {C : Conf} {p a : Nat}

theorem agreesAbove (h : Sim s C) (hC : C.Inv) (hp : p ≠ C.root) (ha : C.Has p a)
    : s.AgreesAbove (s.pdtables.get p).parent a := by
  have hS := hC.static
  have hslot := h.slotOf_eq ha.1
  rcases h.liesIn_unique hS hp ha with ⟨B, hB, hlies, hunique⟩
  have hslotB := h.slotOf_eq hB.has.1
  have hcoherent := hC.coherent p a hp ha B hB
  constructor
  . intro huncut
    rw [hslot] at huncut ⊢
    refine ⟨B, hlies.1, ?_, ?_, ?_, ?_⟩
    . rw [hslotB, hB.start_eq, huncut.1]
    . rw [hslotB, hB.end_eq huncut.2]
    . rw [hslotB, Bool.eq_iff_iff, hcoherent]
      exact ⟨fun hacc => hacc.2, fun hacc => ⟨huncut, hacc⟩⟩
    . intro B' hB' hstart hend
      apply hunique B' ⟨hB', ?_⟩
      unfold Slot.range
      rw [hslot, hstart, hend]
  . intro hcut
    rw [hslot] at hcut
    refine ⟨B, hlies, ?_, hunique⟩
    rw [hslotB, ← Bool.not_eq_true, hcoherent]
    exact fun hacc => hcut hacc.1

end Sim

/--
In every run of the services each block agrees with the block of the parent it lies in.
-/
theorem agreesAbove_of_reachable {s : State} (h : (ServiceCall.system.restrict State.Whole).Reachable s)
    {p a : Nat} (hp : s.Partition p) (hroot : p ≠ s.constantRootPartM) (ha : s.HasBlock p a)
    : s.AgreesAbove (s.pdtables.get p).parent a := by
  rcases ServiceCall.view_of_reachable h with ⟨C, hsim, hC⟩
  exact hsim.agreesAbove hC (hsim.root ▸ hroot) ((hsim.hasBlock hC.static hp).mp ha)

/--
The part of its block that the child turned into a partition lies in an inaccessible block of the root.
-/
theorem agreesAbove_threeLevels
    : threeLevels.AgreesAbove (threeLevels.pdtables.get 0x20008000).parent 0x20009000 := by
  have hpath : threeLevels.follow threeLevels.constantRootPartM [0x2000F111] = some 0x20008000 := by
    decide +kernel
  apply agreesAbove_of_reachable threeLevels_reachable (State.partition_of_follow .root hpath)
  . decide +kernel
  . apply State.hasBlock_of_first <;> decide +kernel
