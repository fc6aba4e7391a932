import PipMpu.Props.Served

/-!
This module contains what the accessible bits say about the memory in all runs of the services: a block that a
partition has not shared is accessible to it unless the descriptor or a structure of a partition lies in it. No service
leaves memory behind that nobody can use.
-/

namespace State

/--
The descriptor or a structure of a partition starts at the address.
-/
def KernelObject (s : State) (x : Nat) : Prop := s.Partition x ∨ ∃ q, s.Partition q ∧ s.HasStructure q x

/--
A block that is shared with no child is accessible exactly if it contains no kernel data.
-/
def InUse (s : State) : Prop :=
  ∀ p a, s.Partition p → s.HasBlock p a → (s.slotOf a).inChildLocation = nullAddr →
    ((s.slotOf a).accessible = true ↔ ∀ x ∈ (s.slotOf a).range, ¬s.KernelObject x)

end State

namespace Sim

variable {s : State} {C : Conf}

theorem kernelObject_iff (h : Sim s C) (hC : C.Static) (x : Nat)
    : s.KernelObject x ↔ C.Live x ∨ ∃ q, C.Live q ∧ x ∈ C.structures q := by
  unfold State.KernelObject
  rw [h.partition_iff hC]
  apply or_congr Iff.rfl
  apply exists_congr
  intro q
  rw [h.partition_iff hC, and_congr_right_iff]
  exact fun hq => h.hasStructure_iff hq

theorem inUse (h : Sim s C) (hC : C.Inv) (hset : C.Settled) : s.InUse := by
  have hS := hC.static
  intro p a hp ha hkept
  have hp := h.live_of_partition hS hp
  have ha := (h.hasBlock_iff hp).mp ha
  rw [h.slotOf_eq ha.1] at hkept ⊢
  constructor
  . intro hacc x hx hobject
    have hclear := hC.clear ha hacc
    rcases (h.kernelObject_iff hS x).mp hobject with hlive | ⟨q, hq, hk⟩
    . exact hclear.pd x hlive hx
    . exact hclear.structures q x x hq hk (Conf.mem_structureRange_self x) hx
  . intro hnone
    have hstart := hnone _ (hS.mem_range_start ha)
    rw [h.kernelObject_iff hS] at hstart
    apply hset.cover ha
    . by_contra hchild
      have hkind := hS.child_kind p a ha hchild
      exact hstart (.inr ⟨_, hkind.1, hkind.2.2.2 hkept⟩)
    . by_contra hflag
      simp only [Bool.not_eq_false] at hflag
      exact hstart (.inl (hS.flag_kind p a ha hflag).2.2.1)
    . exact fun hk => hstart (.inr ⟨p, hp, hk⟩)

end Sim

/--
In every such run the blocks that are not shared and hold no kernel data are accessible, and no others.
-/
theorem inUse_of_reachable {s : State} (h : (ServiceCall.system.restrict State.Orderly).Reachable s) : s.InUse := by
  rcases ServiceCall.settledView_of_orderly h with ⟨C, hsim, hC, hset⟩
  exact hsim.inUse hC hset

theorem inUse_threeLevels : threeLevels.InUse := inUse_of_reachable threeLevels_orderly
