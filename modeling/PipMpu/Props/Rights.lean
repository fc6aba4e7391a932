import PipMpu.Props.Coherence
import PipMpu.Refine.Chains

/-!
This module contains how the rights of a block compare with those of the blocks it lies in, up to the root, and
that cutting and merging do not change them.
-/

/--
Writing and executing are allowed only if the other block allows it.
-/
def Slot.RightsLe (sl sl' : Slot) : Prop :=
  (sl.write = true → sl'.write = true) ∧ (sl.exec = true → sl'.exec = true)

theorem Slot.RightsLe.trans {sl sl' sl'' : Slot} (h : sl.RightsLe sl') (h' : sl'.RightsLe sl'')
    : sl.RightsLe sl'' :=
  ⟨fun hw => h'.1 (h.1 hw), fun hx => h'.2 (h.2 hx)⟩

namespace State

/--
The block `a` lies in exactly one block of `q`, and its rights do not exceed the rights of this block.
-/
def RightsWithin (s : State) (a q : Nat) : Prop :=
  ∃ B, s.LiesIn a q B ∧ (∀ B', s.LiesIn a q B' → B' = B) ∧ (s.slotOf a).RightsLe (s.slotOf B)

/--
Cutting and merging, by any partition, give blocks with the rights of the blocks they come from.
-/
structure RightsKept (s : State) : Prop where
  cut : ∀ p a cutAddr region, s.Partition p → let r := cutMemoryBlock a cutAddr region (s.runBy p)
    r.1 ≠ nullAddr → (r.2.slotOf r.1).SameRights (s.slotOf a) ∧ (r.2.slotOf a).SameRights (s.slotOf a)
  merge : ∀ p a₁ a₂ region, s.Partition p → let r := mergeMemoryBlocks a₁ a₂ region (s.runBy p)
    r.1 ≠ nullAddr → (r.2.slotOf r.1).SameRights (s.slotOf a₁) ∧ (r.2.slotOf r.1).SameRights (s.slotOf a₂)

end State

/--
Each block lies in a block of the root with at least its rights.
-/
theorem Conf.Static.exists_root_block {C : Conf} (hC : C.Static) {p a : Nat} (ha : C.Has p a)
    : ∃ R, C.Has C.root R ∧ (C.slot a).range ⊆ (C.slot R).range ∧ (C.slot a).RightsLe (C.slot R) := by
  induction hdepth : C.depth p generalizing p a with
  | zero =>
    rw [(hC.depth_eq_zero ha.live).mp hdepth] at ha
    exact ⟨a, ha, fun _ hx => hx, id, id⟩
  | succ n ih =>
    have hp : p ≠ C.root := by
      intro hroot
      have := (hC.depth_eq_zero ha.live).mpr hroot
      omega
    rcases hC.host p a hp ha with ⟨B, hB⟩
    have hparent := hC.depth_parent p ha.live hp
    rcases ih hB.has (by omega) with ⟨R, hR, hsub, hle⟩
    have hle' : (C.slot a).RightsLe (C.slot B) := ⟨hB.write_le, hB.exec_le⟩
    exact ⟨R, hR, (hC.range_subset_host ha hB).trans hsub, hle'.trans hle⟩

namespace Sim

variable {s : State} {C : Conf} {p a : Nat}

theorem rightsWithin_parent (h : Sim s C) (hC : C.Static) (hp : p ≠ C.root) (ha : C.Has p a)
    : s.RightsWithin a (s.pdtables.get p).parent := by
  rcases h.liesIn_unique hC hp ha with ⟨B, hB, hlies, hunique⟩
  refine ⟨B, hlies, hunique, ?_⟩
  rw [h.slotOf_eq ha.1, h.slotOf_eq hB.has.1]
  exact ⟨hB.write_le, hB.exec_le⟩

theorem rightsWithin_root (h : Sim s C) (hC : C.Static) (ha : C.Has p a)
    : s.RightsWithin a s.constantRootPartM := by
  rw [h.root]
  rcases hC.exists_root_block ha with ⟨R, hR, hsub, hle⟩
  have hslot := h.slotOf_eq ha.1
  have hblock : ∀ x, s.HasBlock C.root x ↔ C.Has C.root x := fun x => h.hasBlock_iff hC.root_live
  refine ⟨R, ⟨(hblock R).mpr hR, ?_⟩, ?_, ?_⟩
  . rw [hslot, h.slotOf_eq hR.1]
    exact hsub
  . rintro R' ⟨hR', hsub'⟩
    have hR' := (hblock R').mp hR'
    rw [hslot, h.slotOf_eq hR'.1] at hsub'
    have hx := hC.mem_range_start ha
    exact hC.eq_of_mem_range hR' hR (hsub' hx) (hsub hx)
  . rw [hslot, h.slotOf_eq hR.1]
    exact hle

theorem rightsKept (h : Sim s C) (hC : C.Inv) (hE : C.Even) : s.RightsKept := by
  have hswitch : ∀ p, s.Partition p → (C.switch p).Inv :=
    fun p hp => hC.switch (h.live_of_partition hC.static hp)
  constructor
  . intro p a cutAddr region hp r hr
    exact (h.switch p).cutMemoryBlock_sameRights (hswitch p hp) hr
  . intro p a₁ a₂ region hp r hr
    have hES : (C.switch p).Even := hE.of_tame (hswitch p hp).static (.switch C p)
    exact (h.switch p).mergeMemoryBlocks_sameRights (hswitch p hp) hES hr

end Sim

/--
In every run of the services a block of a child may be read, its other rights do not exceed those of the blocks of
the parent and of the root it lies in, and cutting and merging keep the rights.
-/
theorem rights_of_reachable {s : State} (h : (ServiceCall.system.restrict State.Whole).Reachable s)
    : s.RightsKept ∧ ∀ p a, s.Partition p → p ≠ s.constantRootPartM → s.HasBlock p a →
        (s.slotOf a).read = true ∧ s.RightsWithin a (s.pdtables.get p).parent
          ∧ s.RightsWithin a s.constantRootPartM := by
  rcases ServiceCall.evenView_of_reachable h with ⟨C, hsim, hC, hE⟩
  have hS := hC.static
  refine ⟨hsim.rightsKept hC hE, ?_⟩
  intro p a hp hroot ha
  have ha := (hsim.hasBlock hS hp).mp ha
  rw [hsim.root] at hroot
  rcases hS.host p a hroot ha with ⟨B, hB⟩
  rw [hsim.slotOf_eq ha.1]
  exact ⟨hB.read_eq, hsim.rightsWithin_parent hS hroot ha, hsim.rightsWithin_root hS ha⟩

theorem rights_threeLevels
    : (threeLevels.slotOf 0x2000B000).read = true
        ∧ threeLevels.RightsWithin 0x2000B000 (threeLevels.pdtables.get 0x2000A000).parent
        ∧ threeLevels.RightsWithin 0x2000B000 threeLevels.constantRootPartM := by
  have hpath : threeLevels.follow threeLevels.constantRootPartM [0x2000F111, 0x20009000] = some 0x2000A000 := by
    decide +kernel
  apply (rights_of_reachable threeLevels_reachable).2 0x2000A000 0x2000B000 (State.partition_of_follow .root hpath)
  . decide +kernel
  . apply State.hasBlock_of_first <;> decide +kernel
