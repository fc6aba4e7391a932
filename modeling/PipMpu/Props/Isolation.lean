import PipMpu.Props.AllServices
import PipMpu.Spec.Isolation

/-!
This module contains the three isolation properties of the partition tree in all runs of the services. `collect` looks
for a block that starts where the structure starts, so it can give back a block that is still shared with the child
whose structure lies in it.
-/

namespace State

/--
The address lies in the descriptor of `p`, in one of its structures, or in one of its blocks.
-/
def Uses (s : State) (p x : Nat) : Prop :=
  x ∈ pdRange p ∨ (∃ k, s.HasStructure p k ∧ x ∈ structureRange k) ∨ ∃ a, s.HasBlock p a ∧ x ∈ (s.slotOf a).range

/--
The children of a partition use different addresses.
-/
def ChildrenApart (s : State) : Prop :=
  ∀ p c c', s.Partition p → s.IsChild p c → s.IsChild p c' → c ≠ c' → Disjoint {x | s.Uses c x} {x | s.Uses c' x}

/--
No partition has access to the descriptor or to a structure of a partition.
-/
def KernelDataClosed (s : State) : Prop :=
  ∀ p q a x, s.Partition p → s.Partition q → s.HasBlock p a → (s.slotOf a).accessible = true →
    x ∈ (s.slotOf a).range → x ∉ pdRange q ∧ ∀ k, s.HasStructure q k → x ∉ structureRange k

/--
What a child uses lies in blocks of the parent that are recorded as the one of its descriptor or as shared with it.
-/
def SharedVertically (s : State) : Prop :=
  ∀ p c x, s.Partition p → s.IsChild p c → s.Uses c x → ∃ B, s.HasBlock p B ∧ x ∈ (s.slotOf B).range
    ∧ (((s.slotOf B).PDflag = true ∧ (s.slotOf B).startAddr = c) ∨ (s.slotOf B).PDchild = c)

end State

namespace Sim

variable {s : State} {C : Conf}

theorem uses_iff (h : Sim s C) {p x : Nat} (hp : C.Live p) : s.Uses p x ↔ C.Uses p x := by
  have hstructure : (∃ k, s.HasStructure p k ∧ x ∈ structureRange k) ↔
      ∃ k ∈ C.structures p, x ∈ structureRange k := by
    simp only [h.hasStructure_iff hp]
  have hblock : (∃ a, s.HasBlock p a ∧ x ∈ (s.slotOf a).range) ↔ ∃ a, C.Has p a ∧ x ∈ (C.slot a).range := by
    apply exists_congr
    intro a
    rw [h.hasBlock_iff hp, and_congr_right_iff]
    intro ha
    rw [h.slotOf_eq ha.1]
  unfold State.Uses Conf.Uses
  rw [hstructure, hblock]

end Sim

/-
A run in which a child prepares memory that its parent has shared with it
-/

/--
The root creates two children and shares the block from 0x2000A000 on with the first one, which makes two structures
for itself of it.
-/
def preparedByChildCalls : List (List Nat × ServiceCall) :=
  [
    ([], .cutMemoryBlock 0x2000F111 0x20009000 8),
    ([], .createPartition 0x2000F111),
    ([], .cutMemoryBlock 0x2000F133 0x2000A000 8),
    ([], .prepare 0x2000F111 0x2000F133),
    ([], .cutMemoryBlock 0x2000F144 0x2000B000 8),
    ([], .addMemoryBlock 0x2000F111 0x2000F144 true true false),
    ([], .cutMemoryBlock 0x2000F155 0x2000C000 8),
    ([], .createPartition 0x2000F155),
    ([], .cutMemoryBlock 0x2000F166 0x2000D000 8),
    ([], .prepare 0x2000F155 0x2000F166),
    ([0x2000F111], .cutMemoryBlock 0x20009000 0x2000A800 8),
    ([0x2000F111], .prepare 0x20008000 0x20009011),
    ([0x2000F111], .prepare 0x20008000 0x20009000)
  ]

def preparedByChild : State := (State.booted.replay preparedByChildCalls).getD State.booted

/--
The root collects from the first child.
-/
def takenBack : State := (preparedByChild.runBy 0x2000F000).after (.collect 0x2000F111)

/--
The root shares the block with the second child.
-/
def sharedAgain : State := (takenBack.runBy 0x2000F000).after (.addMemoryBlock 0x2000F155 0x2000F144 true true false)

theorem preparedByChild_eval
    : (State.booted.replay preparedByChildCalls).isSome = true ∧ preparedByChild.constantRootPartM = 0x2000F000 := by
  decide +kernel

/--
The root holds the block again, the child still has the block and the second structure in it.
-/
theorem takenBack_eval
    : takenBack.constantRootPartM = 0x2000F000
        ∧ takenBack.follow 0x2000F000 [0x2000F111] = some 0x20008000
        ∧ (takenBack.pdtables.get 0x2000F000).structurePtr = 0x2000F100
        ∧ takenBack.nextStructure 0x2000F100 = 0
        ∧ (takenBack.pdtables.get 0x20008000).structurePtr = 0x2000A800
        ∧ (takenBack.blockEntries.get 0x2000F144).present = true
        ∧ (takenBack.slotOf 0x2000F144).accessible = true
        ∧ (takenBack.slotOf 0x2000F144).startAddr = 0x2000A000
        ∧ (takenBack.slotOf 0x2000F144).endAddr = 0x2000B000
        ∧ ∀ B ∈ slotsOf 0x2000F100,
          (takenBack.slotOf B).startAddr ≤ 0x2000A800 ∧ 0x2000A800 < (takenBack.slotOf B).endAddr →
            (takenBack.slotOf B).PDflag = false ∧ (takenBack.slotOf B).PDchild = nullAddr := by
  decide +kernel

/--
The block is in the structures of both children.
-/
theorem sharedAgain_eval
    : sharedAgain.constantRootPartM = 0x2000F000
        ∧ sharedAgain.follow 0x2000F000 [0x2000F111] = some 0x20008000
        ∧ sharedAgain.follow 0x2000F000 [0x2000F155] = some 0x2000B000
        ∧ (sharedAgain.pdtables.get 0x20008000).structurePtr = 0x2000A800
        ∧ sharedAgain.nextStructure 0x2000A800 = 0x20009000
        ∧ (sharedAgain.pdtables.get 0x2000B000).structurePtr = 0x2000C000
        ∧ (∀ a ∈ [0x20009000, 0x2000C000], (sharedAgain.blockEntries.get a).present = true
          ∧ (sharedAgain.slotOf a).startAddr = 0x2000A000 ∧ 0x2000A000 < (sharedAgain.slotOf a).endAddr) := by
  decide +kernel

theorem takenBack_reachable : ServiceCall.system.Reachable takenBack := by
  apply ServiceCall.reachable_after (ServiceCall.reachable_of_calls preparedByChild_eval.1)
  have hroot := State.Partition.root (s := preparedByChild)
  rw [preparedByChild_eval.2] at hroot
  exact hroot

theorem takenBack_root : takenBack.Partition 0x2000F000 := by
  have hroot := State.Partition.root (s := takenBack)
  rw [takenBack_eval.1] at hroot
  exact hroot

theorem sharedAgain_reachable : ServiceCall.system.Reachable sharedAgain :=
  ServiceCall.reachable_after takenBack_reachable takenBack_root _

/--
In every such run the children of a partition use different addresses.
-/
theorem childrenApart_of_reachable {s : State} (h : (ServiceCall.system.restrict State.Orderly).Reachable s)
    : s.ChildrenApart := by
  rcases ServiceCall.view_of_orderly h with ⟨C, hsim, hC⟩
  have hS := hC.static
  intro p c c' hp hchild hchild' hne
  have hlive := hsim.live_of_partition hS hp
  rcases (hsim.isChild_iff hS hlive).mp hchild with ⟨hc, hroot, hparent⟩
  rcases (hsim.isChild_iff hS hlive).mp hchild' with ⟨hc', hroot', hparent'⟩
  rw [Set.disjoint_left]
  intro x hx hx'
  exact hne (hS.uses_unique hc hroot hc' hroot' (hparent'.trans hparent.symm) ((hsim.uses_iff hc).mp hx)
    ((hsim.uses_iff hc').mp hx'))

theorem childrenApart_threeLevels : threeLevels.ChildrenApart := childrenApart_of_reachable threeLevels_orderly

/--
Both children hold the first byte of the block.
-/
theorem not_childrenApart : ¬∀ s, ServiceCall.system.Reachable s → s.ChildrenApart := by
  intro hall
  rcases sharedAgain_eval with ⟨hrootPart, hchild, hchild', hfirst, hnext, hfirst', hblocks⟩
  have hroot := State.Partition.root (s := sharedAgain)
  rw [hrootPart] at hroot
  have hstructure := (State.hasStructure_of_first hfirst (by decide)).next hnext (by decide)
  have hstructure' := State.hasStructure_of_first hfirst' (by decide)
  have hblock := hblocks 0x20009000 (by decide)
  have hblock' := hblocks 0x2000C000 (by decide)
  have huses : sharedAgain.Uses 0x20008000 0x2000A000 :=
    .inr (.inr ⟨_, hstructure.hasBlock (by decide) hblock.1, hblock.2.1.le, hblock.2.2⟩)
  have huses' : sharedAgain.Uses 0x2000B000 0x2000A000 :=
    .inr (.inr ⟨_, hstructure'.hasBlock (by decide) hblock'.1, hblock'.2.1.le, hblock'.2.2⟩)
  have hapart := hall sharedAgain sharedAgain_reachable _ _ _ hroot (State.isChild_of_follow hchild)
    (State.isChild_of_follow hchild') (by decide)
  exact Set.disjoint_left.mp hapart huses huses'

/--
In every such run the kernel data is out of reach.
-/
theorem kernelDataClosed_of_reachable {s : State} (h : (ServiceCall.system.restrict State.Orderly).Reachable s)
    : s.KernelDataClosed := by
  rcases ServiceCall.view_of_orderly h with ⟨C, hsim, hC⟩
  intro p q a x hp hq ha hacc hx
  have hlive := hsim.live_of_partition hC.static hq
  have ha := (hsim.hasBlock hC.static hp).mp ha
  rw [hsim.slotOf_eq ha.1] at hacc hx
  refine ⟨fun hpd => hC.pd_notMem_accessible ha hacc hlive hpd hx, fun k hk hxk => ?_⟩
  exact hC.structure_notMem_accessible ha hacc hlive ((hsim.hasStructure_iff hlive).mp hk) hxk hx

theorem kernelDataClosed_threeLevels : threeLevels.KernelDataClosed :=
  kernelDataClosed_of_reachable threeLevels_orderly

/--
The root may access the second structure that the child has made of the block.
-/
theorem not_kernelDataClosed : ¬∀ s, ServiceCall.system.Reachable s → s.KernelDataClosed := by
  intro hall
  rcases takenBack_eval with ⟨-, hchild, hfirst, -, hfirst', hpresent, hacc, hstart, hend, -⟩
  have hpartition := State.partition_of_isChild takenBack_root (State.isChild_of_follow hchild)
  have hblock := (State.hasStructure_of_first hfirst (by decide)).hasBlock (a := 0x2000F144) (by decide) hpresent
  have hmem : 0x2000A800 ∈ (takenBack.slotOf 0x2000F144).range := by
    unfold Slot.range
    rw [hstart, hend]
    constructor <;> decide
  have hclosed := hall takenBack takenBack_reachable _ _ _ _ takenBack_root hpartition hblock hacc hmem
  exact hclosed.2 _ (State.hasStructure_of_first hfirst' (by decide)) (Conf.mem_structureRange_self _)

/--
In every such run the parent has a record of all that its children use.
-/
theorem sharedVertically_of_reachable {s : State} (h : (ServiceCall.system.restrict State.Orderly).Reachable s)
    : s.SharedVertically := by
  rcases ServiceCall.view_of_orderly h with ⟨C, hsim, hC⟩
  have hS := hC.static
  intro p c x hp hchild hx
  have hlive := hsim.live_of_partition hS hp
  rcases (hsim.isChild_iff hS hlive).mp hchild with ⟨hc, hroot, rfl⟩
  rcases hS.uses_in_parent hc hroot ((hsim.uses_iff hc).mp hx) with ⟨B, hB, hxB, hrecord⟩
  have hslot := hsim.slotOf_eq hB.1
  refine ⟨B, (hsim.hasBlock hS hp).mpr hB, hslot ▸ hxB, ?_⟩
  rw [hslot]
  exact hrecord

theorem sharedVertically_threeLevels : threeLevels.SharedVertically :=
  sharedVertically_of_reachable threeLevels_orderly

/--
The root has no record any more of the block that the child still holds.
-/
theorem not_sharedVertically : ¬∀ s, ServiceCall.system.Reachable s → s.SharedVertically := by
  intro hall
  rcases takenBack_eval with ⟨-, hchild, hfirst, hnext, hfirst', -, -, -, -, hslots⟩
  have huses : takenBack.Uses 0x20008000 0x2000A800 :=
    .inr (.inl ⟨_, State.hasStructure_of_first hfirst' (by decide), Conf.mem_structureRange_self _⟩)
  rcases hall takenBack takenBack_reachable _ _ _ takenBack_root (State.isChild_of_follow hchild) huses with
    ⟨B, ⟨⟨k, hk, hB⟩, -⟩, hx, hrecord⟩
  have hk : takenBack.HasStructure 0x2000F000 k := hk
  rw [hk.eq_of_single hfirst hnext] at hB
  rcases hslots B hB hx with ⟨hflag, hnull⟩
  rcases hrecord with ⟨hflag', -⟩ | hchild'
  . rw [hflag] at hflag'
    exact absurd hflag' (by simp)
  . rw [hnull] at hchild'
    exact absurd hchild' (by decide)
