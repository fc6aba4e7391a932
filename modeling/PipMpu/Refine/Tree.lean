import PipMpu.Refine.Sim
import PipMpu.Spec.Bounds
import PipMpu.Spec.Sep

/-!
This module contains the blocks and the partitions of a state, read from the kernel data as the services find
them, and why they are those of the abstract view.
-/

namespace State

/--
The slot at the address of its block entry. The index in the entry leads to the two shadow entries.
-/
def slotOf (s : State) (a : Nat) : Slot :=
  let entry := s.blockEntries.get a
  let k := a - entry.blockindex * sizeofBlockEntry
  mkSlot entry (s.sh1Entries.get (sh1Addr k entry.blockindex)) (s.scEntries.get (scAddr k entry.blockindex))

/--
`a` is an entry of one of the structures of `p`, which are linked from its descriptor.
-/
def OwnsEntry (s : State) (p a : Nat) : Prop :=
  ∃ k, LinkReach s.nextStructure (s.pdtables.get p).structurePtr k ∧ a ∈ slotsOf k

/--
`a` is a present block of `p`.
-/
def HasBlock (s : State) (p a : Nat) : Prop :=
  s.OwnsEntry p a ∧ (s.blockEntries.get a).present = true

/--
The partitions are the root and the children of partitions. A child is designated by the block of its
descriptor.
-/
inductive Partition (s : State) : Nat → Prop where
  | root : Partition s s.constantRootPartM
  | child {p a : Nat} : Partition s p → s.HasBlock p a → (s.slotOf a).PDflag = true →
      Partition s (s.slotOf a).startAddr

theorem hasBlock_of_first {s : State} {p a : Nat} (hfirst : (s.pdtables.get p).structurePtr ≠ 0)
    (hmem : a ∈ slotsOf (s.pdtables.get p).structurePtr) (hpresent : (s.blockEntries.get a).present = true)
    : s.HasBlock p a :=
  ⟨⟨_, .first hfirst, hmem⟩, hpresent⟩

/--
`B` is a present block of `q` that the block `a` lies in.
-/
def LiesIn (s : State) (a q B : Nat) : Prop :=
  s.HasBlock q B ∧ (s.slotOf a).range ⊆ (s.slotOf B).range

end State

namespace Sim

variable {s : State} {C : Conf} {p a : Nat}

theorem slotOf_eq (h : Sim s C) (ha : C.Owns p a) : s.slotOf a = C.slot a := by
  rcases h.view ha with ⟨k, i, hk, hi, rfl, hindex, hview⟩
  rw [← hview]
  unfold State.slotOf
  have hstart : slotAddr k i - i * sizeofBlockEntry = k := Nat.add_sub_cancel ..
  simp only [hindex, hstart]
  rfl

theorem ownsEntry_iff (h : Sim s C) (hp : C.Live p) : s.OwnsEntry p a ↔ C.Owns p a := by
  unfold State.OwnsEntry Conf.Owns
  simp only [← (h.structures p hp).mem_iff_reach]
  exact ⟨fun ha => ⟨hp, ha⟩, fun ha => ha.2⟩

theorem hasBlock_iff (h : Sim s C) (hp : C.Live p) : s.HasBlock p a ↔ C.Has p a := by
  unfold State.HasBlock Conf.Has
  rw [h.ownsEntry_iff hp]
  constructor
  . rintro ⟨howns, hpresent⟩
    exact ⟨howns, h.present_eq howns ▸ hpresent⟩
  . rintro ⟨howns, hpresent⟩
    exact ⟨howns, (h.present_eq howns).trans hpresent⟩

theorem live_of_partition (h : Sim s C) (hC : C.Static) (hp : s.Partition p) : C.Live p := by
  induction hp with
  | root =>
    rw [h.root]
    exact hC.root_live
  | child _ hblock hflag ih =>
    have ha := (h.hasBlock_iff ih).mp hblock
    rw [h.slotOf_eq ha.1] at hflag ⊢
    exact (hC.flag_kind _ _ ha hflag).2.2.1

theorem partition_of_live (h : Sim s C) (hC : C.Static) (hp : C.Live p) : s.Partition p := by
  induction hdepth : C.depth p generalizing p with
  | zero =>
    rw [(hC.depth_eq_zero hp).mp hdepth, ← h.root]
    exact .root
  | succ n ih =>
    have hne : p ≠ C.root := by
      rintro rfl
      rw [hC.depth_root] at hdepth
      exact absurd hdepth (by simp)
    have hparent := hC.parent_live p hp hne
    have hpred := hC.depth_parent p hp hne
    rcases hC.pd_house p hp hne with ⟨H, hH, hflag, hstart, -⟩
    have hblock := (h.hasBlock_iff hparent).mpr hH
    have hslot := h.slotOf_eq hH.1
    have hchild := State.Partition.child (ih hparent (by omega)) hblock (hslot ▸ hflag)
    rw [hslot, hstart] at hchild
    exact hchild

/--
The partitions of the state are those of the view.
-/
theorem partition_iff (h : Sim s C) (hC : C.Static) : s.Partition p ↔ C.Live p :=
  ⟨h.live_of_partition hC, h.partition_of_live hC⟩

theorem hasBlock (h : Sim s C) (hC : C.Static) (hp : s.Partition p) : s.HasBlock p a ↔ C.Has p a :=
  h.hasBlock_iff (h.live_of_partition hC hp)

/--
The block of the parent that a block lies in is the one it was made of.
-/
theorem liesIn_iff_hosts (h : Sim s C) (hC : C.Static) {B : Nat} (hp : p ≠ C.root) (ha : C.Has p a)
    : s.LiesIn a (s.pdtables.get p).parent B ↔ C.Hosts p a B := by
  unfold State.LiesIn
  rw [h.parent p ha.live hp, h.hasBlock_iff (hC.parent_live p ha.live hp), h.slotOf_eq ha.1]
  constructor
  . rintro ⟨hB, hsub⟩
    rw [h.slotOf_eq hB.1] at hsub
    have hx := hC.mem_range_start ha
    exact hC.hosts_of_mem_range hp ha hB hx (hsub hx)
  . intro hB
    rw [h.slotOf_eq hB.has.1]
    exact ⟨hB.has, hC.range_subset_host ha hB⟩

/--
A block that is not one of the root lies in exactly one block of the parent.
-/
theorem liesIn_unique (h : Sim s C) (hC : C.Static) (hp : p ≠ C.root) (ha : C.Has p a)
    : ∃ B, C.Hosts p a B ∧ s.LiesIn a (s.pdtables.get p).parent B
        ∧ ∀ B', s.LiesIn a (s.pdtables.get p).parent B' → B' = B := by
  rcases hC.host p a hp ha with ⟨B, hB⟩
  refine ⟨B, hB, (h.liesIn_iff_hosts hC hp ha).mpr hB, ?_⟩
  intro B' hB'
  exact hC.hosts_unique ha ((h.liesIn_iff_hosts hC hp ha).mp hB') hB

end Sim
