import PipMpu.Core.Frame
import PipMpu.Refine.Outside
import PipMpu.Refine.Tree

/-!
This module contains when two states have the same kernel data: the same partitions, the same descriptors but for the
virtual MPU, and the same structures with all their entries. Two states with one view do.
-/

namespace State

/--
`k` is one of the structures that are linked from the descriptor of `p`.
-/
def HasStructure (s : State) (p k : Nat) : Prop :=
  LinkReach s.nextStructure (s.pdtables.get p).structurePtr k

/--
The free slots are linked through their block entries, so their order is part of these.
-/
structure SameKernelData (s s' : State) : Prop where
  currentPartition : s'.currentPartition = s.currentPartition
  partition : ∀ p, s'.Partition p ↔ s.Partition p
  descriptor : ∀ p, s.Partition p →
    s'.pdtables.get p
      =
    { s.pdtables.get p with mpu := (s'.pdtables.get p).mpu, LUT := (s'.pdtables.get p).LUT }
  next : ∀ p k, s.Partition p → s.HasStructure p k → s'.nextStructure k = s.nextStructure k
  blockEntry : ∀ p k i, s.Partition p → s.HasStructure p k → i < 8 →
    s'.blockEntries.get (slotAddr k i) = s.blockEntries.get (slotAddr k i)
  sh1Entry : ∀ p k i, s.Partition p → s.HasStructure p k → i < 8 →
    s'.sh1Entries.get (sh1Addr k i) = s.sh1Entries.get (sh1Addr k i)
  scEntry : ∀ p k i, s.Partition p → s.HasStructure p k → i < 8 →
    s'.scEntries.get (scAddr k i) = s.scEntries.get (scAddr k i)

end State

theorem Sim.hasStructure_iff {s : State} {C : Conf} (h : Sim s C) {t k : Nat} (ht : C.Live t)
    : s.HasStructure t k ↔ k ∈ C.structures t :=
  ((h.structures t ht).mem_iff_reach k).symm

/--
The fields of the descriptors that the view is not about.
-/
def State.SameOwners (s s' : State) : Prop := ∀ p, (s.pdtables.get p).SameOwner (s'.pdtables.get p)

namespace State.SameOwners

theorem of_pdtables {s s' : State} (h : s'.pdtables = s.pdtables) : s.SameOwners s' := by
  intro p
  rw [h]
  exact ⟨rfl, rfl, rfl⟩

instance : Std.Refl State.SameOwners := ⟨fun _ => of_pdtables rfl⟩

instance : IsTrans State State.SameOwners where
  trans _ _ _ h h' p :=
    ⟨(h' p).1.trans (h p).1, (h' p).2.1.trans (h p).2.1, (h' p).2.2.trans (h p).2.2⟩

theorem writes : Writes State.SameOwners where
  block _ _ _ := of_pdtables rfl
  sh1 _ _ _ := of_pdtables rfl
  sc _ _ _ := of_pdtables rfl
  table pd f hf := by
    intro s p
    unfold modifyPDTable LLI.modify
    by_cases heq : pd = p
    . subst heq
      simp only [Mem.get_set_self]
      exact hf _
    . simp only [Mem.get_set_of_ne _ _ heq]
      exact ⟨rfl, rfl, rfl⟩
  load _ _ := of_pdtables rfl

end State.SameOwners

/--
Outside of `W`, the bytes and the fields of the descriptors that the view is not about.
-/
def State.SameOwnersOutside (W : Set Nat) (s s' : State) : Prop :=
  ∀ x, x ∉ W → (s.pdtables.get x).SameOwner (s'.pdtables.get x) ∧ s'.bytes.get x = s.bytes.get x

namespace State.SameOwnersOutside

variable {W : Set Nat}

theorem of_owners {s s' : State} (h : s.SameOwners s') (hbytes : s'.bytes = s.bytes) : s.SameOwnersOutside W s' := by
  intro x _
  rw [hbytes]
  exact ⟨h x, rfl⟩

theorem of_outside {s s' : State} (h : SameOutside W s s') : s.SameOwnersOutside W s' := by
  intro x hx
  rw [h.pdtables x hx, h.bytes x hx]
  exact ⟨⟨rfl, rfl, rfl⟩, rfl⟩

instance : Std.Refl (State.SameOwnersOutside W) := ⟨fun _ => of_owners (.of_pdtables rfl) rfl⟩

instance : IsTrans State (State.SameOwnersOutside W) where
  trans _ _ _ h h' x hx :=
    ⟨⟨(h' x hx).1.1.trans (h x hx).1.1, (h' x hx).1.2.1.trans (h x hx).1.2.1, (h' x hx).1.2.2.trans (h x hx).1.2.2⟩,
      (h' x hx).2.trans (h x hx).2⟩

theorem writes : Writes (State.SameOwnersOutside W) where
  block entry f s := of_owners (SameOwners.writes.block entry f s) rfl
  sh1 entry f s := of_owners (SameOwners.writes.sh1 entry f s) rfl
  sc entry f s := of_owners (SameOwners.writes.sc entry f s) rfl
  table pd f hf s := of_owners (SameOwners.writes.table pd f hf s) rfl
  load LUT s := of_owners (SameOwners.writes.load LUT s) rfl

theorem next (k value : Nat) : Keeps (State.SameOwnersOutside W) (writeNextFromKernelStructureStart k value) :=
  fun _ => of_owners (.of_pdtables rfl) rfl

end State.SameOwnersOutside

theorem PDTable.eq_of_core {pdt pdt' : PDTable} (hcore : pdt'.core = pdt.core) (howner : pdt.SameOwner pdt')
    : pdt' = { pdt with mpu := pdt'.mpu, LUT := pdt'.LUT } := by
  rcases pdt with ⟨_, _, _, _, _, _, _, _, _⟩
  rcases pdt' with ⟨_, _, _, _, _, _, _, _, _⟩
  simp only [PDTable.core, Prod.mk.injEq] at hcore
  rcases hcore with ⟨rfl, rfl, rfl, rfl, rfl⟩
  rcases howner with ⟨-, hvidt, hinterrupt⟩
  dsimp only at hvidt hinterrupt
  rw [hvidt, hinterrupt]

/--
The entries of a slot are what the view says of them, but for the link of a free slot.
-/
theorem mkSlot_inj {entry entry' : BlockEntry} {sh1 sh1' : Sh1Entry} {sc sc' : SCEntry}
    (hslot : mkSlot entry' sh1' sc' = mkSlot entry sh1 sc) (hindex : entry'.blockindex = entry.blockindex)
    (hfree : entry.present = false → entry'.endAddr = entry.endAddr)
    : entry' = entry ∧ sh1' = sh1 ∧ sc' = sc := by
  rcases entry with ⟨_, _, _, _, _, _, _, _⟩
  rcases entry' with ⟨_, _, _, _, _, _, _, _⟩
  rcases sh1 with ⟨_, _, _⟩
  rcases sh1' with ⟨_, _, _⟩
  rcases sc with ⟨_, _⟩
  rcases sc' with ⟨_, _⟩
  simp only [mkSlot, Slot.mk.injEq] at hslot hindex hfree
  rcases hslot with ⟨rfl, rfl, rfl, rfl, rfl, rfl, hend, rfl, rfl, rfl, rfl, rfl⟩
  refine ⟨?_, rfl, rfl⟩
  rw [hindex]
  split at hend
  . rw [hend]
  . next hnot => rw [hfree (by simpa using hnot)]

namespace Sim

variable {s s' : State} {C : Conf}

theorem entries_eq {C' : Conf} (h : Sim s C) (h' : Sim s' C') (hC : C.Static) {p k i : Nat} (hp : C.Live p)
    (hp' : C'.Live p) (hk : k ∈ C.structures p) (hk' : k ∈ C'.structures p) (hi : i < 8)
    (hfree : C'.free p = C.free p) (hslots : C'.slot (slotAddr k i) = C.slot (slotAddr k i))
    : s'.blockEntries.get (slotAddr k i) = s.blockEntries.get (slotAddr k i)
        ∧ s'.sh1Entries.get (sh1Addr k i) = s.sh1Entries.get (sh1Addr k i)
        ∧ s'.scEntries.get (scAddr k i) = s.scEntries.get (scAddr k i) := by
  have hslot : s'.slotView k i = s.slotView k i :=
    (h'.slot p k i hp' hk' hi).trans (hslots.trans (h.slot p k i hp hk hi).symm)
  have hindex := (h'.blockindex p k i hp' hk' hi).trans (h.blockindex p k i hp hk hi).symm
  refine mkSlot_inj hslot hindex fun hpresent => ?_
  have howns : C.Owns p (slotAddr k i) := ⟨hp, k, hk, slotAddr_mem hi⟩
  rw [h.present_eq howns] at hpresent
  have hmem := (hC.mem_free p _ hp).mpr ⟨howns, hpresent⟩
  exact (h.free p hp).next_eq (hfree ▸ h'.free p hp') _ hmem

theorem core_congr {C' : Conf} (h : Sim s C) (h' : Sim s' C') {p : Nat} (hp : C.Live p) (hp' : C'.Live p)
    (hstructures : C'.structures p = C.structures p) (hfree : C'.free p = C.free p)
    (howner : (s.pdtables.get p).SameOwner (s'.pdtables.get p))
    : (s'.pdtables.get p).core = (s.pdtables.get p).core := by
  have hstructures' := h'.structures p hp'
  have hfree' := h'.free p hp'
  rw [hstructures] at hstructures'
  rw [hfree] at hfree'
  unfold PDTable.core
  rw [(h.structures p hp).start_eq hstructures', (h.free p hp).start_eq hfree', h'.nbfreeslots p hp',
    h.nbfreeslots p hp, h'.nbprepare p hp', h.nbprepare p hp, hstructures, hfree, howner.1]

/--
Two states with one view have the same kernel data, if the fields of the descriptors that the view is not about are
the same.
-/
theorem sameKernelData (h : Sim s C) (h' : Sim s' C) (hC : C.Static)
    (howners : ∀ p, s.Partition p → (s.pdtables.get p).SameOwner (s'.pdtables.get p)) : s.SameKernelData s' := by
  have hlive : ∀ p, s.Partition p → C.Live p := fun p hp => h.live_of_partition hC hp
  have hmem : ∀ p k, s.Partition p → s.HasStructure p k → k ∈ C.structures p :=
    fun p k hp hk => ((h.structures p (hlive p hp)).mem_iff_reach k).mpr hk
  have hentries := fun p k i hp hk hi =>
    h.entries_eq h' hC (hlive p hp) (hlive p hp) (hmem p k hp hk) (hmem p k hp hk) (i := i) hi rfl rfl
  constructor
  case currentPartition => rw [h.cur, h'.cur]
  case partition =>
    intro p
    rw [h.partition_iff hC, h'.partition_iff hC]
  case descriptor =>
    intro p hp
    exact PDTable.eq_of_core (h.core_congr h' (hlive p hp) (hlive p hp) rfl rfl (howners p hp)) (howners p hp)
  case next =>
    intro p k hp hk
    exact (h.structures p (hlive p hp)).next_eq (h'.structures p (hlive p hp)) k (hmem p k hp hk)
  case blockEntry =>
    intro p k i hp hk hi
    exact (hentries p k i hp hk hi).1
  case sh1Entry =>
    intro p k i hp hk hi
    exact (hentries p k i hp hk hi).2.1
  case scEntry =>
    intro p k i hp hk hi
    exact (hentries p k i hp hk hi).2.2

end Sim
