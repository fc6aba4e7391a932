import PipMpu.Model.Stores
import PipMpu.Refine.KernelData

/-!
This module contains which stores leave the kernel data alone: those to addresses outside of the descriptors and
structures of the partitions. For a given state these addresses can be computed.
-/

namespace State

/--
The address lies in no descriptor and in no structure of a partition.
-/
def OutsideKernelData (s : State) (x : Nat) : Prop :=
  ∀ p, s.Partition p → x ∉ pdRange p ∧ ∀ k, s.HasStructure p k → x ∉ structureRange k

end State

/-
The objects that no store reaches
-/

section Overlay

variable {s : State} {p k i : Nat}

theorem overlay_descriptor (h : ∀ x ∈ s.stores, x ∉ pdRange p) : s.overlay.pdtables.get p = s.pdtables.get p :=
  Mem.get_updateAt_of_notMem _ _ (notMem_touched h)

/--
A part of a structure of which no byte is written.
-/
theorem notMem_touched_of_structure {addr size : Nat} {addrs : List Nat} (h : ∀ x ∈ s.stores, x ∉ structureRange k)
    (hpart : k ≤ addr ∧ addr + size ≤ k + 276) : addr ∉ touched s.stores size addrs := by
  apply notMem_touched
  rintro x hx ⟨hle, hlt⟩
  apply h x hx
  unfold structureRange
  rw [sizeofKStructure_eq]
  exact ⟨hpart.1.trans hle, hlt.trans_le hpart.2⟩

theorem overlay_next (h : ∀ x ∈ s.stores, x ∉ structureRange k) : s.overlay.nextStructure k = s.nextStructure k := by
  apply Mem.get_updateAt_of_notMem _ _ (notMem_touched_of_structure h _)
  rw [nextOffset_eq]
  omega

theorem overlay_blockEntry (h : ∀ x ∈ s.stores, x ∉ structureRange k) (hi : i < 8)
    : s.overlay.blockEntries.get (slotAddr k i) = s.blockEntries.get (slotAddr k i) := by
  apply Mem.get_updateAt_of_notMem _ _ (notMem_touched_of_structure h _)
  rw [slotAddr_eq, show sizeofBlockEntry = 17 from rfl]
  omega

theorem overlay_sh1Entry (h : ∀ x ∈ s.stores, x ∉ structureRange k) (hi : i < 8)
    : s.overlay.sh1Entries.get (sh1Addr k i) = s.sh1Entries.get (sh1Addr k i) := by
  apply Mem.get_updateAt_of_notMem _ _ (notMem_touched_of_structure h _)
  rw [sh1Addr_eq, show sizeofSh1Entry = 9 from rfl]
  omega

theorem overlay_scEntry (h : ∀ x ∈ s.stores, x ∉ structureRange k) (hi : i < 8)
    : s.overlay.scEntries.get (scAddr k i) = s.scEntries.get (scAddr k i) := by
  apply Mem.get_updateAt_of_notMem _ _ (notMem_touched_of_structure h _)
  rw [scAddr_eq, show sizeofSCEntry = 8 from rfl]
  omega

end Overlay

/--
The descriptors and structures of the partitions of `s`, the current partition, the root and the MPU are the same.
-/
structure State.SameKernelObjects (s s' : State) : Prop where
  currentPartition : s'.currentPartition = s.currentPartition
  constantRootPartM : s'.constantRootPartM = s.constantRootPartM
  mpuRegs : s'.mpuRegs = s.mpuRegs
  descriptor : ∀ p, s.Partition p → s'.pdtables.get p = s.pdtables.get p
  next : ∀ p k, s.Partition p → s.HasStructure p k → s'.nextStructure k = s.nextStructure k
  blockEntry : ∀ p k, s.Partition p → s.HasStructure p k → ∀ i < 8,
    s'.blockEntries.get (slotAddr k i) = s.blockEntries.get (slotAddr k i)
  sh1Entry : ∀ p k, s.Partition p → s.HasStructure p k → ∀ i < 8,
    s'.sh1Entries.get (sh1Addr k i) = s.sh1Entries.get (sh1Addr k i)
  scEntry : ∀ p k, s.Partition p → s.HasStructure p k → ∀ i < 8,
    s'.scEntries.get (scAddr k i) = s.scEntries.get (scAddr k i)

/--
Stores outside of the kernel data reach no object of a partition.
-/
theorem State.sameKernelObjects_overlay {s : State} {bytes : Mem Nat}
    (h : ∀ x ∈ State.stores { s with bytes }, s.OutsideKernelData x)
    : s.SameKernelObjects (State.overlay { s with bytes }) := by
  have hstructure : ∀ p k, s.Partition p → s.HasStructure p k →
      ∀ x ∈ State.stores { s with bytes }, x ∉ structureRange k := fun p k hp hk x hx => (h x hx p hp).2 k hk
  constructor
  case currentPartition => rfl
  case constantRootPartM => rfl
  case mpuRegs => rfl
  case descriptor => exact fun p hp => overlay_descriptor fun x hx => (h x hx p hp).1
  case next => exact fun p k hp hk => overlay_next (hstructure p k hp hk)
  case blockEntry => exact fun p k hp hk i hi => overlay_blockEntry (hstructure p k hp hk) hi
  case sh1Entry => exact fun p k hp hk i hi => overlay_sh1Entry (hstructure p k hp hk) hi
  case scEntry => exact fun p k hp hk i hi => overlay_scEntry (hstructure p k hp hk) hi

namespace Sim

variable {s : State} {C : Conf} {x : Nat}

theorem outsideKernelData_iff (h : Sim s C) (hC : C.Static)
    : s.OutsideKernelData x ↔
      ∀ p, C.Live p → x ∉ pdRange p ∧ ∀ k ∈ C.structures p, x ∉ structureRange k := by
  unfold State.OutsideKernelData
  apply forall_congr'
  intro p
  rw [h.partition_iff hC]
  apply imp_congr_right
  intro hp
  simp only [h.hasStructure_iff hp]

/--
Stores outside of the kernel data do not show in the view.
-/
theorem overlay (h : Sim s C) (hC : C.Apart)
    (houtside : ∀ x ∈ s.stores, ∀ p, C.Live p → x ∉ pdRange p ∧ ∀ k ∈ C.structures p, x ∉ structureRange k)
    : Sim s.overlay C := by
  have hstructure : ∀ p k, C.Live p → k ∈ C.structures p → ∀ x ∈ s.stores, x ∉ structureRange k :=
    fun p k hp hk x hx => (houtside x hx p hp).2 k hk
  apply h.sameObjects hC
  constructor
  case cur => rfl
  case root => rfl
  case descriptor => exact fun p hp => overlay_descriptor fun x hx => (houtside x hx p hp).1
  case next => exact fun p k hp hk => overlay_next (hstructure p k hp hk)
  case blockEntry => exact fun p k i hp hk hi => overlay_blockEntry (hstructure p k hp hk) hi
  case sh1Entry => exact fun p k i hp hk hi => overlay_sh1Entry (hstructure p k hp hk) hi
  case scEntry => exact fun p k i hp hk hi => overlay_scEntry (hstructure p k hp hk) hi

end Sim

/-
The kernel data of a given state
-/

namespace State

/--
The list contains the partitions of the state with their structures.
-/
def Lists (s : State) (tree : List (Nat × List Nat)) : Prop :=
  s.constantRootPartM ∈ tree.map Prod.fst
    ∧ ∀ entry ∈ tree, Linked s.nextStructure (s.pdtables.get entry.1).structurePtr entry.2
      ∧ ∀ k ∈ entry.2, ∀ a ∈ slotsOf k, (s.blockEntries.get a).present = true → (s.slotOf a).PDflag = true →
        (s.slotOf a).startAddr ∈ tree.map Prod.fst

instance (s : State) (tree : List (Nat × List Nat)) : Decidable (s.Lists tree) := inferInstanceAs (Decidable (_ ∧ _))

/--
The address lies in none of the objects in the list.
-/
def OutsideListed (tree : List (Nat × List Nat)) (x : Nat) : Prop :=
  ∀ entry ∈ tree, ¬(entry.1 ≤ x ∧ x < entry.1 + sizeofPDTable)
    ∧ ∀ k ∈ entry.2, ¬(k ≤ x ∧ x < k + sizeofKStructure)

instance (tree : List (Nat × List Nat)) (x : Nat) : Decidable (OutsideListed tree x) :=
  inferInstanceAs (Decidable (∀ _ ∈ tree, _))

variable {s : State} {tree : List (Nat × List Nat)} {p x : Nat}

theorem Lists.structures (h : s.Lists tree) (hp : p ∈ tree.map Prod.fst)
    : ∃ ks, (p, ks) ∈ tree ∧ ∀ k, s.HasStructure p k ↔ k ∈ ks := by
  rcases List.mem_map.mp hp with ⟨⟨_, ks⟩, hmem, rfl⟩
  exact ⟨ks, hmem, fun k => ((h.2 _ hmem).1.mem_iff_reach k).symm⟩

theorem Lists.partition (h : s.Lists tree) (hp : s.Partition p) : p ∈ tree.map Prod.fst := by
  induction hp with
  | root => exact h.1
  | child _ hblock hflag ih =>
    rcases h.structures ih with ⟨ks, hmem, hstructure⟩
    rcases hblock with ⟨⟨k, hk, ha⟩, hpresent⟩
    exact (h.2 _ hmem).2 k ((hstructure k).mp hk) _ ha hpresent hflag

theorem Lists.outsideKernelData (h : s.Lists tree) (hx : OutsideListed tree x) : s.OutsideKernelData x := by
  intro p hp
  rcases h.structures (h.partition hp) with ⟨ks, hmem, hstructure⟩
  exact ⟨(hx _ hmem).1, fun k hk => (hx _ hmem).2 k ((hstructure k).mp hk)⟩

end State
