import PipMpu.Refine.Writes

/-!
This module contains the relation between two states that agree outside of a set of addresses, and
why changes away from the kernel data of the live partitions do not show in the abstract view.
-/

/--
Both states agree on everything stored outside of the addresses in `W`.
-/
structure SameOutside (W : Set Nat) (s s' : State) : Prop where
  cur : s'.currentPartition = s.currentPartition
  root : s'.constantRootPartM = s.constantRootPartM
  pdtables : ∀ x, x ∉ W → s'.pdtables.get x = s.pdtables.get x
  blockEntries : ∀ x, x ∉ W → s'.blockEntries.get x = s.blockEntries.get x
  sh1Entries : ∀ x, x ∉ W → s'.sh1Entries.get x = s.sh1Entries.get x
  scEntries : ∀ x, x ∉ W → s'.scEntries.get x = s.scEntries.get x
  nextPointers : ∀ x, x ∉ W → s'.nextPointers.get x = s.nextPointers.get x
  bytes : ∀ x, x ∉ W → s'.bytes.get x = s.bytes.get x

namespace SameOutside

variable {W W' : Set Nat} {s s' s'' : State}

theorem refl (W : Set Nat) (s : State) : SameOutside W s s := by
  constructor <;> simp

theorem trans (h : SameOutside W s s') (h' : SameOutside W s' s'') : SameOutside W s s'' where
  cur := h'.cur.trans h.cur
  root := h'.root.trans h.root
  pdtables x hx := (h'.pdtables x hx).trans (h.pdtables x hx)
  blockEntries x hx := (h'.blockEntries x hx).trans (h.blockEntries x hx)
  sh1Entries x hx := (h'.sh1Entries x hx).trans (h.sh1Entries x hx)
  scEntries x hx := (h'.scEntries x hx).trans (h.scEntries x hx)
  nextPointers x hx := (h'.nextPointers x hx).trans (h.nextPointers x hx)
  bytes x hx := (h'.bytes x hx).trans (h.bytes x hx)

theorem mono (h : SameOutside W s s') (hW : W ⊆ W') : SameOutside W' s s' where
  cur := h.cur
  root := h.root
  pdtables x hx := h.pdtables x fun hmem => hx (hW hmem)
  blockEntries x hx := h.blockEntries x fun hmem => hx (hW hmem)
  sh1Entries x hx := h.sh1Entries x fun hmem => hx (hW hmem)
  scEntries x hx := h.scEntries x fun hmem => hx (hW hmem)
  nextPointers x hx := h.nextPointers x fun hmem => hx (hW hmem)
  bytes x hx := h.bytes x fun hmem => hx (hW hmem)

theorem of_eraseBlock (lo hi : Nat) (s : State)
    : SameOutside (Set.Ico lo hi) s (eraseBlock lo hi s).2 := by
  unfold eraseBlock
  simp only [LLI.ite_run]
  split
  . exact refl _ s
  . constructor
    case cur => rfl
    case root => rfl
    all_goals
      intro x hx
      exact Mem.get_eraseRange_of_notMem _ hx

theorem of_modifyBlockEntry {a : Nat} (ha : a ∈ W) (f : BlockEntry → BlockEntry) (s : State)
    : SameOutside W s (modifyBlockEntry a f s).2 := by
  rw [modifyBlockEntry_run]
  constructor <;> try (intro x _; rfl)
  . rfl
  . rfl
  . intro x hx
    exact Mem.get_set_of_ne _ _ fun heq => hx (heq ▸ ha)

theorem of_modifyPDTable {p : Nat} (hp : p ∈ W) (f : PDTable → PDTable) (s : State)
    : SameOutside W s (modifyPDTable p f s).2 := by
  rw [modifyPDTable_run]
  constructor <;> try (intro x _; rfl)
  . rfl
  . rfl
  . intro x hx
    exact Mem.get_set_of_ne _ _ fun heq => hx (heq ▸ hp)

theorem of_removeFromMPU {p : Nat} (hp : p ∈ W) (b : Nat) (s : State)
    : SameOutside W s (removeBlockFromPhysicalMPU p b s).2 :=
  of_modifyPDTable hp _ s

end SameOutside

namespace Conf

/--
No kernel data of a live partition lies in `W`.
-/
structure Clear (C : Conf) (W : Set Nat) : Prop where
  pd : ∀ p, C.Live p → p ∉ W
  structures : ∀ p k x, C.Live p → k ∈ C.structures p → x ∈ structureRange k → x ∉ W

/--
No kernel data lies in an accessible block.
-/
theorem Inv.clear {C : Conf} (hC : C.Inv) {p b : Nat} (hb : C.Has p b)
    (hacc : (C.slot b).accessible = true) : C.Clear (C.slot b).range where
  pd q hq := hC.pd_notMem_accessible hb hacc hq
    ⟨Nat.le_refl q, by rw [sizeofPDTable_eq]; omega⟩
  structures _ _ _ hq hk hx := hC.structure_notMem_accessible hb hacc hq hk hx

end Conf

/--
The descriptors and the structures of the live partitions are the same in both states.
-/
structure Conf.SameObjects (C : Conf) (s s' : State) : Prop where
  cur : s'.currentPartition = s.currentPartition
  root : s'.constantRootPartM = s.constantRootPartM
  descriptor : ∀ p, C.Live p → s'.pdtables.get p = s.pdtables.get p
  next : ∀ p k, C.Live p → k ∈ C.structures p → s'.nextStructure k = s.nextStructure k
  blockEntry : ∀ p k i, C.Live p → k ∈ C.structures p → i < 8 →
    s'.blockEntries.get (slotAddr k i) = s.blockEntries.get (slotAddr k i)
  sh1Entry : ∀ p k i, C.Live p → k ∈ C.structures p → i < 8 →
    s'.sh1Entries.get (sh1Addr k i) = s.sh1Entries.get (sh1Addr k i)
  scEntry : ∀ p k i, C.Live p → k ∈ C.structures p → i < 8 →
    s'.scEntries.get (scAddr k i) = s.scEntries.get (scAddr k i)

theorem Sim.sameObjects {s s' : State} {C : Conf} (h : Sim s C) (hC : C.Apart) (hs : C.SameObjects s s') : Sim s' C := by
  constructor
  . rw [hs.cur]
    exact h.cur
  . rw [hs.root]
    exact h.root
  . intro p hp hroot
    rw [hs.descriptor p hp]
    exact h.parent p hp hroot
  . intro p hp
    rw [hs.descriptor p hp]
    exact (h.structures p hp).congr fun k hk => hs.next p k hp hk
  . intro p hp
    rw [hs.descriptor p hp]
    apply (h.free p hp).congr
    intro a ha
    rcases (hC.free_sub p a hp ha).1 with ⟨-, k, hk, hak⟩
    rcases (mem_slotsOf k a).mp hak with ⟨i, hi, rfl⟩
    exact congrArg BlockEntry.endAddr (hs.blockEntry p k i hp hk hi)
  . intro p hp
    rw [hs.descriptor p hp]
    exact h.nbfreeslots p hp
  . intro p hp
    rw [hs.descriptor p hp]
    exact h.nbprepare p hp
  . intro p k i hp hk hi
    rw [hs.blockEntry p k i hp hk hi]
    exact h.blockindex p k i hp hk hi
  . intro p k i hp hk hi
    rw [← h.slot p k i hp hk hi]
    unfold State.slotView
    rw [hs.blockEntry p k i hp hk hi, hs.sh1Entry p k i hp hk hi, hs.scEntry p k i hp hk hi]

theorem Sim.outside {s s' : State} {C : Conf} (h : Sim s C) (hC : C.Apart) {W : Set Nat}
    (hclear : C.Clear W) (hs : SameOutside W s s') : Sim s' C := by
  apply h.sameObjects hC
  constructor
  case cur => exact hs.cur
  case root => exact hs.root
  case descriptor => exact fun p hp => hs.pdtables p (hclear.pd p hp)
  case next =>
    intro p k hp hk
    apply hs.nextPointers
    apply hclear.structures p k _ hp hk
    unfold structureRange
    rw [nextOffset_eq, sizeofKStructure_eq]
    constructor <;> omega
  case blockEntry =>
    exact fun p k i hp hk hi => hs.blockEntries _ (hclear.structures p k _ hp hk (slotAddr_mem_structureRange k hi))
  case sh1Entry =>
    exact fun p k i hp hk hi => hs.sh1Entries _ (hclear.structures p k _ hp hk (sh1Addr_mem_structureRange k hi))
  case scEntry =>
    exact fun p k i hp hk hi => hs.scEntries _ (hclear.structures p k _ hp hk (scAddr_mem_structureRange k hi))
