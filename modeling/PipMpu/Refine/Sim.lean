import PipMpu.Core.Services
import PipMpu.Spec.Steps
import PipMpu.Util.Linked

/-!
This module contains the relation between the machine state and the abstract view, and what the
reads of the memory abstraction layer return in related states.
-/

theorem sh1Offset_eq : sh1Offset = 136 := by rfl

theorem nextOffset_eq : nextOffset = 272 := by rfl

/--
The slot that the three entries of a kernel structure describe.
-/
def mkSlot (entry : BlockEntry) (sh1 : Sh1Entry) (sc : SCEntry) : Slot :=
  {
      present := entry.present
      accessible := entry.accessible
      read := entry.read
      write := entry.write
      exec := entry.exec
      startAddr := entry.startAddr
      endAddr := if entry.present then entry.endAddr else 0
      PDchild := sh1.PDchild
      PDflag := sh1.PDflag
      inChildLocation := sh1.inChildLocation
      origin := sc.origin
      next := sc.next
  }

def sh1Addr (k i : Nat) : Nat := k + sh1Offset + i * sizeofSh1Entry

def scAddr (k i : Nat) : Nat := k + scOffset + i * sizeofSCEntry

def State.slotView (s : State) (k i : Nat) : Slot :=
  mkSlot (s.blockEntries.get (slotAddr k i)) (s.sh1Entries.get (sh1Addr k i))
    (s.scEntries.get (scAddr k i))

def State.nextStructure (s : State) (k : Nat) : Nat := s.nextPointers.get (k + nextOffset)

def State.nextFree (s : State) (a : Nat) : Nat := (s.blockEntries.get a).endAddr

/--
The fields of a partition descriptor that the abstract view is about.
-/
def PDTable.core (pdt : PDTable) : Nat × Nat × Nat × Nat × Nat :=
  (pdt.structurePtr, pdt.firstfreeslot, pdt.nbfreeslots, pdt.nbprepare, pdt.parent)

structure Sim (s : State) (C : Conf) : Prop where
  cur : s.currentPartition = C.cur
  root : s.constantRootPartM = C.root
  parent : ∀ p, C.Live p → p ≠ C.root → (s.pdtables.get p).parent = C.parent p
  structures : ∀ p, C.Live p →
    Linked s.nextStructure (s.pdtables.get p).structurePtr (C.structures p)
  free : ∀ p, C.Live p → Linked s.nextFree (s.pdtables.get p).firstfreeslot (C.free p)
  nbfreeslots : ∀ p, C.Live p → (s.pdtables.get p).nbfreeslots = (C.free p).length
  nbprepare : ∀ p, C.Live p → (s.pdtables.get p).nbprepare = (C.structures p).length
  blockindex : ∀ p k i, C.Live p → k ∈ C.structures p → i < 8 →
    (s.blockEntries.get (slotAddr k i)).blockindex = i
  slot : ∀ p k i, C.Live p → k ∈ C.structures p → i < 8 → s.slotView k i = C.slot (slotAddr k i)

theorem slotAddr_eq (k i : Nat) : slotAddr k i = k + i * 17 := by rfl

theorem sh1Addr_eq (k i : Nat) : sh1Addr k i = k + 136 + i * 9 := by rfl

theorem scAddr_eq (k i : Nat) : scAddr k i = k + 208 + i * 8 := by rfl

theorem slotAddr_mem {k i : Nat} (hi : i < 8) : slotAddr k i ∈ slotsOf k :=
  (mem_slotsOf k _).mpr ⟨i, hi, rfl⟩

namespace Conf

/--
Two views that agree on everything live partitions can reach.
-/
structure Agree (C C' : Conf) : Prop where
  cur : C'.cur = C.cur
  root : C'.root = C.root
  live : C'.Live = C.Live
  parent : ∀ p, C.Live p → p ≠ C.root → C'.parent p = C.parent p
  structures : ∀ p, C.Live p → C'.structures p = C.structures p
  free : ∀ p, C.Live p → C'.free p = C.free p
  slot : ∀ p a, C.Owns p a → C'.slot a = C.slot a

end Conf

namespace Sim

variable {s : State} {C : Conf}

theorem congr {C' : Conf} (h : Sim s C) (hC : C.Agree C') : Sim s C' := by
  constructor
  . rw [hC.cur]
    exact h.cur
  . rw [hC.root]
    exact h.root
  . intro p hp hroot
    rw [hC.live] at hp
    rw [hC.root] at hroot
    rw [hC.parent p hp hroot]
    exact h.parent p hp hroot
  . intro p hp
    rw [hC.live] at hp
    rw [hC.structures p hp]
    exact h.structures p hp
  . intro p hp
    rw [hC.live] at hp
    rw [hC.free p hp]
    exact h.free p hp
  . intro p hp
    rw [hC.live] at hp
    rw [hC.free p hp]
    exact h.nbfreeslots p hp
  . intro p hp
    rw [hC.live] at hp
    rw [hC.structures p hp]
    exact h.nbprepare p hp
  . intro p k i hp hk hi
    rw [hC.live] at hp
    rw [hC.structures p hp] at hk
    exact h.blockindex p k i hp hk hi
  . intro p k i hp hk hi
    rw [hC.live] at hp
    rw [hC.structures p hp] at hk
    rw [hC.slot p _ ⟨hp, k, hk, slotAddr_mem hi⟩]
    exact h.slot p k i hp hk hi

/-
Reads
-/

variable {p a : Nat}

/--
The fields of a slot, as the three entries hold them.
-/
theorem view (h : Sim s C) (ha : C.Owns p a)
    : ∃ k i, k ∈ C.structures p ∧ i < 8 ∧ a = slotAddr k i
        ∧ (s.blockEntries.get a).blockindex = i ∧ s.slotView k i = C.slot a := by
  rcases ha with ⟨hp, k, hk, ha⟩
  rcases (mem_slotsOf k a).mp ha with ⟨i, hi, rfl⟩
  exact ⟨k, i, hk, hi, rfl, h.blockindex p k i hp hk hi, h.slot p k i hp hk hi⟩

theorem present_eq (h : Sim s C) (ha : C.Owns p a)
    : (s.blockEntries.get a).present = (C.slot a).present := by
  rcases h.view ha with ⟨k, i, -, -, rfl, -, hview⟩
  rw [← hview]
  rfl

theorem accessible_eq (h : Sim s C) (ha : C.Owns p a)
    : (s.blockEntries.get a).accessible = (C.slot a).accessible := by
  rcases h.view ha with ⟨k, i, -, -, rfl, -, hview⟩
  rw [← hview]
  rfl

theorem startAddr_eq (h : Sim s C) (ha : C.Owns p a)
    : (s.blockEntries.get a).startAddr = (C.slot a).startAddr := by
  rcases h.view ha with ⟨k, i, -, -, rfl, -, hview⟩
  rw [← hview]
  rfl

theorem read_eq (h : Sim s C) (ha : C.Owns p a)
    : (s.blockEntries.get a).read = (C.slot a).read := by
  rcases h.view ha with ⟨k, i, -, -, rfl, -, hview⟩
  rw [← hview]
  rfl

theorem write_eq (h : Sim s C) (ha : C.Owns p a)
    : (s.blockEntries.get a).write = (C.slot a).write := by
  rcases h.view ha with ⟨k, i, -, -, rfl, -, hview⟩
  rw [← hview]
  rfl

theorem exec_eq (h : Sim s C) (ha : C.Owns p a)
    : (s.blockEntries.get a).exec = (C.slot a).exec := by
  rcases h.view ha with ⟨k, i, -, -, rfl, -, hview⟩
  rw [← hview]
  rfl

theorem endAddr_eq (h : Sim s C) (ha : C.Has p a)
    : (s.blockEntries.get a).endAddr = (C.slot a).endAddr := by
  rcases h.view ha.1 with ⟨k, i, -, -, rfl, -, hview⟩
  have hpresent := ha.2
  rw [← h.present_eq ha.1] at hpresent
  rw [← hview]
  simp only [State.slotView, mkSlot, hpresent, if_true]

theorem run_getSh1EntryAddr (h : Sim s C) {k i : Nat} (hp : C.Live p) (hk : k ∈ C.structures p)
    (hi : i < 8)
    : getSh1EntryAddrFromBlockEntryAddr (slotAddr k i) s = (sh1Addr k i, s) := by
  have hidx := h.blockindex p k i hp hk hi
  unfold getSh1EntryAddrFromBlockEntryAddr getKernelStructureStartAddr
    getSh1EntryAddrFromKernelStructureStart readBlockIndexFromBlockEntryAddr readBlockField
  simp only [LLI.bind_run, LLI.gets_run, LLI.pure_run, hidx]
  simp only [slotAddr, sh1Addr, Nat.add_sub_cancel]

theorem run_getSCEntryAddr (h : Sim s C) {k i : Nat} (hp : C.Live p) (hk : k ∈ C.structures p)
    (hi : i < 8)
    : getSCEntryAddrFromBlockEntryAddr (slotAddr k i) s = (scAddr k i, s) := by
  have hidx := h.blockindex p k i hp hk hi
  unfold getSCEntryAddrFromBlockEntryAddr getKernelStructureStartAddr
    getSCEntryAddrFromKernelStructureStart readBlockIndexFromBlockEntryAddr readBlockField
  simp only [LLI.bind_run, LLI.gets_run, LLI.pure_run, hidx]
  simp only [slotAddr, scAddr, Nat.add_sub_cancel]

theorem run_readStart (h : Sim s C) (ha : C.Owns p a)
    : readBlockStartFromBlockEntryAddr a s = ((C.slot a).startAddr, s) := by
  unfold readBlockStartFromBlockEntryAddr readBlockField
  rw [LLI.gets_run, h.startAddr_eq ha]

theorem run_readEnd (h : Sim s C) (ha : C.Has p a)
    : readBlockEndFromBlockEntryAddr a s = ((C.slot a).endAddr, s) := by
  unfold readBlockEndFromBlockEntryAddr readBlockField
  rw [LLI.gets_run, h.endAddr_eq ha]

theorem run_readAccessible (h : Sim s C) (ha : C.Owns p a)
    : readBlockAccessibleFromBlockEntryAddr a s = ((C.slot a).accessible, s) := by
  unfold readBlockAccessibleFromBlockEntryAddr readBlockField
  rw [LLI.gets_run, h.accessible_eq ha]

theorem run_readPresent (h : Sim s C) (ha : C.Owns p a)
    : readBlockPresentFromBlockEntryAddr a s = ((C.slot a).present, s) := by
  unfold readBlockPresentFromBlockEntryAddr readBlockField
  rw [LLI.gets_run, h.present_eq ha]

theorem run_readR (h : Sim s C) (ha : C.Owns p a)
    : readBlockRFromBlockEntryAddr a s = ((C.slot a).read, s) := by
  unfold readBlockRFromBlockEntryAddr readBlockField
  rw [LLI.gets_run, h.read_eq ha]

theorem run_readW (h : Sim s C) (ha : C.Owns p a)
    : readBlockWFromBlockEntryAddr a s = ((C.slot a).write, s) := by
  unfold readBlockWFromBlockEntryAddr readBlockField
  rw [LLI.gets_run, h.write_eq ha]

theorem run_readX (h : Sim s C) (ha : C.Owns p a)
    : readBlockXFromBlockEntryAddr a s = ((C.slot a).exec, s) := by
  unfold readBlockXFromBlockEntryAddr readBlockField
  rw [LLI.gets_run, h.exec_eq ha]

theorem run_readPDChild (h : Sim s C) (ha : C.Owns p a)
    : readSh1PDChildFromBlockEntryAddr a s = ((C.slot a).PDchild, s) := by
  rcases h.view ha with ⟨k, i, hk, hi, rfl, -, hview⟩
  unfold readSh1PDChildFromBlockEntryAddr readSh1Field
  rw [LLI.bind_run, h.run_getSh1EntryAddr ha.1 hk hi, LLI.gets_run, ← hview]
  rfl

theorem run_readPDFlag (h : Sim s C) (ha : C.Owns p a)
    : readSh1PDFlagFromBlockEntryAddr a s = ((C.slot a).PDflag, s) := by
  rcases h.view ha with ⟨k, i, hk, hi, rfl, -, hview⟩
  unfold readSh1PDFlagFromBlockEntryAddr readSh1Field
  rw [LLI.bind_run, h.run_getSh1EntryAddr ha.1 hk hi, LLI.gets_run, ← hview]
  rfl

theorem run_readInChildLocation (h : Sim s C) (ha : C.Owns p a)
    : readSh1InChildLocationFromBlockEntryAddr a s = ((C.slot a).inChildLocation, s) := by
  rcases h.view ha with ⟨k, i, hk, hi, rfl, -, hview⟩
  unfold readSh1InChildLocationFromBlockEntryAddr readSh1Field
  rw [LLI.bind_run, h.run_getSh1EntryAddr ha.1 hk hi, LLI.gets_run, ← hview]
  rfl

theorem run_readOrigin (h : Sim s C) (ha : C.Owns p a)
    : readSCOriginFromBlockEntryAddr a s = ((C.slot a).origin, s) := by
  rcases h.view ha with ⟨k, i, hk, hi, rfl, -, hview⟩
  unfold readSCOriginFromBlockEntryAddr readSCField
  rw [LLI.bind_run, h.run_getSCEntryAddr ha.1 hk hi, LLI.gets_run, ← hview]
  rfl

theorem run_readNext (h : Sim s C) (ha : C.Owns p a)
    : readSCNextFromBlockEntryAddr a s = ((C.slot a).next, s) := by
  rcases h.view ha with ⟨k, i, hk, hi, rfl, -, hview⟩
  unfold readSCNextFromBlockEntryAddr readSCField
  rw [LLI.bind_run, h.run_getSCEntryAddr ha.1 hk hi, LLI.gets_run, ← hview]
  rfl

end Sim
