import PipMpu.Model.MAL
import PipMpu.Util.Nest
import Mathlib.Data.Set.Lattice
import Mathlib.Order.CompletePartialOrder
import Mathlib.Order.Interval.Set.Basic
import Mathlib.Data.List.Nodup

/-!
This module contains the abstract view of the kernel data: a tree of partitions, each with its list
of kernel structures and its free slots, and the slots of the structures. It forgets where the
fields of a slot are stored and how the lists are linked.
-/

/--
What the block entry, the shadow 1 entry, and the shadow cut entry of a slot record together. The
bounds are only meaningful while the slot is present.
-/
structure Slot where
  present : Bool
  accessible : Bool
  read : Bool
  write : Bool
  exec : Bool
  startAddr : Nat
  endAddr : Nat
  PDchild : Nat
  PDflag : Bool
  inChildLocation : Nat
  origin : Nat
  next : Nat

namespace Slot

/--
A slot nobody uses.
-/
def empty : Slot :=
  {
      present := false
      accessible := false
      read := false
      write := false
      exec := false
      startAddr := 0
      endAddr := 0
      PDchild := 0
      PDflag := false
      inChildLocation := 0
      origin := 0
      next := 0
  }

/--
The block spans its whole original block.
-/
def Uncut (sl : Slot) : Prop := sl.startAddr = sl.origin ∧ sl.next = 0

def clearSh1 (sl : Slot) : Slot := { sl with PDchild := 0, PDflag := false, inChildLocation := 0 }

def range (sl : Slot) : Set Nat := Set.Ico sl.startAddr sl.endAddr

end Slot

@[ext]
structure Conf where
  cur : Nat
  root : Nat
  /-- The structure of the root that no block of the root holds. -/
  rootStructure : Nat
  Live : Nat → Prop
  parent : Nat → Nat
  depth : Nat → Nat
  structures : Nat → List Nat
  free : Nat → List Nat
  slot : Nat → Slot

/--
The address of the slot `i` of the structure at `k`.
-/
def slotAddr (k i : Nat) : Nat := k + i * sizeofBlockEntry

def slotsOf (k : Nat) : List Nat := (List.range kernelStructureEntriesNb).map (slotAddr k)

def pdRange (p : Nat) : Set Nat := Set.Ico p (p + sizeofPDTable)

def structureRange (k : Nat) : Set Nat := Set.Ico k (k + sizeofKStructure)

theorem sizeofPDTable_eq : sizeofPDTable = 124 := by rfl

theorem sizeofKStructure_eq : sizeofKStructure = 276 := by rfl

theorem mem_slotsOf (k a : Nat) : a ∈ slotsOf k ↔ ∃ i < 8, a = k + i * 17 := by
  unfold slotsOf slotAddr kernelStructureEntriesNb sizeofBlockEntry
  simp only [List.mem_map, List.mem_range]
  constructor
  . rintro ⟨i, hi, rfl⟩
    exact ⟨i, hi, rfl⟩
  . rintro ⟨i, hi, rfl⟩
    exact ⟨i, hi, rfl⟩

theorem slotsOf_le {k a : Nat} (h : a ∈ slotsOf k) : k ≤ a ∧ a < k + 136 := by
  rcases (mem_slotsOf k a).mp h with ⟨i, hi, rfl⟩
  omega

theorem slotsOf_mem_structureRange {k a : Nat} (h : a ∈ slotsOf k) : a ∈ structureRange k := by
  have := slotsOf_le h
  unfold structureRange
  rw [sizeofKStructure_eq]
  constructor <;> omega

theorem slotsOf_nodup (k : Nat) : (slotsOf k).Nodup := by
  unfold slotsOf
  apply List.Nodup.map _ List.nodup_range
  intro i j hij
  simp only [slotAddr, sizeofBlockEntry] at hij
  omega

theorem slotsOf_length (k : Nat) : (slotsOf k).length = 8 := by
  rfl

namespace Conf

/--
`a` is one of the slots of the structures of `p`.
-/
def Owns (C : Conf) (p a : Nat) : Prop :=
  C.Live p ∧ ∃ k ∈ C.structures p, a ∈ slotsOf k

/--
`a` is a present block of `p`.
-/
def Has (C : Conf) (p a : Nat) : Prop :=
  C.Owns p a ∧ (C.slot a).present = true

/--
`a` is shared with the partition `p`.
-/
def Lent (C : Conf) (a p : Nat) : Prop :=
  (C.slot a).PDchild = p ∧ (C.slot a).inChildLocation ≠ 0

/--
`H` is the block the structure `k` of `p` lies in: a block of its own, or one its parent gave it.
-/
structure Houses (C : Conf) (p k H : Nat) : Prop where
  start_eq : (C.slot H).startAddr = k
  end_le : k + sizeofKStructure ≤ (C.slot H).endAddr
  ram_le : ramStart ≤ k
  flag_eq : (C.slot H).PDflag = false
  inChild_eq : (C.slot H).inChildLocation = 0
  holder : (C.Has p H ∧ (C.slot H).PDchild = 0)
    ∨ (p ≠ C.root ∧ C.Has (C.parent p) H ∧ (C.slot H).PDchild = p)

/--
`B` is the block of the parent of `p` that the block `a` of `p` was made of.
-/
structure Hosts (C : Conf) (p a B : Nat) : Prop where
  has : C.Has (C.parent p) B
  lent : C.Lent B p
  start_eq : (C.slot B).startAddr = (C.slot a).origin
  end_le : (C.slot a).endAddr ≤ (C.slot B).endAddr
  end_eq : (C.slot a).next = 0 → (C.slot a).endAddr = (C.slot B).endAddr
  read_eq : (C.slot a).read = true
  write_le : (C.slot a).write = true → (C.slot B).write = true
  exec_le : (C.slot a).exec = true → (C.slot B).exec = true

end Conf
