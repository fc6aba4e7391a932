import PipMpu.Props.Removal

/-!
This module contains what the searches through the structures of a partition find, in any state in which the
structures of the partition are linked properly: the block with the given entry, start, or bounds, or the block that
contains an address.
-/

namespace State

/--
`ks` are the structures of `p`, no more of them than a search looks at.
-/
structure KernelList (s : State) (p : Nat) (ks : List Nat) : Prop where
  linked : Linked s.nextStructure (s.pdtables.get p).structurePtr ks
  length_le : ks.length ≤ maxNbPrepare

/--
The blocks of `p` are not empty and do not overlap.
-/
structure BlocksApart (s : State) (p : Nat) : Prop where
  nonempty : ∀ a, s.HasBlock p a → (s.slotOf a).startAddr < (s.slotOf a).endAddr
  disjoint : ∀ a b, s.HasBlock p a → s.HasBlock p b → a ≠ b → Disjoint (s.slotOf a).range (s.slotOf b).range

/--
The search changes nothing and returns the only block of `p` that meets `P`, or null if there is none.
-/
structure Finds (s : State) (p : Nat) (P : Nat → Prop) (search : LLI Paddr) : Prop where
  state : (search s).2 = s
  found : ∀ a, a ≠ nullAddr → ((search s).1 = a ↔ s.HasBlock p a ∧ P a)
  null : (search s).1 = nullAddr ↔ ∀ a, s.HasBlock p a → ¬P a

variable {s : State} {p : Nat} {ks : List Nat}

theorem KernelList.hasBlock_iff (h : s.KernelList p ks) (a : Nat)
    : s.HasBlock p a ↔ (∃ k ∈ ks, a ∈ slotsOf k) ∧ (s.blockEntries.get a).present = true := by
  unfold HasBlock OwnsEntry
  simp only [h.linked.mem_iff_reach]

theorem KernelList.ne_null (h : s.KernelList p ks) {a : Nat} (ha : s.HasBlock p a) : a ≠ nullAddr := by
  rcases ((h.hasBlock_iff a).mp ha).1 with ⟨k, hk, hslot⟩
  have hne := h.linked.ne_zero hk
  have hle := slotsOf_le hslot
  unfold nullAddr
  omega

theorem startAddr_slotOf (s : State) (a : Nat) : (s.slotOf a).startAddr = (s.blockEntries.get a).startAddr := by
  rfl

theorem HasBlock.endAddr_slotOf {a : Nat} (ha : s.HasBlock p a)
    : (s.slotOf a).endAddr = (s.blockEntries.get a).endAddr := by
  unfold slotOf mkSlot
  simp only [ha.2, if_true]

theorem BlocksApart.eq_of_mem_range (h : s.BlocksApart p) {a b x : Nat} (ha : s.HasBlock p a) (hb : s.HasBlock p b)
    (hxa : x ∈ (s.slotOf a).range) (hxb : x ∈ (s.slotOf b).range) : a = b := by
  by_contra hne
  exact Set.disjoint_left.mp (h.disjoint a b ha hb hne) hxa hxb

theorem BlocksApart.mem_range_start (h : s.BlocksApart p) {a : Nat} (ha : s.HasBlock p a)
    : (s.slotOf a).startAddr ∈ (s.slotOf a).range :=
  ⟨le_refl _, h.nonempty a ha⟩

theorem BlocksApart.eq_of_startAddr (h : s.BlocksApart p) {a b : Nat} (ha : s.HasBlock p a) (hb : s.HasBlock p b)
    (hstart : (s.slotOf a).startAddr = (s.slotOf b).startAddr) : a = b := by
  have hx := h.mem_range_start ha
  apply h.eq_of_mem_range ha hb hx
  rw [hstart]
  exact h.mem_range_start hb

/--
A search through all structures is exact if only one block can meet its condition.
-/
theorem KernelList.finds (h : s.KernelList p ks) {comp : Nat → LLI Bool} {c : Nat → Bool} {P : Nat → Prop}
    (hcomp : ∀ a, comp a s = (c a, s)) (hP : ∀ a, s.HasBlock p a → (c a = true ↔ P a))
    (hunique : ∀ a b, s.HasBlock p a → s.HasBlock p b → P a → P b → a = b)
    : s.Finds p P (do
        let kernelstructurestart ← readPDStructurePointer p
        let isnull ← compareAddrToNull kernelstructurestart
        if isnull then
          pure nullAddr
        else
          findEntryInKSAux comp maxNbPrepare kernelstructurestart : LLI Nat) := by
  have hrun := findEntry_run hcomp h.linked h.length_le
  have hmem : ∀ a, a ∈ ks.flatMap slotsOf ∧ ((s.blockEntries.get a).present && c a) = true ↔
      s.HasBlock p a ∧ P a := by
    intro a
    rw [List.mem_flatMap, Bool.and_eq_true, ← and_assoc, ← h.hasBlock_iff]
    exact and_congr_right fun ha => hP a ha
  have hfound : ∀ a, s.HasBlock p a → P a →
      ((ks.flatMap slotsOf).find? fun a => (s.blockEntries.get a).present && c a) = some a := by
    intro a ha hPa
    have hin := (hmem a).mpr ⟨ha, hPa⟩
    apply Sim.find?_eq_some_of_unique hin.1 hin.2
    intro b hb hcb
    have hb := (hmem b).mp ⟨hb, hcb⟩
    exact hunique b a hb.1 ha hb.2 hPa
  have hnone : (∀ a, s.HasBlock p a → ¬P a) →
      ((ks.flatMap slotsOf).find? fun a => (s.blockEntries.get a).present && c a) = none := by
    intro hall
    rw [List.find?_eq_none]
    intro a ha hca
    have ha := (hmem a).mp ⟨ha, hca⟩
    exact hall a ha.1 ha.2
  constructor
  . rw [hrun]
  . intro a hne
    rw [hrun]
    constructor
    . intro heq
      cases hfind : (ks.flatMap slotsOf).find? fun a => (s.blockEntries.get a).present && c a with
      | none =>
        rw [hfind] at heq
        exact absurd heq.symm hne
      | some b =>
        rw [hfind] at heq
        cases heq
        have hcb := List.find?_some hfind
        exact (hmem b).mp ⟨List.mem_of_find?_eq_some hfind, hcb⟩
    . rintro ⟨ha, hPa⟩
      rw [hfound a ha hPa]
      rfl
  . rw [hrun]
    constructor
    . intro heq a ha hPa
      rw [hfound a ha hPa] at heq
      exact h.ne_null ha heq
    . intro hall
      rw [hnone hall]
      rfl

end State

/-
The states that the view describes
-/

namespace Sim

variable {s : State} {C : Conf} {p : Nat}

theorem kernelList (h : Sim s C) (hC : C.Static) (hp : C.Live p) : s.KernelList p (C.structures p) :=
  ⟨h.structures p hp, hC.structures_length p hp⟩

theorem structuresApart (h : Sim s C) (hC : C.Static) (hp : C.Live p)
    : (C.structures p).Pairwise fun k k' => Disjoint (structureRange k) (structureRange k') := by
  apply (h.structures p hp).nodup.pairwise_of_forall_ne
  intro k hk k' hk' hne
  rw [Set.disjoint_left]
  intro x hx hx'
  exact hne (hC.structures_disjoint hp hp hk hk' hx hx').2

theorem blocksApart (h : Sim s C) (hC : C.Static) (hp : C.Live p) : s.BlocksApart p := by
  constructor
  . intro a ha
    have ha := (h.hasBlock_iff hp).mp ha
    rw [h.slotOf_eq ha.1]
    exact hC.start_lt p a ha
  . intro a b ha hb hne
    have ha := (h.hasBlock_iff hp).mp ha
    have hb := (h.hasBlock_iff hp).mp hb
    rw [h.slotOf_eq ha.1, h.slotOf_eq hb.1, Set.disjoint_left]
    intro x hx hx'
    exact hne (hC.eq_of_mem_range ha hb hx hx')

end Sim

namespace State

variable {s : State} {p : Nat} {ks : List Nat}

/--
The partition at the end of the run has a view.
-/
theorem threeLevels_view : ∃ C : Conf, Sim threeLevels C ∧ C.Static ∧ C.Live 0x2000A000 := by
  rcases ServiceCall.view_of_reachable threeLevels_reachable with ⟨C, hsim, hC⟩
  have hpath : threeLevels.follow threeLevels.constantRootPartM [0x2000F111, 0x20009000] = some 0x2000A000 := by
    decide +kernel
  exact ⟨C, hsim, hC.static, hsim.live_of_partition hC.static (partition_of_follow .root hpath)⟩

/--
An address is accepted if it is the one of an entry of a present block, whatever lies between the entries or behind
them. The result is the one of a search through all entries.
-/
theorem findBlockInKSWithAddr_exact (h : s.KernelList p ks)
    (hapart : ks.Pairwise fun k k' => Disjoint (structureRange k) (structureRange k')) (a : Nat)
    : (s.HasBlock p a → findBlockInKSWithAddr p a s = (a, s))
        ∧ (¬s.HasBlock p a → findBlockInKSWithAddr p a s = (nullAddr, s))
        ∧ findBlockInKSWithAddr p a s
          =
        (((ks.flatMap slotsOf).find? fun b => (s.blockEntries.get b).present && b == a).getD nullAddr, s) := by
  have hrun := findBlockInKSWithAddr_run h.linked h.length_le hapart a
  have hsome : s.HasBlock p a → findBlockInKSWithAddr p a s = (a, s) := by
    intro ha
    rw [h.hasBlock_iff] at ha
    exact hrun.1 ha.1 ha.2
  have hnone : ¬s.HasBlock p a → findBlockInKSWithAddr p a s = (nullAddr, s) := by
    intro ha
    rw [h.hasBlock_iff] at ha
    exact hrun.2 fun hex hpresent => ha ⟨hex, hpresent⟩
  refine ⟨hsome, hnone, ?_⟩
  by_cases ha : s.HasBlock p a
  . rw [hsome ha]
    rw [h.hasBlock_iff, ← List.mem_flatMap] at ha
    rw [Sim.find?_eq_some_of_unique ha.1]
    . rfl
    . simp [ha.2]
    . intro b _ hb
      simp only [Bool.and_eq_true, beq_iff_eq] at hb
      exact hb.2
  . rw [hnone ha, List.find?_eq_none.mpr]
    . rfl
    . intro b hb hcb
      simp only [Bool.and_eq_true, beq_iff_eq] at hcb
      apply ha
      rw [h.hasBlock_iff, ← List.mem_flatMap, ← hcb.2]
      exact ⟨hb, hcb.1⟩

theorem findBlockInKSWithAddr_exact_threeLevels
    : ∃ ks, threeLevels.KernelList 0x2000A000 ks
        ∧ (threeLevels.HasBlock 0x2000A000 0x2000B000 →
          findBlockInKSWithAddr 0x2000A000 0x2000B000 threeLevels = (0x2000B000, threeLevels))
        ∧ (¬threeLevels.HasBlock 0x2000A000 0x2000B000 →
          findBlockInKSWithAddr 0x2000A000 0x2000B000 threeLevels = (nullAddr, threeLevels))
        ∧ findBlockInKSWithAddr 0x2000A000 0x2000B000 threeLevels
          =
        (((ks.flatMap slotsOf).find? fun b =>
          (threeLevels.blockEntries.get b).present && b == 0x2000B000).getD nullAddr, threeLevels) := by
  rcases threeLevels_view with ⟨C, hsim, hC, hlive⟩
  exact ⟨_, hsim.kernelList hC hlive, findBlockInKSWithAddr_exact (hsim.kernelList hC hlive)
    (hsim.structuresApart hC hlive) 0x2000B000⟩

/--
Each search finds the only block that it can mean.
-/
theorem searches_exact (h : s.KernelList p ks) (hblocks : s.BlocksApart p) (lo hi x : Nat)
    : s.Finds p (fun a => (s.slotOf a).startAddr = lo) (findBlockInKS p lo)
        ∧ s.Finds p (fun a => (s.slotOf a).startAddr = lo ∧ (s.slotOf a).endAddr = hi) (findExactBlockInKS p lo hi)
        ∧ s.Finds p (fun a => x ∈ (s.slotOf a).range) (findBelongingBlock p x) := by
  refine ⟨?_, ?_, ?_⟩
  . rw [Sim.findBlockInKS_eq]
    apply h.finds (Sim.findBlockComp_zero_run s lo)
    . intro a _
      rw [decide_eq_true_eq, startAddr_slotOf]
    . intro a b ha hb hPa hPb
      exact hblocks.eq_of_startAddr ha hb (hPa.trans hPb.symm)
  . apply h.finds (Sim.findExactBlockComp_run s lo hi)
    . intro a ha
      rw [Bool.and_eq_true, decide_eq_true_eq, decide_eq_true_eq, startAddr_slotOf, ha.endAddr_slotOf]
    . intro a b ha hb hPa hPb
      exact hblocks.eq_of_startAddr ha hb (hPa.1.trans hPb.1.symm)
  . rw [Sim.findBelongingBlock_eq]
    apply h.finds (Sim.findBlockComp_one_run s x)
    . intro a ha
      rw [Bool.and_eq_true, decide_eq_true_eq, decide_eq_true_eq, ← ha.endAddr_slotOf]
      rfl
    . intro a b ha hb hPa hPb
      exact hblocks.eq_of_mem_range ha hb hPa hPb

theorem searches_exact_threeLevels
    : threeLevels.Finds 0x2000A000 (fun a => (threeLevels.slotOf a).startAddr = 0x2000C000)
          (findBlockInKS 0x2000A000 0x2000C000)
        ∧ threeLevels.Finds 0x2000A000
          (fun a => (threeLevels.slotOf a).startAddr = 0x2000C000 ∧ (threeLevels.slotOf a).endAddr = 0x2000EFFF)
          (findExactBlockInKS 0x2000A000 0x2000C000 0x2000EFFF)
        ∧ threeLevels.Finds 0x2000A000 (fun a => 0x2000D000 ∈ (threeLevels.slotOf a).range)
          (findBelongingBlock 0x2000A000 0x2000D000) := by
  rcases threeLevels_view with ⟨C, hsim, hC, hlive⟩
  exact searches_exact (hsim.kernelList hC hlive) (hsim.blocksApart hC hlive) 0x2000C000 0x2000EFFF 0x2000D000

end State
