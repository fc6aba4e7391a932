import PipMpu.Props.PhysicalMPU
import PipMpu.Props.RegionRoundTrip
import PipMpu.Props.Searches

/-!
This module contains the exact effect of `writeAccessibleRec` in a tree of any shape: the walk marks the blocks with
the given bounds in the ancestors up to the first one that has no such block, and changes nothing else.
-/

namespace State

/--
`chain` are the proper ancestors of `p`, from its parent to the root.
-/
def Ancestors (s : State) : Nat → List Nat → Prop
  | p, [] => p = s.constantRootPartM
  | p, A :: chain => p ≠ s.constantRootPartM ∧ (s.pdtables.get p).parent = A ∧ s.Ancestors A chain

/--
`b` is the block of `A` with exactly these bounds.
-/
structure HasBounds (s : State) (A lo hi b : Nat) : Prop where
  has : s.HasBlock A b
  startAddr_eq : (s.slotOf b).startAddr = lo
  endAddr_eq : (s.slotOf b).endAddr = hi

end State

/--
The descriptor `pdt'` is `pdt` without the block `b` in its regions.
-/
structure PDTable.Without (b : Nat) (pdt pdt' : PDTable) : Prop where
  mpu : ∀ i, pdt'.mpu.getD i nullAddr =
    if i < mpuRegionsNb ∧ pdt.mpu.getD i nullAddr = b then nullAddr else pdt.mpu.getD i nullAddr
  cleared : ∀ i, i < mpuRegionsNb → pdt.mpu.getD i nullAddr = b → i * 2 + 1 < pdt.LUT.length →
    (pdt'.LUT.getD (i * 2) 0, pdt'.LUT.getD (i * 2 + 1) 0) = clearedLUTEntry i
  kept : ∀ i, ¬(i < mpuRegionsNb ∧ pdt.mpu.getD i nullAddr = b) →
    pdt'.LUT.getD (i * 2) 0 = pdt.LUT.getD (i * 2) 0 ∧ pdt'.LUT.getD (i * 2 + 1) 0 = pdt.LUT.getD (i * 2 + 1) 0
  rest : pdt' = { pdt with mpu := pdt'.mpu, LUT := pdt'.LUT }

/--
The accessible bits of the marked blocks are written. If they are cleared the blocks also leave the regions of their
partitions. Nothing else is different.
-/
structure AccessWritten (s s' : State) (marked : List (Nat × Nat)) (accessiblebit : Bool) : Prop where
  blockEntries : ∀ a, s'.blockEntries.get a =
    if a ∈ marked.map Prod.snd then { s.blockEntries.get a with accessible := accessiblebit }
    else s.blockEntries.get a
  unmapped : accessiblebit = false → ∀ x ∈ marked, (s.pdtables.get x.1).Without x.2 (s'.pdtables.get x.1)
  pdtables : ∀ q, accessiblebit = true ∨ q ∉ marked.map Prod.fst → s'.pdtables.get q = s.pdtables.get q
  others : s' = { s with blockEntries := s'.blockEntries, pdtables := s'.pdtables }

theorem setLUTEntry_getD_of_ne (LUT : List Word) {n i : Nat} (entry : Word × Word) (hi : i ≠ n)
    : (setLUTEntry LUT n entry).getD (i * 2) 0 = LUT.getD (i * 2) 0
        ∧ (setLUTEntry LUT n entry).getD (i * 2 + 1) 0 = LUT.getD (i * 2 + 1) 0 := by
  unfold setLUTEntry
  constructor <;>
    rw [List.getD_eq_getElem?_getD, List.getElem?_set_ne (by omega), List.getElem?_set_ne (by omega),
      List.getD_eq_getElem?_getD]

/--
Unmapping the block goes through the regions one after the other.
-/
theorem PDTable.without_of_foldl (b n : Nat) (hn : n ≤ mpuRegionsNb) (pdt : PDTable)
    : let pdt' := (List.range n).foldl (PDTable.unmapBlock b) pdt
      pdt'.LUT.length = pdt.LUT.length
        ∧ (∀ i, i < n → pdt.mpu.getD i nullAddr = b → i * 2 + 1 < pdt.LUT.length →
          (pdt'.LUT.getD (i * 2) 0, pdt'.LUT.getD (i * 2 + 1) 0) = clearedLUTEntry i)
        ∧ (∀ i, ¬(i < n ∧ pdt.mpu.getD i nullAddr = b) →
          pdt'.LUT.getD (i * 2) 0 = pdt.LUT.getD (i * 2) 0
            ∧ pdt'.LUT.getD (i * 2 + 1) 0 = pdt.LUT.getD (i * 2 + 1) 0)
        ∧ pdt' = { pdt with mpu := pdt'.mpu, LUT := pdt'.LUT } := by
  induction n with
  | zero => exact ⟨rfl, fun i hi => absurd hi (by omega), fun i _ => ⟨rfl, rfl⟩, rfl⟩
  | succ n ih =>
    rcases ih (by omega) with ⟨hlength, hcleared, hkept, hrest⟩
    have hmpu := (foldl_unmapBlock_mpu b n pdt).2 n
    rw [if_neg (by omega)] at hmpu
    simp only [List.range_succ, List.foldl_append, List.foldl_cons, List.foldl_nil]
    generalize (List.range n).foldl (PDTable.unmapBlock b) pdt = pdt₁ at *
    unfold PDTable.unmapBlock
    by_cases hb : pdt.mpu.getD n nullAddr = b
    . rw [if_pos (hmpu.trans hb)]
      simp only [configureLUTEntry]
      refine ⟨?_, ?_, ?_, ?_⟩
      . simpa [setLUTEntry] using hlength
      . intro i hi hbi hlt
        by_cases hin : i = n
        . subst hin
          have hset := setLUTEntry_getD (clearedLUTEntry i) (hlength.symm ▸ hlt)
          rw [hset.1, hset.2]
        . have hset := setLUTEntry_getD_of_ne pdt₁.LUT (clearedLUTEntry n) hin
          rw [hset.1, hset.2]
          exact hcleared i (by omega) hbi hlt
      . intro i hi
        have hin : i ≠ n := by
          rintro rfl
          exact hi ⟨Nat.lt_succ_self i, hb⟩
        have hset := setLUTEntry_getD_of_ne pdt₁.LUT (clearedLUTEntry n) hin
        rw [hset.1, hset.2]
        exact hkept i fun h => hi ⟨by omega, h.2⟩
      . rw [hrest]
    . rw [if_neg fun h => hb (hmpu.symm.trans h)]
      refine ⟨hlength, ?_, ?_, hrest⟩
      . intro i hi hbi hlt
        have hin : i ≠ n := by
          rintro rfl
          exact hb hbi
        exact hcleared i (by omega) hbi hlt
      . intro i hi
        exact hkept i fun h => hi ⟨by omega, h.2⟩

theorem PDTable.without_unmapBlock (b : Nat) (pdt : PDTable)
    : pdt.Without b ((List.range mpuRegionsNb).foldl (PDTable.unmapBlock b) pdt) := by
  rcases PDTable.without_of_foldl b mpuRegionsNb (Nat.le_refl _) pdt with ⟨-, hcleared, hkept, hrest⟩
  exact ⟨(foldl_unmapBlock_mpu b mpuRegionsNb pdt).2, hcleared, hkept, hrest⟩

/--
One step of the walk.
-/
theorem AccessWritten.single (s : State) (A b : Nat) (accessiblebit : Bool)
    : AccessWritten s (removeBlockFromPhysicalMPUIfNotAccessible A b accessiblebit
        (writeBlockAccessibleFromBlockEntryAddr b accessiblebit s).2).2 [(A, b)] accessiblebit := by
  unfold removeBlockFromPhysicalMPUIfNotAccessible writeBlockAccessibleFromBlockEntryAddr
    removeBlockFromPhysicalMPU
  rw [modifyBlockEntry_run]
  cases accessiblebit with
  | true =>
    simp only [Bool.not_true, Bool.false_eq_true, if_false, LLI.pure_run]
    constructor
    . intro a
      simp only [Mem.get_set, List.map_cons, List.map_nil, List.mem_singleton]
      by_cases hab : a = b
      . simp [hab]
      . simp [hab, Ne.symm hab]
    . exact fun h => absurd h (by simp)
    . exact fun q _ => rfl
    . rfl
  | false =>
    simp only [Bool.not_false, if_true, modifyPDTable_run]
    constructor
    . intro a
      simp only [Mem.get_set, List.map_cons, List.map_nil, List.mem_singleton]
      by_cases hab : a = b
      . simp [hab]
      . simp [hab, Ne.symm hab]
    . intro _ x hx
      rw [List.mem_singleton] at hx
      subst hx
      rw [Mem.get_set_self]
      exact PDTable.without_unmapBlock b _
    . intro q hq
      have hne : A ≠ q := by
        rintro rfl
        simp at hq
      exact Mem.get_set_of_ne _ _ hne
    . rfl

namespace AccessWritten

variable {s s' s₁ : State} {marked : List (Nat × Nat)} {accessiblebit : Bool}

/--
The walk goes on from the state that its first step leaves.
-/
theorem cons {A b : Nat} (h₁ : AccessWritten s s₁ [(A, b)] accessiblebit)
    (h : AccessWritten s₁ s' marked accessiblebit) (hA : A ∉ marked.map Prod.fst)
    : AccessWritten s s' ((A, b) :: marked) accessiblebit := by
  have hfirst : ∀ a, s₁.blockEntries.get a =
      if a = b then { s.blockEntries.get a with accessible := accessiblebit } else s.blockEntries.get a := by
    intro a
    rw [h₁.blockEntries a]
    simp
  have hother : ∀ q, q ≠ A → s₁.pdtables.get q = s.pdtables.get q := fun q hq =>
    h₁.pdtables q (.inr (by simpa using hq))
  constructor
  . intro a
    rw [h.blockEntries a, hfirst a]
    simp only [List.map_cons, List.mem_cons]
    by_cases hab : a = b
    . subst hab
      simp only [true_or, if_true]
      split <;> rfl
    . simp only [hab, false_or, if_false]
  . intro hbit x hx
    rcases List.mem_cons.mp hx with rfl | hmem
    . rw [h.pdtables A (.inr hA)]
      exact h₁.unmapped hbit _ (by simp)
    . have hne : x.1 ≠ A := by
        rintro rfl
        exact hA (List.mem_map.mpr ⟨x, hmem, rfl⟩)
      rw [← hother x.1 hne]
      exact h.unmapped hbit x hmem
  . intro q hq
    rw [List.map_cons, List.mem_cons, not_or] at hq
    rw [h.pdtables q (hq.imp_right And.right), h₁.pdtables q (hq.imp_right fun hq => by simpa using hq.1)]
  . rw [h.others, h₁.others]

theorem nextStructure_eq (h : AccessWritten s s' marked accessiblebit) : s'.nextStructure = s.nextStructure := by
  rw [h.others]
  rfl

theorem root_eq (h : AccessWritten s s' marked accessiblebit) : s'.constantRootPartM = s.constantRootPartM := by
  rw [h.others]

/--
The pointers of the descriptors stay.
-/
theorem pointers_eq (h : AccessWritten s s' marked accessiblebit) (q : Nat)
    : (s'.pdtables.get q).structurePtr = (s.pdtables.get q).structurePtr
        ∧ (s'.pdtables.get q).parent = (s.pdtables.get q).parent := by
  by_cases hq : accessiblebit = true ∨ q ∉ marked.map Prod.fst
  . rw [h.pdtables q hq]
    exact ⟨rfl, rfl⟩
  . rw [not_or, not_not, Bool.not_eq_true, List.mem_map] at hq
    rcases hq with ⟨hbit, x, hx, rfl⟩
    rw [(h.unmapped hbit x hx).rest]
    exact ⟨rfl, rfl⟩

theorem entry_eq (h : AccessWritten s s' marked accessiblebit) (a : Nat)
    : s'.blockEntries.get a
        =
      { s.blockEntries.get a with accessible := (s'.blockEntries.get a).accessible } := by
  rw [h.blockEntries a]
  split <;> rfl

theorem slotOf_eq (h : AccessWritten s s' marked accessiblebit) (a : Nat)
    : s'.slotOf a = { s.slotOf a with accessible := (s'.slotOf a).accessible } := by
  have hsh1 : s'.sh1Entries = s.sh1Entries := by rw [h.others]
  have hsc : s'.scEntries = s.scEntries := by rw [h.others]
  unfold State.slotOf
  rw [hsh1, hsc, h.entry_eq a]
  rfl

theorem hasBlock_iff (h : AccessWritten s s' marked accessiblebit) (q a : Nat)
    : s'.HasBlock q a ↔ s.HasBlock q a := by
  unfold State.HasBlock State.OwnsEntry
  rw [h.nextStructure_eq, (h.pointers_eq q).1, h.entry_eq a]

theorem bounds_eq (h : AccessWritten s s' marked accessiblebit) (a : Nat)
    : (s'.slotOf a).startAddr = (s.slotOf a).startAddr ∧ (s'.slotOf a).endAddr = (s.slotOf a).endAddr := by
  rw [h.slotOf_eq a]
  exact ⟨rfl, rfl⟩

theorem hasBounds_iff (h : AccessWritten s s' marked accessiblebit) (q lo hi b : Nat)
    : s'.HasBounds q lo hi b ↔ s.HasBounds q lo hi b := by
  have hbounds := h.bounds_eq b
  constructor
  . rintro ⟨hhas, hlo, hhi⟩
    exact ⟨(h.hasBlock_iff q b).mp hhas, hbounds.1.symm.trans hlo, hbounds.2.symm.trans hhi⟩
  . rintro ⟨hhas, hlo, hhi⟩
    exact ⟨(h.hasBlock_iff q b).mpr hhas, hbounds.1.trans hlo, hbounds.2.trans hhi⟩

theorem kernelList (h : AccessWritten s s' marked accessiblebit) {q : Nat} {ks : List Nat} (hq : s.KernelList q ks)
    : s'.KernelList q ks := by
  refine ⟨?_, hq.length_le⟩
  rw [h.nextStructure_eq, (h.pointers_eq q).1]
  exact hq.linked

theorem blocksApart (h : AccessWritten s s' marked accessiblebit) {q : Nat} (hq : s.BlocksApart q)
    : s'.BlocksApart q := by
  have hrange : ∀ a, (s'.slotOf a).range = (s.slotOf a).range := by
    intro a
    unfold Slot.range
    rw [(h.bounds_eq a).1, (h.bounds_eq a).2]
  constructor
  . intro a ha
    rw [(h.bounds_eq a).1, (h.bounds_eq a).2]
    exact hq.nonempty a ((h.hasBlock_iff q a).mp ha)
  . intro a b ha hb hne
    rw [hrange a, hrange b]
    exact hq.disjoint a b ((h.hasBlock_iff q a).mp ha) ((h.hasBlock_iff q b).mp hb) hne

theorem ancestors (h : AccessWritten s s' marked accessiblebit) {p : Nat} {chain : List Nat}
    (hp : s.Ancestors p chain) : s'.Ancestors p chain := by
  induction chain generalizing p with
  | nil => exact hp.trans h.root_eq.symm
  | cons A chain ih =>
    rcases hp with ⟨hne, hparent, hrest⟩
    refine ⟨?_, ?_, ih hrest⟩
    . rw [h.root_eq]
      exact hne
    . rw [(h.pointers_eq p).2]
      exact hparent

end AccessWritten

namespace State.Ancestors

variable {s : State} {p : Nat} {chain : List Nat}

theorem unique {chain' : List Nat} (h : s.Ancestors p chain) (h' : s.Ancestors p chain') : chain = chain' := by
  induction chain generalizing p chain' with
  | nil =>
    cases chain' with
    | nil => rfl
    | cons A rest => exact absurd h h'.1
  | cons A chain ih =>
    cases chain' with
    | nil => exact absurd h' h.1
    | cons A' chain' =>
      rcases h with ⟨-, rfl, hrest⟩
      rcases h' with ⟨-, rfl, hrest'⟩
      rw [ih hrest hrest']

theorem of_append {before after : List Nat} {A : Nat} (h : s.Ancestors p (before ++ A :: after))
    : s.Ancestors A after := by
  induction before generalizing p with
  | nil => exact h.2.2
  | cons B before ih => exact ih h.2.2

/--
No partition is its own proper ancestor.
-/
theorem notMem (h : s.Ancestors p chain) : p ∉ chain := by
  intro hmem
  rcases List.append_of_mem hmem with ⟨before, after, rfl⟩
  have heq := h.unique h.of_append
  have hlength := congrArg List.length heq
  simp only [List.length_append, List.length_cons] at hlength
  omega

end State.Ancestors

theorem Sim.ancestors_live {s : State} {C : Conf} (h : Sim s C) (hC : C.Static) {p : Nat} {chain : List Nat}
    (hp : C.Live p) (hchain : s.Ancestors p chain) : ∀ A ∈ chain, C.Live A := by
  induction chain generalizing p with
  | nil => simp
  | cons A chain ih =>
    rcases hchain with ⟨hne, hparent, hrest⟩
    rw [h.root] at hne
    have hA : C.Live A := by
      rw [← hparent, h.parent p hp hne]
      exact hC.parent_live p hp hne
    intro B hB
    rcases List.mem_cons.mp hB with rfl | hmem
    . exact hA
    . exact ih hA hrest B hmem

namespace State

variable {s : State} {p lo hi : Nat} {accessiblebit : Bool}

/--
The blocks that are marked: those of the first ancestors, as many as have one.
-/
structure Marks (s : State) (chain : List Nat) (lo hi : Nat) (marked : List (Nat × Nat)) (rest : List Nat)
    : Prop where
  chain_eq : chain = marked.map Prod.fst ++ rest
  bounds : ∀ x ∈ marked, s.HasBounds x.1 lo hi x.2
  stop : ∀ A ∈ rest.head?, ∀ b, ¬s.HasBounds A lo hi b

theorem writeAccessibleRecAux_exact {chain : List Nat} {fuel : Nat} (hchain : s.Ancestors p chain)
    (hfuel : chain.length < fuel) (hlists : ∀ A ∈ chain, ∃ ks, s.KernelList A ks)
    (hblocks : ∀ A ∈ chain, s.BlocksApart A)
    : ∃ marked rest, s.Marks chain lo hi marked rest
        ∧ AccessWritten s (writeAccessibleRecAux fuel p lo hi accessiblebit s).2 marked accessiblebit
        ∧ (writeAccessibleRecAux fuel p lo hi accessiblebit s).1 = decide (rest = []) := by
  induction chain generalizing s p fuel with
  | nil =>
    cases fuel with
    | zero => exact absurd hfuel (Nat.not_lt_zero _)
    | succ fuel =>
      refine ⟨[], [], ⟨rfl, by simp, by simp⟩, ?_⟩
      unfold writeAccessibleRecAux
      simp only [LLI.bind_run, getRootPartition, LLI.gets_run, beqAddr_eq, LLI.ite_run, LLI.pure_run]
      have hroot : p = s.constantRootPartM := hchain
      rw [if_pos (decide_eq_true hroot)]
      exact ⟨⟨fun a => by simp, fun _ x hx => absurd hx (by simp), fun q _ => rfl, rfl⟩, rfl⟩
  | cons A chain ih =>
    cases fuel with
    | zero => exact absurd hfuel (Nat.not_lt_zero _)
    | succ fuel =>
      rcases hchain with ⟨hne, hparent, hrest⟩
      rcases hlists A (by simp) with ⟨ks, hks⟩
      have hfind := (searches_exact hks (hblocks A (by simp)) lo hi 0).2.1
      unfold writeAccessibleRecAux
      simp only [LLI.bind_run, getRootPartition, LLI.gets_run, beqAddr_eq, LLI.ite_run, LLI.pure_run, readPDParent,
        readPDField, hparent, hfind.state, compareAddrToNull_run]
      rw [if_neg (by simpa using hne)]
      by_cases hnull : (findExactBlockInKS A lo hi s).1 = 0
      . -- the walk ends at the first ancestor without the block
        rw [if_pos (decide_eq_true hnull)]
        refine ⟨[], A :: chain, ⟨rfl, by simp, ?_⟩, ?_, rfl⟩
        . intro A' hA' b hb
          simp only [List.head?_cons, Option.mem_def, Option.some.injEq] at hA'
          subst hA'
          exact hfind.null.mp hnull b hb.has ⟨hb.startAddr_eq, hb.endAddr_eq⟩
        . exact ⟨fun a => by simp, fun _ x hx => absurd hx (by simp), fun q _ => rfl, rfl⟩
      . rw [if_neg (by simpa using hnull)]
        have hb := (hfind.found _ hnull).mp rfl
        generalize (findExactBlockInKS A lo hi s).1 = b at hb ⊢
        have hfirst := AccessWritten.single s A b accessiblebit
        generalize (removeBlockFromPhysicalMPUIfNotAccessible A b accessiblebit
          (writeBlockAccessibleFromBlockEntryAddr b accessiblebit s).2).2 = s₁ at hfirst ⊢
        have hlists' : ∀ A' ∈ chain, ∃ ks, s₁.KernelList A' ks := by
          intro A' hA'
          rcases hlists A' (by simp [hA']) with ⟨ks, hks⟩
          exact ⟨ks, hfirst.kernelList hks⟩
        have hblocks' : ∀ A' ∈ chain, s₁.BlocksApart A' := fun A' hA' =>
          hfirst.blocksApart (hblocks A' (by simp [hA']))
        have hlength : chain.length < fuel := by simpa using hfuel
        rcases ih (hfirst.ancestors hrest) hlength hlists' hblocks' with ⟨marked, rest, hmarks, hwritten, hresult⟩
        have hnotMem : A ∉ marked.map Prod.fst := by
          intro hmem
          apply hrest.notMem
          rw [hmarks.chain_eq]
          exact List.mem_append_left _ hmem
        refine ⟨(A, b) :: marked, rest, ⟨?_, ?_, ?_⟩, hfirst.cons hwritten hnotMem, hresult⟩
        . rw [hmarks.chain_eq]
          rfl
        . intro x hx
          rcases List.mem_cons.mp hx with rfl | hmem
          . exact ⟨hb.1, hb.2.1, hb.2.2⟩
          . exact (hfirst.hasBounds_iff _ _ _ _).mp (hmarks.bounds x hmem)
        . intro A' hA' b' hb'
          exact hmarks.stop A' hA' b' ((hfirst.hasBounds_iff _ _ _ _).mpr hb')

/--
The walk marks the block with these bounds in as many ancestors as have one without a gap, counted from the parent,
and succeeds if these are all of them.
-/
theorem writeAccessibleRec_exact {chain : List Nat} (hchain : s.Ancestors p chain) (hdepth : chain.length < fuelN)
    (hlists : ∀ A ∈ chain, ∃ ks, s.KernelList A ks) (hblocks : ∀ A ∈ chain, s.BlocksApart A)
    : ∃ marked rest, s.Marks chain lo hi marked rest
        ∧ AccessWritten s (writeAccessibleRec p lo hi accessiblebit s).2 marked accessiblebit
        ∧ ((writeAccessibleRec p lo hi accessiblebit s).1 = true ↔ ∀ A ∈ chain, ∃ b, s.HasBounds A lo hi b) := by
  rcases writeAccessibleRecAux_exact hchain hdepth hlists hblocks with ⟨marked, rest, hmarks, hwritten, hresult⟩
  refine ⟨marked, rest, hmarks, hwritten, ?_⟩
  unfold writeAccessibleRec
  rw [hresult, decide_eq_true_eq]
  constructor
  . rintro rfl A hA
    rw [hmarks.chain_eq, List.append_nil, List.mem_map] at hA
    rcases hA with ⟨x, hx, rfl⟩
    exact ⟨x.2, hmarks.bounds x hx⟩
  . intro hall
    cases rest with
    | nil => rfl
    | cons A rest =>
      rcases hall A (by rw [hmarks.chain_eq]; simp) with ⟨b, hb⟩
      exact absurd hb (hmarks.stop A rfl b)

/--
The grandchild of the root shares its bounds with a block of its parent, the root has no such block.
-/
theorem writeAccessibleRec_exact_threeLevels
    : ∃ marked rest, threeLevels.Marks [0x20008000, 0x2000F000] 0x2000C000 0x2000EFFF marked rest
        ∧ AccessWritten threeLevels (writeAccessibleRec 0x2000A000 0x2000C000 0x2000EFFF false threeLevels).2 marked
          false
        ∧ ((writeAccessibleRec 0x2000A000 0x2000C000 0x2000EFFF false threeLevels).1 = true ↔
          ∀ A ∈ [0x20008000, 0x2000F000], ∃ b, threeLevels.HasBounds A 0x2000C000 0x2000EFFF b) := by
  rcases threeLevels_view with ⟨C, hsim, hC, hlive⟩
  have hparents : threeLevels.constantRootPartM = 0x2000F000
      ∧ (threeLevels.pdtables.get 0x2000A000).parent = 0x20008000
      ∧ (threeLevels.pdtables.get 0x20008000).parent = 0x2000F000 := by
    decide +kernel
  have hchain : threeLevels.Ancestors 0x2000A000 [0x20008000, 0x2000F000] := by
    simp only [Ancestors, hparents.1]
    exact ⟨by decide, hparents.2.1, by decide, hparents.2.2, trivial⟩
  have hancestors := hsim.ancestors_live hC hlive hchain
  apply writeAccessibleRec_exact hchain (by decide)
  . exact fun A hA => ⟨_, hsim.kernelList hC (hancestors A hA)⟩
  . exact fun A hA => hsim.blocksApart hC (hancestors A hA)

end State
