import PipMpu.Core.Effects
import PipMpu.Props.PhysicalMPU
import PipMpu.Refine.Ensures
import PipMpu.Util.System

/-!
This module contains when region 0 of the virtual MPUs holds a block that one hardware region can express.
`mapMPU` checks the address of the block entry instead of the start of the block, and `cutMemoryBlock` and
`mergeMemoryBlocks` place and change blocks without any check.
-/

/--
The range is a power of two of at least 32 bytes that starts at a multiple of its size.
-/
def Expressible (startAddr endAddr : Nat) : Prop :=
  ∃ k, endAddr = startAddr + 2 ^ k ∧ 32 ≤ 2 ^ k ∧ startAddr % 2 ^ k = 0

/--
The bounds of the blocks, the entries in region 0 of the virtual MPUs, and the first free slots.
-/
structure RegionView where
  startOf : Nat → Nat
  endAt : Nat → Nat
  regionZero : Nat → Nat
  first : Nat → Nat

namespace RegionView

/--
Region 0 of the partitions is empty or holds an expressible block.
-/
def Ok (v : RegionView) (partitions : Nat → Prop) : Prop :=
  ∀ pd, partitions pd → v.regionZero pd = nullAddr
    ∨ Expressible (v.startOf (v.regionZero pd)) (v.endAt (v.regionZero pd))

/--
The block is put in region `n` of the partition.
-/
def mapped (v : RegionView) (pd entry n : Nat) : RegionView :=
  { v with regionZero := if n = 0 then Function.update v.regionZero pd entry else v.regionZero }

/--
The block leaves the regions of the partition.
-/
def unmapped (v : RegionView) (pd entry : Nat) : RegionView :=
  { v with
    regionZero :=
      Function.update v.regionZero pd (if v.regionZero pd = entry then nullAddr else v.regionZero pd) }

theorem Ok.unmapped {v : RegionView} {partitions : Nat → Prop} (h : v.Ok partitions) (pd entry : Nat)
    : (v.unmapped pd entry).Ok partitions := by
  intro p hp
  unfold RegionView.unmapped
  simp only
  by_cases heq : p = pd
  . subst heq
    rw [Function.update_self]
    by_cases hentry : v.regionZero p = entry
    . rw [if_pos hentry]
      exact .inl rfl
    . rw [if_neg hentry]
      exact h p hp
  . rw [Function.update_of_ne heq]
    exact h p hp

end RegionView

def State.regions (s : State) : RegionView where
  startOf entry := (s.blockEntries.get entry).startAddr
  endAt entry := (s.blockEntries.get entry).endAddr
  regionZero pd := (s.pdtables.get pd).mpu.getD 0 nullAddr
  first pd := (s.pdtables.get pd).firstfreeslot

/--
The state has the given view, up to blocks that have left region 0.
-/
structure Shows (v : RegionView) (s : State) : Prop where
  startOf : ∀ entry, s.regions.startOf entry = v.startOf entry
  endAt : ∀ entry, s.regions.endAt entry = v.endAt entry
  regionZero : ∀ pd, s.regions.regionZero pd = v.regionZero pd ∨ s.regions.regionZero pd = nullAddr
  first : ∀ pd, s.regions.first pd = v.first pd

/--
From `s` to `s'`, blocks at most leave region 0.
-/
def Quiet (s s' : State) : Prop := ∀ v, Shows v s → Shows v s'

instance : Std.Refl Quiet where
  refl _ _ h := h

instance : IsTrans State Quiet where
  trans _ _ _ h h' v hv := h' v (h v hv)

namespace Shows

variable {v : RegionView} {s : State}

theorem refl (s : State) : Shows s.regions s where
  startOf _ := rfl
  endAt _ := rfl
  regionZero _ := .inl rfl
  first _ := rfl

theorem ok {partitions : Nat → Prop} (h : Shows v s) (hok : v.Ok partitions)
    : s.regions.Ok partitions := by
  intro pd hpd
  rcases h.regionZero pd with heq | hnull
  . rw [heq, h.startOf, h.endAt]
    exact hok pd hpd
  . exact .inl hnull

/-
The writes
-/

theorem modifyBlock {startAddr endAddr : Nat} (h : Shows v s) (entry : Nat) (f : BlockEntry → BlockEntry)
    (hstart : (f (s.blockEntries.get entry)).startAddr = startAddr)
    (hend : (f (s.blockEntries.get entry)).endAddr = endAddr)
    : Shows { v with
        startOf := Function.update v.startOf entry startAddr
        endAt := Function.update v.endAt entry endAddr } (modifyBlockEntry entry f s).2 where
  startOf e := by
    show ((s.blockEntries.set _ _).get e).startAddr = Function.update v.startOf entry startAddr e
    rw [Mem.get_set, Function.update_apply]
    by_cases he : entry = e
    . rw [if_pos he, if_pos he.symm, hstart]
    . rw [if_neg he, if_neg (Ne.symm he)]
      exact h.startOf e
  endAt e := by
    show ((s.blockEntries.set _ _).get e).endAddr = Function.update v.endAt entry endAddr e
    rw [Mem.get_set, Function.update_apply]
    by_cases he : entry = e
    . rw [if_pos he, if_pos he.symm, hend]
    . rw [if_neg he, if_neg (Ne.symm he)]
      exact h.endAt e
  regionZero := h.regionZero
  first := h.first

theorem writeStart (h : Shows v s) (entry value : Nat)
    : Shows { v with startOf := Function.update v.startOf entry value }
        (writeBlockStartFromBlockEntryAddr entry value s).2 := by
  have hset := h.modifyBlock entry (fun b => { b with startAddr := value }) rfl rfl
  have hend : (s.blockEntries.get entry).endAddr = v.endAt entry := h.endAt entry
  rw [hend, Function.update_eq_self] at hset
  exact hset

theorem writeEnd (h : Shows v s) (entry value : Nat)
    : Shows { v with endAt := Function.update v.endAt entry value }
        (writeBlockEndFromBlockEntryAddr entry value s).2 := by
  have hset := h.modifyBlock entry (fun b => { b with endAddr := value }) rfl rfl
  have hstart : (s.blockEntries.get entry).startAddr = v.startOf entry := h.startOf entry
  rw [hstart, Function.update_eq_self] at hset
  exact hset

theorem modifyTable {first : Nat} (h : Shows v s) (pd : Nat) (f : PDTable → PDTable)
    (hregion : (f (s.pdtables.get pd)).mpu.getD 0 nullAddr = s.regions.regionZero pd
      ∨ (f (s.pdtables.get pd)).mpu.getD 0 nullAddr = nullAddr)
    (hfirst : (f (s.pdtables.get pd)).firstfreeslot = first)
    : Shows { v with first := Function.update v.first pd first } (modifyPDTable pd f s).2 where
  startOf := h.startOf
  endAt := h.endAt
  regionZero p := by
    show ((s.pdtables.set _ _).get p).mpu.getD 0 nullAddr = _
      ∨ ((s.pdtables.set _ _).get p).mpu.getD 0 nullAddr = _
    rw [Mem.get_set]
    by_cases hp : pd = p
    . subst hp
      rw [if_pos rfl]
      rcases hregion with heq | hnull
      . rw [heq]
        exact h.regionZero pd
      . exact .inr hnull
    . rw [if_neg hp]
      exact h.regionZero p
  first p := by
    show ((s.pdtables.set _ _).get p).firstfreeslot = Function.update v.first pd first p
    rw [Mem.get_set, Function.update_apply]
    by_cases hp : pd = p
    . rw [if_pos hp, if_pos hp.symm, hfirst]
    . rw [if_neg hp, if_neg (Ne.symm hp)]
      exact h.first p

theorem writeFirst (h : Shows v s) (pd value : Nat)
    : Shows { v with first := Function.update v.first pd value }
        (writePDFirstFreeSlotPointer pd value s).2 :=
  h.modifyTable pd (fun pdt => { pdt with firstfreeslot := value }) (.inl rfl) rfl

/--
Reloading the hardware leaves the view alone.
-/
theorem reload (h : Shows v s) (pd : Nat)
    : Shows v ((if pd = s.currentPartition then do
        let LUT ← readPDField PDTable.LUT pd
        mpuConfigureFromLUT LUT
      else pure ()) s : Unit × State).2 := by
  split
  . exact ⟨h.startOf, h.endAt, h.regionZero, h.first⟩
  . exact h

/--
A block is put in a region, which only matters for region 0.
-/
theorem enable (h : Shows v s) (pd entry n : Nat)
    : Shows (v.mapped pd entry n) (enableBlockInMPU pd entry n s).2 := by
  unfold enableBlockInMPU
  simp only [LLI.bind_run, LLI.ite_run, LLI.pure_run, Index.zero, Index.ltb, Index.leb, getMPURegionsNb]
  by_cases hout : (decide (n < 0) || decide (mpuRegionsNb ≤ n)) = true
  . have hn : n ≠ 0 := by
      rintro rfl
      revert hout
      decide
    rw [if_pos hout]
    unfold RegionView.mapped
    rw [if_neg hn]
    exact h
  . rw [if_neg hout]
    apply reload
    refine ⟨h.startOf, h.endAt, ?_, ?_⟩
    . intro p
      show ((s.pdtables.set _ _).get p).mpu.getD 0 nullAddr =
          (if n = 0 then Function.update v.regionZero pd entry else v.regionZero) p
        ∨ ((s.pdtables.set _ _).get p).mpu.getD 0 nullAddr = nullAddr
      rw [Mem.get_set]
      by_cases hp : pd = p
      . subst hp
        rw [if_pos rfl]
        show ((s.pdtables.get pd).mpu.set n entry).getD 0 nullAddr = _
          ∨ ((s.pdtables.get pd).mpu.set n entry).getD 0 nullAddr = _
        rw [set_getD]
        by_cases hn : n = 0
        . subst hn
          rw [if_pos rfl, Function.update_self]
          by_cases hlength : 0 < (s.pdtables.get pd).mpu.length
          . rw [if_pos ⟨rfl, hlength⟩]
            exact .inl rfl
          . rw [if_neg fun h => hlength h.2]
            right
            simp [Nat.le_of_not_lt hlength, nullAddr]
        . rw [if_neg hn, if_neg fun h => hn h.1.symm]
          exact h.regionZero pd
      . rw [if_neg hp]
        by_cases hn : n = 0
        . rw [if_pos hn, Function.update_of_ne (Ne.symm hp)]
          exact h.regionZero p
        . rw [if_neg hn]
          exact h.regionZero p
    . intro p
      show ((s.pdtables.set _ _).get p).firstfreeslot = _
      rw [Mem.get_set]
      split
      . next hp =>
        rw [← hp]
        exact h.first pd
      . exact h.first p

theorem unmap (h : Shows v s) (pd entry : Nat)
    : Shows (v.unmapped pd entry) (removeBlockFromPhysicalMPU pd entry s).2 := by
  have hmpu := foldl_unmapBlock_mpu entry mpuRegionsNb (s.pdtables.get pd)
  have hcore := Sim.unmapBlock_core entry (List.range mpuRegionsNb) (s.pdtables.get pd)
  simp only [PDTable.core, Prod.mk.injEq] at hcore
  refine ⟨h.startOf, h.endAt, ?_, ?_⟩
  . intro p
    show ((s.pdtables.set _ _).get p).mpu.getD 0 nullAddr =
        Function.update v.regionZero pd (if v.regionZero pd = entry then nullAddr else v.regionZero pd) p
      ∨ ((s.pdtables.set _ _).get p).mpu.getD 0 nullAddr = nullAddr
    rw [Mem.get_set]
    by_cases hp : pd = p
    . subst hp
      rw [if_pos rfl, Function.update_self, hmpu.2 0]
      rcases h.regionZero pd with heq | hnull
      . have heq : (s.pdtables.get pd).mpu.getD 0 nullAddr = v.regionZero pd := heq
        rw [heq]
        by_cases hentry : v.regionZero pd = entry
        . rw [if_pos ⟨by decide, hentry⟩]
          exact .inr rfl
        . rw [if_neg fun h => hentry h.2, if_neg hentry]
          exact .inl rfl
      . right
        have hnull : (s.pdtables.get pd).mpu.getD 0 nullAddr = nullAddr := hnull
        rw [hnull]
        split <;> rfl
    . rw [if_neg hp, Function.update_of_ne (Ne.symm hp)]
      exact h.regionZero p
  . intro p
    show ((s.pdtables.set _ _).get p).firstfreeslot = v.first p
    rw [Mem.get_set]
    split
    . next hp =>
      rw [← hp, hcore.2.1]
      exact h.first pd
    . exact h.first p

end Shows

namespace Quiet

theorem of_modifyBlock {entry : Nat} {f : BlockEntry → BlockEntry}
    (hf : ∀ b, (f b).startAddr = b.startAddr ∧ (f b).endAddr = b.endAddr)
    : Keeps Quiet (modifyBlockEntry entry f) := by
  intro s v h
  have hset := h.modifyBlock entry f (hf _).1 (hf _).2
  have hstart : (s.blockEntries.get entry).startAddr = v.startOf entry := h.startOf entry
  have hend : (s.blockEntries.get entry).endAddr = v.endAt entry := h.endAt entry
  rw [hstart, hend, Function.update_eq_self, Function.update_eq_self] at hset
  exact hset

theorem of_modifyTable {pd : Nat} {f : PDTable → PDTable}
    (hregion : ∀ pdt, (f pdt).mpu.getD 0 nullAddr = pdt.mpu.getD 0 nullAddr
      ∨ (f pdt).mpu.getD 0 nullAddr = nullAddr)
    (hfirst : ∀ pdt, (f pdt).firstfreeslot = pdt.firstfreeslot) : Keeps Quiet (modifyPDTable pd f) := by
  intro s v h
  have hset := h.modifyTable pd f (hregion _) (hfirst _)
  have hfirst : (s.pdtables.get pd).firstfreeslot = v.first pd := h.first pd
  rw [hfirst, Function.update_eq_self] at hset
  exact hset

theorem unmap (pd entry : Nat) : Keeps Quiet (removeBlockFromPhysicalMPU pd entry) := by
  apply of_modifyTable
  . intro pdt
    rw [(foldl_unmapBlock_mpu entry mpuRegionsNb pdt).2 0]
    split
    . exact .inr rfl
    . exact .inl rfl
  . intro pdt
    have hcore := Sim.unmapBlock_core entry (List.range mpuRegionsNb) pdt
    simp only [PDTable.core, Prod.mk.injEq] at hcore
    exact hcore.2.1

theorem modifySh1 (entry : Nat) (f : Sh1Entry → Sh1Entry) : Keeps Quiet (modifySh1Entry entry f) :=
  fun _ _ h => ⟨h.startOf, h.endAt, h.regionZero, h.first⟩

theorem modifySC (entry : Nat) (f : SCEntry → SCEntry) : Keeps Quiet (modifySCEntry entry f) :=
  fun _ _ h => ⟨h.startOf, h.endAt, h.regionZero, h.first⟩

theorem ancestors (pd entry : Nat) (accessiblebit : Bool)
    : Keeps Quiet (writeAccessibleToAncestorsIfNotCutRec pd entry accessiblebit) :=
  writeAccessibleToAncestorsIfNotCutRec_keeps (fun _ => of_modifyBlock fun _ => ⟨rfl, rfl⟩) unmap pd entry

end Quiet

/-
The parts of the services that change the view
-/

section Parts

variable {v : RegionView} {s : State}

theorem Shows.step {α β : Type} {op : LLI α} {f : α → LLI β} {post : β → State → Prop} (h : Shows v s)
    (hop : Keeps Quiet op) (hf : ∀ a s', Shows v s' → (f a).Ensures s' post)
    : (op >>= f).Ensures s post :=
  hf _ _ (hop s v h)

/--
The first free slot becomes the new block.
-/
theorem Shows.insert (h : Shows v s) (pd startAddr endAddr origin : Nat) (r w e : Bool) (n : Nat)
    : (insertNewEntry pd startAddr endAddr origin r w e n).Ensures s fun entry s' =>
      entry = v.first pd ∧ ∃ first, Shows { v with
        startOf := Function.update v.startOf (v.first pd) startAddr
        endAt := Function.update v.endAt (v.first pd) endAddr
        first } s' := by
  have hfirst : readPDFirstFreeSlotPointer pd s = (v.first pd, s) := by
    rw [← h.first pd]
    rfl
  refine .bind hfirst ?_
  refine .bind rfl ?_
  refine .bind rfl ?_
  refine .step _ (h.writeFirst pd _) fun _ s₁ h₁ => ?_
  refine h₁.step (Quiet.of_modifyTable (fun _ => .inl rfl) fun _ => rfl) fun _ s₂ h₂ => ?_
  refine .step _ (h₂.writeStart _ _) fun _ s₃ h₃ => ?_
  refine .step _ (h₃.writeEnd _ _) fun _ s₄ h₄ => ?_
  refine h₄.step (Quiet.of_modifyBlock fun _ => ⟨rfl, rfl⟩) fun _ s₅ h₅ => ?_
  refine h₅.step (Quiet.of_modifyBlock fun _ => ⟨rfl, rfl⟩) fun _ s₆ h₆ => ?_
  refine h₆.step (Quiet.of_modifyBlock fun _ => ⟨rfl, rfl⟩) fun _ s₇ h₇ => ?_
  refine h₇.step (Quiet.of_modifyBlock fun _ => ⟨rfl, rfl⟩) fun _ s₈ h₈ => ?_
  refine h₈.step (Quiet.of_modifyBlock fun _ => ⟨rfl, rfl⟩) fun _ s₉ h₉ => ?_
  refine h₉.step (Quiet.modifySC _ _) fun _ s₁₀ h₁₀ => ?_
  exact .pure ⟨rfl, _, h₁₀⟩

/--
The entry becomes the first free slot, which is chained to the others by its end.
-/
theorem Shows.free (h : Shows v s) (pd entry : Nat)
    : (freeSlot pd entry).Ensures s fun _ s' => Shows { v with
        startOf := Function.update v.startOf entry nullAddr
        endAt := Function.update v.endAt entry (v.first pd)
        first := Function.update v.first pd entry } s' := by
  refine h.step (Quiet.unmap pd entry) fun _ s₁ h₁ => ?_
  refine .bind rfl ?_
  have hreset : Shows { v with
      startOf := Function.update v.startOf entry nullAddr
      endAt := Function.update v.endAt entry nullAddr }
      (writeBlockEntryFromBlockEntryAddr entry (s₁.blockEntries.get entry).blockindex nullAddr nullAddr
        false false false false false s₁).2 := by
    rw [writeBlockEntryFromBlockEntryAddr_run]
    exact h₁.modifyBlock entry (fun b =>
      {
          startAddr := nullAddr
          endAddr := nullAddr
          blockindex := b.blockindex
          read := false
          write := false
          exec := false
          present := false
          accessible := false
      }) rfl rfl
  refine .step _ hreset fun _ s₂ h₂ => ?_
  have hsh1 : Keeps Quiet (writeSh1EntryFromBlockEntryAddr entry nullAddr false nullAddr) := by
    refine LLI.keeps_bind (Quiet.modifySh1 _ _) fun _ => ?_
    exact LLI.keeps_bind (Quiet.modifySh1 _ _) fun _ => Quiet.modifySh1 _ _
  have hsc : Keeps Quiet (writeSCEntryFromBlockEntryAddr entry nullAddr nullAddr) :=
    LLI.keeps_bind (Quiet.modifySC _ _) fun _ => Quiet.modifySC _ _
  refine h₂.step hsh1 fun _ s₃ h₃ => ?_
  refine h₃.step hsc fun _ s₄ h₄ => ?_
  have hfirst : readPDFirstFreeSlotPointer pd s₄ = (v.first pd, s₄) := by
    have hfirst := h₄.first pd
    rw [← hfirst]
    rfl
  refine .bind hfirst ?_
  have hend := h₄.writeEnd entry (v.first pd)
  simp only [Function.update_idem] at hend
  refine .step _ hend fun _ s₅ h₅ => ?_
  refine .step _ (h₅.writeFirst pd entry) fun _ s₆ h₆ => ?_
  refine .bind rfl ?_
  refine .bind rfl ?_
  refine h₆.step (Quiet.of_modifyTable (fun _ => .inl rfl) fun _ => rfl) fun _ s₇ h₇ => ?_
  exact .pure h₇

theorem findBlockIdxInPhysicalMPU_zero {pd entry defaultnb : Nat} (hdefault : defaultnb ≠ 0)
    (h : (findBlockIdxInPhysicalMPU pd entry defaultnb s).1 = 0) : s.regions.regionZero pd = entry := by
  unfold findBlockIdxInPhysicalMPU readPDField at h
  rw [LLI.gets_run] at h
  simp only at h
  split at h
  . next i hi =>
    subst h
    have hfound := List.find?_some hi
    simp only [beq_iff_eq] at hfound
    exact hfound
  . exact absurd h hdefault

/--
Mapping a block again in the region where it is changes nothing.
-/
theorem Shows.enableAgain {pd entry n defaultnb : Nat} (h : Shows v s) (hentry : entry ≠ nullAddr)
    (hdefault : defaultnb ≠ 0) (hn : (findBlockIdxInPhysicalMPU pd entry defaultnb s).1 = n)
    : Shows v (enableBlockInMPU pd entry n s).2 := by
  have henable := h.enable pd entry n
  unfold RegionView.mapped at henable
  by_cases hzero : n = 0
  . subst hzero
    have hregion := findBlockIdxInPhysicalMPU_zero hdefault hn
    rcases h.regionZero pd with heq | hnull
    . have hentry : Function.update v.regionZero pd entry = v.regionZero := by
        rw [← hregion, heq, Function.update_eq_self]
      rw [if_pos rfl, hentry] at henable
      exact henable
    . exact absurd (hregion.symm.trans hnull) hentry
  . rw [if_neg hzero] at henable
    exact henable

end Parts

/-
The services
-/

/--
The checks of `cutMemoryBlock` pass.
-/
structure CutPasses (s : State) (idBlockToCut cutAddr : Nat) : Prop where
  slots : 0 < (s.pdtables.get s.currentPartition).nbfreeslots
  found : (findBlockInKSWithAddr s.currentPartition idBlockToCut s).1 ≠ nullAddr
  accessible : (s.blockEntries.get idBlockToCut).accessible = true
  unshared : (readSh1PDChildFromBlockEntryAddr idBlockToCut s).1 = nullAddr
  above : s.regions.startOf idBlockToCut < cutAddr
  below : cutAddr < s.regions.endAt idBlockToCut
  size1 : 32 ≤ sub32 cutAddr (s.regions.startOf idBlockToCut)
  size2 : 32 ≤ sub32 (s.regions.endAt idBlockToCut) cutAddr
  aligned : (check32Aligned cutAddr s).1 = true

/--
The parts of a block that is cut at `cutAddr` are expressible where region 0 of a partition holds them
afterwards: the first part keeps the entry, the second part gets the first free slot and is put in the given
region.
-/
def CutFits (partitions : Nat → Prop) (s : State) (idBlockToCut cutAddr MPURegionNb : Nat) : Prop :=
  let v := s.regions
  let currentPart := s.currentPartition
  let slot := v.first currentPart
  let startOf := Function.update v.startOf slot cutAddr
  let endAt := Function.update (Function.update v.endAt slot (v.endAt idBlockToCut)) idBlockToCut cutAddr
  (partitions currentPart → MPURegionNb = 0 → Expressible (startOf slot) (endAt slot))
    ∧ ∀ pd, partitions pd → ¬(pd = currentPart ∧ MPURegionNb = 0) →
      v.regionZero pd ≠ nullAddr → v.regionZero pd = idBlockToCut ∨ v.regionZero pd = slot →
      Expressible (startOf (v.regionZero pd)) (endAt (v.regionZero pd))

/--
Where region 0 holds neither of two entries, their bounds may change.
-/
theorem RegionView.ok_mapped {v : RegionView} {partitions : Nat → Prop} {startOf endAt first : Nat → Nat}
    {pd entry n : Nat} (block slot : Nat) (hok : v.Ok partitions)
    (hplaced : partitions pd → n = 0 → Expressible (startOf entry) (endAt entry))
    (hothers : ∀ p, partitions p → ¬(p = pd ∧ n = 0) →
      v.regionZero p ≠ nullAddr → v.regionZero p = block ∨ v.regionZero p = slot →
      Expressible (startOf (v.regionZero p)) (endAt (v.regionZero p)))
    (hstart : ∀ e, e ≠ block → e ≠ slot → startOf e = v.startOf e)
    (hend : ∀ e, e ≠ block → e ≠ slot → endAt e = v.endAt e)
    : (RegionView.mapped { startOf, endAt, regionZero := v.regionZero, first } pd entry n).Ok
        partitions := by
  intro p hp
  unfold mapped
  simp only
  by_cases hmapped : p = pd ∧ n = 0
  . rcases hmapped with ⟨rfl, rfl⟩
    rw [if_pos rfl, Function.update_self]
    exact .inr (hplaced hp rfl)
  . have hregion : (if n = 0 then Function.update v.regionZero pd entry else v.regionZero) p
        = v.regionZero p := by
      by_cases hn : n = 0
      . rw [if_pos hn, Function.update_of_ne fun heq => hmapped ⟨heq, hn⟩]
      . rw [if_neg hn]
    rw [hregion]
    by_cases hnull : v.regionZero p = nullAddr
    . exact .inl hnull
    by_cases hchanged : v.regionZero p = block ∨ v.regionZero p = slot
    . exact .inr (hothers p hp hmapped hnull hchanged)
    . rw [not_or] at hchanged
      rw [hstart _ hchanged.1 hchanged.2, hend _ hchanged.1 hchanged.2]
      exact hok p hp

theorem eq_true_of_not_not {b : Bool} (h : ¬(!b) = true) : b = true := by
  cases b with
  | false => exact absurd rfl h
  | true => rfl

theorem eq_true_of_not_eq_false {b : Bool} (h : (!b) = false) : b = true := by
  cases b with
  | false => cases h
  | true => rfl

theorem cutMemoryBlock_ok {partitions : Nat → Prop} {s : State} {idBlockToCut cutAddr MPURegionNb : Nat}
    (hok : s.regions.Ok partitions)
    (hfits : CutPasses s idBlockToCut cutAddr → CutFits partitions s idBlockToCut cutAddr MPURegionNb)
    : (cutMemoryBlock idBlockToCut cutAddr MPURegionNb).Ensures s fun _ s' => s'.regions.Ok partitions := by
  refine .bind rfl ?_
  refine .bind rfl ?_
  refine .bind rfl ?_
  refine .bind rfl ?_
  refine .cond (fun _ => hok) fun hslots => ?_
  rcases findBlockInKSWithAddr_cases s.currentPartition idBlockToCut s with hnull | ⟨hfound, -⟩
  . refine .bind hnull ?_
    refine .bind rfl ?_
    exact .cond (fun _ => hok) fun hne => absurd rfl hne
  refine .bind hfound ?_
  refine .bind rfl ?_
  refine .cond (fun _ => hok) fun hne => ?_
  refine .bind rfl ?_
  refine .cond (fun _ => hok) fun haccessible => ?_
  refine .bind rfl ?_
  refine .bind rfl ?_
  refine .cond (fun _ => hok) fun hunshared => ?_
  refine .bind rfl ?_
  refine .bind rfl ?_
  refine .cond (fun _ => hok) fun habove => ?_
  refine .bind rfl ?_
  refine .bind rfl ?_
  refine .cond (fun _ => hok) fun hbelow => ?_
  refine .bind rfl ?_
  refine .bind rfl ?_
  refine .bind rfl ?_
  refine .bind rfl ?_
  refine .bind rfl ?_
  refine .cond (fun _ => hok) fun hsizes => ?_
  refine .bind rfl ?_
  refine .cond (fun _ => hok) fun haligned => ?_
  have hblock : idBlockToCut ≠ nullAddr := by
    rintro rfl
    exact hne rfl
  have hsizes := Bool.or_eq_false_iff.mp (eq_false_of_ne_true hsizes)
  have hpasses : CutPasses s idBlockToCut cutAddr :=
    {
      slots := Nat.lt_of_not_le fun h => hslots (decide_eq_true h)
      found := by
        rw [hfound]
        exact hblock
      accessible := eq_true_of_not_not haccessible
      unshared := (eq_of_beq (eq_true_of_not_not hunshared)).symm
      above := Nat.lt_of_not_le fun h => habove (decide_eq_true h)
      below := Nat.lt_of_not_le fun h => hbelow (decide_eq_true h)
      size1 := Nat.le_of_not_lt (of_decide_eq_false hsizes.1)
      size2 := Nat.le_of_not_lt (of_decide_eq_false hsizes.2)
      aligned := eq_true_of_not_not haligned
    }
  rcases hfits hpasses with ⟨hplaced, hothers⟩
  have hshows := Shows.refl s
  refine hshows.step (Quiet.ancestors _ _ _) fun _ s₁ h₁ => ?_
  have hend : readBlockEndFromBlockEntryAddr idBlockToCut s₁ = (s.regions.endAt idBlockToCut, s₁) := by
    rw [← h₁.endAt]
    rfl
  refine .bind hend ?_
  refine .bind rfl ?_
  refine .bind rfl ?_
  refine .bind rfl ?_
  refine .bind rfl ?_
  refine .step_result (h₁.insert _ _ _ _ _ _ _ _) fun slot s₂ h₂ => ?_
  rcases h₂ with ⟨rfl, first, h₂⟩
  refine .step _ (h₂.writeEnd _ _) fun _ s₃ h₃ => ?_
  refine .bind rfl ?_
  refine .bind rfl ?_
  refine .bind rfl ?_
  refine .step _ (h₃.enableAgain hblock (by decide) rfl) fun _ s₄ h₄ => ?_
  refine .bind rfl ?_
  refine h₄.step (Quiet.modifySC _ _) fun _ s₅ h₅ => ?_
  refine h₅.step (Quiet.modifySC _ _) fun _ s₆ h₆ => ?_
  refine .step _ (h₆.enable _ _ _) fun _ s₇ h₇ => ?_
  refine .pure (h₇.ok (RegionView.ok_mapped (v := s.regions) _ _ hok hplaced hothers ?_ ?_))
  . intro e _ hslot
    exact Function.update_of_ne hslot _ _
  . intro e hblock hslot
    rw [Function.update_of_ne hblock]
    exact Function.update_of_ne hslot _ _

/--
The checks of `mergeMemoryBlocks` pass.
-/
structure MergePasses (s : State) (idBlockToMerge1 idBlockToMerge2 : Nat) : Prop where
  found1 : (findBlockInKSWithAddr s.currentPartition idBlockToMerge1 s).1 ≠ nullAddr
  found2 : (findBlockInKSWithAddr s.currentPartition idBlockToMerge2 s).1 ≠ nullAddr
  accessible1 : (s.blockEntries.get idBlockToMerge1).accessible = true
  accessible2 : (s.blockEntries.get idBlockToMerge2).accessible = true
  unshared1 : (readSh1PDChildFromBlockEntryAddr idBlockToMerge1 s).1 = nullAddr
  unshared2 : (readSh1PDChildFromBlockEntryAddr idBlockToMerge2 s).1 = nullAddr
  next : idBlockToMerge2 = (readSCNextFromBlockEntryAddr idBlockToMerge1 s).1

/--
The merged block is expressible where region 0 of a partition holds it afterwards, and so is the freed slot of
the second block where another partition than the current one maps it.
-/
def MergeFits (partitions : Nat → Prop) (s : State)
    (idBlockToMerge1 idBlockToMerge2 MPURegionNb : Nat) : Prop :=
  let v := s.regions
  let currentPart := s.currentPartition
  let startOf := Function.update v.startOf idBlockToMerge2 nullAddr
  let endAt := Function.update (Function.update v.endAt idBlockToMerge1 (v.endAt idBlockToMerge2))
    idBlockToMerge2 (v.first currentPart)
  (partitions currentPart → MPURegionNb = 0 →
      Expressible (startOf idBlockToMerge1) (endAt idBlockToMerge1))
    ∧ ∀ pd, partitions pd → pd ≠ currentPart →
      v.regionZero pd ≠ nullAddr → v.regionZero pd = idBlockToMerge1 ∨ v.regionZero pd = idBlockToMerge2 →
      Expressible (startOf (v.regionZero pd)) (endAt (v.regionZero pd))

theorem mergeMemoryBlocks_ok {partitions : Nat → Prop} {s : State}
    {idBlockToMerge1 idBlockToMerge2 MPURegionNb : Nat} (hok : s.regions.Ok partitions)
    (hfits : MergePasses s idBlockToMerge1 idBlockToMerge2 →
      MergeFits partitions s idBlockToMerge1 idBlockToMerge2 MPURegionNb)
    : (mergeMemoryBlocks idBlockToMerge1 idBlockToMerge2 MPURegionNb).Ensures s fun _ s' =>
        s'.regions.Ok partitions := by
  refine .bind rfl ?_
  rcases findBlockInKSWithAddr_cases s.currentPartition idBlockToMerge1 s with hnull | ⟨hfound1, -⟩
  . refine .bind hnull ?_
    refine .bind rfl ?_
    exact .cond (fun _ => hok) fun hne => absurd rfl hne
  refine .bind hfound1 ?_
  refine .bind rfl ?_
  refine .cond (fun _ => hok) fun hne1 => ?_
  rcases findBlockInKSWithAddr_cases s.currentPartition idBlockToMerge2 s with hnull | ⟨hfound2, -⟩
  . refine .bind hnull ?_
    refine .bind rfl ?_
    exact .cond (fun _ => hok) fun hne => absurd rfl hne
  refine .bind hfound2 ?_
  refine .bind rfl ?_
  refine .cond (fun _ => hok) fun hne2 => ?_
  refine .bind rfl ?_
  refine .bind rfl ?_
  refine .cond (fun _ => hok) fun haccessible => ?_
  refine .bind rfl ?_
  refine .bind rfl ?_
  refine .bind rfl ?_
  refine .bind rfl ?_
  refine .cond (fun _ => hok) fun hunshared => ?_
  refine .bind rfl ?_
  refine .bind rfl ?_
  refine .cond (fun _ => hok) fun hnext => ?_
  have hblock1 : idBlockToMerge1 ≠ nullAddr := by
    rintro rfl
    exact hne1 rfl
  have hblock2 : idBlockToMerge2 ≠ nullAddr := by
    rintro rfl
    exact hne2 rfl
  have haccessible := Bool.and_eq_true_iff.mp (eq_true_of_not_not haccessible)
  have hunshared := Bool.or_eq_false_iff.mp (eq_false_of_ne_true hunshared)
  have hpasses : MergePasses s idBlockToMerge1 idBlockToMerge2 :=
    {
      found1 := by
        rw [hfound1]
        exact hblock1
      found2 := by
        rw [hfound2]
        exact hblock2
      accessible1 := haccessible.1
      accessible2 := haccessible.2
      unshared1 := (eq_of_beq (eq_true_of_not_eq_false hunshared.1)).symm
      unshared2 := (eq_of_beq (eq_true_of_not_eq_false hunshared.2)).symm
      next := eq_of_beq (eq_true_of_not_not hnext)
    }
  rcases hfits hpasses with ⟨hplaced, hothers⟩
  have hshows := Shows.refl s
  refine .bind rfl ?_
  refine hshows.step (Quiet.modifySC _ _) fun _ s₁ h₁ => ?_
  have hend : readBlockEndFromBlockEntryAddr idBlockToMerge2 s₁
      = (s.regions.endAt idBlockToMerge2, s₁) := by
    rw [← h₁.endAt]
    rfl
  refine .bind hend ?_
  refine .step _ (h₁.writeEnd _ _) fun _ s₂ h₂ => ?_
  refine .step_result (h₂.free _ _) fun _ s₃ h₃ => ?_
  refine h₃.step (Quiet.ancestors _ _ _) fun _ s₄ h₄ => ?_
  refine .step _ (h₄.unmap _ _) fun _ s₅ h₅ => ?_
  refine .step _ (h₅.unmap _ _) fun _ s₆ h₆ => ?_
  refine .step _ (h₆.enable _ _ _) fun _ s₇ h₇ => ?_
  have hok := (hok.unmapped s.currentPartition idBlockToMerge1).unmapped s.currentPartition
    idBlockToMerge2
  refine .pure (h₇.ok (RegionView.ok_mapped
    (v := (s.regions.unmapped s.currentPartition idBlockToMerge1).unmapped s.currentPartition
      idBlockToMerge2) idBlockToMerge1 idBlockToMerge2 hok hplaced ?_ ?_ ?_))
  . intro p hp _ hne hmerged
    by_cases hcur : p = s.currentPartition
    . subst hcur
      exfalso
      revert hne hmerged
      unfold RegionView.unmapped
      simp only [Function.update_self]
      split
      . simp
      . next hne1 =>
        intro hne hmerged
        rcases hmerged with heq | heq
        . split at heq
          . exact hblock1 heq.symm
          . exact hne1 heq
        . split at heq
          . exact hblock2 heq.symm
          . next hne2 => exact hne2 heq
    . revert hne hmerged
      unfold RegionView.unmapped
      simp only [Function.update_of_ne hcur]
      exact hothers p hp hcur
  . intro e _ hslot
    exact Function.update_of_ne hslot _ _
  . intro e hblock hslot
    exact (Function.update_of_ne hslot _ _).trans (Function.update_of_ne hblock _ _)

/--
`mapMPU` puts the block in a region: the partition is the current one or a child of it, the block is found
accessible and present there, and its size and the address of its entry pass the check for region 0.
-/
structure MapPasses (s : State) (pd idBlockToEnable : Nat) : Prop where
  partition : pd ≠ nullAddr
  found : (findBlockInKSWithAddr pd idBlockToEnable s).1 ≠ nullAddr
  accessible : (s.blockEntries.get idBlockToEnable).accessible = true
  present : (s.blockEntries.get idBlockToEnable).present = true
  checked : (checkMPUEntryZero idBlockToEnable (sizeOfBlock idBlockToEnable s).1 s).1 = true

/--
A block that is mapped in region 0 is expressible.
-/
def MapFits (partitions : Nat → Prop) (s : State) (idPD idBlockToEnable MPURegionNb : Nat) : Prop :=
  let pd := (getGlobalIdPDCurrentOrChild s.currentPartition idPD s).1
  MapPasses s pd idBlockToEnable → partitions pd → MPURegionNb = 0 →
    Expressible (s.regions.startOf idBlockToEnable) (s.regions.endAt idBlockToEnable)

theorem Shows.of_mapped_null {v : RegionView} {s : State} {pd n : Nat}
    (h : Shows (v.mapped pd nullAddr n) s) : Shows v s := by
  refine ⟨h.startOf, h.endAt, ?_, h.first⟩
  intro p
  have hregion := h.regionZero p
  unfold RegionView.mapped at hregion
  simp only at hregion
  by_cases hn : n = 0
  . rw [if_pos hn] at hregion
    by_cases hp : p = pd
    . rw [hp, Function.update_self] at hregion
      rw [hp]
      exact .inr (hregion.elim id id)
    . rw [Function.update_of_ne hp] at hregion
      exact hregion
  . rw [if_neg hn] at hregion
    exact hregion

theorem Quiet.enableNull (pd n : Nat) : Keeps Quiet (enableBlockInMPU pd nullAddr n) :=
  fun _ _ h => (h.enable pd nullAddr n).of_mapped_null

theorem mapMPU_ok {partitions : Nat → Prop} {s : State} {idPD idBlockToEnable MPURegionNb : Nat}
    (hok : s.regions.Ok partitions)
    (hfits : idBlockToEnable ≠ nullAddr → MapFits partitions s idPD idBlockToEnable MPURegionNb)
    : (mapMPU idPD idBlockToEnable MPURegionNb).Ensures s fun _ s' => s'.regions.Ok partitions := by
  have hshows := Shows.refl s
  have hpd : getGlobalIdPDCurrentOrChild s.currentPartition idPD s
      = ((getGlobalIdPDCurrentOrChild s.currentPartition idPD s).1, s) :=
    Prod.ext rfl (getGlobalIdPDCurrentOrChild_state _ _ _)
  unfold MapFits at hfits
  refine .bind rfl ?_
  refine .bind hpd ?_
  generalize (getGlobalIdPDCurrentOrChild s.currentPartition idPD s).1 = pd at *
  refine .bind rfl ?_
  refine .cond (fun _ => hok) fun hnull => ?_
  refine .bind rfl ?_
  refine .cond (fun _ => ?_) fun hblock => ?_
  . exact (Quiet.enableNull pd MPURegionNb s _ hshows).ok hok
  rcases findBlockInKSWithAddr_cases pd idBlockToEnable s with hnone | ⟨hfound, -⟩
  . refine .bind hnone ?_
    refine .bind rfl ?_
    exact .cond (fun _ => hok) fun hne => absurd rfl hne
  refine .bind hfound ?_
  refine .bind rfl ?_
  refine .cond (fun _ => hok) fun hne => ?_
  refine .bind rfl ?_
  refine .cond (fun _ => hok) fun haccessible => ?_
  refine .bind rfl ?_
  refine .cond (fun _ => hok) fun hpresent => ?_
  have hsize : sizeOfBlock idBlockToEnable s = ((sizeOfBlock idBlockToEnable s).1, s) := rfl
  refine .bind rfl ?_
  refine .bind hsize ?_
  refine .bind (checkMPUEntryZero_run _ _ _) ?_
  refine .cond (fun _ => hok) fun hchecked => ?_
  have hplaced : partitions pd → MPURegionNb = 0 →
      Expressible (s.regions.startOf idBlockToEnable) (s.regions.endAt idBlockToEnable) := by
    intro hpartition hregion
    have hne : idBlockToEnable ≠ nullAddr := by
      rintro rfl
      exact hne rfl
    apply hfits hne _ hpartition hregion
    exact
      {
        partition := by
          rintro rfl
          exact hnull rfl
        found := by
          rw [hfound]
          exact hne
        accessible := eq_true_of_not_not haccessible
        present := eq_true_of_not_not hpresent
        checked := by
          by_contra hfails
          apply hchecked
          rw [eq_false_of_ne_true hfails, hregion]
          rfl
      }
  have hunmap : Keeps Quiet (removeBlockFromPhysicalMPUIfAlreadyMapped pd idBlockToEnable) := by
    refine LLI.keeps_read (fun _ => rfl) fun _ => ?_
    refine LLI.keeps_read (fun _ => rfl) fun _ => ?_
    refine LLI.keeps_read (fun _ => rfl) fun oldMPURegionNb => ?_
    apply Keeps.ite
    . exact fun _ => LLI.keeps_pure ()
    . intro _
      exact LLI.keeps_bind (Quiet.enableNull pd oldMPURegionNb) fun _ => LLI.keeps_pure ()
  refine hshows.step hunmap fun _ s₁ h₁ => ?_
  refine (h₁.enable pd idBlockToEnable MPURegionNb).ok ?_
  apply RegionView.ok_mapped (v := s.regions) idBlockToEnable idBlockToEnable hok hplaced
  . intro p hp _ hne heq
    have := hok p hp
    exact this.resolve_left hne
  . exact fun _ _ _ => rfl
  . exact fun _ _ _ => rfl

/-
Runs
-/

/--
The services that put blocks in regions.
-/
inductive RegionCall where
  | map (idPD idBlockToEnable : Paddr) (MPURegionNb : Index)
  | cut (idBlockToCut cutAddr : Paddr) (MPURegionNb : Index)
  | merge (idBlockToMerge1 idBlockToMerge2 : Paddr) (MPURegionNb : Index)

namespace RegionCall

/--
The state after the call.
-/
def run (s : State) : RegionCall → State
  | map idPD idBlockToEnable MPURegionNb => (mapMPU idPD idBlockToEnable MPURegionNb s).2
  | cut idBlockToCut cutAddr MPURegionNb =>
    (cutMemoryBlock idBlockToCut cutAddr MPURegionNb s).2
  | merge idBlockToMerge1 idBlockToMerge2 MPURegionNb =>
    (mergeMemoryBlocks idBlockToMerge1 idBlockToMerge2 MPURegionNb s).2

/--
If the checks of the call pass, the blocks it puts in region 0 and those it changes there are expressible.
-/
def Fits (partitions : Nat → Prop) (s : State) : RegionCall → Prop
  | map idPD idBlockToEnable MPURegionNb =>
    idBlockToEnable ≠ nullAddr → MapFits partitions s idPD idBlockToEnable MPURegionNb
  | cut idBlockToCut cutAddr MPURegionNb =>
    CutPasses s idBlockToCut cutAddr → CutFits partitions s idBlockToCut cutAddr MPURegionNb
  | merge idBlockToMerge1 idBlockToMerge2 MPURegionNb =>
    MergePasses s idBlockToMerge1 idBlockToMerge2 →
      MergeFits partitions s idBlockToMerge1 idBlockToMerge2 MPURegionNb

theorem run_ok {partitions : Nat → Prop} {s : State} (call : RegionCall) (hok : s.regions.Ok partitions)
    (hfits : call.Fits partitions s) : (call.run s).regions.Ok partitions := by
  cases call with
  | map idPD idBlockToEnable MPURegionNb => exact mapMPU_ok hok hfits
  | cut idBlockToCut cutAddr MPURegionNb => exact cutMemoryBlock_ok hok hfits
  | merge idBlockToMerge1 idBlockToMerge2 MPURegionNb => exact mergeMemoryBlocks_ok hok hfits

/--
Any partition issues a call.
-/
def system (partitions : Nat → Prop) : System State (Paddr × RegionCall) where
  init s := s.regions.Ok partitions
  step s event s' := s' = event.2.run { s with currentPartition := event.1 }

end RegionCall

/--
In every run whose calls only put expressible blocks in region 0 and leave those there expressible, region 0
of every partition is empty or holds an expressible block.
-/
theorem regionZero_ok_of_reachable {partitions : Nat → Prop} {s : State}
    (h : ((RegionCall.system partitions).restrict fun s event =>
      event.2.Fits partitions { s with currentPartition := event.1 }).Reachable s)
    : s.regions.Ok partitions := by
  apply h.invariant
  . intro s hinit
    exact hinit
  . rintro s event s' hok ⟨hfits, rfl⟩
    exact event.2.run_ok (s := { s with currentPartition := event.1 }) hok hfits

/--
A root with the blocks [0x20001020, 0x20001060) and [0x20001080, 0x200010c0), none of them in a region.
-/
def rootMaps : State :=
  let pdt : PDTable := default
  let structurePtr := 0x20000100
  {
      currentPartition := 0x20000000
      constantRootPartM := 0x20000000
      pdtables := Mem.empty.set 0x20000000 { pdt with structurePtr }
      blockEntries :=
        (Mem.empty.set structurePtr (ramBlock 0x20001020 0x20001060 0 true)).set (structurePtr + 17)
          (ramBlock 0x20001080 0x200010c0 1 true)
      sh1Entries := Mem.empty
      scEntries :=
        (Mem.empty.set (structurePtr + 208) ⟨0x20001020, nullAddr⟩).set (structurePtr + 216)
          ⟨0x20001080, nullAddr⟩
      nextPointers := Mem.empty
      bytes := Mem.empty
      mpuRegs := MpuRegs.initial
  }

theorem rootMaps_ok : rootMaps.regions.Ok (· = 0x20000000) := by
  rintro pd rfl
  exact .inl (by decide +kernel)

theorem regionZero_ok_rootMaps
    : ((RegionCall.map 0x20000000 0x20000111 1).run rootMaps).regions.Ok (· = 0x20000000) := by
  apply regionZero_ok_of_reachable
  refine .step (e := (0x20000000, .map 0x20000000 0x20000111 1)) (.init rootMaps_ok) ⟨?_, rfl⟩
  intro _ _ _ hregion
  exact absurd hregion (by decide)

/--
The address of the first block entry is a multiple of the size of the block, but its start is not.
-/
theorem regionZero_not_ok
    : rootMaps.regions.Ok (· = 0x20000000)
        ∧ ¬((RegionCall.map 0x20000000 0x20000100 0).run rootMaps).regions.Ok (· = 0x20000000) := by
  refine ⟨rootMaps_ok, ?_⟩
  intro hok
  have hregion : ((RegionCall.map 0x20000000 0x20000100 0).run rootMaps).regions.regionZero 0x20000000
      = 0x20000100 := by decide +kernel
  have hstart : ((RegionCall.map 0x20000000 0x20000100 0).run rootMaps).regions.startOf 0x20000100
      = 0x20001020 := by decide +kernel
  have hend : ((RegionCall.map 0x20000000 0x20000100 0).run rootMaps).regions.endAt 0x20000100
      = 0x20001060 := by decide +kernel
  rcases hok 0x20000000 rfl with hnull | ⟨k, hsize, -, haligned⟩
  . rw [hregion] at hnull
    cases hnull
  . rw [hregion, hstart, hend] at hsize
    have hk : 2 ^ k = 64 := by omega
    rw [hregion, hstart, hk] at haligned
    revert haligned
    decide
