import PipMpu.Props.PhysicalMPU
import PipMpu.Props.Removal

/-!
This module contains what `mapMPU` leaves in the MPU of the partition. The service takes the block out of its old region
before the number of the new region is checked, so that a block that is moved to a region that does not exist is lost.
-/

namespace State

/--
The block in the region `i` of the partition `p`.
-/
def region (s : State) (p i : Nat) : Nat := (s.pdtables.get p).mpu.getD i nullAddr

/--
No block is in two regions of the partition `p`.
-/
def OneRegionEach (s : State) (p : Nat) : Prop :=
  ∀ i j : Nat, s.region p i ≠ nullAddr → s.region p i = s.region p j → i = j

/--
The block is found in the partition `p` and is accessible there.
-/
structure CanEnable (s : State) (p b : Nat) : Prop where
  found : (findBlockInKSWithAddr p b s).1 ≠ nullAddr
  accessible : (s.blockEntries.get b).accessible = true

/--
A call that fails leaves all MPUs as they are. A call that succeeds puts the block in the region and takes it out of all
other ones, or it empties the region.
-/
structure MapsBlock (s : State) (idPD t b n : Nat) : Prop where
  failed : (mapMPU idPD b n s).1 = false → ∀ p : Nat,
    ((mapMPU idPD b n s).2.pdtables.get p).mpu = (s.pdtables.get p).mpu
      ∧ ((mapMPU idPD b n s).2.pdtables.get p).LUT = (s.pdtables.get p).LUT
  mapped : (mapMPU idPD b n s).1 = true → b ≠ nullAddr → (mapMPU idPD b n s).2.region t n = b
  unique : (mapMPU idPD b n s).1 = true → b ≠ nullAddr → ∀ i, i ≠ n → (mapMPU idPD b n s).2.region t i ≠ b
  others : (mapMPU idPD b n s).1 = true → b ≠ nullAddr → ∀ i, i ≠ n →
    (mapMPU idPD b n s).2.region t i = s.region t i
      ∨ ((mapMPU idPD b n s).2.region t i = nullAddr ∧ s.region t i = b)
  emptied : (mapMPU idPD b n s).1 = true → b = nullAddr → ∀ i,
    (mapMPU idPD b n s).2.region t i = if i = n then nullAddr else s.region t i

end State

section

variable {s : State} {p b n : Nat}

theorem enableBlockInMPU_run (hn : n < mpuRegionsNb)
    : enableBlockInMPU p b n s = (true, (replaceBlockInPhysicalMPU p b n s).2) := by
  have hbelow : (decide (n < 0) || decide (mpuRegionsNb ≤ n)) = false := by
    simp [hn]
  unfold enableBlockInMPU
  simp only [LLI.bind_run, LLI.pure_run, Index.zero, Index.ltb, Index.leb, getMPURegionsNb, LLI.ite_run, hbelow,
    Bool.false_eq_true, if_false]

theorem enableBlockInMPU_invalid (hn : mpuRegionsNb ≤ n) : enableBlockInMPU p b n s = (false, s) := by
  unfold enableBlockInMPU
  simp [Index.zero, Index.ltb, Index.leb, getMPURegionsNb, hn]

theorem mpu_length_replaceBlock (p b n : Nat) (s : State)
    : ((replaceBlockInPhysicalMPU p b n s).2.pdtables.get p).mpu.length = (s.pdtables.get p).mpu.length := by
  rw [mpu_replaceBlock, List.length_set]

theorem region_replaceBlock (hlen : (s.pdtables.get p).mpu.length = mpuRegionsNb) (hn : n < mpuRegionsNb) (i : Nat)
    : (replaceBlockInPhysicalMPU p b n s).2.region p i = if i = n then b else s.region p i := by
  unfold State.region
  rw [mpu_replaceBlock, set_getD, hlen]
  simp only [hn, and_true]

theorem lt_of_region (hlen : (s.pdtables.get p).mpu.length = mpuRegionsNb) {i : Nat} (hi : s.region p i ≠ nullAddr)
    : i < mpuRegionsNb := by
  by_contra hlt
  apply hi
  unfold State.region
  rw [List.getD_eq_getElem?_getD, List.getElem?_eq_none (by omega)]
  rfl

/--
The first step of the move empties a region with the block, if there is one.
-/
theorem removeBlockIfAlreadyMapped_run (p b : Nat) (s : State)
    : ((∀ i < mpuRegionsNb, s.region p i ≠ b) ∧ (removeBlockFromPhysicalMPUIfAlreadyMapped p b s).2 = s)
        ∨ ∃ i < mpuRegionsNb, s.region p i = b
          ∧ (removeBlockFromPhysicalMPUIfAlreadyMapped p b s).2 = (replaceBlockInPhysicalMPU p nullAddr i s).2 := by
  unfold removeBlockFromPhysicalMPUIfAlreadyMapped findBlockIdxInPhysicalMPU
  simp only [LLI.bind_run, LLI.pure_run, getKernelStructureEntriesNb, Index.succ, readPDField, LLI.gets_run,
    LLI.ite_run, beqIdx_eq, decide_eq_true_eq]
  cases hfind : (List.range mpuRegionsNb).find? fun i => (s.pdtables.get p).mpu.getD i nullAddr == b with
  | none =>
    left
    rw [List.find?_eq_none] at hfind
    refine ⟨fun i hi heq => ?_, rfl⟩
    exact hfind i (List.mem_range.mpr hi) (beq_iff_eq.mpr heq)
  | some i =>
    right
    rw [List.find?_range_eq_some] at hfind
    have hi : i < mpuRegionsNb := List.mem_range.mp hfind.2.1
    have hne : i ≠ add32 kernelStructureEntriesNb 1 := by
      have : add32 kernelStructureEntriesNb 1 = 9 := rfl
      unfold mpuRegionsNb at hi
      omega
    refine ⟨i, hi, beq_iff_eq.mp hfind.1, ?_⟩
    simp only [hne, if_false]
    rw [enableBlockInMPU_run hi]

/--
The calls are the ones that are rejected at once, those that empty a region, and those that move the block in two steps.
-/
theorem mapMPU_cases {idPD t : Nat} (ht : (getGlobalIdPDCurrentOrChild s.currentPartition idPD s).1 = t)
    (hnull : t ≠ nullAddr)
    : (mapMPU idPD b n).Ensures s fun moved s' =>
        (b = nullAddr ∧ (moved, s') = enableBlockInMPU t nullAddr n s)
          ∨ (b ≠ nullAddr ∧ (¬s.CanEnable t b ∨ n = 0) ∧ (moved, s') = (false, s))
          ∨ (b ≠ nullAddr ∧ s.CanEnable t b
            ∧ (moved, s') = enableBlockInMPU t b n (removeBlockFromPhysicalMPUIfAlreadyMapped t b s).2) := by
  have hglobal : getGlobalIdPDCurrentOrChild s.currentPartition idPD s = (t, s) :=
    Prod.ext ht (getGlobalIdPDCurrentOrChild_state _ _ s)
  refine .bind rfl ?_
  refine .bind hglobal ?_
  refine .bind (compareAddrToNull_run t s) ?_
  refine .cond (fun htrue => absurd (of_decide_eq_true htrue) hnull) fun _ => ?_
  refine .bind (compareAddrToNull_run b s) ?_
  refine .cond (fun hb => .inl ⟨of_decide_eq_true hb, rfl⟩) fun hb => ?_
  have hb : b ≠ nullAddr := fun heq => hb (decide_eq_true heq)
  rcases findBlockInKSWithAddr_cases t b s with hnone | ⟨hfound, hpresent⟩
  . refine .bind hnone ?_
    refine .bind rfl ?_
    refine .cond (fun _ => .inr (.inl ⟨hb, .inl fun hok => ?_, rfl⟩)) fun hne => absurd rfl hne
    exact hok.found (congrArg Prod.fst hnone)
  refine .bind hfound ?_
  refine .bind (compareAddrToNull_run b s) ?_
  refine .cond (fun htrue => absurd (of_decide_eq_true htrue) hb) fun _ => ?_
  refine .bind rfl ?_
  refine .cond (fun haccessible => .inr (.inl ⟨hb, .inl fun hok => ?_, rfl⟩)) fun haccessible => ?_
  . simp only [hok.accessible] at haccessible
    exact absurd haccessible (by simp)
  refine .bind rfl ?_
  refine .cond (fun hnot => ?_) fun _ => ?_
  . simp only [hpresent] at hnot
    exact absurd hnot (by simp)
  have hsize : sizeOfBlock b s = ((sizeOfBlock b s).1, s) := rfl
  refine .bind rfl ?_
  refine .bind hsize ?_
  refine .bind (checkMPUEntryZero_run _ _ _) ?_
  refine .cond (fun hzero => .inr (.inl ⟨hb, .inr ?_, rfl⟩)) fun _ => .inr (.inr ⟨hb, ?_, rfl⟩)
  . rw [Bool.and_eq_true, beqIdx_eq] at hzero
    exact of_decide_eq_true hzero.2
  . constructor
    . rw [hfound]
      exact hb
    . simpa using haccessible

end

namespace State.MapsBlock

variable {s s' : State} {idPD t b n : Nat}

theorem of_unchanged (hrun : mapMPU idPD b n s = (false, s)) : s.MapsBlock idPD t b n := by
  have hfalse : (mapMPU idPD b n s).1 ≠ true := by
    rw [hrun]
    simp
  refine ⟨fun _ p => ?_, fun h => absurd h hfalse, fun h => absurd h hfalse, fun h => absurd h hfalse,
    fun h => absurd h hfalse⟩
  rw [hrun]
  exact ⟨rfl, rfl⟩

theorem of_emptied (hlen : (s.pdtables.get t).mpu.length = mpuRegionsNb) (hn : n < mpuRegionsNb)
    (hrun : mapMPU idPD nullAddr n s = (true, (replaceBlockInPhysicalMPU t nullAddr n s).2))
    : s.MapsBlock idPD t nullAddr n := by
  constructor
  case failed =>
    rw [hrun]
    exact fun h => absurd h (by simp)
  case emptied =>
    rw [hrun]
    exact fun _ _ i => region_replaceBlock hlen hn i
  all_goals exact fun _ hb => absurd rfl hb

/--
The block was in no region before the last step, or the others are those of a state in which it was in one.
-/
theorem of_moved (hlen : (s'.pdtables.get t).mpu.length = mpuRegionsNb) (hn : n < mpuRegionsNb) (hb : b ≠ nullAddr)
    (hrun : mapMPU idPD b n s = (true, (replaceBlockInPhysicalMPU t b n s').2))
    (hgone : ∀ i, s'.region t i ≠ b)
    (hothers : ∀ i, s'.region t i = s.region t i ∨ (s'.region t i = nullAddr ∧ s.region t i = b))
    : s.MapsBlock idPD t b n := by
  have hregion := region_replaceBlock (b := b) hlen hn
  constructor
  case failed =>
    rw [hrun]
    exact fun h => absurd h (by simp)
  case mapped =>
    intro _ _
    rw [hrun, hregion, if_pos rfl]
  case unique =>
    intro _ _ i hi
    rw [hrun, hregion, if_neg hi]
    exact hgone i
  case others =>
    intro _ _ i hi
    rw [hrun, hregion, if_neg hi]
    exact hothers i
  case emptied => exact fun _ h => absurd h hb

end State.MapsBlock

/--
The call does what it should unless the block is accessible and mapped in the MPU of the partition, and the region does
not exist.
-/
theorem mapMPU_mapsBlock_iff {s : State} {idPD t b n : Nat}
    (ht : (getGlobalIdPDCurrentOrChild s.currentPartition idPD s).1 = t) (hnull : t ≠ nullAddr)
    (hlen : (s.pdtables.get t).mpu.length = mpuRegionsNb) (hone : s.OneRegionEach t)
    : s.MapsBlock idPD t b n
        ↔
      (n < mpuRegionsNb ∨ b = nullAddr ∨ ¬s.CanEnable t b ∨ ∀ i, s.region t i ≠ b) := by
  have hcases := mapMPU_cases (b := b) (n := n) ht hnull
  unfold LLI.Ensures at hcases
  rcases hcases with ⟨rfl, hrun⟩ | ⟨hb, hrejected, hrun⟩ | ⟨hb, henable, hrun⟩
  . refine iff_of_true ?_ (.inr (.inl rfl))
    by_cases hn : n < mpuRegionsNb
    . exact .of_emptied hlen hn (hrun.trans (enableBlockInMPU_run hn))
    . exact .of_unchanged (hrun.trans (enableBlockInMPU_invalid (by omega)))
  . refine iff_of_true (.of_unchanged hrun) ?_
    rcases hrejected with hnot | rfl
    . exact .inr (.inr (.inl hnot))
    . exact .inl (by decide)
  rcases removeBlockIfAlreadyMapped_run t b s with ⟨hnone, hstate⟩ | ⟨i, hi, hib, hstate⟩
  . -- the block was not mapped, so that nothing is lost if the region does not exist
    have hgone : ∀ i, s.region t i ≠ b := fun i heq => hnone i (lt_of_region hlen (heq ▸ hb)) heq
    refine iff_of_true ?_ (.inr (.inr (.inr hgone)))
    rw [hstate] at hrun
    by_cases hn : n < mpuRegionsNb
    . exact .of_moved hlen hn hb (hrun.trans (enableBlockInMPU_run hn)) hgone fun _ => .inl rfl
    . exact .of_unchanged (hrun.trans (enableBlockInMPU_invalid (by omega)))
  . have hregion := region_replaceBlock (b := nullAddr) hlen hi
    rw [hstate] at hrun
    by_cases hn : n < mpuRegionsNb
    . refine iff_of_true ?_ (.inl hn)
      refine .of_moved (by rw [mpu_length_replaceBlock, hlen]) hn hb (hrun.trans (enableBlockInMPU_run hn)) ?_ ?_
      . intro j heq
        rw [hregion] at heq
        split at heq
        . exact hb heq.symm
        . next hne => exact hne (hone j i (heq ▸ hb) (heq.trans hib.symm))
      . intro j
        rw [hregion]
        split
        . next heq =>
          rw [heq]
          exact .inr ⟨rfl, hib⟩
        . exact .inl rfl
    . -- the old region is empty and the new one does not exist
      have hinvalid : mapMPU idPD b n s = (false, (replaceBlockInPhysicalMPU t nullAddr i s).2) :=
        hrun.trans (enableBlockInMPU_invalid (by omega))
      refine iff_of_false (fun hok => ?_) ?_
      . have hmpu := (hok.failed (congrArg Prod.fst hinvalid) t).1
        have hsame : (mapMPU idPD b n s).2.region t i = s.region t i := congrArg (fun l => l.getD i nullAddr) hmpu
        rw [hinvalid, hregion, if_pos rfl, hib] at hsame
        exact hb hsame.symm
      . rintro (hlt | hnull' | hnot | hall)
        . exact hn hlt
        . exact hb hnull'
        . exact hnot henable
        . exact hall i hib

theorem State.booted_mpu_length
    : (State.booted.pdtables.get State.booted.currentPartition).mpu.length = mpuRegionsNb := by
  decide +kernel

theorem State.booted_oneRegionEach : State.booted.OneRegionEach State.booted.currentPartition := by
  have hbounded : ∀ i < mpuRegionsNb, ∀ j < mpuRegionsNb,
      State.booted.region State.booted.currentPartition i ≠ nullAddr →
      State.booted.region State.booted.currentPartition i = State.booted.region State.booted.currentPartition j →
      i = j := by
    decide +kernel
  intro i j hi hij
  have hlen := State.booted_mpu_length
  exact hbounded i (lt_of_region hlen hi) j (lt_of_region hlen (hij ▸ hi)) hi hij

theorem mapMPU_mapsBlock_booted
    : State.booted.MapsBlock State.booted.currentPartition State.booted.currentPartition 0x2000F111 5 := by
  apply (mapMPU_mapsBlock_iff (by decide +kernel) (by decide +kernel) State.booted_mpu_length
    State.booted_oneRegionEach).mpr
  exact .inl (by decide)

/--
The root moves its second block, which is mapped in region 1, to the region 8.
-/
theorem mapMPU_not_mapsBlock
    : (State.booted.pdtables.get State.booted.currentPartition).mpu.length = mpuRegionsNb
        ∧ State.booted.OneRegionEach State.booted.currentPartition
        ∧ ¬State.booted.MapsBlock State.booted.currentPartition State.booted.currentPartition 0x2000F111 8 := by
  refine ⟨State.booted_mpu_length, State.booted_oneRegionEach, fun hok => ?_⟩
  have hmpu := (hok.failed (by decide +kernel) State.booted.currentPartition).1
  exact absurd hmpu (by decide +kernel)
