import PipMpu.Model.CoqMPU
import PipMpu.Refine.Writes

/-!
This module contains the comparison of the MPU list of the Coq model with the array `mpu` of the C
descriptor: reading, searching and replacing agree, removing a block only does while no region behind
the block is in use.
-/

namespace CoqMPU

theorem readElementAt_eq (i : Nat) (l : List Nat) (d : Nat) : readElementAt i l d = l.getD i d := by
  induction l generalizing i with
  | nil => cases i <;> rfl
  | cons x l ih =>
    cases i with
    | zero => rfl
    | succ i =>
      rw [List.getD_cons_succ, ← ih]
      rfl

theorem addElementAt_getD (n : Nat) (b : Nat) (l : List Nat) (d i : Nat)
    : (addElementAt n b l d).getD i d = if i = n then b else l.getD i d := by
  induction n generalizing l i with
  | zero => cases l <;> cases i <;> simp [addElementAt]
  | succ n ih =>
    cases l with
    | nil =>
      cases i with
      | zero => simp [addElementAt]
      | succ i =>
        rw [addElementAt, List.getD_cons_succ, ih]
        simp
    | cons x l =>
      cases i with
      | zero => simp [addElementAt]
      | succ i =>
        rw [addElementAt, List.getD_cons_succ, List.getD_cons_succ, ih]
        simp

/--
The element at `j` is the first one that is found.
-/
theorem indexOf_eq {a idx j : Nat} {l : List Nat} {d : Nat} (hj : l[j]? = some a)
    (hfirst : ∀ i < j, l[i]? ≠ some a) : indexOf a idx l d = idx + j := by
  induction l generalizing idx j with
  | nil => simp at hj
  | cons x l ih =>
    unfold indexOf
    cases j with
    | zero =>
      simp only [List.getElem?_cons_zero, Option.some.injEq] at hj
      simp [hj, beqAddr]
    | succ j =>
      have hx : x ≠ a := by
        have := hfirst 0 (by omega)
        simpa using this
      have hrec : indexOf a (idx + 1) l d = idx + 1 + j := by
        apply ih
        . simpa using hj
        . intro i hi
          have := hfirst (i + 1) (by omega)
          simpa using this
      simp only [beqAddr, beq_iff_eq, hx, if_false]
      rw [hrec]
      omega

theorem indexOf_of_notMem {a idx : Nat} {l : List Nat} {d : Nat} (h : a ∉ l)
    : indexOf a idx l d = d := by
  induction l generalizing idx with
  | nil => rfl
  | cons x l ih =>
    simp only [List.mem_cons, not_or] at h
    unfold indexOf
    simp only [beqAddr, beq_iff_eq, Ne.symm h.1, if_false]
    exact ih h.2

theorem remove_of_notMem {a : Nat} {l : List Nat} (h : a ∉ l)
    : removeBlockFromPhysicalMPUAux a l = l := by
  induction l with
  | nil => rfl
  | cons x l ih =>
    simp only [List.mem_cons, not_or] at h
    unfold removeBlockFromPhysicalMPUAux
    simp only [beqAddr, beq_iff_eq, Ne.symm h.1, if_false, ih h.2]

/--
Behind the block that is removed everything moves up by one region.
-/
theorem remove_getD {a j : Nat} {l : List Nat} {d : Nat} (hj : l[j]? = some a)
    (hfirst : ∀ i < j, l[i]? ≠ some a) (i : Nat)
    : (removeBlockFromPhysicalMPUAux a l).getD i d = if i < j then l.getD i d else l.getD (i + 1) d := by
  induction l generalizing i j with
  | nil => simp at hj
  | cons x l ih =>
    unfold removeBlockFromPhysicalMPUAux
    cases j with
    | zero =>
      simp only [List.getElem?_cons_zero, Option.some.injEq] at hj
      simp [hj, beqAddr]
    | succ j =>
      have hx : x ≠ a := by
        have := hfirst 0 (by omega)
        simpa using this
      simp only [beqAddr, beq_iff_eq, hx, if_false]
      cases i with
      | zero => simp
      | succ i =>
        rw [List.getD_cons_succ, List.getD_cons_succ, List.getD_cons_succ,
          ih (by simpa using hj) (fun i hi => by simpa using hfirst (i + 1) (by omega))]
        simp

end CoqMPU

theorem set_getD (l : List Nat) (n i v : Nat)
    : (l.set n v).getD i nullAddr = if i = n ∧ n < l.length then v else l.getD i nullAddr := by
  rw [List.getD_eq_getElem?_getD, List.getElem?_set]
  by_cases hi : i = n
  . subst hi
    by_cases hlt : i < l.length <;> simp [hlt, nullAddr]
  . simp [hi, Ne.symm hi]

theorem foldl_unmapBlock_mpu (b n : Nat) (pdt : PDTable)
    : ((List.range n).foldl (PDTable.unmapBlock b) pdt).mpu.length = pdt.mpu.length
        ∧ ∀ i, ((List.range n).foldl (PDTable.unmapBlock b) pdt).mpu.getD i nullAddr =
          if i < n ∧ pdt.mpu.getD i nullAddr = b then nullAddr else pdt.mpu.getD i nullAddr := by
  induction n with
  | zero => simp
  | succ n ih =>
    rw [List.range_succ, List.foldl_append, List.foldl_cons, List.foldl_nil]
    generalize (List.range n).foldl (PDTable.unmapBlock b) pdt = pdt' at ih
    have hn := ih.2 n
    rw [if_neg (by omega)] at hn
    unfold PDTable.unmapBlock
    split
    . next heq =>
      refine ⟨by simpa using ih.1, ?_⟩
      intro i
      rw [set_getD]
      by_cases hi : i = n
      . subst hi
        have hout : (if i < i + 1 ∧ pdt.mpu.getD i nullAddr = b then nullAddr
            else pdt.mpu.getD i nullAddr) = nullAddr := if_pos ⟨Nat.lt_succ_self i, hn.symm.trans heq⟩
        rw [hout]
        by_cases hlt : i < pdt'.mpu.length
        . rw [if_pos ⟨rfl, hlt⟩]
        . rw [if_neg fun h => hlt h.2]
          simp [Nat.le_of_not_lt hlt, nullAddr]
      . rw [if_neg fun h => hi h.1, ih.2 i]
        have : i < n + 1 ↔ i < n := by omega
        simp only [this]
    . next hne =>
      refine ⟨ih.1, ?_⟩
      intro i
      rw [ih.2 i]
      by_cases hi : i = n
      . subst hi
        rw [if_neg (by omega), if_neg fun h => hne (hn.trans h.2)]
      . have : i < n + 1 ↔ i < n := by omega
        simp only [this]

/--
The MPU list of the Coq model and the array of the C descriptor hold the same block in every region.
-/
structure MPUCorresponds (realMPU : List Paddr) (s : State) (pd : Paddr) : Prop where
  length_eq : (s.pdtables.get pd).mpu.length = mpuRegionsNb
  region_eq : ∀ i, CoqMPU.readElementAt i realMPU nullAddr = (s.pdtables.get pd).mpu.getD i nullAddr

/--
No region behind one that holds the block is in use.
-/
def LastInUse (s : State) (pd block : Paddr) : Prop :=
  ∀ i j, i < j → j < mpuRegionsNb → (s.pdtables.get pd).mpu.getD i nullAddr = block →
    (s.pdtables.get pd).mpu.getD j nullAddr = nullAddr

theorem mpu_removeBlock (pd block : Paddr) (s : State)
    (hlength : (s.pdtables.get pd).mpu.length = mpuRegionsNb)
    : ((removeBlockFromPhysicalMPU pd block s).2.pdtables.get pd).mpu.length = mpuRegionsNb
        ∧ ∀ i, ((removeBlockFromPhysicalMPU pd block s).2.pdtables.get pd).mpu.getD i nullAddr =
          if (s.pdtables.get pd).mpu.getD i nullAddr = block then nullAddr
          else (s.pdtables.get pd).mpu.getD i nullAddr := by
  unfold removeBlockFromPhysicalMPU
  rw [modifyPDTable_run, Mem.get_set_self]
  have hfold := foldl_unmapBlock_mpu block mpuRegionsNb (s.pdtables.get pd)
  refine ⟨hfold.1.trans hlength, ?_⟩
  intro i
  rw [hfold.2 i]
  by_cases hi : i < mpuRegionsNb
  . simp only [hi, true_and]
  . rw [if_neg (by omega)]
    split
    . simp [hlength, Nat.le_of_not_lt hi, nullAddr]
    . rfl

theorem mpu_replaceBlock (pd block MPURegionNb : Nat) (s : State)
    : ((replaceBlockInPhysicalMPU pd block MPURegionNb s).2.pdtables.get pd).mpu
        =
      (s.pdtables.get pd).mpu.set MPURegionNb block := by
  unfold replaceBlockInPhysicalMPU
  simp only [LLI.bind_run, LLI.get_run, modifyPDTable_run, getCurPartition, LLI.gets_run, LLI.ite_run]
  split
  . simp [mpuConfigureFromLUT, readPDField]
  . simp

namespace MPUCorresponds

variable {realMPU : List Paddr} {s : State} {pd : Paddr}

theorem getD_eq (h : MPUCorresponds realMPU s pd) (i : Nat)
    : realMPU.getD i nullAddr = (s.pdtables.get pd).mpu.getD i nullAddr := by
  rw [← CoqMPU.readElementAt_eq]
  exact h.region_eq i

theorem read_eq (h : MPUCorresponds realMPU s pd) (MPURegionNb : Index)
    : (readBlockFromPhysicalMPU pd MPURegionNb s).1
        =
      CoqMPU.readBlockFromPhysicalMPU realMPU MPURegionNb :=
  (h.region_eq MPURegionNb).symm

/--
A block is at the same indexes of both, a list that is too short reads as null.
-/
theorem getElem?_iff (h : MPUCorresponds realMPU s pd) {block : Nat} (hblock : block ≠ nullAddr)
    (i : Nat) : realMPU[i]? = some block ↔ (s.pdtables.get pd).mpu.getD i nullAddr = block := by
  rw [← h.getD_eq i, List.getD_eq_getElem?_getD]
  cases realMPU[i]? with
  | none => simp [Ne.symm hblock]
  | some x => simp

theorem lt_of_getD (h : MPUCorresponds realMPU s pd) {block i : Nat} (hblock : block ≠ nullAddr)
    (hi : (s.pdtables.get pd).mpu.getD i nullAddr = block) : i < mpuRegionsNb := by
  by_contra hlt
  rw [List.getD_eq_getElem?_getD, List.getElem?_eq_none (by rw [h.length_eq]; omega)] at hi
  exact hblock hi.symm

theorem find_eq (h : MPUCorresponds realMPU s pd) {block : Nat} (hblock : block ≠ nullAddr)
    (defaultnb : Index)
    : (findBlockIdxInPhysicalMPU pd block defaultnb s).1
        =
      CoqMPU.findBlockIdxInPhysicalMPU realMPU block defaultnb := by
  unfold findBlockIdxInPhysicalMPU CoqMPU.findBlockIdxInPhysicalMPU
  rw [readPDField_run]
  cases hfind : (List.range mpuRegionsNb).find?
      (fun i => (s.pdtables.get pd).mpu.getD i nullAddr == block) with
  | some j =>
    rw [List.find?_range_eq_some] at hfind
    simp only [beq_iff_eq, Bool.not_eq_true', beq_eq_false_iff_ne] at hfind
    rw [CoqMPU.indexOf_eq ((h.getElem?_iff hblock j).mpr hfind.1)]
    . simp
    . intro i hi hsome
      exact hfind.2.2 i hi ((h.getElem?_iff hblock i).mp hsome)
  | none =>
    rw [CoqMPU.indexOf_of_notMem]
    intro hmem
    rcases List.getElem?_of_mem hmem with ⟨i, hi⟩
    have hi := (h.getElem?_iff hblock i).mp hi
    rw [List.find?_eq_none] at hfind
    exact hfind i (List.mem_range.mpr (h.lt_of_getD hblock hi)) (beq_iff_eq.mpr hi)

theorem replace (h : MPUCorresponds realMPU s pd) (block : Paddr) {MPURegionNb : Nat}
    (hregion : MPURegionNb < mpuRegionsNb)
    : MPUCorresponds (CoqMPU.replaceBlockInPhysicalMPU realMPU block MPURegionNb)
        (replaceBlockInPhysicalMPU pd block MPURegionNb s).2 pd := by
  constructor
  . rw [mpu_replaceBlock, List.length_set]
    exact h.length_eq
  . intro i
    rw [mpu_replaceBlock, set_getD, CoqMPU.readElementAt_eq, h.length_eq]
    unfold CoqMPU.replaceBlockInPhysicalMPU
    rw [CoqMPU.addElementAt_getD, h.getD_eq]
    simp only [hregion, and_true]

theorem remove_iff (h : MPUCorresponds realMPU s pd) {block : Nat} (hblock : block ≠ nullAddr)
    : MPUCorresponds (CoqMPU.removeBlockFromPhysicalMPU realMPU block)
          (removeBlockFromPhysicalMPU pd block s).2 pd
        ↔ LastInUse s pd block := by
  have hremove := mpu_removeBlock pd block s h.length_eq
  by_cases hmem : block ∈ realMPU
  . -- the first region that holds the block
    have hex : ∃ j, realMPU[j]? = some block := List.getElem?_of_mem hmem
    obtain ⟨j, hj, hfirst⟩ : ∃ j, realMPU[j]? = some block ∧ ∀ i < j, realMPU[i]? ≠ some block :=
      ⟨Nat.find hex, Nat.find_spec hex, fun i hi => Nat.find_min hex hi⟩
    have hj' := (h.getElem?_iff hblock j).mp hj
    have hshift := fun i => CoqMPU.remove_getD (d := nullAddr) hj hfirst i
    constructor
    . intro hcor
      -- the regions behind `j` read as null one after the other
      have hnull : ∀ n, (s.pdtables.get pd).mpu.getD (j + 1 + n) nullAddr = nullAddr := by
        have hstep : ∀ i, j ≤ i → (s.pdtables.get pd).mpu.getD (i + 1) nullAddr =
            if (s.pdtables.get pd).mpu.getD i nullAddr = block then nullAddr
            else (s.pdtables.get pd).mpu.getD i nullAddr := by
          intro i hi
          have hregion := hcor.region_eq i
          rw [CoqMPU.readElementAt_eq, hremove.2 i] at hregion
          unfold CoqMPU.removeBlockFromPhysicalMPU at hregion
          rw [hshift i, if_neg (by omega), h.getD_eq] at hregion
          exact hregion
        intro n
        induction n with
        | zero => rw [Nat.add_zero, hstep j (Nat.le_refl j), if_pos hj']
        | succ n ih =>
          rw [show j + 1 + (n + 1) = j + 1 + n + 1 by omega, hstep _ (by omega), ih]
          simp
      intro i i' hlt _ hi
      have hji : j ≤ i := by
        by_contra hij
        exact hfirst i (by omega) ((h.getElem?_iff hblock i).mpr hi)
      have := hnull (i' - (j + 1))
      rw [show j + 1 + (i' - (j + 1)) = i' by omega] at this
      exact this
    . intro hlast
      refine ⟨hremove.1, ?_⟩
      have hnull : ∀ i, j < i → (s.pdtables.get pd).mpu.getD i nullAddr = nullAddr := by
        intro i hi
        by_cases hlt : i < mpuRegionsNb
        . exact hlast j i hi hlt hj'
        . rw [List.getD_eq_getElem?_getD, List.getElem?_eq_none (by rw [h.length_eq]; omega)]
          rfl
      intro i
      rw [CoqMPU.readElementAt_eq, hremove.2 i]
      unfold CoqMPU.removeBlockFromPhysicalMPU
      rw [hshift i]
      by_cases hij : i < j
      . rw [if_pos hij, h.getD_eq, if_neg]
        intro hi
        exact hfirst i hij ((h.getElem?_iff hblock i).mpr hi)
      . rw [if_neg hij, h.getD_eq, hnull (i + 1) (by omega)]
        by_cases heq : i = j
        . rw [heq, if_pos hj']
        . rw [hnull i (by omega)]
          simp
  . have hnone : ∀ i, (s.pdtables.get pd).mpu.getD i nullAddr ≠ block := by
      intro i hi
      exact hmem (List.mem_of_getElem? ((h.getElem?_iff hblock i).mpr hi))
    constructor
    . intro _ i _ _ _ hi
      exact absurd hi (hnone i)
    . intro _
      refine ⟨hremove.1, ?_⟩
      intro i
      unfold CoqMPU.removeBlockFromPhysicalMPU
      rw [CoqMPU.remove_of_notMem hmem, hremove.2 i, if_neg (hnone i)]
      exact h.region_eq i

end MPUCorresponds

/--
The operations on the virtual MPU of a partition. A block to look for or to remove is never null.
-/
inductive MPUOp where
  | read (MPURegionNb : Fin mpuRegionsNb)
  | find (block : { b : Paddr // b ≠ nullAddr }) (defaultnb : Index)
  | remove (block : { b : Paddr // b ≠ nullAddr })
  | replace (blockentryaddr : Paddr) (MPURegionNb : Fin mpuRegionsNb)

namespace MPUOp

/--
The operation on the descriptor `pd`, the result is zero if the operation has none.
-/
def run (pd : Paddr) : MPUOp → LLI Nat
  | read MPURegionNb => readBlockFromPhysicalMPU pd MPURegionNb.val
  | find block defaultnb => findBlockIdxInPhysicalMPU pd block.val defaultnb
  | remove block => do
    removeBlockFromPhysicalMPU pd block.val
    pure 0
  | replace blockentryaddr MPURegionNb => do
    replaceBlockInPhysicalMPU pd blockentryaddr MPURegionNb.val
    pure 0

/--
The same operation on the list of the Coq model.
-/
def coqRun (realMPU : List Paddr) : MPUOp → Nat × List Paddr
  | read MPURegionNb => (CoqMPU.readBlockFromPhysicalMPU realMPU MPURegionNb.val, realMPU)
  | find block defaultnb => (CoqMPU.findBlockIdxInPhysicalMPU realMPU block.val defaultnb, realMPU)
  | remove block => (0, CoqMPU.removeBlockFromPhysicalMPU realMPU block.val)
  | replace blockentryaddr MPURegionNb =>
    (0, CoqMPU.replaceBlockInPhysicalMPU realMPU blockentryaddr MPURegionNb.val)

/--
Nothing is mapped behind the block, if the operation removes one.
-/
def RemovesLast (s : State) (pd : Paddr) : MPUOp → Prop
  | remove block => LastInUse s pd block.val
  | _ => True

/--
All along a sequence of operations the results are the same and the two MPUs correspond.
-/
def Simulate (pd : Paddr) : List MPUOp → List Paddr → State → Prop
  | [], realMPU, s => MPUCorresponds realMPU s pd
  | op :: ops, realMPU, s =>
    MPUCorresponds realMPU s pd ∧ (op.run pd s).1 = (op.coqRun realMPU).1
      ∧ Simulate pd ops (op.coqRun realMPU).2 (op.run pd s).2

/--
Each block that the sequence removes is the last one in use at that moment.
-/
def AllRemoveLast (pd : Paddr) : List MPUOp → State → Prop
  | [], _ => True
  | op :: ops, s => op.RemovesLast s pd ∧ AllRemoveLast pd ops (op.run pd s).2

variable {realMPU : List Paddr} {s : State} {pd : Paddr}

theorem result_eq (op : MPUOp) (h : MPUCorresponds realMPU s pd)
    : (op.run pd s).1 = (op.coqRun realMPU).1 := by
  cases op with
  | read MPURegionNb => exact h.read_eq MPURegionNb.val
  | find block defaultnb => exact h.find_eq block.property defaultnb
  | remove block => rfl
  | replace blockentryaddr MPURegionNb => rfl

theorem step_iff (op : MPUOp) (h : MPUCorresponds realMPU s pd)
    : MPUCorresponds (op.coqRun realMPU).2 (op.run pd s).2 pd ↔ op.RemovesLast s pd := by
  cases op with
  | read MPURegionNb => exact iff_of_true h trivial
  | find block defaultnb => exact iff_of_true h trivial
  | remove block => exact h.remove_iff block.property
  | replace blockentryaddr MPURegionNb =>
    exact iff_of_true (h.replace blockentryaddr MPURegionNb.isLt) trivial

theorem Simulate.corresponds {ops : List MPUOp} (h : Simulate pd ops realMPU s)
    : MPUCorresponds realMPU s pd := by
  cases ops with
  | nil => exact h
  | cons op ops => exact h.1

/--
The MPU of the Coq model simulates the one of the C code along the sequences of operations that only
remove the last block in use, and along no other sequence.
-/
theorem simulate_iff (ops : List MPUOp) (h : MPUCorresponds realMPU s pd)
    : Simulate pd ops realMPU s ↔ AllRemoveLast pd ops s := by
  induction ops generalizing realMPU s with
  | nil => exact iff_of_true h trivial
  | cons op ops ih =>
    constructor
    . intro hsim
      have hstep := hsim.2.2.corresponds
      exact ⟨(op.step_iff h).mp hstep, (ih hstep).mp hsim.2.2⟩
    . intro hlast
      have hstep := (op.step_iff h).mpr hlast.1
      exact ⟨h, op.result_eq h, (ih hstep).mpr hlast.2⟩

/--
A partition with the blocks at 512 and 529 in its first two regions.
-/
def twoRegions : State :=
  let pdt : PDTable := default
  {
      currentPartition := 4096
      constantRootPartM := 4096
      pdtables := Mem.empty.set 4096 { pdt with mpu := [512, 529, 0, 0, 0, 0, 0, 0] }
      blockEntries := Mem.empty
      sh1Entries := Mem.empty
      scEntries := Mem.empty
      nextPointers := Mem.empty
      bytes := Mem.empty
      mpuRegs := MpuRegs.initial
  }

theorem twoRegions_corresponds : MPUCorresponds [512, 529] twoRegions 4096 := by
  constructor
  . rfl
  . intro i
    match i with
    | 0 | 1 | 2 | 3 | 4 | 5 | 6 | 7 => rfl
    | i + 8 => rfl

theorem simulate_iff_twoRegions
    : Simulate 4096 [remove ⟨529, by decide⟩, replace 546 ⟨3, by decide⟩] [512, 529] twoRegions
        ↔
      AllRemoveLast 4096 [remove ⟨529, by decide⟩, replace 546 ⟨3, by decide⟩] twoRegions :=
  simulate_iff _ twoRegions_corresponds

/--
Removing the block of the first region moves the other one up on the Coq side only.
-/
theorem not_simulate_twoRegions
    : ¬∀ (ops : List MPUOp) (realMPU : List Paddr) (s : State) (pd : Paddr),
        MPUCorresponds realMPU s pd → Simulate pd ops realMPU s := by
  intro hall
  have hsim := hall [remove ⟨512, by decide⟩] [512, 529] twoRegions 4096 twoRegions_corresponds
  have hregion := hsim.2.2.corresponds.region_eq 0
  revert hregion
  decide

end MPUOp
