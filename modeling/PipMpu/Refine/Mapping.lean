import PipMpu.Core.Effects
import PipMpu.Refine.Blocks
import PipMpu.Refine.Tree

/-!
This module contains the refinement of the services on the virtual MPU and on the VIDT. The abstract view knows
neither of them.
-/

/--
The second state has every view of the first one.
-/
def Unseen (s s' : State) : Prop := ∀ C, Sim s C → Sim s' C

instance : Std.Refl Unseen := ⟨fun _ _ h => h⟩

instance : IsTrans State Unseen := ⟨fun _ _ _ h h' C hC => h' C (h C hC)⟩

namespace Unseen

theorem enableBlock (p b i : Nat) : Keeps Unseen (enableBlockInMPU p b i) :=
  fun _ _ h => h.run_enableBlock p b i

theorem writePDVidt (p vidtAddr : Nat) : Keeps Unseen (writePDVidt p vidtAddr) :=
  fun _ _ h => h.setPD p (fun pd => { pd with vidtAddr }) fun _ => rfl

theorem removeBlockIfAlreadyMapped (p b : Nat)
    : Keeps Unseen (removeBlockFromPhysicalMPUIfAlreadyMapped p b) := by
  refine LLI.keeps_read (fun _ => rfl) fun kernelentriesnb => ?_
  refine LLI.keeps_read (fun _ => rfl) fun defaultidx => ?_
  refine LLI.keeps_read (fun _ => rfl) fun oldMPURegionNb => ?_
  apply Keeps.ite
  . intro _
    exact LLI.keeps_pure ()
  . intro _
    exact LLI.keeps_bind (enableBlock _ _ _) fun _ => LLI.keeps_pure ()

theorem mapMPU (idPD idBlockToEnable MPURegionNb : Nat)
    : Keeps Unseen (mapMPU idPD idBlockToEnable MPURegionNb) := by
  refine LLI.keeps_read (fun _ => rfl) fun currentPart => ?_
  refine LLI.keeps_read (getGlobalIdPDCurrentOrChild_state _ _) fun globalIdPD => ?_
  refine LLI.keeps_read (fun _ => rfl) fun addrIsNull => ?_
  refine Keeps.ite (fun _ => LLI.keeps_pure false) fun _ => ?_
  refine LLI.keeps_read (fun _ => rfl) fun blockIsNull => ?_
  refine Keeps.ite (fun _ => enableBlock _ _ _) fun _ => ?_
  refine LLI.keeps_read (findBlockInKSWithAddr_state _ _) fun blockToEnableAddr => ?_
  refine LLI.keeps_read (fun _ => rfl) fun addrIsNull => ?_
  refine Keeps.ite (fun _ => LLI.keeps_pure false) fun _ => ?_
  refine LLI.keeps_read (fun _ => rfl) fun addrIsAccessible => ?_
  refine Keeps.ite (fun _ => LLI.keeps_pure false) fun _ => ?_
  refine LLI.keeps_read (fun _ => rfl) fun addrIsPresent => ?_
  refine Keeps.ite (fun _ => LLI.keeps_pure false) fun _ => ?_
  refine LLI.keeps_read (fun _ => rfl) fun zeroIdx => ?_
  refine LLI.keeps_read (fun _ => rfl) fun size => ?_
  refine LLI.keeps_read (fun s => congrArg Prod.snd (checkMPUEntryZero_run _ _ s)) fun addrHasCorrectSizeIfZero => ?_
  refine Keeps.ite (fun _ => LLI.keeps_pure false) fun _ => ?_
  exact LLI.keeps_bind (removeBlockIfAlreadyMapped _ _) fun _ => enableBlock _ _ _

theorem readMPU (idPD MPURegionNb : Nat) : Keeps Unseen (readMPU idPD MPURegionNb) := by
  refine LLI.keeps_read (fun _ => rfl) fun currentPart => ?_
  refine LLI.keeps_read (getGlobalIdPDCurrentOrChild_state _ _) fun globalIdPD => ?_
  refine LLI.keeps_read (fun _ => rfl) fun addrIsNull => ?_
  refine Keeps.ite (fun _ => LLI.keeps_pure nullAddr) fun _ => ?_
  refine LLI.keeps_read (fun _ => rfl) fun zeroIdx => ?_
  refine LLI.keeps_read (fun _ => rfl) fun isBelowZero => ?_
  refine LLI.keeps_read (fun _ => rfl) fun maxMPURegions => ?_
  refine LLI.keeps_read (fun _ => rfl) fun isAboveMPURegionsNb => ?_
  exact Keeps.ite (fun _ => LLI.keeps_pure nullAddr) fun _ => .of_eq fun _ => rfl

theorem setVIDT (pd vidtAddr : Nat) : Keeps Unseen (setVIDT pd vidtAddr) := by
  refine LLI.keeps_read (fun _ => rfl) fun curPd => ?_
  refine LLI.keeps_read (getGlobalIdPDCurrentOrChild_state _ _) fun globalPd => ?_
  refine LLI.keeps_read (fun _ => rfl) fun globalPdNull => ?_
  refine Keeps.ite (fun _ => LLI.keeps_pure false) fun _ => ?_
  refine LLI.keeps_read (fun _ => rfl) fun vidtAddrNull => ?_
  refine Keeps.ite (fun _ => LLI.keeps_bind (writePDVidt _ _) fun _ => LLI.keeps_pure true) fun _ => ?_
  refine LLI.keeps_read (findBelongingBlock_state _ _) fun vidtBlock => ?_
  refine LLI.keeps_read (fun _ => rfl) fun vidtBlockNull => ?_
  refine Keeps.ite (fun _ => LLI.keeps_pure false) fun _ => ?_
  refine LLI.keeps_read (fun _ => rfl) fun present => ?_
  refine Keeps.ite (fun _ => LLI.keeps_pure false) fun _ => ?_
  refine LLI.keeps_read (fun _ => rfl) fun accessible => ?_
  refine Keeps.ite (fun _ => LLI.keeps_pure false) fun _ => ?_
  refine LLI.keeps_read (fun _ => rfl) fun vidtSize => ?_
  refine LLI.keeps_read (fun _ => rfl) fun vidtEndAddr => ?_
  refine LLI.keeps_read (fun _ => rfl) fun vidtBlockEndAddr => ?_
  refine LLI.keeps_read (fun _ => rfl) fun overlap => ?_
  refine Keeps.ite (fun _ => LLI.keeps_pure false) fun _ => ?_
  apply Keeps.ite
  . intro _
    refine LLI.keeps_read (fun _ => rfl) fun childPd => ?_
    refine LLI.keeps_read (fun _ => rfl) fun childPdNull => ?_
    refine Keeps.ite (fun _ => LLI.keeps_pure false) fun _ => ?_
    exact LLI.keeps_bind (writePDVidt _ _) fun _ => LLI.keeps_pure true
  . intro _
    refine LLI.keeps_read (fun _ => rfl) fun vidtBlockChild => ?_
    refine LLI.keeps_read (fun _ => rfl) fun vidtBlockChildNull => ?_
    refine Keeps.ite (fun _ => LLI.keeps_pure false) fun _ => ?_
    exact LLI.keeps_bind (writePDVidt _ _) fun _ => LLI.keeps_pure true

end Unseen
