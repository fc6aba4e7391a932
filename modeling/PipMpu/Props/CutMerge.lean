import PipMpu.Props.Failures
import PipMpu.Refine.KernelData
import PipMpu.Spec.Inverse

/-!
This module contains why a merge undoes the cut before it: the two parts meet the checks of `mergeMemoryBlocks`, and
the view after both calls is the one before.
-/

open LLI

namespace Sim

variable {s : State} {C : Conf}

theorem mergeMemoryBlocks_ne_null (h : Sim s C) (hC : C.Inv) {a₁ a₂ : Nat} (hjoin : C.CanJoin C.cur a₁ a₂)
    (hacc₁ : (C.slot a₁).accessible = true) (hacc₂ : (C.slot a₂).accessible = true) (region : Nat)
    : (mergeMemoryBlocks a₁ a₂ region s).1 ≠ nullAddr := by
  have hS := hC.static
  have hne₁ := hS.owns_ne_zero hjoin.has₁.1
  have hne₂ := hS.owns_ne_zero hjoin.has₂.1
  show Ensures (mergeMemoryBlocks a₁ a₂ region) s fun result _ => result ≠ nullAddr
  unfold mergeMemoryBlocks
  refine .bind h.run_getCurPartition ?_
  refine .bind (h.run_findWithAddr_some hS.sep hjoin.has₁) ?_
  refine .bind (compareAddrToNull_run _ _) ?_
  refine .cond (fun hnull => absurd (of_decide_eq_true hnull) hne₁) fun _ => ?_
  refine .bind (h.run_findWithAddr_some hS.sep hjoin.has₂) ?_
  refine .bind (compareAddrToNull_run _ _) ?_
  refine .cond (fun hnull => absurd (of_decide_eq_true hnull) hne₂) fun _ => ?_
  refine .bind (h.run_readAccessible hjoin.has₁.1) ?_
  refine .bind (h.run_readAccessible hjoin.has₂.1) ?_
  refine .cond (fun hnot => absurd hnot (by simp [hacc₁, hacc₂])) fun _ => ?_
  refine .bind (h.run_readPDChild hjoin.has₁.1) ?_
  refine .bind (compareAddrToNull_run _ _) ?_
  refine .bind (h.run_readPDChild hjoin.has₂.1) ?_
  refine .bind (compareAddrToNull_run _ _) ?_
  refine .cond (fun hnot => absurd hnot (by simp [hjoin.PDchild₁, hjoin.PDchild₂])) fun _ => ?_
  refine .bind (h.run_readNext hjoin.has₁.1) ?_
  refine .bind rfl ?_
  refine .cond (fun hnot => absurd hnot (by simp [beqAddr_eq, hjoin.next_eq])) fun _ => ?_
  -- from here on there is no check
  refine Returns.bind (P := (· ≠ nullAddr)) (fun _ => ?_) s
  iterate 7 refine .bind fun _ => ?_
  exact .pure hne₁

/--
The state after a cut that succeeds and the merge of its two parts.
-/
theorem run_cut_merge (h : Sim s C) (hC : C.Inv) {a cutAddr region : Nat} (region' : Nat)
    (hcut : (cutMemoryBlock a cutAddr region s).1 ≠ nullAddr)
    : Ensures (mergeMemoryBlocks a (cutMemoryBlock a cutAddr region s).1 region') (cutMemoryBlock a cutAddr region s).2
        fun result s' => result = a ∧ result ≠ nullAddr ∧ Sim s' C := by
  have hcases := h.run_cutMemoryBlock_cases hC a cutAddr region
  unfold Ensures at hcases
  rcases hcases with ⟨hnull, -⟩ | ⟨rest, hsplit, hacc, h₁⟩
  . exact absurd hnull hcut
  . generalize cutMemoryBlock a cutAddr region s = result at hcut hsplit h₁ ⊢
    rcases hC.merge_cut hsplit hacc with ⟨hjoin, hacc₁, hacc₂, hmerge⟩
    have hC₁ := hC.cut hsplit
    have hresult := h₁.mergeMemoryBlocks_ne_null hC₁ hjoin hacc₁ hacc₂ region'
    have hcases := h₁.run_mergeMemoryBlocks_cases hC₁ a result.1 region'
    unfold Ensures at hcases ⊢
    rcases hcases with ⟨hnull, -⟩ | ⟨hsame, -, -, h₂⟩
    . exact absurd hnull hresult
    . refine ⟨hsame, hresult, ?_⟩
      have hcur : (C.cut C.cur a result.1 cutAddr rest).cur = C.cur := rfl
      rw [hcur, hmerge] at h₂
      exact h₂

end Sim

/--
In every state of a run, for the partition that runs and every block, cut address and MPU regions.
-/
theorem mergeMemoryBlocks_undoes_cut {s : State} {p idBlock cutAddr region region' : Nat}
    (h : (ServiceCall.system.restrict State.Whole).Reachable s) (hp : s.Partition p)
    (hcut : (cutMemoryBlock idBlock cutAddr region (s.runBy p)).1 ≠ nullAddr)
    : let cut := cutMemoryBlock idBlock cutAddr region (s.runBy p)
      let merged := mergeMemoryBlocks idBlock cut.1 region' cut.2
      merged.1 = idBlock ∧ merged.1 ≠ nullAddr ∧ (s.runBy p).SameKernelData merged.2 := by
  rcases ServiceCall.view_of_reachable h with ⟨C, hsim, hC⟩
  have hswitch := hC.switch (hsim.live_of_partition hC.static hp)
  have howners := LLI.keeps_bind (State.SameOwners.writes.cutMemoryBlock_keeps idBlock cutAddr region)
    (fun id2 => State.SameOwners.writes.mergeMemoryBlocks_keeps idBlock id2 region') (s.runBy p)
  rcases (hsim.switch p).run_cut_merge hswitch region' hcut with ⟨hsame, hne, hmerged⟩
  exact ⟨hsame, hne, (hsim.switch p).sameKernelData hmerged hswitch.static fun q _ => howners q⟩

theorem mergeMemoryBlocks_undoes_cut_booted
    : let cut := cutMemoryBlock 0x2000F111 0x2000A000 8 (State.booted.runBy 0x2000F000)
      let merged := mergeMemoryBlocks 0x2000F111 cut.1 0 cut.2
      merged.1 = 0x2000F111 ∧ merged.1 ≠ nullAddr
        ∧ (State.booted.runBy 0x2000F000).SameKernelData merged.2 :=
  mergeMemoryBlocks_undoes_cut ServiceCall.reachable_booted .root (by decide +kernel)
