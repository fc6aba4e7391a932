import PipMpu.Refine.Calls
import PipMpu.Refine.Collect
import PipMpu.Refine.KernelData

/-!
This module contains why `collect` undoes the `prepare` before it: the structure that was prepared last is the first one
of the partition, it is still empty, and giving its block back leads to the view before.
-/

open LLI

namespace Conf

variable {C : Conf} {t p b : Nat}

/--
The view after a structure was linked and given back agrees with the one before.
-/
theorem Inv.agree_giveBack (hC : C.Inv) (hacc : (C.slot b).accessible = true) (hcan : C.CanAccess p b false)
    (h : (C.access p b false).CanLink t p b)
    : (((C.access p b false).link t p b).giveBack t (C.slot b).startAddr b).Agree C := by
  have hE := (hC.access hcan).static
  have hstart : ((C.access p b false).slot b).startAddr = (C.slot b).startAddr := by
    rw [access_eq, setAccessible.startAddr]
  have hlive : (((C.access p b false).link t p b).giveBack t (C.slot b).startAddr b).Live = C.Live := by
    rw [giveBack_live, Conf.link, access_eq]
    rfl
  have hstructures : ∀ q, (((C.access p b false).link t p b).giveBack t (C.slot b).startAddr b).structures q =
      C.structures q := by
    intro q
    rw [giveBack_structures, ← hstart, CanLink.structures_unlinkStructure, access_eq, setAccessible.structures]
  constructor
  case cur =>
    rw [giveBack_cur, Conf.link, access_eq]
    rfl
  case root =>
    rw [giveBack_root, Conf.link, access_eq]
    rfl
  case live => exact hlive.symm
  case parent =>
    intro q _ _
    rw [giveBack_parent, Conf.link, access_eq]
    rfl
  case structures => exact fun q _ => (hstructures q).symm
  case free =>
    intro q _
    rw [giveBack_free, ← hstart, h.free_unlinkStructure hE, access_eq, setAccessible.free]
  case slot =>
    rintro q a ⟨hq, k, hk, ha⟩
    rw [hstructures] at hk
    rw [hlive] at hq
    exact (hC.slot_giveBack hacc hcan h ⟨hq, k, hk, ha⟩).symm

end Conf

/--
The state after the checks of `prepare`, up to the writes that it is made of.
-/
theorem prepareBlock_keeps {k e : Nat} (he : k + sizeofKStructure ≤ e) (cur t b : Nat)
    : Keeps (State.SameOwnersOutside (Set.Ico k e)) (prepareBlock cur t b k e) := by
  unfold prepareBlock
  refine LLI.keeps_bind (fun s => .of_outside (initStructure_run k he s).2.1) fun _ => ?_
  refine LLI.keeps_guard ?_
  refine LLI.keeps_read (fun _ => rfl) fun _ => ?_
  exact State.SameOwnersOutside.writes.linkBlock_keeps State.SameOwnersOutside.next _ _ _ _ _

namespace Sim

variable {s : State} {C : Conf}

theorem run_prepare_collect (h : Sim s C) (hC : C.Inv) {idPD a : Nat} (hprepare : (prepare idPD a s).1 = true)
    : Ensures (collect idPD) (prepare idPD a s).2 fun v s' => v = a ∧ Sim s' C := by
  have hS := hC.static
  have hcases := h.run_prepare_cases hC idPD a
  unfold Ensures at hcases
  rcases hcases with ⟨hfalse, -⟩ | ⟨-, t, hglobal, hcan, hacc, hlink, h₁⟩
  . rw [hprepare] at hfalse
    exact absurd hfalse (by simp)
  generalize (prepare idPD a s).2 = s₁ at h₁ ⊢
  have hE := (hC.access hcan).static
  have hagree := hC.agree_giveBack hacc hcan hlink
  have hstart : ((C.access C.cur a false).slot a).startAddr = (C.slot a).startAddr := by
    rw [Conf.access_eq, Conf.setAccessible.startAddr]
  have hhas : ∀ x, ((C.access C.cur a false).link t C.cur a).Has C.cur x ↔ C.Has C.cur x := by
    intro x
    rw [hlink.has_iff, Conf.access_eq, Conf.setAccessible.has]
  have hglobal₁ := h.getGlobalIdPD_eq hS h₁ (hE.link hlink) hS.cur_live hS.cur_live hhas ?_ idPD
  . rw [hglobal] at hglobal₁
    have hcollect := h₁.run_collect (hE.link hlink) hglobal₁ (hlink.canUnlink hE) Conf.CanLink.structures_self
      ((hhas a).mpr hcan.has) ?_ ?_
    . rw [hstart] at hcollect
      refine hcollect.mono ?_
      rintro v s₂ ⟨rfl, h₂⟩
      exact ⟨rfl, h₂.congr hagree⟩
    . have hfree : ((C.access C.cur a false).link t C.cur a).free t =
          slotsOf ((C.access C.cur a false).slot a).startAddr ++ (C.access C.cur a false).free t := if_pos rfl
      rw [hfree]
      exact NoRun.append (fun _ => id) (.of_notMem (hlink.notMem_free hE))
    . -- the block lies in a structure of the partition that runs
      intro ht
      rcases hcan.has.1.2 with ⟨k, hk, -⟩
      rw [ht, Conf.access_eq, Conf.setAccessible.structures]
      exact List.ne_nil_of_mem hk
  . intro x hx
    have hx' : (C.access C.cur a false).Owns C.cur x := by
      rw [Conf.access_eq]
      exact hx.1
    have hfields := hlink.fields hx'
    rw [hfields.1, hfields.2.2.2.2.2.1, Conf.access_eq, Conf.setAccessible.PDflag, Conf.setAccessible.startAddr]
    exact ⟨rfl, rfl⟩

/--
What changes besides the view lies in the block.
-/
theorem prepare_outside (h : Sim s C) (hC : C.Inv) {idPD a : Nat} (hprepare : (prepare idPD a s).1 = true)
    : C.Has C.cur a ∧ (C.slot a).accessible = true
        ∧ s.SameOwnersOutside (Set.Ico (C.slot a).startAddr (C.slot a).endAddr) (prepare idPD a s).2 := by
  have hchecks := h.run_prepare_checks hC idPD a
  unfold Ensures at hchecks
  rw [hprepare] at hchecks
  rcases hchecks with hfailed | ⟨t, -, hcan, hrun⟩
  . exact absurd (congrArg Prod.fst hfailed) (by simp)
  . have hstate := congrArg Prod.snd hrun
    dsimp only at hstate
    have hnext : (C.slot a).startAddr + sizeofKStructure ≤ (C.slot a).endAddr := by
      have := hcan.size_le
      rw [sizeofKStructure_eq]
      omega
    rw [hstate]
    exact ⟨hcan.has, hcan.accessible_eq, prepareBlock_keeps hnext _ _ _ s⟩

end Sim

/--
In every state of a run, for the partition that runs, itself or a child of it, and every block that `prepare` accepts.
-/
theorem collect_undoes_prepare {s : State} {p idPD block : Nat}
    (h : (ServiceCall.system.restrict State.Whole).Reachable s) (hp : s.Partition p)
    (hprepare : (prepare idPD block (s.runBy p)).1 = true)
    : let collected := collect idPD (prepare idPD block (s.runBy p)).2
      collected.1 = block ∧ (s.runBy p).SameKernelData collected.2
        ∧ ∀ x, x ∉ Set.Ico (s.blockEntries.get block).startAddr (s.blockEntries.get block).endAddr →
          collected.2.bytes.get x = s.bytes.get x := by
  rcases ServiceCall.view_of_reachable h with ⟨C, hsim, hC⟩
  have hswitch := hC.switch (hsim.live_of_partition hC.static hp)
  have hrun := hsim.switch p
  rcases hrun.run_prepare_collect hswitch hprepare with ⟨hresult, hcollected⟩
  rcases hrun.prepare_outside hswitch hprepare with ⟨hb, hacc, houtside⟩
  have hclear := hswitch.clear hb hacc
  have hframe := IsTrans.trans _ _ _ houtside
    (State.SameOwnersOutside.writes.collect_keeps State.SameOwnersOutside.next idPD _)
  refine ⟨hresult, hrun.sameKernelData hcollected hswitch.static fun q hq => ?_, fun x hx => ?_⟩
  . exact (hframe q (hclear.pd q (hrun.live_of_partition hswitch.static hq))).1
  . apply (hframe x _).2
    rw [← hrun.startAddr_eq hb.1, ← hrun.endAddr_eq hb]
    exact hx

/--
The root has a child with one structure, and a block that is large enough for another one.
-/
def beforePrepareCalls : List (List Nat × ServiceCall) :=
  [
    ([], .cutMemoryBlock 0x2000F111 0x20009000 8),
    ([], .createPartition 0x2000F111),
    ([], .cutMemoryBlock 0x2000F133 0x2000A000 8),
    ([], .prepare 0x2000F111 0x2000F133)
  ]

def beforePrepare : State := (State.booted.replay beforePrepareCalls).getD State.booted

theorem collect_undoes_prepare_child
    : let collected := collect 0x2000F111 (prepare 0x2000F111 0x2000F144 (beforePrepare.runBy 0x2000F000)).2
      collected.1 = 0x2000F144 ∧ (beforePrepare.runBy 0x2000F000).SameKernelData collected.2
        ∧ ∀ x, x ∉ Set.Ico (beforePrepare.blockEntries.get 0x2000F144).startAddr
            (beforePrepare.blockEntries.get 0x2000F144).endAddr →
          collected.2.bytes.get x = beforePrepare.bytes.get x := by
  have hreachable : (ServiceCall.system.restrict State.Whole).Reachable beforePrepare :=
    ServiceCall.reachable_of_isSome ServiceCall.reachable_booted (fun _ _ _ _ => State.whole_of_plain)
      (by decide +kernel)
  have hroot : beforePrepare.Partition 0x2000F000 := by
    have hconstant : beforePrepare.constantRootPartM = 0x2000F000 := by decide +kernel
    rw [← hconstant]
    exact .root
  exact collect_undoes_prepare hreachable hroot (by decide +kernel)
