import PipMpu.Props.Failures
import PipMpu.Props.PrepareCollect
import PipMpu.Props.Served
import PipMpu.Spec.Cover

/-!
This module contains which memory and which descriptors a call of a service may write besides what the view is about:
memory in the blocks of the caller, and the descriptors of a child.
-/

namespace Conf

variable {C : Conf}

theorem Below.of_path (hC : C.Static) {p q : Nat} (h : Relation.ReflTransGen hC.nest.Child q p) : C.Below q p := by
  induction h with
  | refl => exact .self
  | tail _ hchild ih =>
    rcases hchild with ⟨hroot, rfl⟩
    exact .child hroot ih

/--
A descriptor in a block of `p` is one of a partition below `p`.
-/
theorem Static.below_of_mem (hC : C.Static) {p r a : Nat} (ha : C.Has p a) (hr : C.Live r)
    (hmem : r ∈ (C.slot a).range) : C.Below p r := by
  by_cases hroot : r = C.root
  . have hdisjoint := (hC.root_disjoint_block ha).1
    refine absurd hmem (Set.disjoint_left.mp hdisjoint ?_)
    rw [hroot]
    exact ⟨Nat.le_refl _, by rw [sizeofPDTable_eq]; omega⟩
  . rcases hC.pd_house r hr hroot with ⟨H, hH, hflag, hstart, -⟩
    have hx : r ∈ (C.slot H).range := hstart ▸ hC.mem_range_start hH
    have hkept := (hC.flag_kind _ H hH hflag).2.1
    have hpath := (hC.nest.holder_iff_path hH (fun _ hlent => hlent.2 hkept) hx).mp ⟨a, ha, hmem⟩
    exact .child hroot (.of_path hC hpath)

end Conf

/--
Only the descriptor at `t` and what the view is about may differ.
-/
def State.SameButDescriptor (t : Nat) (s s' : State) : Prop :=
  s'.bytes = s.bytes ∧ ∀ x, x ≠ t → s'.pdtables.get x = s.pdtables.get x

namespace State.SameButDescriptor

variable {t : Nat}

instance : Std.Refl (State.SameButDescriptor t) := ⟨fun _ => ⟨rfl, fun _ _ => rfl⟩⟩

instance : IsTrans State (State.SameButDescriptor t) where
  trans _ _ _ h h' := ⟨h'.1.trans h.1, fun x hx => (h'.2 x hx).trans (h.2 x hx)⟩

theorem writePDVidt_keeps (value : Nat) : Keeps (State.SameButDescriptor t) (writePDVidt t value) :=
  fun _ => ⟨rfl, fun _ hx => Mem.get_set_of_ne _ _ hx.symm⟩

/--
The VIDT is recorded in the descriptor that the caller designates.
-/
theorem setVIDT_keeps (pd vidtAddr : Nat) (s : State)
    : s.SameButDescriptor (getGlobalIdPDCurrentOrChild s.currentPartition pd s).1 (setVIDT pd vidtAddr s).2 := by
  suffices hrun : LLI.Ensures (setVIDT pd vidtAddr) s fun _ s' =>
    s.SameButDescriptor (getGlobalIdPDCurrentOrChild s.currentPartition pd s).1 s' from hrun
  refine .bind (a := s.currentPartition) rfl ?_
  refine .read (getGlobalIdPDCurrentOrChild_state _ _ s) ?_
  generalize (getGlobalIdPDCurrentOrChild s.currentPartition pd s).1 = t
  refine LLI.keeps_read (fun _ => rfl) (fun globalPdNull => ?_) s
  refine LLI.keeps_guard ?_
  refine LLI.keeps_read (fun _ => rfl) fun vidtAddrNull => ?_
  refine Keeps.ite (fun _ => LLI.keeps_bind (writePDVidt_keeps _) fun _ => LLI.keeps_pure true) fun _ => ?_
  refine LLI.keeps_read (findBelongingBlock_state _ _) fun vidtBlock => ?_
  repeat first
    | with_reducible refine LLI.keeps_guard ?_
    | refine LLI.keeps_read (fun _ => rfl) fun _ => ?_
  apply Keeps.ite
  . intro _
    iterate 2 refine LLI.keeps_read (fun _ => rfl) fun _ => ?_
    exact LLI.keeps_guard (LLI.keeps_bind (writePDVidt_keeps _) fun _ => LLI.keeps_pure true)
  . intro _
    iterate 2 refine LLI.keeps_read (fun _ => rfl) fun _ => ?_
    exact LLI.keeps_guard (LLI.keeps_bind (writePDVidt_keeps _) fun _ => LLI.keeps_pure true)

end State.SameButDescriptor

/--
The memory outside of the blocks of the caller and the descriptors of the partitions outside of `T` are the same, but
for what the view says of them.
-/
structure Conf.Untouched (C : Conf) (T : Nat → Prop) (s s' : State) : Prop where
  owner : ∀ r, C.Live r → ¬T r → (s.pdtables.get r).SameOwner (s'.pdtables.get r)
  bytes : ∀ x, x ∉ C.cover C.cur → s'.bytes.get x = s.bytes.get x

namespace Sim

variable {s s' : State} {C : Conf} {T : Nat → Prop}

/--
What was written lies in a block of the caller.
-/
theorem untouched_of_outside {a : Nat} (ha : C.Has C.cur a) (hT : ∀ r, C.Live r → r ∈ (C.slot a).range → T r)
    (h : s.SameOwnersOutside (C.slot a).range s') : C.Untouched T s s' where
  owner r hlive hr := (h r fun hmem => hr (hT r hlive hmem)).1
  bytes x hx := (h x fun hmem => hx ⟨a, ha, hmem⟩).2

theorem untouched_of_accessible (hC : C.Inv) {a : Nat} (ha : C.Has C.cur a) (hacc : (C.slot a).accessible = true)
    (h : s.SameOwnersOutside (C.slot a).range s') : C.Untouched T s s' :=
  untouched_of_outside ha (fun r hr hmem => absurd hmem ((hC.clear ha hacc).pd r hr)) h

theorem untouched_of_empty (h : s.SameOwnersOutside ∅ s') : C.Untouched T s s' where
  owner r _ _ := (h r (Set.notMem_empty r)).1
  bytes x _ := (h x (Set.notMem_empty x)).2

theorem untouched_refl (s : State) : C.Untouched T s s := untouched_of_empty (Std.Refl.refl s)

/--
The new descriptor is written over the block, everything else concerns the view.
-/
theorem createPartition_outside (h : Sim s C) (hC : C.Inv) {a : Nat} (hcreate : (createPartition a s).1 = true)
    : s.SameOwnersOutside (C.slot a).range (createPartition a s).2 := by
  have hS := hC.static
  have hfail : ∀ s' : State, false = true → s.SameOwnersOutside (C.slot a).range s' := fun _ h => absurd h (by simp)
  suffices hrun : LLI.Ensures (createPartition a) s fun v s' => v = true → s.SameOwnersOutside (C.slot a).range s' from
    hrun hcreate
  rcases h.run_findWithAddr hS.sep hS.cur_live a with ⟨b, hrun, hb⟩
  unfold createPartition
  refine .bind h.run_getCurPartition ?_
  refine .bind hrun ?_
  refine .bind (compareAddrToNull_run _ _) ?_
  refine .cond (fun _ => .pure (hfail s)) fun hne => ?_
  simp only [decide_eq_true_eq] at hne
  rcases hb hne with ⟨rfl, hb⟩
  refine .bind (h.run_readAccessible hb.1) ?_
  refine .cond (fun _ => .pure (hfail s)) fun _ => ?_
  refine .bind (h.run_checkBlockInRAM hb) ?_
  refine .cond (fun _ => .pure (hfail s)) fun _ => ?_
  refine .bind (h.run_sizeOfBlock hS hb) ?_
  iterate 2 refine .bind rfl ?_
  refine .cond (fun _ => .pure (hfail s)) fun _ => ?_
  iterate 2 refine .bind rfl ?_
  refine .cond (fun _ => .pure (hfail s)) fun _ => ?_
  refine .bind (h.run_readPDChild hb.1) ?_
  refine .bind (compareAddrToNull_run _ _) ?_
  refine .cond (fun _ => .pure (hfail s)) fun _ => ?_
  refine .bind (h.run_readStart hb.1) ?_
  refine .bind (h.run_readEnd hb) ?_
  -- the writes from here on, for any state
  have hstart := hS.mem_range_start hb
  have hwrites : Writes (State.SameOwnersOutside (C.slot b).range) := State.SameOwnersOutside.writes
  intro _
  refine LLI.keeps_bind (fun s => .of_outside (SameOutside.of_eraseBlock _ _ s)) (fun _ => ?_) s
  refine LLI.keeps_bind (fun s => .of_outside (SameOutside.of_modifyPDTable hstart _ s)) fun _ => ?_
  refine LLI.keeps_bind (fun s => .of_outside (SameOutside.of_modifyPDTable hstart _ s)) fun _ => ?_
  refine LLI.keeps_bind (hwrites.block _ _) fun _ => ?_
  refine LLI.keeps_bind (hwrites.unmap _ _) fun _ => ?_
  refine LLI.keeps_bind (hwrites.sh1 _ _) fun _ => ?_
  iterate 4 refine LLI.keeps_read (fun _ => rfl) fun _ => ?_
  apply Keeps.ite
  . exact fun _ => LLI.keeps_bind (hwrites.ancestors _ _ _ _) fun _ => LLI.keeps_pure true
  . exact fun _ => LLI.keeps_pure true

/--
The descriptor of the child is erased, everything else concerns the view.
-/
theorem deletePartition_outside (h : Sim s C) (hC : C.Static) {a : Nat} (ha : C.Has C.cur a)
    : s.SameOwnersOutside (C.slot a).range (deletePartition a s).2 := by
  suffices hrun : LLI.Ensures (deletePartition a) s fun _ s' => s.SameOwnersOutside (C.slot a).range s' from hrun
  unfold deletePartition
  refine .bind h.run_getCurPartition ?_
  refine .bind (h.run_findWithAddr_some hC.sep ha) ?_
  refine .bind (compareAddrToNull_run _ _) ?_
  refine .cond (fun _ => .pure (Std.Refl.refl s)) fun _ => ?_
  refine .bind (h.run_readPDFlag ha.1) ?_
  refine .cond (fun _ => .pure (Std.Refl.refl s)) fun _ => ?_
  refine .bind (h.run_readStart ha.1) ?_
  refine .bind (h.run_readEnd ha) ?_
  have hwrites : Writes (State.SameOwnersOutside (C.slot a).range) := State.SameOwnersOutside.writes
  refine LLI.keeps_bind (R := State.SameOwnersOutside _) (fun s => .of_outside (SameOutside.of_eraseBlock _ _ s))
    (fun _ => ?_) s
  iterate 3 refine LLI.keeps_read (fun _ => rfl) fun _ => ?_
  refine LLI.keeps_bind (hwrites.deleteSharedBlocksRecAux_keeps _ _ _ _) fun _ => ?_
  refine LLI.keeps_bind (hwrites.block _ _) fun _ => ?_
  refine LLI.keeps_bind (hwrites.writeSh1Entry_keeps _ _ _ _) fun _ => ?_
  refine LLI.keeps_read (checkBlockCut_state _) fun _ => ?_
  exact LLI.keeps_guard (LLI.keeps_bind (hwrites.ancestors _ _ _ _) fun _ => LLI.keeps_pure true)

end Sim

/--
The calls that change none of the descriptors but what the view says of them.
-/
def ServiceCall.KeepsOwners : ServiceCall → Prop
  | deletePartition _ | setVIDT _ _ => False
  | _ => True

namespace Sim

variable {s : State} {C : Conf}

theorem run_createPartition_untouched (h : Sim s C) (hC : C.Inv) (T : Nat → Prop) (a : Nat)
    : C.Untouched T s (createPartition a s).2 := by
  by_cases hcreate : (createPartition a s).1 = true
  . have hcases := h.run_createPartition_cases hC a
    unfold LLI.Ensures at hcases
    rw [hcreate] at hcases
    rcases hcases with ⟨hfalse, -⟩ | ⟨-, hcan, hacc, -⟩
    . exact absurd hfalse (by simp)
    . exact untouched_of_accessible hC hcan.has hacc (h.createPartition_outside hC hcreate)
  . rw [createPartition_failsClean a s (by simpa using hcreate)]
    exact untouched_refl s

theorem run_prepare_untouched (h : Sim s C) (hC : C.Inv) (T : Nat → Prop) (idPD a : Nat)
    : C.Untouched T s (prepare idPD a s).2 := by
  by_cases hprepare : (prepare idPD a s).1 = true
  . rcases h.prepare_outside hC hprepare with ⟨ha, hacc, houtside⟩
    exact untouched_of_accessible hC ha hacc houtside
  . rw [prepare_failsClean idPD a s (by simpa using hprepare)]
    exact untouched_refl s

/--
A deleted child is erased, and its descendants are no partitions any more.
-/
theorem run_deletePartition_untouched (h : Sim s C) (hC : C.Inv) (a : Nat)
    : C.Untouched (C.Below C.cur) s (deletePartition a s).2 := by
  by_cases ha : C.Has C.cur a
  . exact untouched_of_outside ha (fun r hr hmem => hC.static.below_of_mem ha hr hmem)
      (h.deletePartition_outside hC.static ha)
  . have hcases := h.run_deletePartition_released hC a
    unfold LLI.Ensures at hcases
    rcases hcases with ⟨-, hstate, -⟩ | ⟨-, ha', -⟩
    . rw [hstate]
      exact untouched_refl s
    . exact absurd ha' ha

theorem run_setVIDT_untouched (h : Sim s C) (pd vidtAddr : Nat)
    : C.Untouched (· = (getGlobalIdPDCurrentOrChild C.cur pd s).1) s (setVIDT pd vidtAddr s).2 := by
  rcases State.SameButDescriptor.setVIDT_keeps pd vidtAddr s with ⟨hbytes, hpd⟩
  rw [h.cur] at hpd
  constructor
  . intro r _ hr
    rw [hpd r hr]
    exact ⟨rfl, rfl, rfl⟩
  . exact fun x _ => by rw [hbytes]

end Sim

namespace ServiceCall

variable {s : State} {C : Conf}

theorem untouched_of_keepsOwners (h : Sim s C) (hC : C.Inv) (T : Nat → Prop) {call : ServiceCall}
    (hcall : call.KeepsOwners) : C.Untouched T s (s.after call) := by
  have hwrites : Writes (State.SameOwnersOutside ∅) := State.SameOwnersOutside.writes
  cases call with
  | createPartition idBlock => exact h.run_createPartition_untouched hC T idBlock
  | cutMemoryBlock idBlockToCut cutAddr MPURegionNb =>
    exact Sim.untouched_of_empty (hwrites.cutMemoryBlock_keeps _ _ _ s)
  | mergeMemoryBlocks idBlockToMerge1 idBlockToMerge2 MPURegionNb =>
    exact Sim.untouched_of_empty (hwrites.mergeMemoryBlocks_keeps _ _ _ s)
  | prepare idPD idRequisitionedBlock => exact h.run_prepare_untouched hC T idPD idRequisitionedBlock
  | addMemoryBlock idPDchild idBlockToShare r w e =>
    exact Sim.untouched_of_empty (hwrites.addMemoryBlock_keeps _ _ _ _ _ s)
  | removeMemoryBlock idBlockToRemove => exact Sim.untouched_of_empty (hwrites.removeMemoryBlock_keeps _ s)
  | deletePartition idPDchildToDelete => exact absurd hcall id
  | collect idPD => exact Sim.untouched_of_empty (hwrites.collect_keeps State.SameOwnersOutside.next _ s)
  | mapMPU idPD idBlockToEnable MPURegionNb => exact Sim.untouched_of_empty (hwrites.mapMPU_keeps _ _ _ s)
  | readMPU idPD MPURegionNb => exact Sim.untouched_of_empty (readMPU_keeps _ _ s)
  | setVIDT pd vidtAddr => exact absurd hcall id

theorem untouched (h : Sim s C) (hC : C.Inv) (call : ServiceCall)
    : C.Untouched (C.Below C.cur) s (s.after call) := by
  cases call with
  | deletePartition idPDchildToDelete => exact h.run_deletePartition_untouched hC idPDchildToDelete
  | setVIDT pd vidtAddr =>
    have huntouched := h.run_setVIDT_untouched pd vidtAddr
    refine ⟨fun r hr hnot => huntouched.owner r hr ?_, huntouched.bytes⟩
    rintro rfl
    rcases h.run_getGlobalIdPD hC.static hC.static.cur_live pd with ⟨t, hglobal, ht⟩
    rw [hglobal] at hr hnot
    rcases ht with rfl | rfl | ⟨-, hroot, hparent⟩
    . exact hC.static.live_ne_zero hr rfl
    . exact hnot .self
    . exact hnot (.of_parent hparent hroot .self)
  | _ => exact untouched_of_keepsOwners h hC _ trivial

end ServiceCall
