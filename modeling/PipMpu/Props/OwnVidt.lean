import PipMpu.Props.Served

/-!
This module contains the VIDT that a partition sets for itself: the block that it lies in is not shared as long as the
partition does not give this block to a child. `addMemoryBlock` does not refuse the block, since it compares the VIDT
address of the child with the address of the block's entry.
-/

namespace Conf

/--
The block of the current partition at the address `v` is not shared.
-/
def Unlent (C : Conf) (v : Nat) : Prop := ∀ a, C.Has C.cur a → v ∈ (C.slot a).range → (C.slot a).PDchild = 0

namespace Unlent

variable {C : Conf} {v : Nat}

/--
Each slot is not shared, does not hold `v`, or is as before up to its accessible bit.
-/
theorem of_slots (h : C.Unlent v) {D : Conf} (howns : ∀ a, D.Owns D.cur a → C.Owns C.cur a)
    (hslot : ∀ a, (D.slot a).present = true → (D.slot a).PDchild = 0 ∨ v ∉ (D.slot a).range
      ∨ ∃ w, D.slot a = { C.slot a with accessible := w }) : D.Unlent v := by
  intro a ha hv
  rcases hslot a ha.2 with hnull | hnot | ⟨w, hsame⟩
  . exact hnull
  . exact absurd hv hnot
  . have hhas := ha.2
    rw [hsame] at hhas hv ⊢
    exact h a ⟨howns a ha.1, hhas⟩ hv

theorem walkFrom (h : C.Unlent v) (p b : Nat) (w : Bool) : (C.walkFrom p b w).Unlent v := by
  refine h.of_slots (fun _ ha => ha) fun a _ => .inr (.inr ?_)
  by_cases hmem : (C.slot b).Uncut ∧ C.Above (C.slot b).startAddr (C.slot b).endAddr p a
  . exact ⟨w, if_pos hmem⟩
  . exact ⟨(C.slot a).accessible, if_neg hmem⟩

theorem cut (h : C.Unlent v) {p b f cutAddr : Nat} {rest : List Nat} (hsplit : C.CanSplit p b f cutAddr rest)
    : (C.cut p b f cutAddr rest).Unlent v := by
  have hb : ((C.walkFrom p b false).slot b).PDchild = 0 :=
    (setAccessible.PDchild ..).trans hsplit.PDchild_eq
  refine (h.walkFrom p b false).of_slots (fun _ ha => ha) fun a _ => ?_
  unfold Conf.cut split
  dsimp only
  split
  . exact .inl hb
  . split
    . exact .inl hb
    . exact .inr (.inr ⟨_, rfl⟩)

theorem merge (h : C.Unlent v) {p b₁ b₂ : Nat} (hjoin : C.CanJoin p b₁ b₂) : (C.merge p b₁ b₂).Unlent v := by
  refine walkFrom (C := C.join p b₁ b₂) (h.of_slots (fun _ ha => ha) fun a _ => ?_) p b₁ true
  unfold join
  dsimp only
  split
  . exact .inl rfl
  . split
    . exact .inl hjoin.PDchild₁
    . exact .inr (.inr ⟨_, rfl⟩)

theorem share (h : C.Unlent v) {b c f : Nat} {rest : List Nat} {r w x : Bool} (hb : v ∉ (C.slot b).range)
    : (C.share b c f rest r w x).Unlent v := by
  refine h.of_slots (fun _ ha => ha) fun a _ => ?_
  unfold Conf.share
  dsimp only
  split
  . exact .inl rfl
  . split
    . exact .inr (.inl hb)
    . exact .inr (.inr ⟨_, rfl⟩)

theorem removed (h : C.Unlent v) {b l : Nat} {done : Bool} {s₁ : State} {D : Conf} (hD : Sim.Removed C b l done s₁ D)
    : (D.setSlot b (D.slot b).clearSh1).Unlent v := by
  refine h.of_slots (fun a ha => ?_) fun a ha => ?_
  . exact hD.cur_eq ▸ (hD.owns D.cur a).mp ha
  . by_cases heq : a = b
    . subst heq
      rw [setSlot_slot_self]
      exact .inl rfl
    . have hslot : (D.setSlot b (D.slot b).clearSh1).slot a = D.slot a := if_neg heq
      rw [hslot] at ha ⊢
      rcases hD.kept a ha with hkept | hkept
      . exact .inr (.inr ⟨_, hkept⟩)
      . exact .inr (.inr ⟨true, hkept⟩)

end Unlent

end Conf

namespace State

/--
The checks of `addMemoryBlock` for the block `b` and the child that the block `idPDchild` designates.
-/
structure MayShare (s : State) (idPDchild b : Nat) (r w x : Bool) : Prop where
  child : s.HasBlock s.currentPartition idPDchild
  flag : (s.slotOf idPDchild).PDflag = true
  room : (s.pdtables.get (s.slotOf idPDchild).startAddr).nbfreeslots ≠ 0
  vidt : (s.pdtables.get (s.slotOf idPDchild).startAddr).vidtAddr ≠ b
  has : s.HasBlock s.currentPartition b
  accessible : (s.slotOf b).accessible = true
  unshared : (s.slotOf b).PDchild = nullAddr
  read : r = true
  write : w = true → (s.slotOf b).write = true
  exec : x = true → (s.slotOf b).exec = true

/--
The address that the partition has last set its own VIDT to.
-/
def ownVidt (s : State) (v : Nat) : ServiceCall → Nat
  | .setVIDT pd vidtAddr => if (setVIDT pd vidtAddr s).1 then vidtAddr else v
  | _ => v

/--
The call does not give the block at the address `v` to a child.
-/
def SparesVidt (s : State) (v : Nat) : ServiceCall → Prop
  | .addMemoryBlock idPDchild b r w x => v ≠ nullAddr → s.MayShare idPDchild b r w x → v ∉ (s.slotOf b).range
  | _ => True

/--
What a call must meet such that the block at the address `v` stays unshared.
-/
def KeepsOwnVidt (t : State × Nat) (call : ServiceCall) : Prop :=
  t.1.SparesVidt t.2 call ∧ t.1.TakesBackWhole call

/--
The block of `p` at the address `v` is not shared.
-/
def VidtUnshared (s : State) (p v : Nat) : Prop :=
  v ≠ nullAddr → ∀ b, s.HasBlock p b → v ∈ (s.slotOf b).range → (s.slotOf b).PDchild = nullAddr

end State

namespace ServiceCall

/--
The calls with which the partition `p` handles its blocks and sets its own VIDT.
-/
def HandlesOwn (p : Nat) : ServiceCall → Prop
  | setVIDT pd _ => pd = p
  | cutMemoryBlock _ _ _ | mergeMemoryBlocks _ _ _ | addMemoryBlock _ _ _ _ _ | removeMemoryBlock _ => True
  | _ => False

/--
The runs in which only the partition `p` makes calls, together with the address that it has last set its VIDT to.
-/
def ownVidtSystem (p : Nat) : System (State × Nat) ServiceCall where
  init t := ∃ s, (system.restrict State.Orderly).Reachable s ∧ s.Partition p ∧ t = (s.runBy p, nullAddr)
  step t call t' := call.HandlesOwn p ∧ t' = (t.1.after call, t.1.ownVidt t.2 call)

end ServiceCall

namespace Sim

variable {s : State} {C : Conf} {v : Nat}

/--
The partition can only set its VIDT in a block that is not shared.
-/
theorem setVIDT_unlent (h : Sim s C) (hC : C.Static) (hv : v ≠ nullAddr) (hrun : (setVIDT C.cur v s).1 = true)
    : C.Unlent v := by
  intro b hb hrange
  by_contra hne
  have hglobal : getGlobalIdPDCurrentOrChild C.cur C.cur s = (C.cur, s) := by
    unfold getGlobalIdPDCurrentOrChild getBeqAddr beqAddr
    simp
  suffices hfalse : (setVIDT C.cur v).Ensures s fun r _ => r = false from
    absurd (Eq.trans (Eq.symm hrun) hfalse) (by simp)
  unfold setVIDT
  refine .bind h.run_getCurPartition ?_
  refine .bind hglobal ?_
  refine .bind (compareAddrToNull_run _ _) ?_
  refine .cond (fun _ => .pure rfl) fun _ => ?_
  refine .bind (compareAddrToNull_run _ _) ?_
  refine .cond (fun hnull => absurd (of_decide_eq_true hnull) hv) fun _ => ?_
  refine .bind (h.run_findBelonging_some hC.sep hb hrange) ?_
  refine .bind (compareAddrToNull_run _ _) ?_
  refine .cond (fun _ => .pure rfl) fun _ => ?_
  refine .bind (h.run_readPresent hb.1) ?_
  refine .cond (fun _ => .pure rfl) fun _ => ?_
  refine .bind (h.run_readAccessible hb.1) ?_
  refine .cond (fun _ => .pure rfl) fun _ => ?_
  refine .read rfl ?_
  refine .read rfl ?_
  refine .bind (h.run_readEnd hb) ?_
  refine .read rfl ?_
  refine .cond (fun _ => .pure rfl) fun _ => ?_
  refine .cond (fun _ => ?_) fun hfalse => absurd (by simp [beqAddr]) hfalse
  refine .bind (h.run_readPDChild hb.1) ?_
  refine .bind (compareAddrToNull_run _ _) ?_
  refine .cond (fun _ => .pure rfl) fun hnull => absurd ?_ hnull
  simpa using hne

theorem mayShare (h : Sim s C) (hC : C.Static) {idPDchild b f : Nat} {rest : List Nat} {r w x : Bool}
    (hchild : C.Has C.cur idPDchild) (hflag : (C.slot idPDchild).PDflag = true)
    (hshare : C.CanShare C.cur b (C.slot idPDchild).startAddr f rest r w x)
    (hvidt : (s.pdtables.get (C.slot idPDchild).startAddr).vidtAddr ≠ b) : s.MayShare idPDchild b r w x := by
  have hslot := h.slotOf_eq hchild.1
  have hslot' := h.slotOf_eq hshare.has.1
  have hcur := h.cur
  constructor
  case child => exact hcur ▸ (h.hasBlock_iff hC.cur_live).mpr hchild
  case flag => rw [hslot]; exact hflag
  case room =>
    rw [hslot, h.nbfreeslots _ hshare.live, hshare.free_eq]
    simp
  case vidt => rw [hslot]; exact hvidt
  case has => exact hcur ▸ (h.hasBlock_iff hC.cur_live).mpr hshare.has
  case accessible => rw [hslot']; exact hshare.accessible_eq
  case unshared => rw [hslot']; exact hshare.PDchild_eq
  case read => exact hshare.read_eq
  case write => rw [hslot']; exact hshare.write_le
  case exec => rw [hslot']; exact hshare.exec_le

/--
What a state is like after a call that spares the block of the VIDT.
-/
def VidtView (p v : Nat) (s : State) : Prop :=
  ∃ C : Conf, Sim s C ∧ C.Inv ∧ C.cur = p ∧ (v ≠ nullAddr → C.Unlent v)

theorem after_unlent (h : Sim s C) (hC : C.Inv) (hv : v ≠ nullAddr → C.Unlent v) {call : ServiceCall}
    (hcall : call.HandlesOwn C.cur) (hspares : s.SparesVidt v call) (hwhole : ¬s.FailsHalfway call)
    : VidtView C.cur (s.ownVidt v call) (s.after call) := by
  have hS := hC.static
  cases call with
  | cutMemoryBlock idBlockToCut cutAddr MPURegionNb =>
    rcases h.run_cutMemoryBlock_cases hC idBlockToCut cutAddr MPURegionNb with ⟨-, h'⟩ | ⟨rest, hsplit, -, h'⟩
    . exact ⟨C, h', hC, rfl, hv⟩
    . exact ⟨_, h', hC.step (.cut hsplit), rfl, fun hne => (hv hne).cut hsplit⟩
  | mergeMemoryBlocks idBlockToMerge1 idBlockToMerge2 MPURegionNb =>
    rcases h.run_mergeMemoryBlocks_cases hC idBlockToMerge1 idBlockToMerge2 MPURegionNb with
      ⟨-, h'⟩ | ⟨-, hjoin, hacc, h'⟩
    . exact ⟨C, h', hC, rfl, hv⟩
    . exact ⟨_, h', hC.step (.merge hjoin hacc), rfl, fun hne => (hv hne).merge hjoin⟩
  | addMemoryBlock idPDchild idBlockToShare r w x =>
    rcases h.run_addMemoryBlock_cases hC idPDchild idBlockToShare r w x with
      ⟨-, h'⟩ | ⟨c, rest, rfl, hchild, hflag, hshare, hvidt, h'⟩
    . exact ⟨C, h', hC, rfl, hv⟩
    . refine ⟨_, h', hC.step (.share hshare), rfl, fun hne => (hv hne).share ?_⟩
      have hnot := hspares hne (h.mayShare hS hchild hflag hshare hvidt)
      rw [h.slotOf_eq hshare.has.1] at hnot
      exact hnot
  | removeMemoryBlock idBlockToRemove =>
    rcases h.run_removeMemoryBlock_whole hC idBlockToRemove hwhole with hstate | ⟨s₁, D, -, -, hD, h'⟩
    . refine ⟨C, ?_, hC, rfl, hv⟩
      show Sim (removeMemoryBlock idBlockToRemove s).2 C
      rw [hstate]
      exact h
    . exact ⟨_, h', hD.inv_cleared hC, hD.cur_eq, fun hne => (hv hne).removed hD⟩
  | setVIDT pd vidtAddr =>
    refine ⟨C, Unseen.setVIDT _ _ s C h, hC, rfl, ?_⟩
    have hpd : pd = C.cur := hcall
    subst hpd
    have hset : s.ownVidt v (.setVIDT C.cur vidtAddr) = if (setVIDT C.cur vidtAddr s).1 then vidtAddr else v := rfl
    rw [hset]
    split
    . next hrun => exact fun hne => h.setVIDT_unlent hS hne hrun
    . exact hv
  | createPartition _ => exact absurd hcall id
  | prepare _ _ => exact absurd hcall id
  | deletePartition _ => exact absurd hcall id
  | collect _ => exact absurd hcall id
  | mapMPU _ _ _ => exact absurd hcall id
  | readMPU _ _ => exact absurd hcall id

end Sim

/--
As long as the partition does not share the block, the block of its own VIDT is not shared.
-/
theorem vidtUnshared_of_reachable {p : Nat} {t : State × Nat}
    (h : ((ServiceCall.ownVidtSystem p).restrict State.KeepsOwnVidt).Reachable t) : t.1.VidtUnshared p t.2 := by
  suffices hview : Sim.VidtView p t.2 t.1 by
    rcases hview with ⟨C, hsim, hC, rfl, hv⟩
    intro hne b hb hrange
    have hhas := (hsim.hasBlock_iff hC.static.cur_live).mp hb
    rw [hsim.slotOf_eq hhas.1] at hrange ⊢
    exact hv hne b hhas hrange
  induction h with
  | init hs =>
    rcases hs with ⟨s, hreach, hp, rfl⟩
    rcases ServiceCall.view_of_orderly hreach with ⟨C, hsim, hC⟩
    exact ⟨_, hsim.switch p, hC.step (.switch (hsim.live_of_partition hC.static hp)), rfl, fun hne => absurd rfl hne⟩
  | step _ hs ih =>
    rcases ih with ⟨C, hsim, hC, rfl, hv⟩
    rcases hs with ⟨⟨hspares, hwhole⟩, hcall, rfl⟩
    exact hsim.after_unlent hC hv hcall hspares (hsim.not_failsHalfway hC hwhole)

/--
The root sets its VIDT in its first block.
-/
def vidtSet : State × Nat := ((threeLevels.runBy 0x2000F000).after (.setVIDT 0x2000F000 0x20000400), 0x20000400)

/--
Then it shares the block with the child.
-/
def vidtShared : State × Nat := (vidtSet.1.after (.addMemoryBlock 0x2000F111 0x2000F100 true true false), vidtSet.2)

theorem vidtSet_eval
    : threeLevels.constantRootPartM = 0x2000F000
        ∧ (threeLevels.runBy 0x2000F000).ownVidt nullAddr (.setVIDT 0x2000F000 0x20000400) = 0x20000400 := by
  decide +kernel

theorem vidtSet_reachable
    : ((ServiceCall.ownVidtSystem 0x2000F000).restrict State.KeepsOwnVidt).Reachable vidtSet := by
  have hroot := State.Partition.root (s := threeLevels)
  rw [vidtSet_eval.1] at hroot
  refine .step (e := .setVIDT 0x2000F000 0x20000400) (.init ⟨threeLevels, threeLevels_orderly, hroot, rfl⟩)
    ⟨⟨trivial, trivial⟩, rfl, ?_⟩
  rw [vidtSet_eval.2]
  rfl

theorem vidtUnshared_vidtSet : vidtSet.1.VidtUnshared 0x2000F000 vidtSet.2 :=
  vidtUnshared_of_reachable vidtSet_reachable

theorem vidtShared_reachable : (ServiceCall.ownVidtSystem 0x2000F000).Reachable vidtShared :=
  .step (e := .addMemoryBlock 0x2000F111 0x2000F100 true true false) vidtSet_reachable.of_restrict ⟨trivial, rfl⟩

/--
The block of the VIDT is given to the child.
-/
theorem not_vidtUnshared
    : ¬∀ p t, (ServiceCall.ownVidtSystem p).Reachable t → t.1.VidtUnshared p t.2 := by
  intro hall
  have hblock : vidtShared.1.HasBlock 0x2000F000 0x2000F100 := by
    apply State.hasBlock_of_first <;> decide +kernel
  have hrange : (vidtShared.1.slotOf 0x2000F100).startAddr ≤ vidtShared.2
      ∧ vidtShared.2 < (vidtShared.1.slotOf 0x2000F100).endAddr := by
    decide +kernel
  have hne : vidtShared.2 ≠ nullAddr := by decide +kernel
  have hnull := hall _ _ vidtShared_reachable hne 0x2000F100 hblock (Set.mem_Ico.mpr hrange)
  exact absurd hnull (by decide +kernel)
