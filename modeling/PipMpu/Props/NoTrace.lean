import PipMpu.Props.Confinement
import PipMpu.Spec.Serving

/-!
This module contains why nothing is left of a child once it is deleted: whatever the child and its descendants have
called in the meantime, and whatever its parent has done for it, the kernel data is what it was before the child was
created.
-/

/--
The record of the block in which the child `c` was created, or of another one, as if the child had never been there.
-/
def Slot.without (b c a : Nat) (sl : Slot) : Slot := if a = b then sl.clearSh1 else sl.forget c

namespace Slot

variable {b c a : Nat} {sl sl' : Slot}

theorem without_self (b c : Nat) (sl : Slot) : sl.without b c b = sl.clearSh1 := if_pos rfl

theorem without_other (hab : a ≠ b) : sl.without b c a = sl.forget c := if_neg hab

theorem without_congr (h : (sl.forget c).SameRecord (sl'.forget c)) : (sl.without b c a).SameRecord (sl'.without b c a) := by
  by_cases hab : a = b
  . subst hab
    rw [without_self, without_self, ← clearSh1_forget c sl, ← clearSh1_forget c sl']
    exact h.clearSh1
  . rw [without_other hab, without_other hab]
    exact h

end Slot

namespace Conf

variable {C C₀ C₁ X : Conf} {p b r a : Nat}

/--
Before a child was created.
-/
theorem Inv.sameRecord_born (hC : C.Inv) (hadd : (C.access p b false).CanAddPartition p b) (ha : C.Owns r a)
    : (C.slot a).SameRecord ((((C.access p b false).addPartition p b).slot a).without b (C.slot b).startAddr a) := by
  have hS := hC.static
  have hrecord : ∀ x, (C.slot x).SameRecord ((C.access p b false).slot x) := by
    rw [access_eq]
    exact setAccessible.sameRecord C _ false
  by_cases hab : a = b
  . subst hab
    rw [Slot.without_self, CanAddPartition.slot_self]
    have hclear : (C.slot a).clearSh1 = C.slot a := by
      have hchild := (hrecord a).PDchild.symm.trans hadd.PDchild_eq
      have hhas : C.Has p a := by
        have hhas := hadd.has
        rw [access_eq, setAccessible.has] at hhas
        exact hhas
      exact Slot.clearSh1_eq hchild ((hrecord a).PDflag.symm.trans hadd.flag_eq) (hS.location_eq_zero hhas hchild)
    rw [← hclear]
    exact (hrecord a).clearSh1
  . rw [Slot.without_other hab, CanAddPartition.slot_other hab, Slot.forget_of_ne]
    . exact hrecord a
    . -- the new partition was none before, so nothing was given to it
      rw [(hrecord a).PDchild]
      intro hchild
      have hstart : ((C.access p b false).slot b).startAddr = (C.slot b).startAddr := (hrecord b).startAddr
      have hnot : ¬C.Live (C.slot b).startAddr := by
        rw [← hstart]
        have hnot := hadd.not_live
        rw [access_eq] at hnot ⊢
        exact hnot
      have hne : (C.slot b).startAddr ≠ 0 := by
        have hram := hadd.ram_le
        have hrampos : 0 < ramStart := by decide
        rw [hstart] at hram
        omega
      by_cases hpresent : (C.slot a).present = true
      . have hkind := hS.child_kind r a ⟨ha, hpresent⟩ (hchild.symm ▸ hne)
        rw [hchild] at hkind
        exact hnot hkind.1
      . rw [hS.free_empty r a ha (by simpa using hpresent)] at hchild
        exact hne hchild.symm

/--
After a child was deleted.
-/
theorem Static.sameRecord_released (hC : C.Static) (hb : C.Has C.cur b) (hdrop : C.CanDrop (C.slot b).startAddr)
    (ha : C.Owns r a)
    : ((C.slot a).without b (C.slot b).startAddr a).SameRecord
        (((C.dropTree (C.slot b).startAddr).reclaimAll C.cur (C.Releases b)).slot a) := by
  have hne := hC.live_ne_zero hdrop.live
  by_cases hmem : C.Releases b a
  . rw [reclaimAll.slot_of_mem hmem]
    rcases hmem with ⟨-, hchild⟩ | rfl
    . by_cases hab : a = b
      . rw [hab, Slot.without_self]
        exact .setAccessible _ true
      . rw [Slot.without_other hab, Slot.forget_of_eq hchild]
        exact .setAccessible _ true
    . rw [Slot.without_self]
      exact .setAccessible _ true
  . rw [Slot.without_other fun hab => hmem (.inr hab), Slot.forget_of_ne]
    . have hrecord := setAccessible.sameRecord ((C.dropTree (C.slot b).startAddr).clearAll (C.Releases b))
        (fun x => ∃ g, C.Releases b g ∧ (C.dropTree (C.slot b).startAddr).Reclaims C.cur g x) true a
      rw [clearAll_slot_of_notMem hmem] at hrecord
      exact hrecord
    . -- only its parent gives blocks to the child
      intro hchild
      by_cases hpresent : (C.slot a).present = true
      . have hkind := hC.child_kind r a ⟨ha, hpresent⟩ (hchild.symm ▸ hne)
        rw [hchild, ← hdrop.cur_eq] at hkind
        exact hmem (.inl ⟨hkind.2.1.symm ▸ ha, hchild⟩)
      . rw [hC.free_empty r a ha (by simpa using hpresent)] at hchild
        exact hne hchild.symm

/--
An entry of a structure lies at the address of no descriptor.
-/
theorem Static.ne_of_owns (hC : C.Static) (hr : C.Live r) (ha : C.Owns p a) : a ≠ r := by
  rintro rfl
  rcases ha with ⟨hp, k, hk, hak⟩
  have hmem := slotsOf_mem_structureRange hak
  have hpd : a ∈ pdRange a := ⟨Nat.le_refl _, by rw [sizeofPDTable_eq]; omega⟩
  by_cases hroot : a = C.root
  . rw [hroot] at hmem hpd
    rcases hC.structure_house p k hp hk with ⟨-, rfl⟩ | ⟨H, hH⟩
    . exact Set.disjoint_left.mp hC.root_disjoint hpd hmem
    . rcases hH.has with ⟨q, hq⟩
      exact Set.disjoint_left.mp (hC.root_disjoint_block hq).1 hpd (structureRange_subset hH hmem)
  . rcases hC.pd_house a hr hroot with ⟨D, hD, hflag, hstart, -⟩
    have hx : a ∈ (C.slot D).range := hstart ▸ hC.mem_range_start hD
    rcases hC.structure_house p k hp hk with ⟨-, rfl⟩ | ⟨H, hH⟩
    . exact Set.disjoint_left.mp (hC.root_disjoint_block hD).2 hmem hx
    . rcases hH.has with ⟨q, hq⟩
      have heq := (hC.eq_of_not_lent hD hq (hC.flag_kind _ D hD hflag).2.1 hH.inChild_eq hx
        (structureRange_subset hH hmem)).2
      rw [heq, hH.flag_eq] at hflag
      exact absurd hflag (by simp)

end Conf

namespace State

/--
The calls with which a partition serves the child whose descriptor lies in its block `b`.
-/
def Serves (s : State) (b : Nat) : ServiceCall → Prop
  | .prepare idPD _ | .setVIDT idPD _ => idPD = b
  | .collect idPD => idPD = b
  | .addMemoryBlock idPDchild _ _ _ _ => idPDchild = b
  | .removeMemoryBlock idBlockToRemove => (s.slotOf idBlockToRemove).PDchild = (s.slotOf b).startAddr
  | .mapMPU _ _ _ | .readMPU _ _ => True
  | _ => False

end State

/--
The view `C'` of the state after a call that concerns the partition `c` and those below it only.
-/
structure Conf.ServedFor (C : Conf) (c : Nat) (s' : State) (C' : Conf) : Prop where
  sim : Sim s' C'
  inv : C'.Inv
  settled : C'.Settled
  serves : C.Serves c C'

namespace Sim

variable {s s' : State} {C C' : Conf} {b c : Nat}

theorem servedFor (h : Sim s' C) (hC : C.Inv) (hset : C.Settled) (c : Nat) : C.ServedFor c s' C :=
  ⟨h, hC, hset, .refl C c⟩

theorem run_getGlobalIdPD_child (h : Sim s C) (hC : C.Static) (hb : C.Has C.cur b) (hflag : (C.slot b).PDflag = true)
    : getGlobalIdPDCurrentOrChild C.cur b s = ((C.slot b).startAddr, s) := by
  have hne := hC.ne_of_owns hC.cur_live hb.1
  unfold getGlobalIdPDCurrentOrChild getBeqAddr
  simp only [LLI.bind_run, LLI.pure_run, LLI.ite_run, beqAddr_eq, decide_eq_true_eq, if_neg hne,
    h.run_checkChild_of_has hC hb, hflag, if_true, h.run_readStart hb.1]

/--
A block was taken back from the partition that it was shared with.
-/
theorem Removed.serves {l : Nat} {v : Bool} {s₁ : State} {D : Conf} (hD : Removed C b l v s₁ D)
    (hchild : (C.slot b).PDchild ≠ 0) : C.Serves (C.slot b).PDchild (D.setSlot b (D.slot b).clearSh1) := by
  refine .of_tree_eq hD.root_eq hD.parent_eq hD.live_eq (fun r _ hr => ?_) fun r a ha hr => ?_
  . exact ⟨congrFun hD.structures_eq r, (hD.outside r hr).1⟩
  . have hrecord := hD.sameRecord ha hr
    by_cases hab : a = b
    . subst hab
      rw [Conf.setSlot_slot_self, Slot.forget_clearSh1 hchild, Slot.forget_of_eq rfl]
      exact hrecord.clearSh1
    . rw [Conf.setSlot_slot_of_ne _ _ hab]
      exact hrecord.forget

section

variable (h : Sim s C) (hC : C.Inv) (hset : C.Settled)

include h hC hset

theorem run_removeMemoryBlock_servedFor {a : Nat} (hchild : C.Has C.cur a → (C.slot a).PDchild = c)
    (hwhole : ¬s.FailsHalfway (.removeMemoryBlock a)) : ∃ C', C.ServedFor c (removeMemoryBlock a s).2 C' := by
  rcases h.run_removeMemoryBlock_whole hC a hwhole with hstate | ⟨s₁, D, ha, hne, hD, h'⟩
  . rw [hstate]
    exact ⟨C, h.servedFor hC hset _⟩
  . have hserves := hD.serves hne
    rw [hchild ha] at hserves
    exact ⟨_, h', hD.inv_cleared hC, hD.settled hset, hserves⟩

theorem run_addMemoryBlock_servedFor (a : Nat) (r w x : Bool)
    : LLI.Ensures (addMemoryBlock b a r w x) s fun _ s' => ∃ C', C.ServedFor (C.slot b).startAddr s' C' := by
  apply (h.run_addMemoryBlock_cases hC b a r w x).mono
  rintro v s' (⟨-, h'⟩ | ⟨c, rest, rfl, -, -, hcan, -, h'⟩)
  . exact ⟨C, h'.servedFor hC hset _⟩
  . exact ⟨_, h', hC.share hcan, hset.share hC.static hcan, .share hC.static hcan⟩

variable (hb : C.Has C.cur b) (hflag : (C.slot b).PDflag = true)

include hb hflag

theorem run_prepare_servedFor (a : Nat)
    : LLI.Ensures (prepare b a) s fun _ s' => ∃ C', C.ServedFor (C.slot b).startAddr s' C' := by
  have hkind := hC.static.flag_kind _ b hb hflag
  apply (h.run_prepare_cases hC b a).mono
  rintro v s' (⟨-, h'⟩ | ⟨-, t, hglobal, haccess, -, hlink, h'⟩)
  . exact ⟨C, h'.servedFor hC hset _⟩
  . rw [h.run_getGlobalIdPD_child hC.static hb hflag] at hglobal
    rw [← hglobal] at hlink h'
    have hserved := served_link hC hset haccess hlink h'
    have hne : (C.slot b).startAddr ≠ C.cur := by
      intro heq
      have hparent := hC.static.parent_ne hkind.2.2.1 hkind.2.2.2.2
      exact hparent (hkind.2.2.2.1.trans heq.symm)
    refine ⟨_, h', hserved.inv, hserved.settled, ?_⟩
    exact (Conf.Confined.access C _ C.cur a false).serves.trans (.link (hC.access haccess).static hlink hne)

theorem run_collect_servedFor (hown : s.CollectsOwn (.collect b))
    : ∃ C', C.ServedFor (C.slot b).startAddr (collect b s).2 C' := by
  have hS := hC.static
  have hkind := hS.flag_kind _ b hb hflag
  have hcases := h.run_collect_target hS b fun t hglobal ht => h.collectsOwn hS hown hglobal ht
  unfold LLI.Ensures at hcases
  rcases hcases with ⟨-, hstate⟩ | ⟨t, k, hglobal, hunlink, hhas, h'⟩
  . rw [hstate]
    exact ⟨C, h.servedFor hC hset _⟩
  . rw [h.run_getGlobalIdPD_child hS hb hflag, Prod.mk.injEq] at hglobal
    rw [← hglobal.1] at hunlink h'
    have hserved := served_giveBack hC hset hunlink hhas h'
    refine ⟨_, h', hserved.inv, hserved.settled, ?_⟩
    rw [hunlink.giveBack_eq hS hhas]
    refine (Conf.Serves.unlink hS hunlink ?_).trans (Conf.Confined.access _ _ _ _ true).serves
    rcases hunlink.houses.holder with ⟨hown', -⟩ | ⟨-, -, hchild⟩
    . -- the child has no blocks of its parent
      have heq := hS.has_unique hown' hhas
      exact absurd (hkind.2.2.2.1.trans heq.symm) (hS.parent_ne hkind.2.2.1 hkind.2.2.2.2)
    . exact hchild

/--
A call with which the partition that runs serves its child.
-/
theorem servedFor_call {call : ServiceCall} (hcall : s.Serves b call) (hwhole : s.TakesBackWhole call)
    (hown : s.CollectsOwn call) : ∃ C', C.ServedFor (C.slot b).startAddr (s.after call) C' := by
  have hunseen : ∀ s', Unseen s s' → ∃ C', C.ServedFor (C.slot b).startAddr s' C' := fun s' hs =>
    ⟨C, (hs C h).servedFor hC hset _⟩
  cases call with
  | prepare idPD idRequisitionedBlock =>
    cases hcall
    exact h.run_prepare_servedFor hC hset hb hflag idRequisitionedBlock
  | addMemoryBlock idPDchild idBlockToShare r w e =>
    cases hcall
    exact h.run_addMemoryBlock_servedFor hC hset idBlockToShare r w e
  | collect idPD =>
    cases hcall
    exact h.run_collect_servedFor hC hset hb hflag hown
  | removeMemoryBlock idBlockToRemove =>
    refine h.run_removeMemoryBlock_servedFor hC hset (fun ha => ?_) (h.not_failsHalfway hC hwhole)
    rw [← h.slotOf_eq hb.1, ← h.slotOf_eq ha.1]
    exact hcall
  | mapMPU idPD idBlockToEnable MPURegionNb => exact hunseen _ (Unseen.mapMPU _ _ _ s)
  | readMPU idPD MPURegionNb => exact hunseen _ (Unseen.readMPU _ _ s)
  | setVIDT pd vidtAddr => exact hunseen _ (Unseen.setVIDT _ _ s)
  | _ => exact absurd hcall id

omit hset in
/--
Such a call changes no descriptor but the one of the child.
-/
theorem untouched_call {call : ServiceCall} (hcall : s.Serves b call)
    : C.Untouched (· = (C.slot b).startAddr) s (s.after call) := by
  cases call with
  | setVIDT pd vidtAddr =>
    cases hcall
    have huntouched := h.run_setVIDT_untouched b vidtAddr
    rw [h.run_getGlobalIdPD_child hC.static hb hflag] at huntouched
    exact huntouched
  | deletePartition idPDchildToDelete => exact absurd hcall id
  | _ => exact ServiceCall.untouched_of_keepsOwners h hC _ trivial

end

end Sim

namespace ServiceCall

/--
The runs from this state on.
-/
def systemAt (s : State) : System State (Nat × ServiceCall) where
  init := (· = s)
  step := system.step

end ServiceCall

namespace State

/--
The child of `p` with the descriptor in `b` calls, or one below it, or `p` serves the child.
-/
def ConcernsChild (p b : Nat) (s : State) (event : Nat × ServiceCall) : Prop :=
  s.Orderly event ∧ (s.Below (s.slotOf b).startAddr event.1 ∨ event.1 = p ∧ s.Serves b event.2)

/--
The view `C` of a later state, in which the child of `p` has been served since the view `C₁` of the state `s₁`.
-/
structure ServedSince (s₁ : State) (C₁ : Conf) (p c : Nat) (s : State) (C : Conf) : Prop
    extends Conf.ServedFor C₁ c s C where
  owner : ∀ r, C₁.Live r → ¬C₁.Below c r → (s₁.pdtables.get r).SameOwner (s.pdtables.get r)
  bytes : ∀ x, x ∉ C₁.cover p → s.bytes.get x = s₁.bytes.get x

end State

theorem PDTable.SameOwner.trans {pdt pdt' pdt'' : PDTable} (h : pdt.SameOwner pdt') (h' : pdt'.SameOwner pdt'')
    : pdt.SameOwner pdt'' :=
  ⟨h'.1.trans h.1, h'.2.1.trans h.2.1, h'.2.2.trans h.2.2⟩

namespace Conf

variable {C C₁ : Conf} {p b c q : Nat}

theorem Below.path (h : C.Below q p) (hC : C.Static) : Relation.ReflTransGen hC.nest.Child q p := by
  induction h with
  | self => exact .refl
  | child hne _ ih => exact ih.tail ⟨hne, rfl⟩

/--
The blocks of a partition lie in blocks of those above it.
-/
theorem Static.cover_subset (hC : C.Static) (h : C.Below q p) : C.cover p ⊆ C.cover q := by
  rintro x ⟨a, ha, hx⟩
  exact hC.nest.holder_of_path (h.path hC) ha hx

theorem Static.below_child (hC : C.Static) (hb : C.Has p b) (hflag : (C.slot b).PDflag = true)
    : C.Below p (C.slot b).startAddr := by
  have hkind := hC.flag_kind p b hb hflag
  exact .of_parent hkind.2.2.2.1 hkind.2.2.2.2 .self

theorem Static.not_below_parent (hC : C.Static) (hb : C.Has p b) (hflag : (C.slot b).PDflag = true)
    : ¬C.Below (C.slot b).startAddr p := by
  intro hbelow
  have hkind := hC.flag_kind p b hb hflag
  have heq := (hC.below_child hb hflag).antisymm hbelow hC hkind.2.2.1
  exact hC.parent_ne hkind.2.2.1 hkind.2.2.2.2 (hkind.2.2.2.1.trans heq)

end Conf

namespace State.ServedSince

variable {s₁ s : State} {C₁ C : Conf} {p b : Nat}

/--
A call concerns a partition below `c`, or only `c` and what it was given.
-/
theorem next {c : Nat} {s' : State} {C' : Conf} {T : Nat → Prop} (h : ServedSince s₁ C₁ p c s C) {q : Nat}
    (hserved : C.ServedFor c s' C') (huntouched : (C.switch q).Untouched T (s.runBy q) s')
    (hT : ∀ r, T r → C.Below c r) (hcover : C.cover q ⊆ C₁.cover p)
    : ServedSince s₁ C₁ p c s' C' where
  sim := hserved.sim
  inv := hserved.inv
  settled := hserved.settled
  serves := h.serves.trans hserved.serves
  owner r hlive hr := by
    have hr' := (h.serves.tree r).mpr ⟨hlive, hr⟩
    exact (h.owner r hlive hr).trans (huntouched.owner r hr'.1 fun hTr => hr'.2 (hT r hTr))
  bytes x hx := (huntouched.bytes x fun hmem => hx (hcover hmem)).trans (h.bytes x hx)

theorem step {event : Nat × ServiceCall} (hC₁ : C₁.Static) (hb : C₁.Has p b) (hflag : (C₁.slot b).PDflag = true)
    (h : ServedSince s₁ C₁ p (C₁.slot b).startAddr s C) (hevent : s.ConcernsChild p b event)
    (hq : s.Partition event.1)
    : ∃ C', ServedSince s₁ C₁ p (C₁.slot b).startAddr ((s.runBy event.1).after event.2) C' := by
  rcases event with ⟨q, call⟩
  rcases hevent with ⟨⟨hwhole, hown⟩, hconcerns⟩
  have hS := h.inv.static
  have hkind := hC₁.flag_kind p b hb hflag
  have hnot := hC₁.not_below_parent hb hflag
  have hcover := h.serves.cover hb.live hnot
  rcases h.serves.descriptor hnot hb hflag (by
    rw [hkind.1]
    exact (hC₁.live_ne_zero hkind.2.2.1).symm) with ⟨hb', hflag', hstart', -⟩
  have hlive := h.sim.live_of_partition hS hq
  have hrun := h.sim.switch q
  have hswitch := h.inv.switch hlive
  rcases hconcerns with hbelow | ⟨rfl, hcall⟩
  . have hclive := (hS.flag_kind p b hb' hflag').2.2.1
    rw [h.sim.slotOf_eq hb'.1, h.sim.below_iff hS hclive hlive, hstart'] at hbelow
    rcases ServiceCall.served hrun hswitch h.settled call hwhole hown with ⟨C', hserved⟩
    have hconfined := (Conf.Confined.switch C q q).trans hserved.confined
    refine ⟨C', h.next ⟨hserved.sim, hserved.inv, hserved.settled, (hconfined.widen hS hlive hbelow).serves⟩
      (ServiceCall.untouched hrun hswitch call) (fun r hr => ?_) ?_⟩
    . exact hbelow.trans ((@Conf.below_congr C (C.switch q) rfl rfl q r).mp hr)
    . rw [← hcover]
      refine hS.cover_subset (Conf.Below.trans ?_ hbelow)
      rw [← hstart']
      exact hS.below_child hb' hflag'
  . rcases hrun.servedFor_call hswitch h.settled hb' hflag' hcall hwhole hown with ⟨C', hserved⟩
    have hserves := (Conf.Confined.switch C (C₁.slot b).startAddr q).serves
    have hstart : ((C.switch q).slot b).startAddr = (C₁.slot b).startAddr := hstart'
    have huntouched := hrun.untouched_call hswitch hb' hflag' hcall
    rw [hstart] at hserved huntouched
    refine ⟨C', h.next ⟨hserved.sim, hserved.inv, hserved.settled, hserves.trans hserved.serves⟩ huntouched
      (fun r hr => ?_) hcover.subset⟩
    rw [hr]
    exact .self

end State.ServedSince

namespace Conf

variable {C₀ C X : Conf} {b : Nat}

theorem born_bounds (C : Conf) (p b : Nat)
    : (((C.access p b false).addPartition p b).slot b).startAddr = (C.slot b).startAddr
        ∧ (((C.access p b false).addPartition p b).slot b).endAddr = (C.slot b).endAddr := by
  rw [CanAddPartition.slot_self, access_eq]
  exact ⟨setAccessible.startAddr .., setAccessible.endAddr ..⟩

theorem CanAddPartition.born_cover {p : Nat} (h : (C.access p b false).CanAddPartition p b)
    : ((C.access p b false).addPartition p b).cover p = C.cover p := by
  have hcover : (C.access p b false).cover p = C.cover p := by
    rw [access_eq, setAccessible.cover]
  rw [← hcover]
  apply cover_congr (h.has_iff p)
  intro a _
  by_cases hab : a = b
  . rw [hab, slot_self]
    rfl
  . rw [slot_other hab]

/--
The view after the child was deleted agrees with the one before it was created.
-/
theorem Inv.agree_released (h₀ : C₀.Inv) (hset₀ : C₀.Settled) (hcan : C₀.CanAccess C₀.cur b false)
    (hadd : (C₀.access C₀.cur b false).CanAddPartition C₀.cur b)
    (hserves : ((C₀.access C₀.cur b false).addPartition C₀.cur b).Serves (C₀.slot b).startAddr C)
    (hC : C.Static) (hcur : C.cur = C₀.cur) (hb : C.Has C.cur b) (hstart : (C.slot b).startAddr = (C₀.slot b).startAddr)
    (hdrop : C.CanDrop (C.slot b).startAddr)
    (hview : X = (C.dropTree (C.slot b).startAddr).reclaimAll C.cur (C.Releases b))
    (hnone : ∀ q x, X.Owns q x → ¬(X.slot x).GivenTo (C.slot b).startAddr)
    (hX : (X.clearGiven (C.slot b).startAddr).Inv) (hset : (X.clearGiven (C.slot b).startAddr).Settled)
    : (X.clearGiven (C.slot b).startAddr).Agree C₀ := by
  have hE := (h₀.access hcan).static
  have hstartE : ((C₀.access C₀.cur b false).slot b).startAddr = (C.slot b).startAddr := by
    rw [access_eq, setAccessible.startAddr, hstart]
  have hborn := (Confined.access C₀ (C.slot b).startAddr C₀.cur b false).toKeepsOutside.trans
    (hstartE ▸ KeepsOutside.addPartition hE hadd)
  rw [← hstart] at hserves
  have hlive : ∀ r, (X.clearGiven (C.slot b).startAddr).Live r ↔ C.Live r ∧ ¬C.Below (C.slot b).startAddr r := by
    rw [hview]
    exact fun _ => Iff.rfl
  have hdropped : C.KeepsOutside (C.slot b).startAddr (X.clearGiven (C.slot b).startAddr) := by
    refine .dropTree ?_ ?_ ?_ ?_ hlive <;> rw [hview] <;> rfl
  have hkeeps := hborn.trans (hserves.toKeepsOutside.trans hdropped)
  have hnot : ∀ {r}, C₀.Live r → ¬C₀.Below (C.slot b).startAddr r := by
    intro r hr hbelow
    have hnotlive := hadd.not_live
    rw [hstartE, access_eq] at hnotlive
    exact hnotlive (hbelow.live h₀.static hr)
  have hlive₀ : ∀ r, (X.clearGiven (C.slot b).startAddr).Live r ↔ C₀.Live r := by
    intro r
    rw [hlive r, ← hdropped.tree r, hkeeps.tree r]
    exact ⟨fun hr => hr.1, fun hr => ⟨hr, hnot hr⟩⟩
  have hrecords : C₀.SameRecords (X.clearGiven (C.slot b).startAddr) C₀.Live := by
    constructor
    case root => exact hkeeps.root
    case live => exact fun r hr => ⟨hr, (hlive₀ r).mpr hr⟩
    case structures => exact fun r hr => hkeeps.structures r hr (hnot hr)
    case child =>
      intro r a _ ha hlent
      exact (h₀.static.child_kind r a ha (h₀.static.location_kind r a ha hlent).1).1
    case slot =>
      intro r a hr ha
      have hown₁ := hborn.owns ha (hnot hr)
      have hnot₁ := ((hborn.tree r).mpr ⟨hr, hnot hr⟩).2
      have hown : X.Owns r a := hkeeps.owns ha (hnot hr)
      rw [clearGiven_slot_of_not (hnone r a hown), hview]
      refine .trans ?_ (hC.sameRecord_released hb hdrop (hserves.owns hown₁ hnot₁))
      rw [hstart]
      refine (h₀.sameRecord_born hadd ha).trans (Slot.without_congr ?_)
      rw [← hstart]
      exact hserves.slot r a hown₁ hnot₁
  constructor
  case cur =>
    rw [hview]
    exact hcur.symm
  case root => exact hkeeps.root.symm
  case live => exact funext fun r => propext (hlive₀ r).symm
  case parent =>
    intro r hr _
    have hr := (hlive₀ r).mp hr
    exact (hkeeps.parent r hr (hnot hr)).symm
  case structures =>
    intro r hr
    have hr := (hlive₀ r).mp hr
    exact (hkeeps.structures r hr (hnot hr)).symm
  case free =>
    intro r hr
    have hr := (hlive₀ r).mp hr
    exact (hkeeps.free r hr (hnot hr)).symm
  case slot =>
    rintro r a ⟨hr, k, hk, hak⟩
    have hr := (hlive₀ r).mp hr
    rw [hkeeps.structures r hr (hnot hr)] at hk
    exact (hrecords.slot_eq h₀ hset₀ hX hset hr ⟨hr, k, hk, hak⟩).symm

end Conf

namespace State.ServedSince

variable {s₁ s : State} {C₁ C : Conf} {p b c : Nat}

theorem start (h : Sim s₁ C₁) (hC : C₁.Inv) (hset : C₁.Settled) : ServedSince s₁ C₁ p c s₁ C₁ where
  toServedFor := h.servedFor hC hset c
  owner _ _ _ := ⟨rfl, rfl, rfl⟩
  bytes _ _ := rfl

theorem run (h : Sim s₁ C₁) (hC : C₁.Inv) (hset : C₁.Settled) (hb : C₁.Has p b) (hflag : (C₁.slot b).PDflag = true)
    (hrun : ((ServiceCall.systemAt s₁).restrict (State.ConcernsChild p b)).Reachable s)
    : ∃ C, ServedSince s₁ C₁ p (C₁.slot b).startAddr s C := by
  induction hrun with
  | init hs =>
    cases hs
    exact ⟨C₁, start h hC hset⟩
  | step _ hs ih =>
    rcases hs with ⟨hevent, hq, rfl⟩
    rcases ih with ⟨C, hserved⟩
    exact hserved.step hC.static hb hflag hevent hq

end State.ServedSince

/--
The child is deleted after any calls that concern it only.
-/
theorem Sim.deletePartition_undoes {s s₂ : State} {C : Conf} (h : Sim s C) (hC : C.Inv) (hset : C.Settled) {b : Nat}
    (hcreate : (createPartition b s).1 = true)
    (hrun : ((ServiceCall.systemAt (createPartition b s).2).restrict (State.ConcernsChild C.cur b)).Reachable s₂)
    : let deleted := deletePartition b (s₂.runBy C.cur)
      deleted.1 = true ∧ s.SameKernelData deleted.2
        ∧ ∀ x, x ∉ C.cover C.cur → deleted.2.bytes.get x = s.bytes.get x := by
  have hS := hC.static
  have hcases := h.run_createPartition_cases hC b
  unfold LLI.Ensures at hcases
  rcases hcases with ⟨hfalse, -⟩ | ⟨-, haccess, hacc, hadd, h₁⟩
  . rw [hcreate] at hfalse
    exact absurd hfalse (by simp)
  have hborn := Sim.served_addPartition hC hset haccess hadd h₁
  have hcreated := h.run_createPartition_untouched hC (fun _ => False) b
  generalize (createPartition b s).2 = s₁ at h₁ hrun hcreated hborn
  have hS₁ := hborn.inv.static
  have hb₁ := (hadd.has_iff C.cur b).mpr hadd.has
  have hflag₁ : (((C.access C.cur b false).addPartition C.cur b).slot b).PDflag = true := by
    rw [Conf.CanAddPartition.slot_self]
  have hbounds₁ := C.born_bounds C.cur b
  have hnot₁ := hS₁.not_below_parent hb₁ hflag₁
  have hkind₁ := hS₁.flag_kind _ b hb₁ hflag₁
  rcases State.ServedSince.run h₁ hborn.inv hborn.settled hb₁ hflag₁ hrun with ⟨D, hD⟩
  rcases hD.serves.descriptor hnot₁ hb₁ hflag₁ (by
    rw [hkind₁.1]
    exact (hS₁.live_ne_zero hkind₁.2.2.1).symm) with ⟨hb₂, hflag₂, hstart₂, hend₂⟩
  have h₂ := hD.sim.switch C.cur
  have hD₂ := hD.inv.switch hb₂.live
  have hdeleted := h₂.run_deletePartition_untouched hD₂ b
  have hcases := h₂.run_deletePartition_released hD₂ b
  unfold LLI.Ensures at hcases
  rcases hcases with ⟨-, -, hno⟩ | ⟨htrue, -, -, hdrop, hpd, X, hview, hX, h₃⟩
  . exact absurd ⟨hb₂, hflag₂⟩ hno
  have hreleased := Sim.served_release hD₂ hD.settled hb₂ hdrop hview hX h₃
  have hserves := hD.serves.trans (Conf.Confined.switch D _ C.cur).serves
  have hcover₂ := hD.serves.cover hb₁.live hnot₁
  rw [hadd.born_cover] at hcover₂
  rw [hbounds₁.1] at hserves hstart₂ hnot₁
  rw [hbounds₁.2] at hend₂
  have hagree := hC.agree_released hset haccess hadd hserves hD₂.static rfl hb₂ hstart₂ hdrop hview
    (Sim.noneGiven_of_released hD₂.static hb₂ hdrop hview hX) hreleased.inv hreleased.settled
  refine ⟨htrue, h.sameKernelData (hreleased.sim.congr hagree) hS fun q hq => ?_, fun x hx => ?_⟩
  . have hq := h.live_of_partition hS hq
    have hclear := (hC.clear haccess.has hacc).pd q hq
    have hrange : ((D.switch C.cur).slot b).range = (C.slot b).range := by
      show Set.Ico (D.slot b).startAddr (D.slot b).endAddr = _
      rw [hstart₂, hend₂]
      rfl
    rw [hpd q (hrange ▸ hclear)]
    have hqE : (C.access C.cur b false).Live q := by rwa [Conf.access_eq]
    refine (hcreated.owner q hq id).trans (hD.owner q (.inr hqE) ?_)
    rw [Conf.CanAddPartition.slot_self]
    exact hadd.not_below (hC.access haccess).static hqE
  . have hdeleted : _ = (s₂.runBy C.cur).bytes.get x := hdeleted.bytes x (hcover₂ ▸ hx)
    rw [hdeleted]
    exact (hD.bytes x (hadd.born_cover.symm ▸ hx)).trans (hcreated.bytes x hx)

/--
In every state of a run, for every child that the partition that runs creates: whatever calls concern only the child
until it is deleted, in any number and order, the kernel data is the one from before, and so is the memory outside of
the blocks of the partition.
-/
theorem deletePartition_undoes_child {s s₂ : State} {p b : Nat}
    (h : (ServiceCall.system.restrict State.Orderly).Reachable s) (hp : s.Partition p)
    (hcreate : (createPartition b (s.runBy p)).1 = true)
    (hrun : ((ServiceCall.systemAt (createPartition b (s.runBy p)).2).restrict (State.ConcernsChild p b)).Reachable s₂)
    : let deleted := deletePartition b (s₂.runBy p)
      deleted.1 = true ∧ (s.runBy p).SameKernelData deleted.2
        ∧ ∀ x, ¬s.Holds p x → deleted.2.bytes.get x = s.bytes.get x := by
  rcases ServiceCall.settledView_of_orderly h with ⟨C, hsim, hC, hset⟩
  have hlive := hsim.live_of_partition hC.static hp
  rcases (hsim.switch p).deletePartition_undoes (hC.switch hlive) hset hcreate hrun with ⟨htrue, hsame, hbytes⟩
  refine ⟨htrue, hsame, fun x hx => hbytes x ?_⟩
  rwa [hsim.holds_iff hlive] at hx

/--
The root has cut the block for the child and one for its structure.
-/
def beforeChild : State :=
  (State.booted.replay
    [
      ([], .cutMemoryBlock 0x2000F111 0x20009000 8),
      ([], .cutMemoryBlock 0x2000F133 0x2000A000 8)
    ]).getD State.booted

def childCreated : State := (createPartition 0x2000F111 (beforeChild.runBy 0x2000F000)).2

def childPrepared : State := (childCreated.runBy 0x2000F000).after (.prepare 0x2000F111 0x2000F133)

def childShared : State := (childPrepared.runBy 0x2000F000).after (.addMemoryBlock 0x2000F111 0x2000F144 true true false)

def childRan : State := (childShared.runBy 0x20008000).after (.cutMemoryBlock 0x20009000 0x2000B000 8)

/--
The child gets a structure and a block, which it cuts.
-/
theorem childRan_concerns
    : ((ServiceCall.systemAt childCreated).restrict (State.ConcernsChild 0x2000F000 0x2000F111)).Reachable childRan := by
  have hroot : ∀ s : State, s.constantRootPartM = 0x2000F000 → s.Partition 0x2000F000 := by
    intro s hs
    rw [← hs]
    exact .root
  have hstep := fun s q call hs (hq : s.Partition q) (hcall : State.ConcernsChild 0x2000F000 0x2000F111 s (q, call)) =>
    System.Reachable.step (S := (ServiceCall.systemAt childCreated).restrict (State.ConcernsChild 0x2000F000 0x2000F111))
      (e := (q, call)) hs ⟨hcall, hq, rfl⟩
  have hprepared := hstep childCreated 0x2000F000 (.prepare 0x2000F111 0x2000F133) (.init rfl)
    (hroot _ (by decide +kernel)) ⟨⟨trivial, trivial⟩, .inr ⟨rfl, rfl⟩⟩
  have hshared := hstep childPrepared 0x2000F000 (.addMemoryBlock 0x2000F111 0x2000F144 true true false) hprepared
    (hroot _ (by decide +kernel)) ⟨⟨trivial, trivial⟩, .inr ⟨rfl, rfl⟩⟩
  have hpath : childShared.follow childShared.constantRootPartM [0x2000F111] = some 0x20008000 := by
    decide +kernel
  have hchild : (childShared.slotOf 0x2000F111).startAddr = 0x20008000 := by
    decide +kernel
  refine hstep childShared 0x20008000 (.cutMemoryBlock 0x20009000 0x2000B000 8) hshared
    (State.partition_of_follow .root hpath) ⟨⟨trivial, trivial⟩, .inl ?_⟩
  rw [hchild]
  exact .self

theorem deletePartition_undoes_childRan
    : let deleted := deletePartition 0x2000F111 (childRan.runBy 0x2000F000)
      deleted.1 = true ∧ (beforeChild.runBy 0x2000F000).SameKernelData deleted.2
        ∧ ∀ x, ¬beforeChild.Holds 0x2000F000 x → deleted.2.bytes.get x = beforeChild.bytes.get x := by
  have hreachable : (ServiceCall.system.restrict State.Orderly).Reachable beforeChild :=
    ServiceCall.reachable_of_isSome ServiceCall.reachable_booted (fun event hevent _ _ _ => by
      simp only [List.mem_cons, List.not_mem_nil, or_false] at hevent
      rcases hevent with rfl | rfl <;> exact ⟨trivial, trivial⟩) (by decide +kernel)
  have hroot : beforeChild.Partition 0x2000F000 := by
    have hconstant : beforeChild.constantRootPartM = 0x2000F000 := by decide +kernel
    rw [← hconstant]
    exact .root
  exact deletePartition_undoes_child hreachable hroot (by decide +kernel) childRan_concerns
