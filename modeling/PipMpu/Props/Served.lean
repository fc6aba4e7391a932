import PipMpu.Props.AllServices
import PipMpu.Spec.Confined

/-!
This module contains what a call of a service does to the view: it leads to a view that meets the invariant, in which no
block is inaccessible without a reason, and it leaves everything outside of the subtree of the caller alone.
-/

/--
The view `C'` of the state after a call of the partition that runs in the view `C`.
-/
structure Conf.ServedBy (C : Conf) (s' : State) (C' : Conf) : Prop where
  sim : Sim s' C'
  cur : C'.cur = C.cur
  inv : C'.Inv
  settled : C'.Settled
  confined : C.Confined C.cur C'

def Conf.Served (C : Conf) (s' : State) : Prop := ∃ C', C.ServedBy s' C'

namespace Conf.Move

variable {C C' : Conf}

theorem cur_eq (h : C.Move C') : C'.cur = C.cur := by
  cases h with
  | access _ =>
    rw [access_eq]
    rfl
  | _ => rfl

theorem cur_eq_of_moves (h : Relation.ReflTransGen Conf.Move C C') : C'.cur = C.cur := by
  induction h with
  | refl => rfl
  | tail _ hmove ih => exact hmove.cur_eq.trans ih

end Conf.Move

namespace Sim

variable {s s' : State} {C : Conf}

theorem servedBy (h : Sim s' C) (hC : C.Inv) (hset : C.Settled) : C.ServedBy s' C := ⟨h, rfl, hC, hset, .refl C C.cur⟩

theorem served (h : Sim s' C) (hC : C.Inv) (hset : C.Settled) : C.Served s' := ⟨C, h.servedBy hC hset⟩

theorem served_addPartition {b : Nat} (hC : C.Inv) (hset : C.Settled) (haccess : C.CanAccess C.cur b false)
    (hadd : (C.access C.cur b false).CanAddPartition C.cur b)
    (h' : Sim s' ((C.access C.cur b false).addPartition C.cur b))
    : C.ServedBy s' ((C.access C.cur b false).addPartition C.cur b) where
  sim := h'
  cur := by
    rw [Conf.access_eq]
    rfl
  inv := (hC.access haccess).addPartition hadd
  settled := hset.create hC.static haccess.has hadd
  confined := by
    have hE := (hC.access haccess).static
    have hlive : (C.access C.cur b false).Live C.cur := hadd.has.live
    exact (Conf.Confined.access C _ _ b false).trans (.addPartition hE hadd .self hlive)

theorem run_createPartition_served (h : Sim s C) (hC : C.Inv) (hset : C.Settled) (a : Nat)
    : LLI.Ensures (createPartition a) s fun _ => C.Served := by
  apply (h.run_createPartition_cases hC a).mono
  rintro v s' (⟨-, h'⟩ | ⟨-, haccess, -, hadd, h'⟩)
  . exact h'.served hC hset
  . exact ⟨_, served_addPartition hC hset haccess hadd h'⟩

theorem run_cutMemoryBlock_served (h : Sim s C) (hC : C.Inv) (hset : C.Settled) (a cutAddr region : Nat)
    : LLI.Ensures (cutMemoryBlock a cutAddr region) s fun _ => C.Served := by
  apply (h.run_cutMemoryBlock_cases hC a cutAddr region).mono
  rintro v s' (⟨-, h'⟩ | ⟨rest, hcan, -, h'⟩)
  . exact h'.served hC hset
  . exact ⟨_, h', rfl, hC.cut hcan, hset.cut hC.static hcan, .cut hC.static hcan .self⟩

theorem run_mergeMemoryBlocks_served (h : Sim s C) (hC : C.Inv) (hset : C.Settled) (a₁ a₂ region : Nat)
    : LLI.Ensures (mergeMemoryBlocks a₁ a₂ region) s fun _ => C.Served := by
  apply (h.run_mergeMemoryBlocks_cases hC a₁ a₂ region).mono
  rintro v s' (⟨-, h'⟩ | ⟨-, hcan, hacc, h'⟩)
  . exact h'.served hC hset
  . exact ⟨_, h', rfl, hC.merge hcan hacc, hset.merge hC.static hcan, .merge hC.static hcan .self⟩

theorem served_link {t b : Nat} (hC : C.Inv) (hset : C.Settled) (haccess : C.CanAccess C.cur b false)
    (hlink : (C.access C.cur b false).CanLink t C.cur b) (h' : Sim s' ((C.access C.cur b false).link t C.cur b))
    : C.ServedBy s' ((C.access C.cur b false).link t C.cur b) where
  sim := h'
  cur := by
    rw [Conf.access_eq]
    rfl
  inv := (hC.access haccess).link hlink
  settled := hset.prepare hC haccess hlink
  confined := (Conf.Confined.access C _ _ b false).trans (.link (hC.access haccess).static hlink .self)

theorem run_prepare_served (h : Sim s C) (hC : C.Inv) (hset : C.Settled) (idPD a : Nat)
    : LLI.Ensures (prepare idPD a) s fun _ => C.Served := by
  apply (h.run_prepare_cases hC idPD a).mono
  rintro v s' (⟨-, h'⟩ | ⟨-, t, -, haccess, -, hlink, h'⟩)
  . exact h'.served hC hset
  . exact ⟨_, served_link hC hset haccess hlink h'⟩

theorem run_addMemoryBlock_served (h : Sim s C) (hC : C.Inv) (hset : C.Settled) (idPDchild a : Nat) (r w x : Bool)
    : LLI.Ensures (addMemoryBlock idPDchild a r w x) s fun _ => C.Served := by
  apply (h.run_addMemoryBlock_cases hC idPDchild a r w x).mono
  rintro v s' (⟨-, h'⟩ | ⟨c, rest, -, -, -, hcan, -, h'⟩)
  . exact h'.served hC hset
  . exact ⟨_, h', rfl, hC.share hcan, hset.share hC.static hcan, .share hC.static hcan .self⟩

namespace Removed

variable {b l : Nat} {v : Bool} {D : Conf}

/--
The slots of a block that was taken back are free, the other blocks are at least as accessible as before.
-/
theorem settled (hD : Removed C b l v s' D) (hC : C.Settled) : (D.setSlot b (D.slot b).clearSh1).Settled := by
  intro q a ha _ hchild hflag hmem
  by_cases hab : a = b
  . rw [hab, Conf.setSlot_slot_self]
    exact hD.accessible
  . have hpresent := ha.2
    have hlive : C.Has q a := by
      refine ⟨(hD.owns q a).mp ha.1, ?_⟩
      rw [Conf.setSlot_slot_of_ne _ _ hab] at hpresent
      exact (hD.present a hpresent).1
    rw [Conf.setSlot_slot_of_ne _ _ hab] at hpresent hchild hflag hmem ⊢
    have hmem : (D.slot a).startAddr ∉ C.structures q := hD.structures_eq ▸ hmem
    rcases hD.kept a hpresent with heq | heq
    . rw [heq] at hchild hflag hmem ⊢
      exact hC.cover hlive hchild hflag hmem
    . rw [heq]

theorem cur_eq (hD : Removed C b l v s' D) : D.cur = C.cur := by
  have hcleared := Conf.Move.cur_eq_of_moves hD.steps
  exact hcleared

theorem sameRecord (hD : Removed C b l v s' D) {r a : Nat} (ha : C.Owns r a) (hr : ¬C.Below (C.slot b).PDchild r)
    : (C.slot a).SameRecord (D.slot a) := by
  rcases (hD.outside r hr).2 a ha with heq | heq
  . rw [heq]
    exact .refl _
  . rw [heq]
    exact .setAccessible _ _

theorem canDrop (hD : Removed C b l v s' D) (hC : C.Static) (hchild : (C.slot b).PDchild ≠ 0)
    : C.Has C.cur b ∧ C.CanDrop (C.slot b).PDchild := by
  have hb : C.Has C.cur b := ⟨(hD.owns _ b).mp hD.has.1, (hD.present b hD.has.2).1⟩
  have hkind := hC.child_kind _ b hb hchild
  exact ⟨hb, hkind.1, hkind.2.2.1, hkind.2.1.symm⟩

theorem confined (hD : Removed C b l v s' D) (hC : C.Static) (hchild : (C.slot b).PDchild ≠ 0)
    : C.Confined C.cur (D.setSlot b (D.slot b).clearSh1) := by
  rcases hD.canDrop hC hchild with ⟨hb, hdrop⟩
  have hbelow : C.Below C.cur (C.slot b).PDchild := .of_parent hdrop.cur_eq.symm hdrop.ne_root .self
  have hout : ∀ r, ¬C.Below C.cur r → ¬C.Below (C.slot b).PDchild r := fun r hr h => hr (hbelow.trans h)
  refine .of_tree_eq hD.root_eq hD.parent_eq hD.live_eq (fun r _ hr => ?_) fun r a ha hr => ?_
  . exact ⟨congrFun hD.structures_eq r, (hD.outside r (hout r hr)).1⟩
  . rw [Conf.setSlot_slot_of_ne _ _ (Conf.Confined.ne_of_owns hC hb.1 .self ha hr)]
    exact hD.sameRecord ha (hout r hr)

end Removed

/--
A removal that does not fail half-way changes nothing or takes the whole block back.
-/
theorem run_removeMemoryBlock_whole (h : Sim s C) (hC : C.Inv) (a : Nat)
    (hwhole : ¬s.FailsHalfway (.removeMemoryBlock a))
    : (removeMemoryBlock a s).2 = s ∨ ∃ s₁ D, C.Has C.cur a ∧ (C.slot a).PDchild ≠ 0
        ∧ Removed C a (C.slot a).inChildLocation true s₁ D
        ∧ Sim (removeMemoryBlock a s).2 (D.setSlot a (D.slot a).clearSh1) := by
  by_cases hshared : C.Has C.cur a ∧ (C.slot a).PDchild ≠ 0 ∧ (C.slot a).inChildLocation ≠ 0
  . rcases hshared with ⟨ha, hchild, hlocation⟩
    have hl := (hC.static.location_kind _ a ha hlocation).2.1
    have hcases := h.run_removeMemoryBlock_shared hC ha hchild hlocation
    unfold LLI.Ensures at hcases
    rcases hcases with ⟨-, hstate, -⟩ | ⟨-, -, s₁, D, hD, h'⟩ | ⟨hfalse, -, -, D, hD⟩
    . exact .inl hstate
    . exact .inr ⟨s₁, D, ha, hchild, hD, h'⟩
    . refine absurd ⟨hfalse, (C.slot a).inChildLocation, ?_, ?_⟩ hwhole
      . rw [h.present_eq hl.1]
        exact hl.2
      . rw [hD.sim.present_eq ((hD.owns _ _).mpr hl.1)]
        exact hD.freed
  . left
    rw [h.run_removeMemoryBlock_unshared hC a fun ha => by
      by_contra hne
      exact hshared ⟨ha, (not_or.mp hne).1, (not_or.mp hne).2⟩]

theorem run_removeMemoryBlock_served (h : Sim s C) (hC : C.Inv) (hset : C.Settled) (a : Nat)
    (hwhole : ¬s.FailsHalfway (.removeMemoryBlock a)) : C.Served (removeMemoryBlock a s).2 := by
  rcases h.run_removeMemoryBlock_whole hC a hwhole with hstate | ⟨s₁, D, -, hchild, hD, h'⟩
  . rw [hstate]
    exact h.served hC hset
  . exact ⟨_, h', hD.cur_eq, hD.inv_cleared hC, hD.settled hset, hD.confined hC.static hchild⟩

/--
No record of a deleted child is left.
-/
theorem noneGiven_of_released {a : Nat} {X : Conf} (hC : C.Static) (ha : C.Has C.cur a)
    (hdrop : C.CanDrop (C.slot a).startAddr)
    (hview : X = (C.dropTree (C.slot a).startAddr).reclaimAll C.cur (C.Releases a))
    (hX : C.Reclaiming (C.slot a).startAddr X) (q x : Nat) (hx : X.Owns q x)
    : ¬(X.slot x).GivenTo (C.slot a).startAddr := by
  intro hgiven
  have hown := ((hX.owns_iff q x).mp hx).1
  rcases hC.has_of_given (hC.live_ne_zero hdrop.live) hown (hX.given x hgiven) with ⟨hhas, hparent⟩
  rw [← hparent, ← hdrop.cur_eq] at hhas
  exact notGiven_of_released hC ha hdrop hX hview hhas hgiven

/--
The view after a child was deleted and its blocks were taken back.
-/
theorem served_release {a : Nat} {X : Conf} (hC : C.Inv) (hset : C.Settled) (ha : C.Has C.cur a)
    (hdrop : C.CanDrop (C.slot a).startAddr)
    (hview : X = (C.dropTree (C.slot a).startAddr).reclaimAll C.cur (C.Releases a))
    (hX : C.Reclaiming (C.slot a).startAddr X) (h' : Sim s' X)
    : C.ServedBy s' (X.clearGiven (C.slot a).startAddr) := by
  have hS := hC.static
  have hnone := noneGiven_of_released hS ha hdrop hview hX
  constructor
  case sim => exact h'.clearGiven_of_reclaiming hS hdrop hX fun x hx => notGiven_of_released hS ha hdrop hX hview hx
  case cur =>
    rw [hview]
    rfl
  case inv => exact hC.steps (Conf.Move.steps hX.steps)
  case settled =>
    refine Conf.Settled.clearGiven ?_ fun q x hx => hnone q x hx.1
    rw [hview]
    exact hset.reclaimAll _ _
  case confined =>
    have hconfined : C.Confined C.cur X := by
      rw [hview]
      refine .reclaimAll hS hdrop .self ?_
      rintro x (⟨hx, -⟩ | rfl)
      . exact hx
      . exact ha.1
    refine hconfined.trans (.of_tree_eq rfl rfl rfl (fun _ _ _ => ⟨rfl, rfl⟩) fun r x hx _ => ?_)
    rw [Conf.clearGiven_slot_of_not (hnone r x hx)]
    exact .refl _

theorem run_deletePartition_served (h : Sim s C) (hC : C.Inv) (hset : C.Settled) (a : Nat)
    : LLI.Ensures (deletePartition a) s fun _ => C.Served := by
  apply (h.run_deletePartition_released hC a).mono
  rintro v s' (⟨-, rfl, -⟩ | ⟨-, ha, -, hdrop, -, X, hview, hX, h'⟩)
  . exact h.served hC hset
  . exact ⟨_, served_release hC hset ha hdrop hview hX h'⟩

theorem served_giveBack {t k b : Nat} (hC : C.Inv) (hset : C.Settled) (hunlink : C.CanUnlink t k b)
    (hb : C.Has C.cur b) (h' : Sim s' (C.giveBack t k b)) : C.ServedBy s' (C.giveBack t k b) where
  sim := h'
  cur := Conf.giveBack_cur
  inv := by
    rw [hunlink.giveBack_eq hC.static hb]
    exact (hC.unlink hunlink).access (hunlink.canAccess hC.static hb)
  settled := hset.giveBack hC.static hunlink hb
  confined := by
    rw [hunlink.giveBack_eq hC.static hb]
    exact (Conf.Confined.unlink hC.static hunlink hb .self).trans (.access _ _ _ b true)

theorem run_collect_served (h : Sim s C) (hC : C.Inv) (hset : C.Settled) {idPD : Nat}
    (hown : s.CollectsOwn (.collect idPD)) : C.Served (collect idPD s).2 := by
  have hS := hC.static
  have hcases := h.run_collect_cases hS idPD fun t hglobal ht => h.collectsOwn hS hown hglobal ht
  unfold LLI.Ensures at hcases
  rcases hcases with ⟨-, hstate⟩ | ⟨t, k, hunlink, hb, h'⟩
  . rw [hstate]
    exact h.served hC hset
  . exact ⟨_, served_giveBack hC hset hunlink hb h'⟩

end Sim

/--
A call of the partition that runs, which takes back whole blocks and collects blocks of its own only.
-/
theorem ServiceCall.served {s : State} {C : Conf} (h : Sim s C) (hC : C.Inv) (hset : C.Settled) (call : ServiceCall)
    (hwhole : s.TakesBackWhole call) (hown : s.CollectsOwn call) : C.Served (s.after call) := by
  have hunseen : ∀ s', Unseen s s' → C.Served s' := fun s' hs => (hs C h).served hC hset
  cases call with
  | createPartition idBlock => exact h.run_createPartition_served hC hset idBlock
  | cutMemoryBlock idBlockToCut cutAddr MPURegionNb =>
    exact h.run_cutMemoryBlock_served hC hset idBlockToCut cutAddr MPURegionNb
  | mergeMemoryBlocks idBlockToMerge1 idBlockToMerge2 MPURegionNb =>
    exact h.run_mergeMemoryBlocks_served hC hset idBlockToMerge1 idBlockToMerge2 MPURegionNb
  | prepare idPD idRequisitionedBlock => exact h.run_prepare_served hC hset idPD idRequisitionedBlock
  | addMemoryBlock idPDchild idBlockToShare r w e =>
    exact h.run_addMemoryBlock_served hC hset idPDchild idBlockToShare r w e
  | removeMemoryBlock idBlockToRemove =>
    exact h.run_removeMemoryBlock_served hC hset idBlockToRemove (h.not_failsHalfway hC hwhole)
  | deletePartition idPDchildToDelete => exact h.run_deletePartition_served hC hset idPDchildToDelete
  | collect idPD => exact h.run_collect_served hC hset hown
  | mapMPU idPD idBlockToEnable MPURegionNb => exact hunseen _ (Unseen.mapMPU _ _ _ s)
  | readMPU idPD MPURegionNb => exact hunseen _ (Unseen.readMPU _ _ s)
  | setVIDT pd vidtAddr => exact hunseen _ (Unseen.setVIDT _ _ s)

/--
The state has a view that meets the invariant and in which no block is inaccessible without a reason.
-/
def State.SettledView (s : State) : Prop := ∃ C : Conf, Sim s C ∧ C.Inv ∧ C.Settled

namespace ServiceCall

theorem settledView_of_orderly {s : State} (h : (system.restrict State.Orderly).Reachable s) : s.SettledView := by
  refine h.invariant ?_ ?_
  . rintro s ⟨layout, s₀, rfl⟩
    have honly := layout.rootConf_onlyRoot
    refine ⟨_, (layout.run_boot s₀).2, honly.inv, honly.settled fun a ha => ?_⟩
    rcases layout.rootConf_has ha with ⟨hslot, -⟩ | ⟨hslot, -⟩ | ⟨hslot, -⟩ <;> rw [hslot] <;> rfl
  . rintro s ⟨p, call⟩ s' ⟨C, hsim, hC, hset⟩ ⟨⟨hwhole, hown⟩, hp, rfl⟩
    have hswitch := hC.switch (hsim.live_of_partition hC.static hp)
    rcases served (hsim.switch p) hswitch hset call hwhole hown with ⟨C', h'⟩
    exact ⟨C', h'.sim, h'.inv, h'.settled⟩

end ServiceCall
