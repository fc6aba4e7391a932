import PipMpu.Refine.Calls
import PipMpu.Spec.Shares

/-!
This module contains what the calls that cut and merge blocks do to the rights, a ledger of the blocks that were
shared, and the theorem that the states of every run have a view in which the rights are the same all along each
chain and the ledger is right about each shared block.
-/

/--
The state is one of those that abstract transitions from `C` lead to without sharing a block.
-/
def Conf.FollowsKeeping (C : Conf) (s' : State) : Prop :=
  ∃ C', Relation.ReflTransGen Conf.Step C C' ∧ C.KeepsShares C' ∧ Sim s' C'

theorem Conf.Moves.followsKeeping {C : Conf} {s' : State} (h : C.Moves s') (hC : C.Inv)
    : C.FollowsKeeping s' := by
  rcases h with ⟨C', hmoves, h'⟩
  exact ⟨C', Conf.Move.steps hmoves, .moves hC hmoves, h'⟩

def ServiceCall.IsShare : ServiceCall → Prop
  | addMemoryBlock _ _ _ _ _ => True
  | _ => False

namespace Sim

variable {s : State} {C : Conf}

/--
Both parts of a block that is cut have the rights of the block.
-/
theorem cutMemoryBlock_sameRights (h : Sim s C) (hC : C.Inv) {a cutAddr region : Nat}
    (hcut : (cutMemoryBlock a cutAddr region s).1 ≠ nullAddr)
    : ((cutMemoryBlock a cutAddr region s).2.slotOf (cutMemoryBlock a cutAddr region s).1).SameRights (s.slotOf a)
        ∧ ((cutMemoryBlock a cutAddr region s).2.slotOf a).SameRights (s.slotOf a) := by
  have hcases := h.run_cutMemoryBlock_cases hC a cutAddr region
  unfold LLI.Ensures at hcases
  rcases hcases with ⟨hnull, -⟩ | ⟨rest, hsplit, -, h'⟩
  . exact absurd hnull hcut
  . have hS := hC.static
    have hwalk := hsplit.walkFrom false
    have hhas : ∀ q x, (C.cut C.cur a _ cutAddr rest).Has q x ↔ _ :=
      hwalk.has_iff (hS.walkFrom C.cur a false)
    have hnew := (hhas C.cur _).mpr (.inr ⟨rfl, rfl⟩)
    have hold := (hhas C.cur a).mpr (.inl hwalk.has)
    have hne := hsplit.ne hS
    rw [h'.slotOf_eq hnew.1, h'.slotOf_eq hold.1, h.slotOf_eq hsplit.has.1]
    constructor
    . have hr := hsplit.cut_sameRights hS (cutMemoryBlock a cutAddr region s).1
      rw [if_pos rfl] at hr
      exact hr
    . have hr := hsplit.cut_sameRights hS a
      rw [if_neg hne] at hr
      exact hr

/--
The block that two blocks are merged into has the rights of both.
-/
theorem mergeMemoryBlocks_sameRights (h : Sim s C) (hC : C.Inv) (hE : C.Even) {a₁ a₂ region : Nat}
    (hmerge : (mergeMemoryBlocks a₁ a₂ region s).1 ≠ nullAddr)
    : ((mergeMemoryBlocks a₁ a₂ region s).2.slotOf (mergeMemoryBlocks a₁ a₂ region s).1).SameRights (s.slotOf a₁)
        ∧ ((mergeMemoryBlocks a₁ a₂ region s).2.slotOf (mergeMemoryBlocks a₁ a₂ region s).1).SameRights
          (s.slotOf a₂) := by
  have hcases := h.run_mergeMemoryBlocks_cases hC a₁ a₂ region
  unfold LLI.Ensures at hcases
  rcases hcases with ⟨hnull, -⟩ | ⟨heq, hjoin, -, h'⟩
  . exact absurd hnull hmerge
  . have hS := hC.static
    have hne := hjoin.ne hS
    have hhas : (C.merge C.cur a₁ a₂).Has C.cur a₁ := by
      have hleft := (hjoin.has_iff hS C.cur a₁).mpr ⟨hjoin.has₁, hne⟩
      exact (Conf.setAccessible.has _ _ _ _ _).mpr hleft
    have hr := hjoin.merge_sameRights hS hne
    rw [heq, h'.slotOf_eq hhas.1, h.slotOf_eq hjoin.has₁.1, h.slotOf_eq hjoin.has₂.1]
    exact ⟨hr, hr.trans (hE.joined hS hjoin).symm⟩

/-
Calls that share nothing
-/

theorem followsKeeping (h : Sim s C) : C.FollowsKeeping s := ⟨C, .refl, .refl C, h⟩

theorem run_call_keeping (h : Sim s C) (hC : C.Inv) (call : ServiceCall) (hcollect : ¬call.IsCollect)
    (hwhole : ¬s.FailsHalfway call) (hshares : ¬call.IsShare) : C.FollowsKeeping (s.after call) := by
  have hS := hC.static
  cases call with
  | createPartition idBlock =>
    rcases h.run_createPartition_cases hC idBlock with ⟨-, h'⟩ | ⟨-, haccess, -, hadd, h'⟩
    . exact h'.followsKeeping
    . exact ⟨_, .tail (.single (.access haccess)) (.addPartition hadd),
        .of_tame (.trans (.access C _ _ _) (.addPartition hadd)), h'⟩
  | cutMemoryBlock idBlockToCut cutAddr MPURegionNb =>
    rcases h.run_cutMemoryBlock_cases hC idBlockToCut cutAddr MPURegionNb with ⟨-, h'⟩ | ⟨rest, hsplit, -, h'⟩
    . exact h'.followsKeeping
    . exact ⟨_, .single (.cut hsplit), .cut hS hsplit, h'⟩
  | mergeMemoryBlocks idBlockToMerge1 idBlockToMerge2 MPURegionNb =>
    rcases h.run_mergeMemoryBlocks_cases hC idBlockToMerge1 idBlockToMerge2 MPURegionNb with
      ⟨-, h'⟩ | ⟨-, hjoin, hacc, h'⟩
    . exact h'.followsKeeping
    . exact ⟨_, .single (.merge hjoin hacc), .merge hS hjoin, h'⟩
  | prepare idPD idRequisitionedBlock =>
    rcases h.run_prepare_cases hC idPD idRequisitionedBlock with ⟨-, h'⟩ | ⟨-, t, -, haccess, -, hlink, h'⟩
    . exact h'.followsKeeping
    . have hSa := (hC.access haccess).static
      exact ⟨_, .tail (.single (.access haccess)) (.link hlink),
        .of_tame (.trans (.access C _ _ _) (.link hSa hlink)), h'⟩
  | addMemoryBlock idPDchild idBlockToShare r w e => exact absurd trivial hshares
  | removeMemoryBlock idBlockToRemove => exact (h.removal_whole hC hwhole).followsKeeping hC
  | deletePartition idPDchildToDelete =>
    exact (h.run_deletePartition_moves hC idPDchildToDelete).followsKeeping hC
  | collect idPD => exact absurd trivial hcollect
  | mapMPU idPD idBlockToEnable MPURegionNb => exact (Unseen.mapMPU _ _ _ s C h).followsKeeping
  | readMPU idPD MPURegionNb => exact (Unseen.readMPU _ _ s C h).followsKeeping
  | setVIDT pd vidtAddr => exact (Unseen.setVIDT _ _ s C h).followsKeeping

end Sim

/-
The ledger
-/

/--
At each entry the bounds of the block that was last shared under it.
-/
abbrev Ledger := Nat → Nat × Nat

/--
The ledger after the call: `addMemoryBlock` returns the entry it shared the block under.
-/
def Ledger.after (ledger : Ledger) (s : State) : ServiceCall → Ledger
  | .addMemoryBlock idPDchild idBlockToShare r w e =>
    let blockInChild := (addMemoryBlock idPDchild idBlockToShare r w e s).1
    if blockInChild = nullAddr then
      ledger
    else
      Function.update ledger blockInChild
        ((s.slotOf idBlockToShare).startAddr, (s.slotOf idBlockToShare).endAddr)
  | _ => ledger

theorem Ledger.after_of_null {ledger : Ledger} {s : State} {idPDchild idBlockToShare : Nat} {r w e : Bool}
    (hnull : (addMemoryBlock idPDchild idBlockToShare r w e s).1 = nullAddr)
    : ledger.after s (.addMemoryBlock idPDchild idBlockToShare r w e) = ledger :=
  if_pos hnull

theorem Ledger.after_of_ne_null {ledger : Ledger} {s : State} {idPDchild idBlockToShare : Nat} {r w e : Bool}
    (hne : (addMemoryBlock idPDchild idBlockToShare r w e s).1 ≠ nullAddr)
    : ledger.after s (.addMemoryBlock idPDchild idBlockToShare r w e)
        =
      Function.update ledger (addMemoryBlock idPDchild idBlockToShare r w e s).1
        ((s.slotOf idBlockToShare).startAddr, (s.slotOf idBlockToShare).endAddr) :=
  if_neg hne

namespace ServiceCall

/--
The system with a ledger.
-/
def recorded : System (State × Ledger) (Nat × ServiceCall) where
  init x := system.init x.1
  step x event x' := system.step x.1 event x'.1 ∧ x'.2 = x.2.after (x.1.runBy event.1) event.2

/--
Each state of a run is one of a run with a ledger.
-/
theorem exists_ledger {s : State} (h : (system.restrict State.Whole).Reachable s)
    : ∃ ledger, (recorded.restrict fun x => x.1.Whole).Reachable (s, ledger) := by
  induction h with
  | init hs => exact ⟨fun _ => (0, 0), .init hs⟩
  | step _ hs ih =>
    rcases ih with ⟨ledger, hx⟩
    exact ⟨_, .step hx ⟨hs.1, hs.2, rfl⟩⟩

theorem run_call_recorded {s : State} {C : Conf} {ledger : Ledger} (h : Sim s C) (hC : C.Inv)
    (hL : C.Recorded ledger) (call : ServiceCall) (hcollect : ¬call.IsCollect) (hwhole : ¬s.FailsHalfway call)
    : ∃ C', Relation.ReflTransGen Conf.Step C C' ∧ C'.Recorded (ledger.after s call)
        ∧ Sim (s.after call) C' := by
  by_cases hshares : call.IsShare
  . cases call with
    | addMemoryBlock idPDchild idBlockToShare r w e =>
      have hcases := h.run_addMemoryBlock_cases hC idPDchild idBlockToShare r w e
      unfold LLI.Ensures at hcases
      rcases hcases with ⟨hnull, h'⟩ | ⟨c, rest, -, -, -, hshare, -, h'⟩
      . rw [Ledger.after_of_null hnull]
        exact ⟨C, .refl, hL, h'⟩
      . have hne := hC.static.owns_ne_zero (hshare.free_slot hC.static).1
        rw [Ledger.after_of_ne_null hne, h.slotOf_eq hshare.has.1]
        exact ⟨_, .single (.share hshare), hL.share hC.static hshare, h'⟩
    | _ => exact absurd hshares id
  . rcases h.run_call_keeping hC call hcollect hwhole hshares with ⟨C', hsteps, hkeeps, h'⟩
    refine ⟨C', hsteps, ?_, h'⟩
    have hledger : ledger.after s call = ledger := by
      cases call with
      | addMemoryBlock _ _ _ _ _ => exact absurd trivial hshares
      | _ => rfl
    rw [hledger]
    exact hL.keeps hkeeps

theorem recordedView_of_reachable {x : State × Ledger} (h : (recorded.restrict fun x => x.1.Whole).Reachable x)
    : ∃ C : Conf, Sim x.1 C ∧ C.Inv ∧ C.Even ∧ C.Recorded x.2 := by
  induction h with
  | @init x hx =>
    rcases hx with ⟨layout, s₀, hx⟩
    have honly := layout.rootConf_onlyRoot
    exact ⟨_, hx ▸ (layout.run_boot s₀).2, honly.inv, honly.even, honly.recorded _⟩
  | @step x x' event _ hs ih =>
    rcases ih with ⟨C, hsim, hC, hE, hL⟩
    rcases hs with ⟨⟨hcollect, hwhole⟩, ⟨hp, hstate⟩, hledger⟩
    have hswitch : C.Step (C.switch event.1) := .switch (hsim.live_of_partition hC.static hp)
    have hLS : (C.switch event.1).Recorded x.2 := hL.keeps (.of_tame (.switch C event.1))
    rcases run_call_recorded (hsim.switch event.1) (hC.step hswitch) hLS event.2 hcollect hwhole with
      ⟨C', hsteps, hL', h'⟩
    have hsteps := Relation.ReflTransGen.head hswitch hsteps
    rw [hledger, hstate]
    exact ⟨C', h', hC.steps hsteps, hE.steps hC hsteps, hL'⟩

theorem evenView_of_reachable {s : State} (h : (system.restrict State.Whole).Reachable s)
    : ∃ C : Conf, Sim s C ∧ C.Inv ∧ C.Even := by
  rcases exists_ledger h with ⟨ledger, hx⟩
  rcases recordedView_of_reachable hx with ⟨C, hsim, hC, hE, -⟩
  exact ⟨C, hsim, hC, hE⟩

end ServiceCall
