import PipMpu.Refine.Boot
import PipMpu.Refine.Create
import PipMpu.Refine.Delete
import PipMpu.Refine.Mapping
import PipMpu.Refine.Sharing

/-!
This module contains the runs of the services from the boot on, in which any partition may call any service, and
the theorem that each of their states has a view that meets the invariant. Two things are left out: `collect`, and
the calls of `removeMemoryBlock` that fail after they have freed a slot.
-/

inductive ServiceCall where
  | createPartition (idBlock : Nat)
  | cutMemoryBlock (idBlockToCut cutAddr MPURegionNb : Nat)
  | mergeMemoryBlocks (idBlockToMerge1 idBlockToMerge2 MPURegionNb : Nat)
  | prepare (idPD idRequisitionedBlock : Nat)
  | addMemoryBlock (idPDchild idBlockToShare : Nat) (r w e : Bool)
  | removeMemoryBlock (idBlockToRemove : Nat)
  | deletePartition (idPDchildToDelete : Nat)
  | collect (idPD : Nat)
  | mapMPU (idPD idBlockToEnable MPURegionNb : Nat)
  | readMPU (idPD MPURegionNb : Nat)
  | setVIDT (pd vidtAddr : Nat)

/--
The state after the call.
-/
def State.after (s : State) : ServiceCall → State
  | .createPartition idBlock => (createPartition idBlock s).2
  | .cutMemoryBlock idBlockToCut cutAddr MPURegionNb => (cutMemoryBlock idBlockToCut cutAddr MPURegionNb s).2
  | .mergeMemoryBlocks idBlockToMerge1 idBlockToMerge2 MPURegionNb =>
    (mergeMemoryBlocks idBlockToMerge1 idBlockToMerge2 MPURegionNb s).2
  | .prepare idPD idRequisitionedBlock => (prepare idPD idRequisitionedBlock s).2
  | .addMemoryBlock idPDchild idBlockToShare r w e => (addMemoryBlock idPDchild idBlockToShare r w e s).2
  | .removeMemoryBlock idBlockToRemove => (removeMemoryBlock idBlockToRemove s).2
  | .deletePartition idPDchildToDelete => (deletePartition idPDchildToDelete s).2
  | .collect idPD => (collect idPD s).2
  | .mapMPU idPD idBlockToEnable MPURegionNb => (mapMPU idPD idBlockToEnable MPURegionNb s).2
  | .readMPU idPD MPURegionNb => (readMPU idPD MPURegionNb s).2
  | .setVIDT pd vidtAddr => (setVIDT pd vidtAddr s).2

/--
The state in which the partition `p` runs.
-/
def State.runBy (s : State) (p : Nat) : State := { s with currentPartition := p }

/--
Some present entry is no longer present.
-/
def FreesSlot (s s' : State) : Prop :=
  ∃ entry, (s.blockEntries.get entry).present = true ∧ (s'.blockEntries.get entry).present = false

/--
The call of `removeMemoryBlock` fails after it has freed a slot.
-/
def State.FailsHalfway (s : State) : ServiceCall → Prop
  | .removeMemoryBlock idBlockToRemove =>
    (removeMemoryBlock idBlockToRemove s).1 = false ∧ FreesSlot s (removeMemoryBlock idBlockToRemove s).2
  | _ => False

namespace ServiceCall

/--
From the boot on, partitions call services in any order.
-/
def system : System State (Nat × ServiceCall) where
  init s := ∃ layout : Layout, ∃ s₀, s = (layout.boot s₀).2
  step s event s' := s.Partition event.1 ∧ s' = (s.runBy event.1).after event.2

def IsCollect : ServiceCall → Prop
  | collect _ => True
  | _ => False

end ServiceCall

namespace Sim

variable {s : State} {C : Conf}

theorem follows_unseen (h : Sim s C) {s' : State} (hs : Unseen s s') : C.Follows s' :=
  (hs C h).follows

theorem removal_whole (h : Sim s C) (hC : C.Inv) {a : Nat}
    (hwhole : ¬s.FailsHalfway (.removeMemoryBlock a)) : C.Moves (removeMemoryBlock a s).2 := by
  have hcases := h.run_removeMemoryBlock_cases hC a
  unfold LLI.Ensures at hcases
  rcases hcases with hmoves | ⟨hfalse, ha, hchild, hlocation, D, hD⟩
  . exact hmoves
  . refine absurd ⟨hfalse, (C.slot a).inChildLocation, ?_, ?_⟩ hwhole
    . have hl := (hC.static.location_kind _ a ha hlocation).2.1
      rw [h.present_eq hl.1]
      exact hl.2
    . have hl := (hC.static.location_kind _ a ha hlocation).2.1
      rw [hD.sim.present_eq ((hD.owns _ _).mpr hl.1)]
      exact hD.freed

/--
Each call is a sequence of abstract transitions.
-/
theorem run_call (h : Sim s C) (hC : C.Inv) (call : ServiceCall) (hcollect : ¬call.IsCollect)
    (hwhole : ¬s.FailsHalfway call) : C.Follows (s.after call) := by
  cases call with
  | createPartition idBlock => exact h.run_createPartition hC idBlock
  | cutMemoryBlock idBlockToCut cutAddr MPURegionNb =>
    exact h.run_cutMemoryBlock hC idBlockToCut cutAddr MPURegionNb
  | mergeMemoryBlocks idBlockToMerge1 idBlockToMerge2 MPURegionNb =>
    exact h.run_mergeMemoryBlocks hC idBlockToMerge1 idBlockToMerge2 MPURegionNb
  | prepare idPD idRequisitionedBlock => exact h.run_prepare hC idPD idRequisitionedBlock
  | addMemoryBlock idPDchild idBlockToShare r w e =>
    exact h.run_addMemoryBlock hC idPDchild idBlockToShare r w e
  | removeMemoryBlock idBlockToRemove => exact (h.removal_whole hC hwhole).follows
  | deletePartition idPDchildToDelete => exact h.run_deletePartition hC idPDchildToDelete
  | collect idPD => exact absurd trivial hcollect
  | mapMPU idPD idBlockToEnable MPURegionNb => exact h.follows_unseen (Unseen.mapMPU _ _ _ s)
  | readMPU idPD MPURegionNb => exact h.follows_unseen (Unseen.readMPU _ _ s)
  | setVIDT pd vidtAddr => exact h.follows_unseen (Unseen.setVIDT _ _ s)

theorem switch (h : Sim s C) (p : Nat) : Sim (s.runBy p) (C.switch p) :=
  ⟨rfl, h.root, h.parent, h.structures, h.free, h.nbfreeslots, h.nbprepare, h.blockindex, h.slot⟩

end Sim

/--
The calls that the abstract view follows.
-/
def State.Whole (s : State) (event : Nat × ServiceCall) : Prop :=
  ¬event.2.IsCollect ∧ ¬(s.runBy event.1).FailsHalfway event.2

namespace ServiceCall

theorem simulation
    : System.Simulation (system.restrict State.Whole) (fun C => ∃ layout : Layout, C = layout.rootConf)
        Conf.Step Conf.Inv Sim where
  init := by
    rintro s ⟨layout, s₀, rfl⟩
    exact ⟨_, ⟨layout, rfl⟩, (layout.run_boot s₀).2⟩
  step := by
    rintro s ⟨p, call⟩ s' C h hC ⟨⟨hcollect, hwhole⟩, hp, rfl⟩
    have hswitch : C.Step (C.switch p) := .switch (h.live_of_partition hC.static hp)
    rcases (h.switch p).run_call (hC.step hswitch) call hcollect hwhole with ⟨C', hsteps, h'⟩
    exact ⟨C', .head hswitch hsteps, h'⟩

/--
Each state of such a run has a view that meets the invariant.
-/
theorem view_of_reachable {s : State} (h : (system.restrict State.Whole).Reachable s)
    : ∃ C : Conf, Sim s C ∧ C.Inv := by
  refine System.Reachable.simulated ?_ ?_ simulation h
  . rintro C ⟨layout, rfl⟩
    exact layout.rootConf_onlyRoot.inv
  . exact fun C C' hC hstep => hC.step hstep

end ServiceCall

/-
Runs that can be evaluated
-/

/--
The partition that the entries lead to from `p`: each one is the entry of the descriptor of a child, in the first
structure of the partition.
-/
def State.follow (s : State) : Nat → List Nat → Option Nat
  | p, [] => some p
  | p, a :: path =>
    let k := (s.pdtables.get p).structurePtr
    if k ≠ 0 ∧ a ∈ slotsOf k ∧ (s.blockEntries.get a).present = true ∧ (s.slotOf a).PDflag = true then
      s.follow (s.slotOf a).startAddr path
    else
      none

theorem State.partition_of_follow {s : State} {p q : Nat} {path : List Nat} (hp : s.Partition p)
    (h : s.follow p path = some q) : s.Partition q := by
  induction path generalizing p with
  | nil =>
    cases h
    exact hp
  | cons a path ih =>
    unfold State.follow at h
    simp only at h
    split at h
    . next hcond =>
      rcases hcond with ⟨hk, ha, hpresent, hflag⟩
      exact ih (.child hp ⟨⟨_, .first hk, ha⟩, hpresent⟩ hflag) h
    . exact absurd h (by simp)

/--
The call is no `collect`, and if it is a removal it succeeds.
-/
def State.plain (s : State) : ServiceCall → Bool
  | .collect _ => false
  | .removeMemoryBlock idBlockToRemove => (removeMemoryBlock idBlockToRemove s).1
  | _ => true

/--
The state after the calls, each made by the partition that a path from the root leads to.
-/
def State.replay (s : State) : List (List Nat × ServiceCall) → Option State
  | [] => some s
  | (path, call) :: events =>
    match s.follow s.constantRootPartM path with
    | none => none
    | some p => if (s.runBy p).plain call then ((s.runBy p).after call).replay events else none

theorem State.whole_of_plain {s : State} {p : Nat} {call : ServiceCall} (h : (s.runBy p).plain call = true)
    : s.Whole (p, call) := by
  cases call with
  | collect idPD => exact absurd h (by simp [State.plain])
  | removeMemoryBlock idBlockToRemove =>
    refine ⟨id, ?_⟩
    rintro ⟨hfalse, -⟩
    exact absurd (Eq.trans (Eq.symm h) hfalse) (by simp)
  | _ => exact ⟨id, id⟩

/--
A run that can be evaluated is one whose steps meet a condition if all its calls do.
-/
theorem ServiceCall.reachable_of_replay {ok : State → Nat × ServiceCall → Prop} {s s' : State}
    {events : List (List Nat × ServiceCall)} (hs : (system.restrict ok).Reachable s)
    (hok : ∀ event ∈ events, ∀ s p, (State.runBy s p).plain event.2 = true → ok s (p, event.2))
    (h : s.replay events = some s') : (system.restrict ok).Reachable s' := by
  induction events generalizing s with
  | nil =>
    cases h
    exact hs
  | cons event events ih =>
    rcases event with ⟨path, call⟩
    unfold State.replay at h
    split at h
    . exact absurd h (by simp)
    . next p hpath =>
      split at h
      . next hplain =>
        have hstep := hok (path, call) (by simp) s p hplain
        exact ih (.step (e := (p, call)) hs ⟨hstep, State.partition_of_follow .root hpath, rfl⟩)
          (fun event hevent => hok event (by simp [hevent])) h
      . exact absurd h (by simp)

theorem ServiceCall.reachable_of_isSome {ok : State → Nat × ServiceCall → Prop} {s : State}
    {events : List (List Nat × ServiceCall)} (hs : (system.restrict ok).Reachable s)
    (hok : ∀ event ∈ events, ∀ s p, (State.runBy s p).plain event.2 = true → ok s (p, event.2))
    (h : (s.replay events).isSome = true) : (system.restrict ok).Reachable ((s.replay events).getD s) := by
  rcases hrun : s.replay events with _ | s'
  . rw [hrun] at h
    exact absurd h (by simp)
  . exact reachable_of_replay hs hok hrun

/--
A kernel with 32K of code, whose data starts with the objects of the root.
-/
def Layout.small : Layout where
  rootPartDesc := 0x2000F000
  rootKernStruct := 0x2000F100
  unusedRomStart := 0x8000
  rootVidtStart := 0x20000400
  rootPartDesc_le := by decide
  rootKernStruct_le := by decide
  apart := by decide
  unusedRomStart_lt := by decide

/--
The state after the boot of the small kernel with zeroed memory.
-/
def State.booted : State :=
  (Layout.small.boot
    {
        currentPartition := 0
        constantRootPartM := 0
        pdtables := Mem.empty
        blockEntries := Mem.empty
        sh1Entries := Mem.empty
        scEntries := Mem.empty
        nextPointers := Mem.empty
        bytes := Mem.empty
        mpuRegs := MpuRegs.initial
    }).2

theorem ServiceCall.reachable_booted {ok : State → Nat × ServiceCall → Prop}
    : (system.restrict ok).Reachable State.booted :=
  .init ⟨Layout.small, _, rfl⟩
