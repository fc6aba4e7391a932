import PipMpu.Props.SharingLinks
import PipMpu.Refine.Collect
import PipMpu.Refine.KernelData

/-!
This module contains the runs of all services from the boot on, `collect` among them. Their states have a view that
meets the invariant as long as no removal fails half-way, and `collect` neither gives back a block that is shared nor
leaves a slot of the structure in the list of free slots.
-/

namespace State

/--
The structure `k` of `t` is empty and starts with the block `b` of the partition that runs.
-/
structure Collectable (s : State) (t k b : Nat) : Prop where
  mem : s.HasStructure t k
  empty : ∀ a ∈ slotsOf k, (s.blockEntries.get a).present = false
  has : s.HasBlock s.currentPartition b
  start_eq : (s.slotOf b).startAddr = k

/--
The first structure that can be collected lies in a block that is not shared, and no free slot of another structure
is followed by two free slots of it.
-/
def CollectsOwn (s : State) : ServiceCall → Prop
  | .collect idPD => ∀ before k after b l,
    let t := (getGlobalIdPDCurrentOrChild s.currentPartition idPD s).1
    t ≠ nullAddr → Linked s.nextStructure (s.pdtables.get t).structurePtr (before ++ k :: after) →
      (∀ k' ∈ before, ∀ b', ¬s.Collectable t k' b') → s.Collectable t k b → FreeList s t l →
      (s.slotOf b).inChildLocation = nullAddr ∧ NoRun (slotsOf k) l
  | _ => True

/--
The calls after which the view still meets the invariant.
-/
def Orderly (s : State) (event : Nat × ServiceCall) : Prop :=
  (s.runBy event.1).TakesBackWhole event.2 ∧ (s.runBy event.1).CollectsOwn event.2

end State

namespace Sim

variable {s : State} {C : Conf}

theorem collectable_iff (h : Sim s C) (hC : C.Static) {t k b : Nat} (ht : C.Live t)
    : s.Collectable t k b ↔ C.Collectable t k b := by
  constructor
  . rintro ⟨hmem, hempty, hhas, hstart⟩
    have hk := (h.hasStructure_iff ht).mp hmem
    rw [h.cur, h.hasBlock_iff hC.cur_live] at hhas
    rw [h.slotOf_eq hhas.1] at hstart
    refine ⟨hk, fun a ha => ?_, hhas, hstart⟩
    rw [← h.present_eq ⟨ht, k, hk, ha⟩]
    exact hempty a ha
  . rintro ⟨hk, hempty, hhas, hstart⟩
    refine ⟨(h.hasStructure_iff ht).mpr hk, fun a ha => ?_, ?_, ?_⟩
    . rw [h.present_eq ⟨ht, k, hk, ha⟩]
      exact hempty a ha
    . rw [h.cur, h.hasBlock_iff hC.cur_live]
      exact hhas
    . rw [h.slotOf_eq hhas.1]
      exact hstart

theorem collectsOwn (h : Sim s C) (hC : C.Static) {idPD t : Nat} (hown : s.CollectsOwn (.collect idPD))
    (hglobal : getGlobalIdPDCurrentOrChild C.cur idPD s = (t, s)) (ht : C.Live t) : C.CollectsOwn t := by
  intro before k after b hstructures hbefore hb
  have hlinked := h.structures t ht
  rw [hstructures] at hlinked
  have hlocation := hown before k after b (C.free t)
  rw [h.cur, hglobal] at hlocation
  have hnone : ∀ k' ∈ before, ∀ b', ¬s.Collectable t k' b' := fun k' hk' b' hb' =>
    hbefore k' hk' b' ((h.collectable_iff hC ht).mp hb')
  have hown := hlocation (hC.live_ne_zero ht) hlinked hnone ((h.collectable_iff hC ht).mpr hb) (h.free t ht)
  rw [h.slotOf_eq hb.has.1] at hown
  exact hown

/--
A structure is given back by two transitions of the view.
-/
theorem run_collect_follows (h : Sim s C) (hC : C.Inv) {idPD : Nat} (hown : s.CollectsOwn (.collect idPD))
    : C.Follows (collect idPD s).2 := by
  have hS := hC.static
  have hcases := h.run_collect_cases hS idPD fun t hglobal ht => h.collectsOwn hS hown hglobal ht
  unfold LLI.Ensures at hcases
  rcases hcases with ⟨-, hstate⟩ | ⟨t, k, hunlink, hb, h'⟩
  . rw [hstate]
    exact ⟨C, .refl, h⟩
  . rw [hunlink.giveBack_eq hS hb] at h'
    exact ⟨_, .tail (.single (.unlink hunlink)) (.access (hunlink.canAccess hS hb)), h'⟩

end Sim

namespace ServiceCall

theorem simulation_orderly
    : System.Simulation (system.restrict State.Orderly) (fun C => ∃ layout : Layout, C = layout.rootConf)
        Conf.Step Conf.Inv Sim where
  init := simulation.init
  step := by
    rintro s ⟨p, call⟩ s' C h hC ⟨⟨hwhole, hown⟩, hp, rfl⟩
    have hswitch : C.Step (C.switch p) := .switch (h.live_of_partition hC.static hp)
    have h' := h.switch p
    have hC' := hC.step hswitch
    have hfollows : (C.switch p).Follows ((s.runBy p).after call) := by
      by_cases hcollect : call.IsCollect
      . cases call with
        | collect idPD => exact h'.run_collect_follows hC' hown
        | _ => exact absurd hcollect id
      . exact h'.run_call hC' call hcollect (h'.not_failsHalfway hC' hwhole)
    rcases hfollows with ⟨C', hsteps, h'⟩
    exact ⟨C', .head hswitch hsteps, h'⟩

/--
Each state of such a run has a view that meets the invariant.
-/
theorem view_of_orderly {s : State} (h : (system.restrict State.Orderly).Reachable s)
    : ∃ C : Conf, Sim s C ∧ C.Inv := by
  refine System.Reachable.simulated ?_ ?_ simulation_orderly h
  . rintro C ⟨layout, rfl⟩
    exact layout.rootConf_onlyRoot.inv
  . exact fun C C' hC hstep => hC.step hstep

end ServiceCall

theorem threeLevelsCalls_orderly (event : List Nat × ServiceCall) (hevent : event ∈ threeLevelsCalls) (s : State)
    (p : Nat) : s.Orderly (p, event.2) := by
  simp only [threeLevelsCalls, List.mem_cons, List.not_mem_nil, or_false] at hevent
  rcases hevent with rfl | rfl | rfl | rfl | rfl | rfl | rfl | rfl | rfl | rfl <;> exact ⟨trivial, trivial⟩

theorem threeLevels_orderly : (ServiceCall.system.restrict State.Orderly).Reachable threeLevels :=
  ServiceCall.reachable_of_isSome ServiceCall.reachable_booted
    (fun event hevent s p _ => threeLevelsCalls_orderly event hevent s p) (by decide +kernel)

/-
Facts that can be evaluated
-/

namespace State

theorem hasStructure_of_first {s : State} {p k : Nat} (hfirst : (s.pdtables.get p).structurePtr = k) (hk : k ≠ 0)
    : s.HasStructure p k := by
  subst hfirst
  exact .first hk

theorem HasStructure.next {s : State} {p k k' : Nat} (h : s.HasStructure p k) (hnext : s.nextStructure k = k')
    (hk : k' ≠ 0) : s.HasStructure p k' := by
  subst hnext
  exact LinkReach.next h hk

theorem HasStructure.eq_of_single {s : State} {p k k' : Nat} (h : s.HasStructure p k')
    (hfirst : (s.pdtables.get p).structurePtr = k) (hnext : s.nextStructure k = 0) : k' = k := by
  subst hfirst
  exact h.eq_of_next_eq_zero hnext

theorem HasStructure.hasBlock {s : State} {p k a : Nat} (h : s.HasStructure p k) (ha : a ∈ slotsOf k)
    (hpresent : (s.blockEntries.get a).present = true) : s.HasBlock p a :=
  ⟨⟨k, h, ha⟩, hpresent⟩

theorem isChild_of_follow {s : State} {p c a : Nat} (h : s.follow p [a] = some c) : s.IsChild p c := by
  unfold follow at h
  simp only at h
  split at h
  . next hcond =>
    rcases hcond with ⟨hk, ha, hpresent, hflag⟩
    simp only [follow, Option.some.injEq] at h
    exact ⟨a, hasBlock_of_first hk ha hpresent, hflag, h⟩
  . exact absurd h (by simp)

theorem partition_of_isChild {s : State} {p c : Nat} (hp : s.Partition p) (h : s.IsChild p c) : s.Partition c := by
  rcases h with ⟨H, hH, hflag, rfl⟩
  exact .child hp hH hflag

end State

/--
What evaluation shows of the calls is enough for a run without conditions.
-/
theorem ServiceCall.reachable_of_calls {events : List (List Nat × ServiceCall)}
    (h : (State.booted.replay events).isSome = true)
    : system.Reachable ((State.booted.replay events).getD State.booted) :=
  (reachable_of_isSome reachable_booted (fun _ _ _ _ => State.whole_of_plain) h).of_restrict

theorem ServiceCall.reachable_after {s : State} {p : Nat} (h : system.Reachable s) (hp : s.Partition p)
    (call : ServiceCall) : system.Reachable ((s.runBy p).after call) :=
  .step (e := (p, call)) h ⟨hp, rfl⟩
