import PipMpu.Props.AllServices

/-!
This module contains the account of the free slots in all runs of the services. The list stays the one of the entries
that are not present, unless `collect` leaves a slot in it or a slot is freed twice after a removal has failed
half-way.
-/

namespace State

/--
The list of the free slots of `p` is `l`, and `nbfreeslots` counts it.
-/
structure Accounted (s : State) (p : Nat) (l : List Nat) : Prop where
  list : FreeList s p l
  nodup : l.Nodup
  mem_iff : ∀ a, a ∈ l ↔ s.OwnsEntry p a ∧ (s.blockEntries.get a).present = false
  unused : ∀ a ∈ l, (s.slotOf a).PDchild = nullAddr ∧ (s.slotOf a).PDflag = false
    ∧ (s.slotOf a).inChildLocation = nullAddr ∧ (s.slotOf a).origin = nullAddr ∧ (s.slotOf a).next = nullAddr
  count : (s.pdtables.get p).nbfreeslots = l.length

/--
All free slots are accounted for. The slots of an empty structure are among them, so that `collect` can subtract them.
-/
structure FreeSlotsAgree (s : State) : Prop where
  accounted : ∀ p, s.Partition p → ∃ l, s.Accounted p l
  apart : ∀ p q l l', s.Partition p → s.Partition q → p ≠ q → FreeList s p l → FreeList s q l' → l.Disjoint l'
  enough : ∀ p k, s.Partition p → s.HasStructure p k → (∀ a ∈ slotsOf k, (s.blockEntries.get a).present = false) →
    kernelStructureEntriesNb ≤ (s.pdtables.get p).nbfreeslots

end State

namespace Sim

variable {s : State} {C : Conf} {p : Nat}

theorem accounted (h : Sim s C) (hC : C.Static) (hp : C.Live p) : s.Accounted p (C.free p) := by
  have hmem : ∀ a, a ∈ C.free p ↔ C.Owns p a ∧ (C.slot a).present = false := fun a => hC.mem_free p a hp
  constructor
  . exact h.free p hp
  . exact hC.free_nodup p hp
  . intro a
    rw [hmem, h.ownsEntry_iff hp, and_congr_right_iff]
    intro ha
    rw [h.present_eq ha]
  . intro a ha
    rcases (hmem a).mp ha with ⟨howns, hpresent⟩
    rw [h.slotOf_eq howns, hC.free_empty p a howns hpresent]
    exact ⟨rfl, rfl, rfl, rfl, rfl⟩
  . exact h.nbfreeslots p hp

theorem freeSlotsAgree (h : Sim s C) (hC : C.Static) : s.FreeSlotsAgree := by
  constructor
  . intro p hp
    exact ⟨_, h.accounted hC (h.live_of_partition hC hp)⟩
  . intro p q l l' hp hq hne hl hl'
    have hp := h.live_of_partition hC hp
    have hq := h.live_of_partition hC hq
    rw [hl.unique (h.free p hp), hl'.unique (h.free q hq)]
    intro a ha ha'
    exact hne (hC.owns_unique ((hC.mem_free p a hp).mp ha).1 ((hC.mem_free q a hq).mp ha').1)
  . intro p k hp hk hempty
    have hp := h.live_of_partition hC hp
    have hk := (h.hasStructure_iff hp).mp hk
    have hsub : slotsOf k ⊆ C.free p := by
      intro a ha
      have howns : C.Owns p a := ⟨hp, k, hk, ha⟩
      rw [hC.mem_free p a hp, ← h.present_eq howns]
      exact ⟨howns, hempty a ha⟩
    have hlength := ((slotsOf_nodup k).subperm hsub).length_le
    rw [slotsOf_length] at hlength
    rw [h.nbfreeslots p hp]
    exact hlength

end Sim

/--
In every such run all free slots are accounted for.
-/
theorem freeSlotsAgree_of_reachable {s : State} (h : (ServiceCall.system.restrict State.Orderly).Reachable s)
    : s.FreeSlotsAgree := by
  rcases ServiceCall.view_of_orderly h with ⟨C, hsim, hC⟩
  exact hsim.freeSlotsAgree hC.static

theorem freeSlotsAgree_threeLevels : threeLevels.FreeSlotsAgree := freeSlotsAgree_of_reachable threeLevels_orderly

/--
The root makes a structure for itself, then it merges two blocks, so that the slot of the second one comes before the
slots of the structure.
-/
def slotBeforeStructureCalls : List (List Nat × ServiceCall) :=
  [
    ([], .cutMemoryBlock 0x2000F111 0x20009000 8),
    ([], .cutMemoryBlock 0x2000F133 0x2000A000 8),
    ([], .cutMemoryBlock 0x2000F144 0x2000B000 8),
    ([], .prepare 0x2000F000 0x2000F133),
    ([], .mergeMemoryBlocks 0x2000F144 0x2000F155 8)
  ]

def slotBeforeStructure : State := (State.booted.replay slotBeforeStructureCalls).getD State.booted

/--
The root collects the structure.
-/
def slotKept : State := (slotBeforeStructure.runBy 0x2000F000).after (.collect 0x2000F000)

theorem slotBeforeStructure_eval
    : (State.booted.replay slotBeforeStructureCalls).isSome = true
        ∧ slotBeforeStructure.constantRootPartM = 0x2000F000 := by
  decide +kernel

theorem slotBeforeStructure_reachable : ServiceCall.system.Reachable slotBeforeStructure := by
  have hreach := ServiceCall.reachable_of_calls slotBeforeStructure_eval.1
  exact hreach

/--
The second free slot of the root lies in the block that was given back.
-/
theorem slotKept_eval
    : slotKept.constantRootPartM = 0x2000F000
        ∧ (slotKept.pdtables.get 0x2000F000).structurePtr = 0x2000F100
        ∧ slotKept.nextStructure 0x2000F100 = 0
        ∧ (slotKept.pdtables.get 0x2000F000).firstfreeslot = 0x2000F155
        ∧ slotKept.nextFree 0x2000F155 = 0x20009011 := by
  decide +kernel

/--
A slot of the structure stays in the list.
-/
theorem not_freeSlotsAgree : ¬∀ s, ServiceCall.system.Reachable s → s.FreeSlotsAgree := by
  intro hall
  rcases slotKept_eval with ⟨hrootPart, hstructure, hnext, hfirst, hsecond⟩
  have hroot := State.Partition.root (s := slotKept)
  rw [hrootPart] at hroot
  have hbefore := State.Partition.root (s := slotBeforeStructure)
  rw [slotBeforeStructure_eval.2] at hbefore
  have hreach := ServiceCall.reachable_after slotBeforeStructure_reachable hbefore (.collect 0x2000F000)
  rcases (hall slotKept hreach).accounted _ hroot with ⟨l, hl⟩
  have hlist : Linked slotKept.nextFree 0x2000F155 l := hfirst ▸ hl.list
  have hmem : 0x20009011 ∈ l := by
    have hreach : LinkReach slotKept.nextFree 0x2000F155 0x2000F155 := .first (by decide)
    have hreached := hreach.next (by rw [hsecond]; decide)
    rw [hsecond] at hreached
    exact (hlist.mem_iff_reach _).mpr hreached
  rcases ((hl.mem_iff _).mp hmem).1 with ⟨k, hk, hslot⟩
  have hk : slotKept.HasStructure 0x2000F000 k := hk
  rw [hk.eq_of_single hstructure hnext] at hslot
  exact absurd hslot (by decide)
