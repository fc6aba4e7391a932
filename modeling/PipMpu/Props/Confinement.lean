import PipMpu.Props.DeletePartition
import PipMpu.Props.Memory
import PipMpu.Props.Untouched

/-!
This module contains how far the services reach, in all their runs: a call of a partition concerns the partition itself
and those below it. Of the others it changes accessible bits at most, and only those of the partitions above the caller.
-/

namespace State

/--
`p` may have changed its own subtree and the memory in its blocks. Outside it may have changed which blocks of the
partitions above it are accessible.
-/
structure ConfinedTo (s : State) (p : Nat) (s' : State) : Prop where
  partition : ∀ q, (s'.Partition q ∧ ¬s'.Below p q) ↔ (s.Partition q ∧ ¬s.Below p q)
  descriptor : ∀ q, s.Partition q → ¬s.Below p q →
    s'.pdtables.get q
      =
    { s.pdtables.get q with mpu := (s'.pdtables.get q).mpu, LUT := (s'.pdtables.get q).LUT }
  next : ∀ q k, s.Partition q → ¬s.Below p q → s.HasStructure q k → s'.nextStructure k = s.nextStructure k
  blockEntry : ∀ q k i, s.Partition q → ¬s.Below p q → s.HasStructure q k → i < 8 →
    s'.blockEntries.get (slotAddr k i)
      =
    { s.blockEntries.get (slotAddr k i) with accessible := (s'.blockEntries.get (slotAddr k i)).accessible }
  sh1Entry : ∀ q k i, s.Partition q → ¬s.Below p q → s.HasStructure q k → i < 8 →
    s'.sh1Entries.get (sh1Addr k i) = s.sh1Entries.get (sh1Addr k i)
  scEntry : ∀ q k i, s.Partition q → ¬s.Below p q → s.HasStructure q k → i < 8 →
    s'.scEntries.get (scAddr k i) = s.scEntries.get (scAddr k i)
  unrelated : ∀ q k i, s.Partition q → ¬s.Below p q → ¬s.Below q p → s.HasStructure q k → i < 8 →
    s'.blockEntries.get (slotAddr k i) = s.blockEntries.get (slotAddr k i)
  bytes : ∀ x, ¬s.Holds p x → s'.bytes.get x = s.bytes.get x

end State

namespace Conf

variable {C C' : Conf} {p q r : Nat}

/--
Two partitions above a third one lie one above the other.
-/
theorem Below.comparable (h : C.Below p r) (h' : C.Below q r) : C.Below p q ∨ C.Below q p := by
  induction h with
  | self => exact .inr h'
  | child hne hbelow ih =>
    cases h' with
    | self => exact .inl (.child hne hbelow)
    | child _ hbelow' => exact ih hbelow'

/--
A subtree that does not meet the one of the caller has the same records.
-/
theorem Confined.sameRecords (h : C.Confined p C') (hC : C.Static) (hpr : ¬C.Below p r) (hrp : ¬C.Below r p)
    : C.SameRecords C' fun q => C.Live q ∧ C.Below r q := by
  have hout : ∀ q, C.Below r q → ¬C.Below p q := by
    intro q hq hpq
    rcases hpq.comparable hq with hbelow | hbelow
    . exact hpr hbelow
    . exact hrp hbelow
  constructor
  case root => exact h.root
  case live => exact fun q hq => ⟨hq.1, ((h.tree q).mpr ⟨hq.1, hout q hq.2⟩).1⟩
  case structures => exact fun q hq => h.structures q hq.1 (hout q hq.2)
  case slot => exact fun q a hq ha => h.slot q a ha (hout q hq.2)
  case child =>
    intro q a hq ha hlent
    have hkind := hC.child_kind q a ha (hC.location_kind q a ha hlent).1
    exact ⟨hkind.1, .of_parent hkind.2.1 hkind.2.2.1 hq.2⟩

end Conf

namespace Sim

variable {s s' : State} {C C' : Conf} {p k i : Nat}

/--
The entries of two slots that differ in the accessible bit at most.
-/
theorem entries_record (h : Sim s C) (h' : Sim s' C') (hC : C.Static) (hp : C.Live p) (hp' : C'.Live p)
    (hk : k ∈ C.structures p) (hk' : k ∈ C'.structures p) (hi : i < 8) (hfree : C'.free p = C.free p)
    (hrecord : (C.slot (slotAddr k i)).SameRecord (C'.slot (slotAddr k i)))
    : s'.blockEntries.get (slotAddr k i)
        =
      { s.blockEntries.get (slotAddr k i) with accessible := (s'.blockEntries.get (slotAddr k i)).accessible }
        ∧ s'.sh1Entries.get (sh1Addr k i) = s.sh1Entries.get (sh1Addr k i)
        ∧ s'.scEntries.get (scAddr k i) = s.scEntries.get (scAddr k i) := by
  have hview := h.slot p k i hp hk hi
  have hview' := h'.slot p k i hp' hk' hi
  rw [← hview, ← hview'] at hrecord
  have hindex := (h'.blockindex p k i hp' hk' hi).trans (h.blockindex p k i hp hk hi).symm
  let entry : BlockEntry := { s.blockEntries.get (slotAddr k i) with
    accessible := (s'.blockEntries.get (slotAddr k i)).accessible }
  have hslot : mkSlot (s'.blockEntries.get (slotAddr k i)) (s'.sh1Entries.get (sh1Addr k i))
      (s'.scEntries.get (scAddr k i))
        =
      mkSlot entry (s.sh1Entries.get (sh1Addr k i)) (s.scEntries.get (scAddr k i)) := hrecord
  refine mkSlot_inj hslot hindex fun hpresent => ?_
  have howns : C.Owns p (slotAddr k i) := ⟨hp, k, hk, slotAddr_mem hi⟩
  have hfields := h.present_eq howns
  have hmem := (hC.mem_free p _ hp).mpr ⟨howns, hfields ▸ hpresent⟩
  exact (h.free p hp).next_eq (hfree ▸ h'.free p hp') _ hmem

theorem confinedTo (h : Sim s C) (hC : C.Inv) (hset : C.Settled) (hserved : C.ServedBy s' C')
    (huntouched : C.Untouched (C.Below C.cur) s s') : s.ConfinedTo C.cur s' := by
  have hS := hC.static
  have hS' := hserved.inv.static
  have hcur' : C'.Live C.cur := hserved.cur ▸ hS'.cur_live
  have hlive : ∀ q, s.Partition q → C.Live q := fun q hq => h.live_of_partition hS hq
  have hout : ∀ q, s.Partition q → ¬s.Below C.cur q → ¬C.Below C.cur q := fun q hq hnot hbelow =>
    hnot ((h.below_iff hS hS.cur_live (hlive q hq)).mpr hbelow)
  have hlive' : ∀ q, s.Partition q → ¬s.Below C.cur q → C'.Live q := fun q hq hnot =>
    ((hserved.confined.tree q).mpr ⟨hlive q hq, hout q hq hnot⟩).1
  have hmem : ∀ q k, s.Partition q → s.HasStructure q k → k ∈ C.structures q := fun q k hq hk =>
    (h.hasStructure_iff (hlive q hq)).mp hk
  have hmem' : ∀ q k, s.Partition q → ¬s.Below C.cur q → s.HasStructure q k → k ∈ C'.structures q := by
    intro q k hq hnot hk
    rw [hserved.confined.structures q (hlive q hq) (hout q hq hnot)]
    exact hmem q k hq hk
  have hentries := fun q k i hq hnot hk (hi : i < 8) =>
    h.entries_record hserved.sim hS (hlive q hq) (hlive' q hq hnot) (hmem q k hq hk) (hmem' q k hq hnot hk) hi
      (hserved.confined.free q (hlive q hq) (hout q hq hnot))
      (hserved.confined.slot q _ ⟨hlive q hq, k, hmem q k hq hk, slotAddr_mem hi⟩ (hout q hq hnot))
  constructor
  case partition =>
    intro q
    have htree := hserved.confined.tree q
    rw [hserved.sim.partition_iff hS', h.partition_iff hS]
    constructor
    . rintro ⟨hq, hnot⟩
      rcases htree.mp ⟨hq, fun hbelow => hnot ((hserved.sim.below_iff hS' hcur' hq).mpr hbelow)⟩ with ⟨hq, hnot⟩
      exact ⟨hq, fun hbelow => hnot ((h.below_iff hS hS.cur_live hq).mp hbelow)⟩
    . rintro ⟨hq, hnot⟩
      rcases htree.mpr ⟨hq, fun hbelow => hnot ((h.below_iff hS hS.cur_live hq).mpr hbelow)⟩ with ⟨hq, hnot⟩
      exact ⟨hq, fun hbelow => hnot ((hserved.sim.below_iff hS' hcur' hq).mp hbelow)⟩
  case descriptor =>
    intro q hq hnot
    have howner := huntouched.owner q (hlive q hq) (hout q hq hnot)
    exact PDTable.eq_of_core (h.core_congr hserved.sim (hlive q hq) (hlive' q hq hnot)
      (hserved.confined.structures q (hlive q hq) (hout q hq hnot))
      (hserved.confined.free q (hlive q hq) (hout q hq hnot)) howner) howner
  case next =>
    intro q k hq hnot hk
    have hlinked := h.structures q (hlive q hq)
    have hlinked' := hserved.sim.structures q (hlive' q hq hnot)
    rw [hserved.confined.structures q (hlive q hq) (hout q hq hnot)] at hlinked'
    exact hlinked.next_eq hlinked' k (hmem q k hq hk)
  case blockEntry => exact fun q k i hq hnot hk hi => (hentries q k i hq hnot hk hi).1
  case sh1Entry => exact fun q k i hq hnot hk hi => (hentries q k i hq hnot hk hi).2.1
  case scEntry => exact fun q k i hq hnot hk hi => (hentries q k i hq hnot hk hi).2.2
  case unrelated =>
    intro q k i hq hnot hnot' hk hi
    have hrecords := hserved.confined.sameRecords (r := q) hS (hout q hq hnot) fun hbelow =>
      hnot' ((h.below_iff hS (hlive q hq) hS.cur_live).mpr hbelow)
    have hslot := hrecords.slot_eq hC hset hserved.inv hserved.settled ⟨hlive q hq, .self⟩
      ⟨hlive q hq, k, hmem q k hq hk, slotAddr_mem hi⟩
    exact (h.entries_eq hserved.sim hS (hlive q hq) (hlive' q hq hnot) (hmem q k hq hk) (hmem' q k hq hnot hk) hi
      (hserved.confined.free q (hlive q hq) (hout q hq hnot)) hslot).1
  case bytes =>
    intro x hx
    apply huntouched.bytes
    rwa [← h.holds_iff hS.cur_live]

end Sim

/--
In every such run a call of a partition concerns its own subtree and the memory in its blocks.
-/
theorem confinedTo_of_reachable {s : State} {p : Nat} {call : ServiceCall}
    (h : (ServiceCall.system.restrict State.Orderly).Reachable s) (hp : s.Partition p) (hcall : s.Orderly (p, call))
    : (s.runBy p).ConfinedTo p ((s.runBy p).after call) := by
  rcases ServiceCall.settledView_of_orderly h with ⟨C, hsim, hC, hset⟩
  have hrun := hsim.switch p
  have hswitch := hC.switch (hsim.live_of_partition hC.static hp)
  rcases ServiceCall.served hrun hswitch hset call hcall.1 hcall.2 with ⟨C', hserved⟩
  exact hrun.confinedTo hswitch hset hserved (ServiceCall.untouched hrun hswitch call)

/--
The grandchild cuts its block, of which its parent and the root have blocks around it.
-/
theorem confinedTo_threeLevels
    : (threeLevels.runBy 0x2000A000).ConfinedTo 0x2000A000
        ((threeLevels.runBy 0x2000A000).after (.cutMemoryBlock 0x2000B000 0x2000D000 8)) :=
  confinedTo_of_reachable threeLevels_orderly endsWith_threeLevels.partition ⟨trivial, trivial⟩
