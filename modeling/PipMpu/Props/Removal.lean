import PipMpu.Refine.Calls

/-!
This module contains when `removeMemoryBlock` is all or nothing. For a block that the child has cut it frees the
subblocks first and only then looks for a block with exactly the same bounds in every ancestor of the caller,
which fails if the block is itself a part of a block further up.
-/

namespace State

/--
The kernel data is well formed, as the boot and the services leave it.
-/
def WellFormed (s : State) : Prop := ∃ C : Conf, Sim s C ∧ C.Inv

/--
The partition `c` and the partitions below it.
-/
inductive Below (s : State) (c : Nat) : Nat → Prop where
  | self : Below s c c
  | child {p a : Nat} : Below s c p → s.HasBlock p a → (s.slotOf a).PDflag = true →
      Below s c (s.slotOf a).startAddr

/--
Every ancestor of `p` has a block with the bounds `lo` and `hi`.
-/
inductive ExactAbove (s : State) (lo hi : Nat) : Nat → Prop where
  | root : ExactAbove s lo hi s.constantRootPartM
  | parent {p A : Nat} : p ≠ s.constantRootPartM → s.HasBlock (s.pdtables.get p).parent A →
      (s.slotOf A).startAddr = lo → (s.slotOf A).endAddr = hi →
      ExactAbove s lo hi (s.pdtables.get p).parent → ExactAbove s lo hi p

/--
The entry `a` is one of the free slots of `p`.
-/
def IsFreeSlot (s : State) (p a : Nat) : Prop :=
  LinkReach s.nextFree (s.pdtables.get p).firstfreeslot a

/--
The current partition has shared its block `b` with a child.
-/
structure Shared (s : State) (b : Nat) : Prop where
  has : s.HasBlock s.currentPartition b
  PDchild_ne : (s.slotOf b).PDchild ≠ nullAddr
  inChildLocation_ne : (s.slotOf b).inChildLocation ≠ nullAddr

/--
The block `l` of a child is uncut and accessible, or it is cut and its subblocks are all present, accessible and
not shared.
-/
def Removable (s : State) (l : Nat) : Prop :=
  ((s.slotOf l).Uncut ∧ (s.slotOf l).accessible = true)
    ∨ (¬(s.slotOf l).Uncut ∧ ∃ rest, Linked (fun a => (s.slotOf a).next) l (l :: rest)
      ∧ ∀ a ∈ l :: rest, (s.slotOf a).present = true ∧ (s.slotOf a).accessible = true
        ∧ (s.slotOf a).PDchild = nullAddr)

/--
The removal of the block leaves the state as it is, or it takes the whole block back from the child and from
everything below it. It succeeds for each block that can be removed.
-/
structure RemovesAllOrNothing (s : State) (b : Nat) : Prop where
  nothing : (removeMemoryBlock b s).1 = false → (removeMemoryBlock b s).2 = s
  gone : (removeMemoryBlock b s).1 = true → ∀ q a,
    (removeMemoryBlock b s).2.Below (s.slotOf b).PDchild q → (removeMemoryBlock b s).2.HasBlock q a →
    Disjoint ((removeMemoryBlock b s).2.slotOf a).range (s.slotOf b).range
  freed : (removeMemoryBlock b s).1 = true → ∀ q a,
    s.Below (s.slotOf b).PDchild q → s.HasBlock q a → ¬Disjoint (s.slotOf a).range (s.slotOf b).range →
    (removeMemoryBlock b s).2.IsFreeSlot q a
  returned : (removeMemoryBlock b s).1 = true →
    ((removeMemoryBlock b s).2.slotOf b).accessible = true
      ∧ ((removeMemoryBlock b s).2.slotOf b).PDchild = nullAddr
      ∧ ((removeMemoryBlock b s).2.slotOf b).inChildLocation = nullAddr
  succeeds : s.Removable (s.slotOf b).inChildLocation → (removeMemoryBlock b s).1 = true

theorem RemovesAllOrNothing.not_of_freed {s : State} {b : Nat} (hfailed : (removeMemoryBlock b s).1 = false)
    (hfreed : FreesSlot s (removeMemoryBlock b s).2) : ¬s.RemovesAllOrNothing b := by
  rintro hok
  rcases hfreed with ⟨entry, hbefore, hafter⟩
  rw [hok.nothing hfailed] at hafter
  exact absurd (hbefore.symm.trans hafter) (by simp)

end State

theorem ServiceCall.wellFormed_of_reachable {s : State} (h : (system.restrict State.Whole).Reachable s)
    : s.WellFormed :=
  view_of_reachable h

namespace Conf

variable {C : Conf}

/--
Nothing below a child lies in a block that is not shared.
-/
theorem Inv.disjoint_below (hC : C.Inv) {p b c q a : Nat} (hb : C.Has p b)
    (hloc : (C.slot b).inChildLocation = 0) (hc : C.Live c) (hroot : c ≠ C.root) (hparent : C.parent c = p)
    (hbelow : C.Below c q) (ha : C.Has q a) : Disjoint (C.slot a).range (C.slot b).range := by
  have hS := hC.static
  have hdepth := hS.depth_parent c hc hroot
  rw [hparent] at hdepth
  have hle := hbelow.depth_le hS ha.live
  rw [Set.disjoint_left]
  intro x hxa hxb
  have hlevel : hS.nest.level p < hS.nest.level q := by
    show C.depth p < C.depth q
    omega
  rcases (hS.nest.nested_of_level_lt ha hb hlevel hxa hxb).2 with ⟨r, hlent⟩
  exact hlent.2 hloc

end Conf

namespace Sim

variable {s : State} {C : Conf}

theorem below (h : Sim s C) (hC : C.Static) {c q : Nat} (hc : C.Live c) (hq : s.Below c q)
    : C.Live q ∧ C.Below c q := by
  induction hq with
  | self => exact ⟨hc, .self⟩
  | child _ hblock hflag ih =>
    have ha := (h.hasBlock_iff ih.1).mp hblock
    rw [h.slotOf_eq ha.1] at hflag ⊢
    rcases hC.flag_kind _ _ ha hflag with ⟨-, -, hlive, hparent, hroot⟩
    exact ⟨hlive, .child hroot (hparent.symm ▸ ih.2)⟩

theorem exactAbove_iff (h : Sim s C) (hC : C.Static) {lo hi p : Nat} (hp : C.Live p)
    : s.ExactAbove lo hi p ↔ C.AllAbove lo hi p := by
  constructor
  . intro habove
    induction habove with
    | root =>
      rw [h.root]
      exact .root
    | @parent p A hne hA hstart hend _ ih =>
      rw [h.root] at hne
      rw [h.parent p hp hne] at hA ih
      have hlive := hC.parent_live p hp hne
      have hA' := (h.hasBlock_iff hlive).mp hA
      rw [h.slotOf_eq hA'.1] at hstart hend
      exact .parent hne hA' hstart hend (ih hlive)
  . intro habove
    induction habove with
    | root =>
      rw [← h.root]
      exact .root
    | @parent p A hne hA hstart hend _ ih =>
      have hlive := hC.parent_live p hp hne
      have hparent := h.parent p hp hne
      refine .parent (A := A) (h.root ▸ hne) ?_ ?_ ?_ ?_
      . rw [hparent]
        exact (h.hasBlock_iff hlive).mpr hA
      . rw [h.slotOf_eq hA.1]
        exact hstart
      . rw [h.slotOf_eq hA.1]
        exact hend
      . rw [hparent]
        exact ih hlive

theorem removable_iff (h : Sim s C) (hC : C.Static) {c l : Nat} (hl : C.Has c l)
    : s.Removable l ↔ C.Removable l := by
  have hnext : ∀ a, C.Has c a → (s.slotOf a).next = (C.slot a).next := by
    intro a ha
    rw [h.slotOf_eq ha.1]
  have hstep : ∀ a, C.Has c a → (C.slot a).next ≠ 0 → C.Has c (C.slot a).next :=
    fun a ha hne => (hC.next_kind c a ha hne).1
  unfold State.Removable Conf.Removable
  rw [h.slotOf_eq hl.1]
  apply or_congr_right
  apply and_congr_right
  intro _
  constructor
  . rintro ⟨rest, hlinked, hplain⟩
    have hchain : ∀ a ∈ l :: rest, C.Has c a := by
      apply hlinked.forall_mem (P := C.Has c) (fun _ => hl)
      intro a ha hne
      rw [hnext a ha] at hne ⊢
      exact hstep a ha hne
    refine ⟨rest, hlinked.congr fun a ha => (hnext a (hchain a ha)).symm, ?_⟩
    intro a ha
    have := hplain a ha
    rw [h.slotOf_eq (hchain a ha).1] at this
    exact this.2
  . rintro ⟨rest, hlinked, hplain⟩
    have hchain : ∀ a ∈ l :: rest, C.Has c a :=
      hlinked.forall_mem (P := C.Has c) (fun _ => hl) hstep
    refine ⟨rest, hlinked.congr fun a ha => hnext a (hchain a ha), ?_⟩
    intro a ha
    rw [h.slotOf_eq (hchain a ha).1]
    exact ⟨(hchain a ha).2, hplain a ha⟩

end Sim

namespace Sim.Removed

variable {s s₁ s' : State} {C D : Conf} {b l : Nat} {v : Bool}

/--
The view after the record of the block is cleared.
-/
theorem inv_cleared (hD : Removed C b l v s₁ D) (hC : C.Inv) : (D.setSlot b (D.slot b).clearSh1).Inv :=
  hC.steps (Conf.Move.steps hD.steps)

theorem has_cleared (hD : Removed C b l v s₁ D) : (D.setSlot b (D.slot b).clearSh1).Has C.cur b :=
  (Conf.setSlot_has (by rfl) _ _).mpr hD.has

/--
The blocks that are still present keep their ranges.
-/
theorem range_cleared (hD : Removed C b l v s₁ D) {a : Nat}
    (ha : ((D.setSlot b (D.slot b).clearSh1).slot a).present = true)
    : ((D.setSlot b (D.slot b).clearSh1).slot a).range = (C.slot a).range := by
  have hpresent : (D.slot a).present = true := by
    by_cases hab : a = b
    . subst hab
      exact hD.has.2
    . rw [Conf.setSlot_slot_of_ne _ _ hab] at ha
      exact ha
  have hbounds := hD.present a hpresent
  unfold Slot.range
  rw [Conf.setSlot_startAddr (by rfl), Conf.setSlot_endAddr (by rfl), hbounds.2.1, hbounds.2.2]

/--
What a removal that succeeds leads to.
-/
theorem allOrNothing (hD : Removed C b l true s₁ D) (h : Sim s C) (hC : C.Inv) (hb : C.Has C.cur b)
    (hchild : (C.slot b).PDchild ≠ 0) (hrun : (removeMemoryBlock b s).1 = true)
    (h' : Sim (removeMemoryBlock b s).2 (D.setSlot b (D.slot b).clearSh1)) : s.RemovesAllOrNothing b := by
  have hinv := hD.inv_cleared hC
  have hhas := hD.has_cleared
  have hslot := h.slotOf_eq hb.1
  have hslot' := h'.slotOf_eq hhas.1
  rw [Conf.setSlot_slot_self] at hslot'
  rcases hC.static.child_kind _ b hb hchild with ⟨hlive, hparent, hroot, -⟩
  -- the child is still in the tree, under the same parent
  have hlive' : (D.setSlot b (D.slot b).clearSh1).Live (C.slot b).PDchild := hD.live_eq ▸ hlive
  have hparent' : (D.setSlot b (D.slot b).clearSh1).parent (C.slot b).PDchild = C.cur :=
    (congrFun hD.parent_eq _).trans hparent
  have hroot' : (C.slot b).PDchild ≠ (D.setSlot b (D.slot b).clearSh1).root := by
    show _ ≠ D.root
    rw [hD.root_eq]
    exact hroot
  have hloc' : ((D.setSlot b (D.slot b).clearSh1).slot b).inChildLocation = 0 := by
    rw [Conf.setSlot_slot_self]
    rfl
  have hdisjoint : ∀ q a, (D.setSlot b (D.slot b).clearSh1).Below (C.slot b).PDchild q →
      (D.setSlot b (D.slot b).clearSh1).Has q a → Disjoint (C.slot a).range (C.slot b).range := by
    intro q a hbelow ha
    rw [← hD.range_cleared ha.2, ← hD.range_cleared hhas.2]
    exact hinv.disjoint_below hhas hloc' hlive' hroot' hparent' hbelow ha
  constructor
  case nothing =>
    intro hfalse
    exact absurd (hrun.symm.trans hfalse) (by simp)
  case gone =>
    intro _ q a hq ha
    rw [hslot] at hq ⊢
    rcases h'.below hinv.static hlive' hq with ⟨hqlive, hbelow⟩
    have ha' := (h'.hasBlock_iff hqlive).mp ha
    rw [h'.slotOf_eq ha'.1, hD.range_cleared ha'.2]
    exact hdisjoint q a hbelow ha'
  case freed =>
    intro _ q a hq ha hoverlap
    rw [hslot] at hq hoverlap
    rcases h.below hC.static hlive hq with ⟨hqlive, hbelow⟩
    have ha' := (h.hasBlock_iff hqlive).mp ha
    rw [h.slotOf_eq ha'.1] at hoverlap
    have hbelow' : (D.setSlot b (D.slot b).clearSh1).Below (C.slot b).PDchild q := by
      clear hq ha ha' hqlive hoverlap
      induction hbelow with
      | self => exact .self
      | child hne _ ih =>
        refine .child (hD.root_eq ▸ hne) ?_
        rw [show (D.setSlot b (D.slot b).clearSh1).parent = C.parent from hD.parent_eq]
        exact ih
    have hqlive' : (D.setSlot b (D.slot b).clearSh1).Live q := hD.live_eq ▸ hqlive
    have howns : (D.setSlot b (D.slot b).clearSh1).Owns q a := (hD.owns q a).mpr ha'.1
    have habsent : ((D.setSlot b (D.slot b).clearSh1).slot a).present = false := by
      rw [← Bool.not_eq_true]
      intro hpresent
      exact hoverlap (hdisjoint q a hbelow' ⟨howns, hpresent⟩)
    have hfree := (hinv.static.mem_free q a hqlive').mpr ⟨howns, habsent⟩
    exact ((h'.free q hqlive').mem_iff_reach a).mp hfree
  case returned =>
    intro _
    rw [hslot']
    exact ⟨hD.accessible, rfl, rfl⟩
  case succeeds => exact fun _ => hrun

end Sim.Removed

/--
The removal is all or nothing unless the block can be removed and either the VIDT of the child is at the address
of the entry of the block, or the child has cut the block and some ancestor of the caller has no block with the
same bounds.
-/
theorem removeMemoryBlock_allOrNothing_iff {s : State} {b : Nat} (hs : s.WellFormed) (hb : s.Shared b)
    : s.RemovesAllOrNothing b
        ↔
      (s.Removable (s.slotOf b).inChildLocation →
        (s.pdtables.get (s.slotOf b).PDchild).vidtAddr ≠ b
          ∧ (¬(s.slotOf (s.slotOf b).inChildLocation).Uncut →
            s.ExactAbove (s.slotOf b).startAddr (s.slotOf b).endAddr s.currentPartition)) := by
  rcases hs with ⟨C, h, hC⟩
  rcases hb with ⟨hb, hchild, hlocation⟩
  have hS := hC.static
  rw [h.cur] at hb ⊢
  have hb := (h.hasBlock_iff hS.cur_live).mp hb
  rw [h.slotOf_eq hb.1] at hchild hlocation ⊢
  have hl := (hS.location_kind _ b hb hlocation).2.1
  rw [h.slotOf_eq hl.1, h.exactAbove_iff hS hb.live, h.removable_iff hS hl]
  have hcases := h.run_removeMemoryBlock_shared hC hb hchild hlocation
  unfold LLI.Ensures at hcases
  rcases hcases with ⟨hfalse, hstate, hrefused⟩ | ⟨htrue, hvidt, s₁, D, hD, h'⟩ | ⟨hfalse, -, hremovable, D, hD⟩
  . constructor
    . intro hok hremovable
      have htrue := hok.succeeds ((h.slotOf_eq hb.1).symm ▸ (h.removable_iff hS hl).mpr hremovable)
      exact absurd (htrue.symm.trans hfalse) (by simp)
    . intro hcond
      have hnot : ¬C.Removable (C.slot b).inChildLocation := by
        intro hremovable
        rcases hrefused with hvidt | hrefused
        . exact (hcond hremovable).1 hvidt
        . exact hrefused hremovable
      have hvacuous : (removeMemoryBlock b s).1 ≠ true := by
        rw [hfalse]
        simp
      refine ⟨fun _ => hstate, fun htrue => absurd htrue hvacuous, fun htrue => absurd htrue hvacuous,
        fun htrue => absurd htrue hvacuous, fun hremovable => ?_⟩
      rw [h.slotOf_eq hb.1, h.removable_iff hS hl] at hremovable
      exact absurd hremovable hnot
  . have hok := hD.allOrNothing h hC hb hchild htrue h'
    exact ⟨fun _ _ => ⟨hvidt, hD.whole rfl⟩, fun _ => hok⟩
  . -- the first subblock was present and is free now
    have hfreed : FreesSlot s (removeMemoryBlock b s).2 :=
      ⟨_, (h.present_eq hl.1).trans hl.2, (hD.sim.present_eq ((hD.owns _ _).mpr hl.1)).trans hD.freed⟩
    constructor
    . exact fun hok => absurd hok (State.RemovesAllOrNothing.not_of_freed hfalse hfreed)
    . intro hcond
      have hhalf := hD.halfway rfl
      exact absurd ((hcond hremovable).2 hhalf.1) hhalf.2

/--
The root creates a child at 0x20008000 and shares a part of its second region with it. The child cuts this block,
creates a child of its own at 0x2000A000, and shares the part from 0x2000C000 on with it.
-/
def threeLevelsCalls : List (List Nat × ServiceCall) :=
  [
    ([], .cutMemoryBlock 0x2000F111 0x20009000 8),
    ([], .createPartition 0x2000F111),
    ([], .cutMemoryBlock 0x2000F133 0x2000A000 8),
    ([], .prepare 0x2000F111 0x2000F133),
    ([], .addMemoryBlock 0x2000F111 0x2000F144 true true false),
    ([0x2000F111], .cutMemoryBlock 0x20009000 0x2000B000 8),
    ([0x2000F111], .createPartition 0x20009000),
    ([0x2000F111], .cutMemoryBlock 0x20009011 0x2000C000 8),
    ([0x2000F111], .prepare 0x20009000 0x20009011),
    ([0x2000F111], .addMemoryBlock 0x20009000 0x20009022 true true false)
  ]

def threeLevels : State := (State.booted.replay threeLevelsCalls).getD State.booted

/--
The grandchild cuts the block that was shared with it, then the child runs.
-/
def cutBelowCalls : List (List Nat × ServiceCall) :=
  [
    ([0x2000F111, 0x20009000], .cutMemoryBlock 0x2000B000 0x2000D000 8),
    ([0x2000F111], .readMPU 0x20008000 0)
  ]

def cutBelow : State := (threeLevels.replay cutBelowCalls).getD threeLevels

theorem threeLevels_reachable : (ServiceCall.system.restrict State.Whole).Reachable threeLevels :=
  ServiceCall.reachable_of_isSome ServiceCall.reachable_booted (fun _ _ _ _ => State.whole_of_plain)
    (by decide +kernel)

theorem cutBelow_reachable : (ServiceCall.system.restrict State.Whole).Reachable cutBelow :=
  ServiceCall.reachable_of_isSome threeLevels_reachable (fun _ _ _ _ => State.whole_of_plain)
    (by decide +kernel)

theorem shared_of_first {s : State} {b : Nat}
    (hfirst : (s.pdtables.get s.currentPartition).structurePtr ≠ 0)
    (hmem : b ∈ slotsOf (s.pdtables.get s.currentPartition).structurePtr)
    (hpresent : (s.blockEntries.get b).present = true) (hchild : (s.slotOf b).PDchild ≠ nullAddr)
    (hlocation : (s.slotOf b).inChildLocation ≠ nullAddr) : s.Shared b :=
  ⟨State.hasBlock_of_first hfirst hmem hpresent, hchild, hlocation⟩

theorem threeLevels_shared : threeLevels.Shared 0x20009022 := by
  apply shared_of_first <;> decide +kernel

theorem cutBelow_shared : cutBelow.Shared 0x20009022 := by
  apply shared_of_first <;> decide +kernel

theorem removeMemoryBlock_allOrNothing_threeLevels : threeLevels.RemovesAllOrNothing 0x20009022 := by
  have hwell := ServiceCall.wellFormed_of_reachable threeLevels_reachable
  apply (removeMemoryBlock_allOrNothing_iff hwell threeLevels_shared).mpr
  intro _
  refine ⟨by decide +kernel, ?_⟩
  intro hcut
  refine absurd ?_ hcut
  constructor <;> decide +kernel

/--
The block of the child that is taken back is a part of the block that the root shared.
-/
theorem removeMemoryBlock_not_allOrNothing
    : cutBelow.WellFormed ∧ cutBelow.Shared 0x20009022 ∧ ¬cutBelow.RemovesAllOrNothing 0x20009022 := by
  refine ⟨ServiceCall.wellFormed_of_reachable cutBelow_reachable, cutBelow_shared, ?_⟩
  exact State.RemovesAllOrNothing.not_of_freed (by decide +kernel)
    ⟨0x2000B000, by decide +kernel, by decide +kernel⟩
