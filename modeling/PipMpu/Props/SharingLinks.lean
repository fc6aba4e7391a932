import PipMpu.Props.CutChains

/-!
This module contains when the record that a partition keeps of a shared block agrees with what the child has. A
removal that fails half-way frees the first subblock of the child and leaves the record of the parent as it is.
-/

/--
The calls that create, cut, share, and take back blocks.
-/
def ServiceCall.HandlesBlocks : ServiceCall → Prop
  | collect _ | mapMPU _ _ _ | readMPU _ _ | setVIDT _ _ => False
  | _ => True

namespace State

/--
Some block of `p` holds the descriptor `c`.
-/
def IsChild (s : State) (p c : Nat) : Prop :=
  ∃ H, s.HasBlock p H ∧ (s.slotOf H).PDflag = true ∧ (s.slotOf H).startAddr = c

/--
The subblock `a` is in the chain that the record of the block `b` leads to.
-/
def InShared (s : State) (b a : Nat) : Prop :=
  (s.slotOf b).inChildLocation ≠ nullAddr
    ∧ LinkReach (fun x => (s.slotOf x).next) (s.slotOf b).inChildLocation a

/--
The record of the block `b` of `p` leads to the chain of subblocks that the child has of it.
-/
structure LeadsToChild (s : State) (p b : Nat) : Prop where
  child : s.IsChild p (s.slotOf b).PDchild
  has : s.HasBlock (s.slotOf b).PDchild (s.slotOf b).inChildLocation
  start_eq : (s.slotOf (s.slotOf b).inChildLocation).startAddr = (s.slotOf b).startAddr
  origin_eq : (s.slotOf (s.slotOf b).inChildLocation).origin = (s.slotOf b).startAddr
  chain : ∃ l, s.TilesShared (s.slotOf b).PDchild (s.slotOf b).inChildLocation (s.slotOf b).startAddr
    (s.slotOf b).endAddr l

structure LinksAgree (s : State) : Prop where
  down : ∀ p b, s.Partition p → s.HasBlock p b → (s.slotOf b).inChildLocation ≠ nullAddr → s.LeadsToChild p b
  up : ∀ p c a, s.Partition p → s.IsChild p c → s.HasBlock c a →
    ∃ b, s.HasBlock p b ∧ s.InShared b a ∧ (s.slotOf b).PDchild = c
      ∧ ∀ b', s.HasBlock p b' → s.InShared b' a → b' = b

/--
A block that the child has cut is only taken back, after all checks, if every ancestor has a block with the same
bounds.
-/
def TakesBackWhole (s : State) : ServiceCall → Prop
  | .removeMemoryBlock b => s.Shared b → s.Removable (s.slotOf b).inChildLocation →
    (s.pdtables.get (s.slotOf b).PDchild).vidtAddr ≠ b → ¬(s.slotOf (s.slotOf b).inChildLocation).Uncut →
    s.ExactAbove (s.slotOf b).startAddr (s.slotOf b).endAddr s.currentPartition
  | _ => True

/--
The calls after which the records still agree.
-/
def KeepsLinks (s : State) (event : Nat × ServiceCall) : Prop :=
  event.2.HandlesBlocks ∧ (s.runBy event.1).TakesBackWhole event.2

end State

namespace Sim

variable {s : State} {C : Conf} {p b a : Nat}

theorem not_failsHalfway (h : Sim s C) (hC : C.Inv) {call : ServiceCall} (hcall : s.TakesBackWhole call)
    : ¬s.FailsHalfway call := by
  cases call with
  | removeMemoryBlock b =>
    rintro ⟨hfalse, entry, hbefore, hafter⟩
    have hunchanged : (removeMemoryBlock b s).2 ≠ s := by
      intro heq
      rw [heq, hbefore] at hafter
      exact absurd hafter (by simp)
    by_cases hshared : C.Has C.cur b ∧ (C.slot b).PDchild ≠ 0 ∧ (C.slot b).inChildLocation ≠ 0
    . rcases hshared with ⟨hb, hchild, hlocation⟩
      have hS := hC.static
      have hl := (hS.location_kind _ b hb hlocation).2.1
      have hblock : s.HasBlock s.currentPartition b := by
        rw [h.cur]
        exact (h.hasBlock_iff hS.cur_live).mpr hb
      have hslot := h.slotOf_eq hb.1
      have hcases := h.run_removeMemoryBlock_shared hC hb hchild hlocation
      unfold LLI.Ensures at hcases
      rcases hcases with ⟨-, hstate, -⟩ | ⟨htrue, -⟩ | ⟨-, hvidt, hremovable, D, hD⟩
      . exact hunchanged hstate
      . exact absurd (htrue.symm.trans hfalse) (by simp)
      . rcases hD.halfway rfl with ⟨hcut, hnot⟩
        have hexact := hcall ⟨hblock, hslot ▸ hchild, hslot ▸ hlocation⟩
        rw [hslot, h.slotOf_eq hl.1, h.removable_iff hS hl, h.cur, h.exactAbove_iff hS hS.cur_live] at hexact
        exact hnot (hexact hremovable hvidt hcut)
    . have hrun := h.run_removeMemoryBlock_unshared hC b fun hb => by
        by_contra hne
        exact hshared ⟨hb, (not_or.mp hne).1, (not_or.mp hne).2⟩
      rw [hrun] at hunchanged
      exact hunchanged rfl
  | _ => exact id

/--
The links of a chain are those of the view.
-/
theorem linkReach_iff (h : Sim s C) (hC : C.Static) {c l : Nat} (hl : C.Has c l)
    : LinkReach (fun x => (s.slotOf x).next) l a ↔ LinkReach (fun x => (C.slot x).next) l a := by
  constructor
  . intro hreach
    induction hreach with
    | first hne => exact .first hne
    | @next x _ hnext ih =>
      have hx := (hC.has_of_reach hl ih).1
      simp only [h.slotOf_eq hx.1] at hnext ⊢
      exact ih.next hnext
  . intro hreach
    induction hreach with
    | first hne => exact .first hne
    | @next x hreach hnext ih =>
      have hx := (hC.has_of_reach hl hreach).1
      simp only [← h.slotOf_eq hx.1] at hnext ⊢
      exact ih.next hnext

theorem isChild_iff (h : Sim s C) (hC : C.Static) {c : Nat} (hp : C.Live p)
    : s.IsChild p c ↔ C.Live c ∧ c ≠ C.root ∧ C.parent c = p := by
  constructor
  . rintro ⟨H, hH, hflag, rfl⟩
    have hH := (h.hasBlock_iff hp).mp hH
    rw [h.slotOf_eq hH.1] at hflag ⊢
    rcases hC.flag_kind p H hH hflag with ⟨-, -, hlive, hparent, hroot⟩
    exact ⟨hlive, hroot, hparent⟩
  . rintro ⟨hlive, hroot, rfl⟩
    rcases hC.pd_house c hlive hroot with ⟨H, hH, hflag, hstart, -⟩
    have hslot := h.slotOf_eq hH.1
    exact ⟨H, (h.hasBlock_iff hp).mpr hH, hslot ▸ hflag, hslot ▸ hstart⟩

theorem leadsToChild (h : Sim s C) (hC : C.Static) (hE : C.Even) (hb : C.Has p b)
    (hlocation : (C.slot b).inChildLocation ≠ 0) : s.LeadsToChild p b := by
  rcases hC.location_kind p b hb hlocation with ⟨hchild, hl, hstart, horigin⟩
  rcases hC.child_kind p b hb hchild with ⟨hlive, hparent, hroot, -⟩
  have hslot := h.slotOf_eq hb.1
  have hslotl := h.slotOf_eq hl.1
  have hhosts : C.Hosts (C.slot b).PDchild (C.slot b).inChildLocation b :=
    hC.hosts_of_origin hroot hl (hparent.symm ▸ hb) horigin.symm
  constructor
  . rw [hslot]
    exact (h.isChild_iff hC hb.live).mpr ⟨hlive, hroot, hparent⟩
  . rw [hslot]
    exact (h.hasBlock_iff hlive).mpr hl
  . rw [hslot, hslotl, hstart]
  . rw [hslot, hslotl, horigin]
  . rcases hE.chain hC hroot hl hhosts with ⟨l, hchain⟩
    rw [hstart] at hchain
    rw [hslot]
    exact ⟨l, h.tilesShared hC hl hchain⟩

theorem linksAgree (h : Sim s C) (hC : C.Static) (hE : C.Even) : s.LinksAgree := by
  constructor
  . intro p b hp hb hlocation
    have hb := (h.hasBlock hC hp).mp hb
    rw [h.slotOf_eq hb.1] at hlocation
    exact h.leadsToChild hC hE hb hlocation
  . intro p c a hp hchild ha
    have hlive := h.live_of_partition hC hp
    rcases (h.isChild_iff hC hlive).mp hchild with ⟨hclive, hroot, rfl⟩
    have ha := (h.hasBlock_iff hclive).mp ha
    rcases hC.reached ha with ⟨x, hx, hfirst, horigin, hreach⟩
    rcases hC.host c x hroot hx with ⟨B, hB⟩
    have hloc := hC.location_of_hosts hx hB hfirst
    have hslotB := h.slotOf_eq hB.has.1
    refine ⟨B, (h.hasBlock_iff hlive).mpr hB.has, ⟨?_, ?_⟩, ?_, ?_⟩
    . rw [hslotB]
      exact hB.lent.2
    . rw [hslotB, hloc]
      exact (h.linkReach_iff hC hx).mpr hreach
    . rw [hslotB]
      exact hB.lent.1
    . rintro B' hB' ⟨hlocation, hreach'⟩
      have hB' := (h.hasBlock_iff hlive).mp hB'
      rw [h.slotOf_eq hB'.1] at hlocation hreach'
      rcases hC.location_kind _ B' hB' hlocation with ⟨-, hl, -, horigin'⟩
      rw [h.linkReach_iff hC hl] at hreach'
      have hafter := hC.has_of_reach hl hreach'
      -- both blocks start at the origin of the subblock
      have hstart : (C.slot B').startAddr = (C.slot B).startAddr := by
        rw [hB.start_eq, horigin, hafter.2, horigin']
      exact hC.eq_of_start_eq hB' hB.has hstart

end Sim

theorem ServiceCall.whole_of_keepsLinks {s : State} (h : (system.restrict State.KeepsLinks).Reachable s)
    : (system.restrict State.Whole).Reachable s := by
  induction h with
  | init hs => exact .init hs
  | @step s s' event _ hs ih =>
    rcases view_of_reachable ih with ⟨C, hsim, hC⟩
    rcases hs with ⟨⟨hhandles, hwhole⟩, hp, hstate⟩
    have hswitch := hC.switch (hsim.live_of_partition hC.static hp)
    have hcollect : ¬event.2.IsCollect := by
      intro hcollect
      cases hcall : event.2 with
      | collect _ =>
        rw [hcall] at hhandles
        exact hhandles
      | _ =>
        rw [hcall] at hcollect
        exact hcollect
    exact .step ih ⟨⟨hcollect, (hsim.switch event.1).not_failsHalfway hswitch hwhole⟩, hp, hstate⟩

/--
In every run in which no removal fails half-way the records of shared blocks agree with what the children have.
-/
theorem linksAgree_of_reachable {s : State} (h : (ServiceCall.system.restrict State.KeepsLinks).Reachable s)
    : s.LinksAgree := by
  rcases ServiceCall.evenView_of_reachable (ServiceCall.whole_of_keepsLinks h) with ⟨C, hsim, hC, hE⟩
  exact hsim.linksAgree hC.static hE

theorem threeLevelsCalls_keepLinks (event : List Nat × ServiceCall) (hevent : event ∈ threeLevelsCalls) (s : State)
    (p : Nat) : s.KeepsLinks (p, event.2) := by
  simp only [threeLevelsCalls, List.mem_cons, List.not_mem_nil, or_false] at hevent
  rcases hevent with rfl | rfl | rfl | rfl | rfl | rfl | rfl | rfl | rfl | rfl <;> exact ⟨trivial, trivial⟩

theorem threeLevels_keepsLinks : (ServiceCall.system.restrict State.KeepsLinks).Reachable threeLevels :=
  ServiceCall.reachable_of_isSome ServiceCall.reachable_booted
    (fun event hevent s p _ => threeLevelsCalls_keepLinks event hevent s p) (by decide +kernel)

theorem linksAgree_threeLevels : threeLevels.LinksAgree := linksAgree_of_reachable threeLevels_keepsLinks

/--
The grandchild cuts the block that was shared with it.
-/
def cutByGrandchild : State :=
  (threeLevels.replay [([0x2000F111, 0x20009000], .cutMemoryBlock 0x2000B000 0x2000D000 8)]).getD threeLevels

/--
The child tries to take the block back.
-/
def halfRemoved : State := (cutByGrandchild.runBy 0x20008000).after (.removeMemoryBlock 0x20009022)

theorem cutByGrandchild_handlesBlocks
    : (ServiceCall.system.restrict fun _ event => event.2.HandlesBlocks).Reachable cutByGrandchild := by
  have hthree : (ServiceCall.system.restrict fun _ event => event.2.HandlesBlocks).Reachable threeLevels :=
    threeLevels_keepsLinks.restrict_mono fun _ _ hkeeps => hkeeps.1
  apply ServiceCall.reachable_of_isSome hthree
  . intro event hevent s p _
    rw [List.mem_singleton.mp hevent]
    trivial
  . decide +kernel

/--
The record of the child still leads to the entry of the grandchild that was freed.
-/
theorem not_linksAgree
    : ¬∀ s, (ServiceCall.system.restrict fun _ event => event.2.HandlesBlocks).Reachable s → s.LinksAgree := by
  intro hall
  have hpath : cutByGrandchild.follow cutByGrandchild.constantRootPartM [0x2000F111] = some 0x20008000 := by
    decide +kernel
  have hpath' : halfRemoved.follow halfRemoved.constantRootPartM [0x2000F111] = some 0x20008000 := by
    decide +kernel
  have hreach : (ServiceCall.system.restrict fun _ event => event.2.HandlesBlocks).Reachable halfRemoved :=
    .step (e := (0x20008000, .removeMemoryBlock 0x20009022)) cutByGrandchild_handlesBlocks
      ⟨trivial, State.partition_of_follow .root hpath, rfl⟩
  have hblock : halfRemoved.HasBlock 0x20008000 0x20009022 := by
    apply State.hasBlock_of_first <;> decide +kernel
  have hleads := (hall halfRemoved hreach).down 0x20008000 0x20009022 (State.partition_of_follow .root hpath')
    hblock (by decide +kernel)
  have hpresent := hleads.has.2
  exact absurd hpresent (by decide +kernel)
