import PipMpu.Refine.Ensures
import PipMpu.Spec.Removal

/-!
This module contains the refinement of the services that share a block with a child and take it back.
-/

namespace Sim

variable {s : State} {C : Conf}

/-
Share
-/

theorem run_checkRights (h : Sim s C) {p a : Nat} (ha : C.Owns p a) (r w x : Bool)
    : ∃ v, checkRights a r w x s = (v, s)
        ∧ (v = true → r = true ∧ (w = true → (C.slot a).write = true)
          ∧ (x = true → (C.slot a).exec = true)) := by
  unfold checkRights compatibleRight
  cases r with
  | false => exact ⟨false, rfl, by simp⟩
  | true =>
    simp only [LLI.bind_run, h.run_readX ha, h.run_readW ha, LLI.ite_run, LLI.pure_run]
    cases w <;> cases x <;> cases (C.slot a).write <;> cases (C.slot a).exec <;> simp

theorem run_addMemoryBlock_cases (h : Sim s C) (hC : C.Inv) (idPDchild a : Nat) (r w x : Bool)
    : LLI.Ensures (addMemoryBlock idPDchild a r w x) s fun v s' => (v = 0 ∧ Sim s' C) ∨
        ∃ c rest, c = (C.slot idPDchild).startAddr ∧ C.Has C.cur idPDchild
          ∧ (C.slot idPDchild).PDflag = true ∧ C.CanShare C.cur a c v rest r w x
          ∧ (s.pdtables.get c).vidtAddr ≠ a ∧ Sim s' (C.share a c v rest r w x) := by
  have hS := hC.static
  rcases h.run_findWithAddr hS.sep hS.cur_live a with ⟨b, hrun, hb⟩
  unfold addMemoryBlock
  refine .bind h.run_getCurPartition ?_
  refine .bind hrun ?_
  refine .bind (compareAddrToNull_run _ _) ?_
  refine .cond (fun _ => .pure (.inl ⟨rfl, h⟩)) fun hne => ?_
  simp only [decide_eq_true_eq] at hne
  rcases hb hne with ⟨rfl, hb⟩
  rcases h.run_checkRights hb.1 r w x with ⟨v, hrights, hv⟩
  refine .bind hrights ?_
  refine .cond (fun _ => .pure (.inl ⟨rfl, h⟩)) fun hvtrue => ?_
  simp only [Bool.not_eq_true', Bool.not_eq_false] at hvtrue
  rcases hv hvtrue with ⟨hr, hw, hx⟩
  rcases h.run_checkChild hS hS.cur_live idPDchild with ⟨hd, hflag, hchild⟩ | hchild
  swap
  . refine .bind hchild ?_
    exact .cond (fun _ => .pure (.inl ⟨rfl, h⟩)) fun hfalse => absurd rfl hfalse
  refine .bind hchild ?_
  refine .cond (fun hfalse => absurd hfalse (by simp)) fun _ => ?_
  refine .bind (h.run_readStart hd.1) ?_
  rcases hS.flag_kind _ idPDchild hd hflag with ⟨-, -, hclive, hparent, hcroot⟩
  generalize hc : (C.slot idPDchild).startAddr = c at hclive hparent hcroot ⊢
  refine .bind (h.run_readNbFreeSlots hclive) ?_
  refine .bind rfl ?_
  refine .bind rfl ?_
  refine .cond (fun _ => .pure (.inl ⟨rfl, h⟩)) fun hfull => ?_
  refine .bind (readPDField_run _ _ _) ?_
  refine .bind (compareAddrToNull_run _ _) ?_
  refine .cond (fun _ => .pure (.inl ⟨rfl, h⟩)) fun _ => ?_
  refine .bind (h.run_readAccessible hb.1) ?_
  refine .cond (fun _ => .pure (.inl ⟨rfl, h⟩)) fun hacc => ?_
  refine .bind (h.run_readPresent hb.1) ?_
  refine .cond (fun _ => .pure (.inl ⟨rfl, h⟩)) fun _ => ?_
  refine .bind (h.run_readPDChild hb.1) ?_
  refine .bind (compareAddrToNull_run _ _) ?_
  refine .cond (fun _ => .pure (.inl ⟨rfl, h⟩)) fun hchild => ?_
  refine .bind (readPDField_run _ _ _) ?_
  refine .cond (fun _ => .pure (.inl ⟨rfl, h⟩)) fun hvidt => ?_
  refine .bind (h.run_readStart hb.1) ?_
  refine .bind (h.run_readEnd hb) ?_
  simp only [Bool.not_eq_true', Bool.not_eq_false] at hacc
  simp only [Bool.not_eq_true', decide_eq_false_iff_not, Decidable.not_not] at hchild
  rcases hfree : C.free c with _ | ⟨f, rest⟩
  . rw [hfree] at hfull
    exact absurd (decide_eq_true (Nat.le_refl 0)) hfull
  have hshare : C.CanShare C.cur b c f rest r w x :=
    ⟨hb, hacc, hchild, hC.flag_of_accessible hb hacc, hC.notMem_of_accessible hb hacc, hclive, hcroot,
      hparent, hfree, hr, hw, hx⟩
  have hbf := hshare.ne hS
  have hf := hshare.free_slot hS
  have hempty := hS.free_empty _ f hf.1 hf.2
  have hapart := hS.sep.toApart
  have hinsert := h.run_insertNewEntry hapart hclive hfree (C.slot b).startAddr (C.slot b).endAddr
    (C.slot b).startAddr r w x
  rw [hfree] at hinsert
  refine .sim_eq hinsert.1 hinsert.2 fun s₁ h₁ => ?_
  have hapart₁ := hapart.taken hclive hfree
    ((C.slot f).filled (C.slot b).startAddr (C.slot b).endAddr (C.slot b).startAddr r w x)
  refine .sim (h₁.run_writePDChild hapart₁ (p := C.cur) (a := b) hb.1 c) fun _ s₂ h₂ => ?_
  refine .sim (h₂.run_writeInChildLocation (hapart₁.setSlot _ _ (by rfl)) (p := C.cur) (a := b) hb.1 f)
    fun _ s₃ h₃ => ?_
  simp only [beqAddr_eq, decide_eq_true_eq] at hvidt
  apply LLI.Ensures.pure
  refine .inr ⟨c, rest, rfl, hd, hflag, hshare, hvidt, ?_⟩
  refine Eq.subst (motive := Sim s₃) ?_ h₃
  refine Conf.ext rfl rfl rfl rfl rfl rfl rfl rfl ?_
  funext a
  simp only [Conf.setSlot, Conf.setFree, Conf.share]
  by_cases haf : a = f
  . subst haf
    simp [Ne.symm hbf, hempty, Slot.filled, Slot.empty, Conf.sharedSlot]
  . by_cases hab : a = b
    . subst hab
      simp [hbf]
    . simp [haf, hab]

theorem run_addMemoryBlock (h : Sim s C) (hC : C.Inv) (idPDchild a : Nat) (r w x : Bool)
    : LLI.Ensures (addMemoryBlock idPDchild a r w x) s fun _ => C.Follows := by
  apply (h.run_addMemoryBlock_cases hC idPDchild a r w x).mono
  rintro v s' (⟨-, h'⟩ | ⟨c, rest, -, -, -, hshare, -, h'⟩)
  . exact h'.follows
  . exact h'.follows_step (.share hshare)

/-
Take back
-/

theorem run_removeBlockInDescendantsRecAux (h : Sim s C) (hC : C.Sep) {fuel p a : Nat}
    {chain : List (Nat × Nat)} (hcopies : C.Copies p a chain) (hhas : ∀ x ∈ chain, C.Has x.1 x.2)
    (hnodup : (chain.map Prod.snd).Nodup) (hfuel : chain.length < fuel)
    : (removeBlockInDescendantsRecAux fuel p a s).1 = true
        ∧ Sim (removeBlockInDescendantsRecAux fuel p a s).2 (C.freeAll chain) := by
  induction chain generalizing s C fuel p a with
  | nil => cases hcopies
  | cons x rest ih =>
    have hx := hhas x (by simp)
    have hxa : x = (p, a) := by
      cases hcopies <;> rfl
    subst hxa
    have hne := hC.owns_ne_zero hx.1
    rw [List.map_cons, List.nodup_cons] at hnodup
    cases fuel with
    | zero => simp at hfuel
    | succ fuel =>
      show LLI.Ensures (removeBlockInDescendantsRecAux (fuel + 1) p a) s fun v s' => v = true ∧ Sim s' _
      unfold removeBlockInDescendantsRecAux
      refine .bind (compareAddrToNull_run _ _) ?_
      refine .cond (fun hzero => absurd (of_decide_eq_true hzero) hne) fun _ => ?_
      refine .bind (h.run_readPDChild hx.1) ?_
      refine .bind (h.run_readInChildLocation hx.1) ?_
      refine .sim (h.run_freeSlot hC.toApart hx) fun _ s₁ h₁ => ?_
      rw [Conf.freeAll_cons]
      cases hcopies with
      | last hlast =>
        rw [hlast, Conf.freeAll_nil]
        cases fuel with
        | zero => simp at hfuel
        | succ fuel =>
          unfold removeBlockInDescendantsRecAux
          refine .bind (compareAddrToNull_run _ _) ?_
          exact .cond (fun _ => .pure ⟨rfl, h₁⟩) fun hfalse => absurd (decide_eq_true rfl) hfalse
      | next hnext hrest =>
        -- the slot that was freed is none of the slots that follow
        have hslot : ∀ y ∈ rest, ((C.setSlot a Slot.empty).setFree p (a :: C.free p)).slot y.2 =
            C.slot y.2 := by
          intro y hy
          rw [Conf.setFree_slot, Conf.setSlot_slot_of_ne]
          intro heq
          have hmem := List.mem_map_of_mem (f := Prod.snd) hy
          rw [heq] at hmem
          exact hnodup.1 hmem
        apply ih h₁ (hC.freed hx) (hrest.congr hslot) _ hnodup.2
        . simp only [List.length_cons] at hfuel
          omega
        . intro y hy
          have := hhas y (by simp [hy])
          exact ⟨this.1, by rw [hslot y hy]; exact this.2⟩

theorem run_checkRemoveSubblocksRecAux (h : Sim s C) (hC : C.Static) {c : Nat} (fuel : Nat)
    {a : Nat} (ha : C.Has c a)
    : ∃ v, checkRemoveSubblocksRecAux fuel a s = (v, s)
        ∧ (v = true → ∃ rest, Linked (fun b => (C.slot b).next) a (a :: rest)
          ∧ ∀ b ∈ a :: rest, (C.slot b).accessible = true ∧ (C.slot b).PDchild = 0) := by
  induction fuel generalizing a with
  | zero => exact ⟨false, rfl, by simp⟩
  | succ fuel ih =>
    have hne := hC.owns_ne_zero ha.1
    unfold checkRemoveSubblocksRecAux
    simp only [LLI.bind_run, h.run_readAccessible ha.1, h.run_readPresent ha.1, h.run_readPDChild ha.1,
      compareAddrToNull_run, LLI.ite_run, LLI.pure_run, h.run_readNext ha.1, ha.2, Bool.and_true,
      decide_eq_true_eq]
    by_cases hplain : (C.slot a).accessible = true ∧ (C.slot a).PDchild = 0
    . simp only [hplain.1, hplain.2, decide_true, Bool.and_self, Bool.not_true, Bool.false_eq_true,
        if_false]
      by_cases hlast : (C.slot a).next = 0
      . rw [if_pos hlast]
        refine ⟨true, rfl, fun _ => ⟨[], ⟨rfl, hne, hlast⟩, ?_⟩⟩
        simpa using hplain
      . rw [if_neg hlast]
        rcases ih (hC.next_kind c a ha hlast).1 with ⟨v, hrun, hv⟩
        refine ⟨v, hrun, ?_⟩
        intro hvtrue
        rcases hv hvtrue with ⟨rest, hlinked, hrest⟩
        refine ⟨(C.slot a).next :: rest, ⟨rfl, hne, hlinked⟩, ?_⟩
        intro b hb
        rcases List.mem_cons.mp hb with rfl | hb
        . exact hplain
        . exact hrest b hb
    . refine ⟨false, ?_, by simp⟩
      have : (!((C.slot a).accessible && decide ((C.slot a).PDchild = 0))) = true := by
        rw [Bool.not_eq_true', Bool.and_eq_false_iff, decide_eq_false_iff_not]
        by_cases hacc : (C.slot a).accessible = true
        . exact Or.inr fun hchild => hplain ⟨hacc, hchild⟩
        . exact Or.inl (Bool.not_eq_true _ ▸ hacc)
      rw [if_pos this]

theorem run_checkRemoveSubblocksRecAux_plain (h : Sim s C) (hC : C.Static) {c fuel a : Nat}
    {rest : List Nat} (ha : C.Has c a) (hlinked : Linked (fun b => (C.slot b).next) a (a :: rest))
    (hplain : ∀ b ∈ a :: rest, (C.slot b).accessible = true ∧ (C.slot b).PDchild = 0)
    (hfuel : rest.length < fuel) : checkRemoveSubblocksRecAux fuel a s = (true, s) := by
  induction rest generalizing fuel a with
  | nil =>
    cases fuel with
    | zero => simp at hfuel
    | succ fuel =>
      have hself := hplain a (by simp)
      have hlast : (C.slot a).next = 0 := hlinked.2.2
      unfold checkRemoveSubblocksRecAux
      simp only [LLI.bind_run, h.run_readAccessible ha.1, h.run_readPresent ha.1, h.run_readPDChild ha.1,
        compareAddrToNull_run, LLI.ite_run, LLI.pure_run, h.run_readNext ha.1, ha.2, hself.1, hself.2, hlast,
        decide_true, Bool.and_self, Bool.not_true, Bool.false_eq_true, if_false, if_true]
  | cons b rest ih =>
    cases fuel with
    | zero => simp at hfuel
    | succ fuel =>
      have hself := hplain a (by simp)
      have hnext : (C.slot a).next = b := hlinked.2.2.1
      have hne : b ≠ 0 := hlinked.2.2.2.1
      have hb := (hC.next_kind c a ha (hnext ▸ hne)).1
      rw [hnext] at hb
      have hrest : rest.length < fuel := by
        simp only [List.length_cons] at hfuel
        omega
      have hrun := ih hb ⟨rfl, hne, hlinked.2.2.2.2⟩ (fun x hx => hplain x (by simp [hx])) hrest
      unfold checkRemoveSubblocksRecAux
      simp only [LLI.bind_run, h.run_readAccessible ha.1, h.run_readPresent ha.1, h.run_readPDChild ha.1,
        compareAddrToNull_run, LLI.ite_run, LLI.pure_run, h.run_readNext ha.1, ha.2, hself.1, hself.2, hnext,
        hne, hrun, decide_true, decide_false, Bool.and_self, Bool.not_true, Bool.false_eq_true, if_false]

theorem run_removeSubblocksRecAux (h : Sim s C) (hC : C.Sep) {c fuel a : Nat} {l : List Nat}
    (hlinked : Linked (fun b => (C.slot b).next) a l) (hhas : ∀ b ∈ l, C.Has c b)
    (hfuel : l.length < fuel)
    : (removeSubblocksRecAux fuel c a s).1 = true
        ∧ Sim (removeSubblocksRecAux fuel c a s).2 (C.freeAll (l.map fun b => (c, b))) := by
  induction l generalizing s C fuel a with
  | nil =>
    cases fuel with
    | zero => simp at hfuel
    | succ fuel =>
      have hzero : a = 0 := hlinked
      subst hzero
      rw [List.map_nil, Conf.freeAll_nil]
      exact ⟨rfl, h⟩
  | cons b rest ih =>
    have hnodup := hlinked.nodup
    rcases hlinked with ⟨rfl, hne, hrest⟩
    have ha := hhas a (by simp)
    cases fuel with
    | zero => simp at hfuel
    | succ fuel =>
      show LLI.Ensures (removeSubblocksRecAux (fuel + 1) c a) s fun v s' => v = true ∧ Sim s' _
      unfold removeSubblocksRecAux
      refine .bind (compareAddrToNull_run _ _) ?_
      refine .cond (fun hzero => absurd (of_decide_eq_true hzero) hne) fun _ => ?_
      refine .bind (h.run_readNext ha.1) ?_
      refine .sim (h.run_freeSlot hC.toApart ha) fun _ s₁ h₁ => ?_
      rw [List.map_cons, Conf.freeAll_cons]
      have hslot : ∀ y ∈ rest, ((C.setSlot a Slot.empty).setFree c (a :: C.free c)).slot y =
          C.slot y := by
        intro y hy
        rw [Conf.setFree_slot, Conf.setSlot_slot_of_ne]
        rintro rfl
        exact (List.nodup_cons.mp hnodup).1 hy
      apply ih h₁ (hC.freed ha)
      . apply hrest.congr
        intro y hy
        rw [hslot y hy]
      . intro y hy
        have := hhas y (by simp [hy])
        exact ⟨this.1, by rw [hslot y hy]; exact this.2⟩
      . simp only [List.length_cons] at hfuel
        omega

/--
What the removal of a block from the child leads to: nothing happened, or the slots are free and only
the shadow 1 entry of the block is left to clear. A removal that reports a failure after it freed the
slots is one of a cut block, and some ancestor of the caller has no block with the same bounds.
-/
structure Removed (C : Conf) (b l : Nat) (v : Bool) (s' : State) (D : Conf) : Prop where
  sim : Sim s' D
  sep : D.Sep
  has : D.Has C.cur b
  live_eq : D.Live = C.Live
  parent_eq : D.parent = C.parent
  root_eq : D.root = C.root
  owns : ∀ p a, D.Owns p a ↔ C.Owns p a
  present : ∀ a, (D.slot a).present = true → (C.slot a).present = true
    ∧ (D.slot a).startAddr = (C.slot a).startAddr ∧ (D.slot a).endAddr = (C.slot a).endAddr
  steps : Relation.ReflTransGen Conf.Move C (D.setSlot b (D.slot b).clearSh1)
  accessible : (D.slot b).accessible = true
  freed : (D.slot l).present = false
  halfway : v = false → ¬(C.slot l).Uncut ∧
    ¬C.AllAbove (C.slot b).startAddr (C.slot b).endAddr C.cur
  whole : v = true → ¬(C.slot l).Uncut → C.AllAbove (C.slot b).startAddr (C.slot b).endAddr C.cur
  structures_eq : D.structures = C.structures
  kept : ∀ a, (D.slot a).present = true →
    D.slot a = C.slot a ∨ D.slot a = { C.slot a with accessible := true }
  outside : ∀ r, ¬C.Below (C.slot b).PDchild r → D.free r = C.free r ∧ ∀ a, C.Owns r a →
    D.slot a = C.slot a ∨ D.slot a = { C.slot a with accessible := true }

theorem run_removeUncut (h : Sim s C) (hC : C.Inv) {b c l : Nat} (hb : C.Has C.cur b)
    (hlent : C.Lent b c) (hloc : (C.slot b).inChildLocation = l) (huncut : (C.slot l).Uncut)
    (hacc : (C.slot l).accessible = true)
    : LLI.Ensures (removeBlockInDescendantsRec c l) s fun v s' =>
        v = true ∧ ∃ D, Removed C b l v s' D := by
  have hS := hC.static
  have hkind := hS.location_kind _ b hb hlent.2
  rw [hlent.1] at hkind
  have hchild := hS.child_kind _ b hb (by rw [hlent.1]; exact hkind.1)
  rw [hlent.1] at hchild
  have hdepth := hS.depth_parent c hchild.1 hchild.2.2.1
  rw [hchild.2.1] at hdepth
  rcases hC.copies hb hlent hloc huncut hacc with ⟨chain, hcopies, hchain, hnodup, hlength, hsteps⟩
  have hhas : ∀ x ∈ chain, C.Has x.1 x.2 := fun x hx => (hchain x hx).1
  have hrun : (removeBlockInDescendantsRecAux fuelN c l s).1 = true ∧
      Sim (removeBlockInDescendantsRecAux fuelN c l s).2 (C.freeAll chain) := by
    apply h.run_removeBlockInDescendantsRecAux hS.sep hcopies hhas hnodup
    unfold fuelN
    omega
  -- the chain starts at the child, so the block itself is not on it
  have hnotb : b ∉ chain.map Prod.snd := by
    intro hmem
    rcases List.mem_map.mp hmem with ⟨x, hx, rfl⟩
    have := hS.has_unique hb (hhas x hx)
    have := (hchain x hx).2
    grind
  have hmem : l ∈ chain.map Prod.snd := by
    cases hcopies <;> simp
  refine ⟨hrun.1, C.freeAll chain, ?_⟩
  constructor
  case sim => exact hrun.2
  case sep => exact hS.sep.freeAll hhas hnodup
  case has => exact (C.freeAll_has C.cur b).mpr ⟨hb, hnotb⟩
  case live_eq => rfl
  case parent_eq => rfl
  case root_eq => rfl
  case owns => exact fun p a => Iff.rfl
  case present => exact fun a ha => Conf.freeAll_present ha
  case accessible =>
    rw [Conf.freeAll_slot_of_notMem hnotb]
    rw [hloc] at hkind
    have hhost : C.Hosts c l b := by
      apply hS.hosts_of_origin hchild.2.2.1 hkind.2.1
      . rw [hchild.2.1]
        exact hb
      . exact hkind.2.2.2.symm
    exact (hC.coherent c l hchild.2.2.1 hkind.2.1 b hhost).mpr ⟨huncut, hacc⟩
  case steps =>
    have hflag := (hS.closed_of_lent hb hlent.2).1
    rw [Conf.freeAll_slot_of_notMem hnotb]
    unfold Slot.clearSh1
    rw [← hflag]
    exact hsteps
  case freed =>
    simp only [Conf.freeAll, hmem, if_true, Slot.empty]
  case halfway =>
    intro hfalse
    exact absurd (hrun.1.symm.trans hfalse) (by simp)
  case whole => exact fun _ hcut => absurd huncut hcut
  case structures_eq => rfl
  case kept =>
    intro a ha
    by_cases hmem : a ∈ chain.map Prod.snd
    . have hempty : (C.freeAll chain).slot a = Slot.empty := if_pos hmem
      rw [hempty] at ha
      exact absurd ha (by simp [Slot.empty])
    . exact .inl (Conf.freeAll_slot_of_notMem hmem)
  case outside =>
    intro r hr
    rw [hlent.1] at hr
    rw [hloc] at hkind
    have hbelow := hcopies.all_below hS hkind.2.1
    have houtside := Conf.freeAll_outside hS (fun x hx => ⟨hhas x hx, hbelow x hx⟩) hr
    exact ⟨houtside.1, fun a ha => .inl (houtside.2 a ha)⟩

theorem run_removeCut (h : Sim s C) (hC : C.Inv) {b c l : Nat} {rest : List Nat} (hb : C.Has C.cur b)
    (hlent : C.Lent b c) (hloc : (C.slot b).inChildLocation = l) (hcut : ¬(C.slot l).Uncut)
    (hlinked : Linked (fun a => (C.slot a).next) l (l :: rest))
    (hplain : ∀ a ∈ l :: rest, (C.slot a).accessible = true ∧ (C.slot a).PDchild = 0)
    : LLI.Ensures
        (do
          let recRemoveSubblocksEnded ← removeSubblocksRec c l
          if !recRemoveSubblocksEnded then
            pure false
          else do
            writeBlockAccessibleFromBlockEntryAddr b true
            let endBlockToRemove ← readBlockEndFromBlockEntryAddr b
            let recWriteEnded ← writeAccessibleRec C.cur (C.slot b).startAddr endBlockToRemove true
            if !recWriteEnded then pure false else pure true) s
        fun v s' => ∃ D, Removed C b l v s' D := by
  have hS := hC.static
  have hkind := hS.location_kind _ b hb hlent.2
  rw [hlent.1, hloc] at hkind
  rcases hkind with ⟨hc0, hl, hlstart, hlorigin⟩
  have hchild := hS.child_kind _ b hb (by rw [hlent.1]; exact hc0)
  rw [hlent.1] at hchild
  have hdepth := hS.depth_parent c hchild.1 hchild.2.2.1
  rw [hchild.2.1] at hdepth
  have hrest : rest ≠ [] := by
    rintro rfl
    exact hcut ⟨hlstart.trans hlorigin.symm, hlinked.2.2⟩
  have hchain : ∀ a ∈ l :: rest, C.Has c a := by
    apply hlinked.forall_mem (P := C.Has c)
    . intro _
      exact hl
    . intro a ha hne
      exact (hS.next_kind c a ha hne).1
  have hne : ∀ q a, C.depth q ≤ C.depth C.cur → C.Has q a → a ∉ l :: rest := by
    intro q a hq ha hmem
    rw [hS.has_unique ha (hchain a hmem)] at hq
    omega
  have hsteps := hC.removeCut hb hlent hloc hlinked hrest hplain
  have hlength := hS.length_le_of_owns hchild.1 hlinked.nodup fun a ha => (hchain a ha).1
  have hrun : (removeSubblocksRecAux fuelN c l s).1 = true ∧
      Sim (removeSubblocksRecAux fuelN c l s).2 (C.freeAll ((l :: rest).map fun a => (c, a))) := by
    apply h.run_removeSubblocksRecAux hS.sep hlinked hchain
    unfold fuelN
    omega
  have hmap : ((l :: rest).map fun a => (c, a)).map Prod.snd = l :: rest := by
    rw [List.map_map]
    exact List.map_id _
  have hF : (C.freeAll ((l :: rest).map fun a => (c, a))).Sep := by
    apply hS.sep.freeAll
    . intro x hx
      rcases List.mem_map.mp hx with ⟨a, ha, rfl⟩
      exact hchain a ha
    . rw [hmap]
      exact hlinked.nodup
  have hslotF : ∀ a, a ∉ l :: rest →
      (C.freeAll ((l :: rest).map fun a => (c, a))).slot a = C.slot a := by
    intro a ha
    apply Conf.freeAll_slot_of_notMem
    rw [hmap]
    exact ha
  have hhasF : ∀ q a, (C.freeAll ((l :: rest).map fun a => (c, a))).Has q a ↔
      C.Has q a ∧ a ∉ l :: rest := by
    intro q a
    rw [Conf.freeAll_has, hmap]
  have hfreed : ((C.freeAll ((l :: rest).map fun a => (c, a))).slot l).present = false := by
    have : l ∈ ((l :: rest).map fun a => (c, a)).map Prod.snd := by simp
    simp only [Conf.freeAll, this, if_true, Slot.empty]
  have hrootF : (C.freeAll ((l :: rest).map fun a => (c, a))).root = C.root := rfl
  have hparentF : (C.freeAll ((l :: rest).map fun a => (c, a))).parent = C.parent := rfl
  have hliveF : (C.freeAll ((l :: rest).map fun a => (c, a))).Live = C.Live := rfl
  have hownsF : ∀ p a, (C.freeAll ((l :: rest).map fun a => (c, a))).Owns p a ↔ C.Owns p a :=
    fun p a => Iff.rfl
  have hpresentF : ∀ a, ((C.freeAll ((l :: rest).map fun a => (c, a))).slot a).present = true → _ :=
    fun a ha => Conf.freeAll_present ha
  have houtsideF : ∀ r, ¬C.Below c r → (C.freeAll ((l :: rest).map fun a => (c, a))).free r = C.free r
      ∧ ∀ a, C.Owns r a → (C.freeAll ((l :: rest).map fun a => (c, a))).slot a = C.slot a := by
    intro r hr
    apply Conf.freeAll_outside hS _ hr
    intro x hx
    rcases List.mem_map.mp hx with ⟨a, ha, rfl⟩
    exact ⟨hchain a ha, .self⟩
  have hstructuresF : (C.freeAll ((l :: rest).map fun a => (c, a))).structures = C.structures := rfl
  have hkeptF : ∀ a, ((C.freeAll ((l :: rest).map fun a => (c, a))).slot a).present = true → a ∉ l :: rest := by
    intro a ha hmem
    have hempty : (C.freeAll ((l :: rest).map fun a => (c, a))).slot a = Slot.empty := by
      apply if_pos
      rw [hmap]
      exact hmem
    rw [hempty] at ha
    exact absurd ha (by simp [Slot.empty])
  generalize C.freeAll ((l :: rest).map fun a => (c, a)) = F
    at hrun hF hslotF hhasF hfreed hsteps hrootF hparentF hliveF hownsF
      hpresentF hstructuresF hkeptF houtsideF
  have hbF : F.Has C.cur b := (hhasF _ b).mpr ⟨hb, hne _ b le_rfl hb⟩
  have hbslot := hslotF b (hne _ b le_rfl hb)
  have hlb : l ≠ b := by
    intro heq
    exact hne _ b le_rfl hb (by simp [heq])
  refine .step_eq (Sim · F) hrun.1 hrun.2 fun s₁ h₁ => ?_
  refine .cond (fun hfalse => absurd hfalse (by simp)) fun _ => ?_
  refine .sim (h₁.run_writeAccessible hF.toApart hbF true) fun _ s₂ h₂ => ?_
  rw [Conf.setSlot_accessible] at h₂
  refine .bind (h₂.run_readEnd ((Conf.setAccessible.has _ _ _ _ _).mpr hbF)) ?_
  rw [Conf.setAccessible.endAddr, hbslot]
  have hwalk := h₂.run_writeAccessibleRec (hF.setAccessible _ _) (p := C.cur) (hliveF ▸ hb.live)
    (C.slot b).startAddr (C.slot b).endAddr true
  rw [Conf.allAbove_setAccessible] at hwalk
  unfold Conf.walk at hwalk
  rw [Conf.above_setAccessible, Conf.setAccessible_setAccessible] at hwalk
  have habove : F.Above (C.slot b).startAddr (C.slot b).endAddr C.cur =
      C.Above (C.slot b).startAddr (C.slot b).endAddr C.cur := by
    funext A
    apply propext
    apply hS.sep.above_congr hrootF (fun q _ _ => congrFun hparentF q)
    . intro q a hq
      rw [hhasF]
      exact ⟨fun ha => ha.1, fun ha => ⟨ha, hne q a (Nat.le_of_lt hq) ha⟩⟩
    . intro q a hq ha
      rw [hslotF a (hne q a (Nat.le_of_lt hq) ha)]
      exact ⟨rfl, rfl⟩
    . exact hb.live
  have hall : C.AllAbove (C.slot b).startAddr (C.slot b).endAddr C.cur →
      F.AllAbove (C.slot b).startAddr (C.slot b).endAddr C.cur := by
    apply Conf.AllAbove.congr hS.sep hrootF hparentF _ hb.live
    intro q a hq ha
    have hnotMem := hne q a (Nat.le_of_lt hq) ha
    rw [hhasF, hslotF a hnotMem]
    exact ⟨⟨ha, hnotMem⟩, rfl, rfl⟩
  have hall' : F.AllAbove (C.slot b).startAddr (C.slot b).endAddr C.cur →
      C.AllAbove (C.slot b).startAddr (C.slot b).endAddr C.cur := by
    apply Conf.AllAbove.congr hF hrootF.symm hparentF.symm _ (hliveF ▸ hb.live)
    intro q a _ ha
    have hslot := hpresentF a ha.2
    exact ⟨((hhasF q a).mp ha).1, hslot.2.1.symm, hslot.2.2.symm⟩
  rw [habove] at hwalk
  have hnotb : ¬C.Above (C.slot b).startAddr (C.slot b).endAddr C.cur b := by
    intro hA
    have := hA.depth_lt hS hb.live hb
    omega
  have hnotl : ¬C.Above (C.slot b).startAddr (C.slot b).endAddr C.cur l := by
    intro hA
    have := hA.depth_lt hS hb.live hl
    omega
  have hremoved : ∀ v s₃,
      Sim s₃ (F.setAccessible (fun a => a = b ∨
        C.Above (C.slot b).startAddr (C.slot b).endAddr C.cur a) true) →
      (v = true ↔ C.AllAbove (C.slot b).startAddr (C.slot b).endAddr C.cur) →
      ∃ D, Removed C b l v s₃ D := by
    intro v s₃ h₃ hv
    refine ⟨_, h₃, hF.setAccessible _ _, (Conf.setAccessible.has _ _ _ _ _).mpr hbF, hliveF, hparentF, hrootF,
      hownsF, ?_, ?_, ?_, ?_, ?_, ?_, hstructuresF, ?_, ?_⟩
    . intro a
      rw [Conf.setAccessible.present, Conf.setAccessible.startAddr, Conf.setAccessible.endAddr]
      exact hpresentF a
    . refine Eq.subst (motive := Relation.ReflTransGen Conf.Move C) ?_ hsteps
      refine Conf.ext rfl rfl rfl rfl rfl rfl rfl rfl ?_
      funext a
      by_cases hab : a = b
      . subst hab
        rw [Conf.setAccessible.slot_of_notMem _ _ _ _ hnotb, Conf.setSlot_slot_self,
          Conf.setSlot_slot_self, Conf.setAccessible.slot_of_mem _ _ _ _ (Or.inl rfl), hbslot]
        simp only [Slot.clearSh1, (hS.closed_of_lent hb hlent.2).1]
      . rw [Conf.setSlot_slot_of_ne _ _ hab]
        by_cases hA : C.Above (C.slot b).startAddr (C.slot b).endAddr C.cur a
        . rw [Conf.setAccessible.slot_of_mem _ _ _ _ hA,
            Conf.setAccessible.slot_of_mem _ _ _ _ (Or.inr hA), Conf.setSlot_slot_of_ne _ _ hab]
        . rw [Conf.setAccessible.slot_of_notMem _ _ _ _ hA,
            Conf.setAccessible.slot_of_notMem _ _ _ _ (not_or.mpr ⟨hab, hA⟩),
            Conf.setSlot_slot_of_ne _ _ hab]
    . rw [Conf.setAccessible.slot_of_mem _ _ _ _ (Or.inl rfl)]
    . rw [Conf.setAccessible.present]
      exact hfreed
    . intro hfalse
      refine ⟨hcut, fun habove => ?_⟩
      rw [hv.mpr habove] at hfalse
      exact absurd hfalse (by simp)
    . exact fun htrue _ => hv.mp htrue
    . intro a ha
      rw [Conf.setAccessible.present] at ha
      rw [← hslotF a (hkeptF a ha)]
      by_cases hmem : a = b ∨ C.Above (C.slot b).startAddr (C.slot b).endAddr C.cur a
      . exact .inr (Conf.setAccessible.slot_of_mem _ _ _ _ hmem)
      . exact .inl (Conf.setAccessible.slot_of_notMem _ _ _ _ hmem)
    . intro r hr
      rw [hlent.1] at hr
      refine ⟨(houtsideF r hr).1, fun a ha => ?_⟩
      rw [← (houtsideF r hr).2 a ha]
      by_cases hmem : a = b ∨ C.Above (C.slot b).startAddr (C.slot b).endAddr C.cur a
      . exact .inr (Conf.setAccessible.slot_of_mem _ _ _ _ hmem)
      . exact .inl (Conf.setAccessible.slot_of_notMem _ _ _ _ hmem)
  have hvalue := hwalk.2.trans ⟨hall', hall⟩
  refine .step_eq (Sim · _) rfl hwalk.1 fun s₃ h₃ => ?_
  refine .cond (fun hfailed => .pure (hremoved _ _ h₃ ?_)) fun hdone => .pure (hremoved _ _ h₃ ?_)
  . simp only [Bool.not_eq_true'] at hfailed
    rw [hfailed] at hvalue
    exact hvalue
  . simp only [Bool.not_eq_true', Bool.not_eq_false] at hdone
    rw [hdone] at hvalue
    exact hvalue

/--
The removal from the child, for a block that the child has or has not cut.
-/
theorem run_removeBlockInChildAndDescendants (h : Sim s C) (hC : C.Inv) {b c l : Nat}
    (hb : C.Has C.cur b) (hlent : C.Lent b c) (hloc : (C.slot b).inChildLocation = l)
    : LLI.Ensures (removeBlockInChildAndDescendants C.cur b c l) s fun v s' =>
        (v = false ∧ s' = s ∧ ¬C.Removable l) ∨ (C.Removable l ∧ ∃ D, Removed C b l v s' D) := by
  have hS := hC.static
  have hkind := hS.location_kind _ b hb hlent.2
  rw [hlent.1, hloc] at hkind
  have hl := hkind.2.1
  rcases h.run_checkBlockCut hl with ⟨v, hrun, hv⟩
  unfold removeBlockInChildAndDescendants
  refine .bind (h.run_readStart hb.1) ?_
  refine .bind hrun ?_
  refine .cond (fun huncut => ?_) fun hcut => ?_
  . simp only [Bool.not_eq_true'] at huncut
    refine .bind (h.run_readAccessible hl.1) ?_
    refine .cond (fun hacc => .pure (Or.inl ⟨rfl, rfl, ?_⟩)) fun hacc => ?_
    . simp only [Bool.not_eq_true'] at hacc
      rintro (⟨-, hacc'⟩ | ⟨hcut, -⟩)
      . exact absurd (hacc'.symm.trans hacc) (by simp)
      . exact hcut (hv.mp huncut)
    simp only [Bool.not_eq_true', Bool.not_eq_false] at hacc
    have hremove := h.run_removeUncut hC hb hlent hloc (hv.mp huncut) hacc
    rcases hremove with ⟨hval, D, hD⟩
    refine .step_eq (fun s' => Removed C b l true s' D) hval (hval ▸ hD) fun s₁ hs₁ => ?_
    refine .cond (fun hfalse => absurd hfalse (by simp)) fun _ => ?_
    exact .pure (.inr ⟨.inl ⟨hv.mp huncut, hacc⟩, D, hs₁⟩)
  . simp only [Bool.not_eq_true', Bool.not_eq_false] at hcut
    have hnot : ¬(C.slot l).Uncut := by
      intro huncut
      rw [hv.mpr huncut] at hcut
      exact absurd hcut (by simp)
    rcases h.run_checkRemoveSubblocksRecAux hS fuelN hl with ⟨w, hcheck, hw⟩
    refine .bind hcheck ?_
    refine .cond (fun hrefused => .pure (Or.inl ⟨rfl, rfl, ?_⟩)) fun hpossible => ?_
    . simp only [Bool.not_eq_true'] at hrefused
      rintro (⟨huncut, -⟩ | ⟨-, rest, hlinked, hplain⟩)
      . exact hnot huncut
      . have hchain : ∀ a ∈ l :: rest, C.Has c a := by
          apply hlinked.forall_mem (P := C.Has c)
          . exact fun _ => hl
          . exact fun a ha hne => (hS.next_kind c a ha hne).1
        have hlength := hS.length_le_of_owns hl.live hlinked.nodup fun a ha => (hchain a ha).1
        rw [List.length_cons] at hlength
        have hfuel : rest.length < fuelN := by
          unfold fuelN
          omega
        have hrun' := h.run_checkRemoveSubblocksRecAux_plain hS hl hlinked hplain hfuel
        rw [hcheck] at hrun'
        exact absurd ((congrArg Prod.fst hrun').symm.trans hrefused) (by simp)
    simp only [Bool.not_eq_true', Bool.not_eq_false] at hpossible
    rcases hw hpossible with ⟨rest, hlinked, hplain⟩
    exact (h.run_removeCut hC hb hlent hloc hnot hlinked hplain).mono fun _ _ hD =>
      .inr ⟨.inr ⟨hnot, rest, hlinked, hplain⟩, hD⟩

/--
The service on a block that is shared: nothing happens because the block cannot be taken back or its entry is
where the VIDT of the child should be, the block is taken back, or the removal fails after the slots were freed.
In the last case the record of the block keeps pointing at a slot that is free now.
-/
theorem run_removeMemoryBlock_shared (h : Sim s C) (hC : C.Inv) {b : Nat} (hb : C.Has C.cur b)
    (hchild : (C.slot b).PDchild ≠ 0) (hlocation : (C.slot b).inChildLocation ≠ 0)
    : LLI.Ensures (removeMemoryBlock b) s fun v s' =>
        (v = false ∧ s' = s ∧ ((s.pdtables.get (C.slot b).PDchild).vidtAddr = b
          ∨ ¬C.Removable (C.slot b).inChildLocation))
        ∨ (v = true ∧ (s.pdtables.get (C.slot b).PDchild).vidtAddr ≠ b
          ∧ ∃ s₁ D, Removed C b (C.slot b).inChildLocation true s₁ D
            ∧ Sim s' (D.setSlot b (D.slot b).clearSh1))
        ∨ (v = false ∧ (s.pdtables.get (C.slot b).PDchild).vidtAddr ≠ b ∧ C.Removable (C.slot b).inChildLocation
          ∧ ∃ D, Removed C b (C.slot b).inChildLocation false s' D) := by
  have hS := hC.static
  have hne := hS.owns_ne_zero hb.1
  unfold removeMemoryBlock
  refine .bind h.run_getCurPartition ?_
  refine .bind (h.run_findWithAddr_some hS.sep hb) ?_
  refine .bind (compareAddrToNull_run _ _) ?_
  refine .cond (fun hnull => absurd (of_decide_eq_true hnull) hne) fun _ => ?_
  refine .bind (h.run_readPDChild hb.1) ?_
  refine .bind (compareAddrToNull_run _ _) ?_
  refine .cond (fun hnull => absurd (of_decide_eq_true hnull) hchild) fun _ => ?_
  refine .bind (h.run_readInChildLocation hb.1) ?_
  refine .bind (compareAddrToNull_run _ _) ?_
  refine .cond (fun hnull => absurd (of_decide_eq_true hnull) hlocation) fun _ => ?_
  refine .bind (readPDField_run _ _ _) ?_
  refine .cond (fun hvidt => ?_) fun hvidt => ?_
  . rw [beqAddr_eq, decide_eq_true_eq] at hvidt
    exact .pure (.inl ⟨rfl, rfl, .inl hvidt⟩)
  rw [beqAddr_eq, decide_eq_true_eq] at hvidt
  have hremove := h.run_removeBlockInChildAndDescendants hC hb ⟨rfl, hlocation⟩ rfl
  generalize hm : removeBlockInChildAndDescendants C.cur b (C.slot b).PDchild
    (C.slot b).inChildLocation s = result at hremove
  rcases result with ⟨v, s₁⟩
  refine .bind hm ?_
  unfold LLI.Ensures at hremove
  rw [hm] at hremove
  refine .cond (fun hfailed => ?_) fun hdone => ?_
  . simp only [Bool.not_eq_true'] at hfailed
    subst hfailed
    rcases hremove with ⟨-, hs, hrefused⟩ | ⟨hremovable, D, hD⟩
    . exact .pure (.inl ⟨rfl, hs, .inr hrefused⟩)
    . exact .pure (.inr (.inr ⟨rfl, hvidt, hremovable, D, hD⟩))
  . simp only [Bool.not_eq_true', Bool.not_eq_false] at hdone
    subst hdone
    rcases hremove with ⟨hfalse, -⟩ | ⟨-, D, hD⟩
    . exact absurd hfalse (by simp)
    . refine .sim (hD.sim.run_clearSh1 hD.sep.toApart hD.has.1) fun _ s₂ h₂ => ?_
      exact .pure (.inr (.inl ⟨rfl, hvidt, s₁, D, hD, h₂⟩))

theorem run_removeMemoryBlock_unshared (h : Sim s C) (hC : C.Inv) (a : Nat)
    (hunshared : C.Has C.cur a → (C.slot a).PDchild = 0 ∨ (C.slot a).inChildLocation = 0)
    : removeMemoryBlock a s = (false, s) := by
  have hS := hC.static
  suffices hensures : LLI.Ensures (removeMemoryBlock a) s fun v s' => (v, s') = (false, s) from hensures
  rcases h.run_findWithAddr hS.sep hS.cur_live a with ⟨b, hrun, hb⟩
  unfold removeMemoryBlock
  refine .bind h.run_getCurPartition ?_
  refine .bind hrun ?_
  refine .bind (compareAddrToNull_run _ _) ?_
  refine .cond (fun _ => .pure rfl) fun hne => ?_
  simp only [decide_eq_true_eq] at hne
  rcases hb hne with ⟨rfl, hb⟩
  refine .bind (h.run_readPDChild hb.1) ?_
  refine .bind (compareAddrToNull_run _ _) ?_
  refine .cond (fun _ => .pure rfl) fun hchild => ?_
  refine .bind (h.run_readInChildLocation hb.1) ?_
  refine .bind (compareAddrToNull_run _ _) ?_
  refine .cond (fun _ => .pure rfl) fun hlocation => ?_
  simp only [decide_eq_true_eq] at hchild hlocation
  exact absurd (hunshared hb) (not_or.mpr ⟨hchild, hlocation⟩)

theorem run_removeMemoryBlock_cases (h : Sim s C) (hC : C.Inv) (a : Nat)
    : LLI.Ensures (removeMemoryBlock a) s fun v s' => C.Moves s' ∨
        (v = false ∧ C.Has C.cur a ∧ (C.slot a).PDchild ≠ 0 ∧ (C.slot a).inChildLocation ≠ 0
          ∧ ∃ D, Removed C a (C.slot a).inChildLocation false s' D) := by
  by_cases hshared : C.Has C.cur a ∧ (C.slot a).PDchild ≠ 0 ∧ (C.slot a).inChildLocation ≠ 0
  . rcases hshared with ⟨ha, hchild, hlocation⟩
    apply (h.run_removeMemoryBlock_shared hC ha hchild hlocation).mono
    rintro v s' (⟨-, rfl, -⟩ | ⟨-, -, s₁, D, hD, h'⟩ | ⟨rfl, -, -, hD⟩)
    . exact .inl h.moves
    . exact .inl ⟨_, hD.steps, h'⟩
    . exact .inr ⟨rfl, ha, hchild, hlocation, hD⟩
  . have hrun := h.run_removeMemoryBlock_unshared hC a fun ha => by
      by_contra hne
      exact hshared ⟨ha, (not_or.mp hne).1, (not_or.mp hne).2⟩
    unfold LLI.Ensures
    rw [hrun]
    exact .inl h.moves

end Sim
