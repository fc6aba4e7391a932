import PipMpu.Core.Effects
import PipMpu.Refine.Ensures
import PipMpu.Spec.Release

/-!
This module contains the refinement of `deletePartition`. The loops over the slots of the parent keep
the relation to a view in which the records of the child are cleared one after the other.
-/

namespace Conf

variable {C : Conf}

/--
No kernel data of the remaining partitions lies in the block of the descriptor that is removed.
-/
theorem Inv.clear_dropTree (hC : C.Inv) {p b : Nat} (hb : C.Has p b) (hflag : (C.slot b).PDflag = true)
    : (C.dropTree (C.slot b).startAddr).Clear (C.slot b).range := by
  have hS := hC.static
  have hloc := (hS.flag_kind p b hb hflag).2.1
  constructor
  . rintro q ⟨hq, hbelow⟩ hmem
    by_cases hroot : q = C.root
    . subst hroot
      apply Set.disjoint_left.mp (hS.root_disjoint_block hb).1 _ hmem
      exact ⟨Nat.le_refl _, by rw [sizeofPDTable_eq]; omega⟩
    . rcases hS.pd_house q hq hroot with ⟨H, hH, hHflag, hstart, -⟩
      have hmemH := hS.mem_range_start hH
      rw [hstart] at hmemH
      have heq := (hS.eq_of_not_lent hH hb (hS.flag_kind _ H hH hHflag).2.1 hloc hmemH hmem).2
      subst heq
      rw [hstart] at hbelow
      exact hbelow Below.self
  . rintro q k x ⟨hq, -⟩ hk hx hmem
    rcases hS.structure_house q k hq hk with ⟨-, hk₀⟩ | ⟨H, hH⟩
    . subst hk₀
      exact Set.disjoint_left.mp (hS.root_disjoint_block hb).2 hx hmem
    . rcases hH.has with ⟨r, hr⟩
      have heq := (hS.eq_of_not_lent hr hb hH.inChild_eq hloc (Static.structureRange_subset hH hx) hmem).2
      subst heq
      exact absurd (hH.flag_eq.symm.trans hflag) (by simp)

/--
The blocks that are taken back from the child with the descriptor in `b`: those given to it and `b` itself.
-/
def Releases (C : Conf) (b x : Nat) : Prop :=
  (C.Owns C.cur x ∧ (C.slot x).PDchild = (C.slot b).startAddr) ∨ x = b

end Conf

theorem readBlockField_run {α : Type} (field : BlockEntry → α) (a : Nat) (s : State)
    : readBlockField field a s = (field (s.blockEntries.get a), s) := by
  rfl

/--
Blocks that become accessible are not taken out of the MPU.
-/
theorem writeAccessibleRec_pdtables (p lo hi : Nat) (s : State)
    : (writeAccessibleRec p lo hi true s).2.pdtables = s.pdtables := by
  have hrefl : Std.Refl fun s s' : State => s'.pdtables = s.pdtables := ⟨fun _ => rfl⟩
  have htrans : IsTrans State fun s s' : State => s'.pdtables = s.pdtables := ⟨fun _ _ _ h h' => h'.trans h⟩
  apply writeAccessibleRecAux_keeps (R := fun s s' : State => s'.pdtables = s.pdtables)
  . exact fun _ _ => rfl
  . exact fun hfalse => absurd hfalse (by simp)

namespace Sim

variable {s : State} {C X : Conf} {c : Nat}

theorem dropTree (h : Sim s C) (c : Nat) : Sim s (C.dropTree c) where
  cur := h.cur
  root := h.root
  parent p hp := h.parent p hp.1
  structures p hp := h.structures p hp.1
  free p hp := h.free p hp.1
  nbfreeslots p hp := h.nbfreeslots p hp.1
  nbprepare p hp := h.nbprepare p hp.1
  blockindex p k i hp := h.blockindex p k i hp.1
  slot p k i hp := h.slot p k i hp.1

/--
The code that takes one block back, `f` is what follows the test whether the block is cut.
-/
theorem run_reclaim (h : Sim s X) (hX : X.Sep) {p a : Nat} (ha : X.Has p a) {α : Type}
    {f : Bool → LLI α} {lo hi : Nat} {post : α → State → Prop} (hlo : lo = (X.slot a).startAddr)
    (hhi : hi = (X.slot a).endAddr)
    (huncut : ∀ s', s'.pdtables = s.pdtables → Sim (writeAccessibleRec p lo hi true s').2 (X.reclaim p a) →
      LLI.Ensures (f false) s' post)
    (hcut : ∀ s', s'.pdtables = s.pdtables → Sim s' (X.reclaim p a) → LLI.Ensures (f true) s' post)
    : LLI.Ensures
        (do
          writeBlockAccessibleFromBlockEntryAddr a true
          writeSh1EntryFromBlockEntryAddr a nullAddr false nullAddr
          let isCut ← checkBlockCut a
          f isCut) s post := by
  refine .step (fun s₁ => Sim s₁ (X.setSlot a { X.slot a with accessible := true }) ∧ s₁.pdtables = s.pdtables)
    ⟨h.run_writeAccessible hX.toApart ha true, rfl⟩ ?_
  rintro _ s₁ ⟨h₁, hpd₁⟩
  rw [Conf.setSlot_accessible] at h₁
  have hX₁ := hX.setAccessible (· = a) true
  have ha₁ : (X.setAccessible (· = a) true).Has p a := by simpa using ha
  refine .step (fun s₂ => Sim s₂ ((X.setAccessible (· = a) true).setSlot a
    ((X.setAccessible (· = a) true).slot a).clearSh1) ∧ s₂.pdtables = s.pdtables)
    ⟨h₁.run_clearSh1 hX₁.toApart ha₁.1, hpd₁⟩ ?_
  rintro _ s₂ ⟨h₂, hpd₂⟩
  have heq : (X.setAccessible (· = a) true).setSlot a
      ((X.setAccessible (· = a) true).slot a).clearSh1 =
      (X.setSlot a (X.slot a).clearSh1).setAccessible (· = a) true := by
    refine Conf.ext rfl rfl rfl rfl rfl rfl rfl rfl ?_
    funext x
    by_cases hx : x = a
    . subst hx
      rw [Conf.setSlot_slot_self, Conf.setAccessible.slot_of_mem _ (· = x) _ _ rfl,
        Conf.setAccessible.slot_of_mem _ (· = x) _ _ rfl, Conf.setSlot_slot_self]
      rfl
    . rw [Conf.setSlot_slot_of_ne _ _ hx, Conf.setAccessible.slot_of_notMem _ (· = a) _ _ hx,
        Conf.setAccessible.slot_of_notMem _ (· = a) _ _ hx, Conf.setSlot_slot_of_ne _ _ hx]
  rw [heq] at h₂
  have hX₂ := (hX.setSlot a (X.slot a).clearSh1 rfl rfl rfl).setAccessible (· = a) true
  have ha₂ : ((X.setSlot a (X.slot a).clearSh1).setAccessible (· = a) true).Has p a := by
    rw [Conf.setAccessible.has, Conf.setSlot_has (by rfl)]
    exact ha
  have hslot : (X.setSlot a (X.slot a).clearSh1).slot a = (X.slot a).clearSh1 := Conf.setSlot_slot_self _ _ _
  rcases h₂.run_checkBlockCut ha₂ with ⟨v, hrun, hv⟩
  rw [Conf.setAccessible.uncut, hslot] at hv
  refine .bind hrun ?_
  unfold Conf.reclaim at huncut hcut
  cases v with
  | false =>
    have hwalk := (h₂.run_writeAccessibleRec hX₂ ha₂.live lo hi true).1
    apply huncut s₂ hpd₂
    rw [Conf.access_of_uncut (by rw [hslot]; exact hv.mp rfl), hslot]
    rw [hlo, hhi] at hwalk ⊢
    exact hwalk
  | true =>
    apply hcut s₂ hpd₂
    rw [Conf.access_of_cut]
    . exact h₂
    . rw [hslot]
      intro huncut
      exact absurd (hv.mpr huncut) (by simp)

/--
The loops clear the records of `c` in the slots they visit, and no record of another partition.
-/
structure Cleared (C : Conf) (c : Nat) (X : Conf) (visited : Nat → Prop) (s' : State) (X' : Conf)
    : Prop where
  sim : Sim s' X'
  reclaiming : C.Reclaiming c X'
  kept : ∀ a, (X.slot a).PDchild ≠ c → (X'.slot a).PDchild = (X.slot a).PDchild ∧
    (X'.slot a).PDflag = (X.slot a).PDflag
  child : ∀ a, visited a → (X'.slot a).PDchild ≠ c

theorem Cleared.trans {X₁ X₂ : Conf} {visited visited' : Nat → Prop} {s₁ s₂ : State}
    (h : Cleared C c X visited s₁ X₁) (h' : Cleared C c X₁ visited' s₂ X₂)
    : Cleared C c X (fun a => visited a ∨ visited' a) s₂ X₂ := by
  refine ⟨h'.sim, h'.reclaiming, ?_, ?_⟩
  . intro a ha
    have hkept := h.kept a ha
    have hkept' := h'.kept a (by rw [hkept.1]; exact ha)
    exact ⟨hkept'.1.trans hkept.1, hkept'.2.trans hkept.2⟩
  . rintro a (ha | ha)
    . have hchild := h.child a ha
      rw [(h'.kept a hchild).1]
      exact hchild
    . exact h'.child a ha

/--
The loops take back all blocks of `c` that they visit, and the descriptors stay as they are.
-/
structure Released (C : Conf) (c : Nat) (s : State) (X : Conf) (visited : Nat → Prop) (s' : State) (X' : Conf)
    : Prop extends Cleared C c X visited s' X' where
  view : X' = X.reclaimAll C.cur fun a => visited a ∧ (X.slot a).PDchild = c
  pdtables : s'.pdtables = s.pdtables

theorem Released.trans {X₁ X₂ : Conf} {visited visited' : Nat → Prop} {s₁ s₂ : State}
    (h : Released C c s X visited s₁ X₁) (h' : Released C c s₁ X₁ visited' s₂ X₂)
    : Released C c s X (fun a => visited a ∨ visited' a) s₂ X₂ := by
  refine ⟨h.toCleared.trans h'.toCleared, ?_, h'.pdtables.trans h.pdtables⟩
  rw [h'.view]
  nth_rewrite 1 [h.view]
  rw [Conf.reclaimAll_reclaimAll]
  congr 1
  funext a
  apply propext
  by_cases hchild : (X.slot a).PDchild = c
  . by_cases hvisited : visited a
    . simp [hchild, hvisited]
    . have hrecords := Conf.reclaimAll.records (C := X) (p := C.cur)
        (G := fun a => visited a ∧ (X.slot a).PDchild = c) (a := a) fun hmem => hvisited hmem.1
      rw [← h.view] at hrecords
      simp [hchild, hvisited, hrecords.1]
  . have hkept := (h.kept a hchild).1
    rw [hkept]
    simp [hchild]

theorem Released.congr {X' : Conf} {visited visited' : Nat → Prop} {s' : State}
    (h : Released C c s X visited s' X') (hvisited : ∀ a, visited' a ↔ visited a)
    : Released C c s X visited' s' X' := by
  have heq : visited' = visited := funext fun a => propext (hvisited a)
  rw [heq]
  exact h

theorem run_deleteSharedBlocksInStructRecAux (hC : C.Static) (hdrop : C.CanDrop c) (h : Sim s X)
    (hX : C.Reclaiming c X) {k : Nat} (hk : k ∈ C.structures C.cur) {i fuel : Nat} (hi : i < 8)
    (hfuel : i < fuel)
    : LLI.Ensures (deleteSharedBlocksInStructRecAux fuel C.cur k c i) s fun _ s' =>
        ∃ X', Released C c s X (fun a => ∃ j ≤ i, a = slotAddr k j) s' X' := by
  have hc := hC.live_ne_zero hdrop.live
  induction fuel generalizing s X i with
  | zero => omega
  | succ fuel ih =>
    have howns : X.Owns C.cur (slotAddr k i) :=
      (hX.owns_iff _ _).mpr ⟨⟨hC.cur_live, k, hk, slotAddr_mem hi⟩, hdrop.not_below_cur hC⟩
    -- what is left once the slot `i` has no record of `c`
    have hnext : ∀ X₁ s₁, Released C c s X (· = slotAddr k i) s₁ X₁ →
        LLI.Ensures
          (do
            let zeroIdx ← Index.zero
            if beqIdx i zeroIdx then
              pure true
            else do
              let idxpred ← Index.pred i
              deleteSharedBlocksInStructRecAux fuel C.cur k c idxpred) s₁ fun _ s' =>
          ∃ X', Released C c s X (fun a => ∃ j ≤ i, a = slotAddr k j) s' X' := by
      intro X₁ s₁ h₁
      refine .bind rfl ?_
      rw [beqIdx_eq]
      refine .cond (fun hzero => .pure ⟨X₁, h₁.congr ?_⟩) fun hpos => ?_
      . rw [decide_eq_true_eq] at hzero
        subst hzero
        simp
      . rw [decide_eq_true_eq] at hpos
        have hpred : sub32 i 1 = i - 1 := sub32_eq (by omega) (by rw [wordSize_eq]; omega)
        refine .bind rfl ?_
        rw [hpred]
        refine (ih h₁.sim h₁.reclaiming (by omega) (by omega)).mono ?_
        rintro _ s' ⟨X', hX'⟩
        refine ⟨X', (h₁.trans hX').congr fun a => ?_⟩
        constructor
        . rintro ⟨j, hj, rfl⟩
          by_cases hji : j = i
          . exact Or.inl (by rw [hji])
          . exact Or.inr ⟨j, by omega, rfl⟩
        . rintro (rfl | ⟨j, hj, rfl⟩)
          . exact ⟨i, Nat.le_refl i, rfl⟩
          . exact ⟨j, by omega, rfl⟩
    unfold deleteSharedBlocksInStructRecAux
    refine .bind rfl ?_
    refine .bind (h.run_readStart howns) ?_
    refine .bind (readBlockField_run _ _ _) ?_
    refine .bind (h.run_readPDChild howns) ?_
    rw [beqAddr_eq]
    refine .cond (fun hchild => ?_) fun hchild => ?_
    . rw [decide_eq_true_eq] at hchild
      have hhas : X.Has C.cur (slotAddr k i) := by
        refine ⟨howns, ?_⟩
        rw [hX.present]
        exact (hC.has_of_given hc ((hX.owns_iff _ _).mp howns).1 (hX.given _ (Or.inl hchild))).1.2
      rcases hX.reclaim hC hc hhas (Or.inl hchild) with ⟨hreclaiming, hother, hself⟩
      have hset : (fun a => a = slotAddr k i ∧ (X.slot a).PDchild = c) = (· = slotAddr k i) := by
        funext a
        apply propext
        rw [and_iff_left_iff_imp]
        rintro rfl
        exact hchild
      have hreleased : ∀ s', Sim s' (X.reclaim C.cur (slotAddr k i)) → s'.pdtables = s.pdtables →
          Released C c s X (· = slotAddr k i) s' (X.reclaim C.cur (slotAddr k i)) := by
        intro s' h' hpd
        refine ⟨⟨h', hreclaiming, ?_, ?_⟩, ?_, hpd⟩
        . intro a ha
          exact hother a fun heq => ha (heq ▸ hchild)
        . rintro a rfl
          exact fun heq => hself (Or.inl heq)
        . rw [hset]
          exact X.reclaim_eq_reclaimAll _ _
      refine h.run_reclaim hX.sep hhas rfl (h.endAddr_eq hhas) (fun s' hpd h' => ?_) fun s' hpd h' => ?_
      . refine .cond (fun _ => ?_) fun hfalse => absurd rfl hfalse
        refine .step (fun s'' => Sim s'' (X.reclaim C.cur (slotAddr k i)) ∧ s''.pdtables = s.pdtables)
          ⟨h', (writeAccessibleRec_pdtables _ _ _ s').trans hpd⟩ ?_
        rintro _ s'' ⟨h'', hpd'⟩
        exact hnext _ s'' (hreleased s'' h'' hpd')
      . refine .cond (fun hfalse => absurd hfalse (by simp)) fun _ => ?_
        exact hnext _ s' (hreleased s' h' hpd)
    . rw [decide_eq_true_eq] at hchild
      refine hnext X s ⟨⟨h, hX, fun a _ => ⟨rfl, rfl⟩, ?_⟩, (Conf.reclaimAll_of_none ?_).symm, rfl⟩
      . rintro a rfl
        exact hchild
      . rintro a ⟨rfl, hgiven⟩
        exact hchild hgiven

theorem run_deleteSharedBlocksRecAux (hC : C.Static) (hdrop : C.CanDrop c) (h : Sim s X)
    (hX : C.Reclaiming c X) (pre : List Nat) {ks : List Nat} (hks : C.structures C.cur = pre ++ ks)
    {k fuel : Nat}
    (hlinked : Linked s.nextStructure k ks) (hfuel : ks.length < fuel)
    : LLI.Ensures (deleteSharedBlocksRecAux fuel C.cur k c) s fun _ s' =>
        ∃ X', Released C c s X (fun a => ∃ k' ∈ ks, a ∈ slotsOf k') s' X' := by
  induction fuel generalizing s X pre ks k with
  | zero => omega
  | succ fuel ih =>
    unfold deleteSharedBlocksRecAux
    rw [beqAddr_eq]
    cases ks with
    | nil =>
      refine .cond (fun _ => .pure ⟨X, ⟨h, hX, fun a _ => ⟨rfl, rfl⟩, by simp⟩, ?_, rfl⟩) fun hne => ?_
      . exact (Conf.reclaimAll_of_none (by simp)).symm
      . exact absurd (decide_eq_true (show k = nullAddr from hlinked)) hne
    | cons x rest =>
      rcases hlinked with ⟨rfl, hne, hrest⟩
      have hk : k ∈ C.structures C.cur := by simp [hks]
      refine .cond (fun hzero => absurd (of_decide_eq_true hzero) hne) fun _ => ?_
      refine .bind rfl ?_
      refine .bind rfl ?_
      have hstruct : LLI.Ensures (deleteSharedBlocksInStructRecAux fuelN C.cur k c 7) s fun _ s' =>
          ∃ X', Released C c s X (fun a => ∃ j ≤ 7, a = slotAddr k j) s' X' :=
        run_deleteSharedBlocksInStructRecAux hC hdrop h hX hk (by omega) (by decide)
      refine .step (fun s' => ∃ X', Released C c s X (fun a => ∃ j ≤ 7, a = slotAddr k j) s' X') hstruct ?_
      rintro - s₁ ⟨X₁, h₁⟩
      have hstructures := h₁.sim.structures C.cur (by
        rw [h₁.reclaiming.live]
        exact ⟨hC.cur_live, hdrop.not_below_cur hC⟩)
      rw [h₁.reclaiming.structures, hks] at hstructures
      have htail := hstructures.of_append.2.2
      refine .bind rfl ?_
      refine (ih h₁.sim h₁.reclaiming (pre ++ [k]) (by simp [hks]) htail ?_).mono ?_
      . simp only [List.length_cons] at hfuel
        omega
      . rintro _ s' ⟨X', hX'⟩
        refine ⟨X', (h₁.trans hX').congr fun a => ?_⟩
        have hslots : a ∈ slotsOf k ↔ ∃ j ≤ 7, a = slotAddr k j := by
          rw [mem_slotsOf]
          simp only [← slotAddr_eq, Nat.lt_succ_iff]
        simp only [List.mem_cons, exists_eq_or_imp, hslots]

/--
Once no record of `c` is left, the view of the code is one that transitions lead to.
-/
theorem clearGiven_of_reclaiming (hC : C.Static) (hdrop : C.CanDrop c) (h : Sim s X)
    (hX : C.Reclaiming c X) (hnone : ∀ a, C.Has C.cur a → ¬(X.slot a).GivenTo c) : Sim s (X.clearGiven c) := by
  apply h.congr
  constructor
  case cur => rfl
  case root => rfl
  case live => rfl
  case parent => exact fun _ _ _ => rfl
  case structures => exact fun _ _ => rfl
  case free => exact fun _ _ => rfl
  case slot =>
    intro q a ha
    apply Conf.clearGiven_slot_of_not
    intro hgiven
    have hown := ((hX.owns_iff q a).mp ha).1
    rcases hC.has_of_given (hC.live_ne_zero hdrop.live) hown (hX.given a hgiven) with ⟨hhas, hparent⟩
    rw [← hparent, ← hdrop.cur_eq] at hhas
    exact hnone a hhas hgiven

/--
The state after `deletePartition` on a block that holds a descriptor: the blocks given to the child and the block
itself are taken back, and only descriptors inside the block change.
-/
theorem run_deletePartition_released (h : Sim s C) (hC : C.Inv) (a : Nat)
    : LLI.Ensures (deletePartition a) s fun v s' => (v = false ∧ s' = s ∧ ¬(C.Has C.cur a ∧ (C.slot a).PDflag = true)) ∨
        (v = true ∧ C.Has C.cur a ∧ (C.slot a).PDflag = true ∧ C.CanDrop (C.slot a).startAddr
          ∧ (∀ x, x ∉ (C.slot a).range → s'.pdtables.get x = s.pdtables.get x)
          ∧ ∃ X, X = (C.dropTree (C.slot a).startAddr).reclaimAll C.cur (C.Releases a)
            ∧ C.Reclaiming (C.slot a).startAddr X ∧ Sim s' X) := by
  have hS := hC.static
  rcases h.run_findWithAddr hS.sep hS.cur_live a with ⟨b, hrun, hb⟩
  unfold deletePartition
  refine .bind h.run_getCurPartition ?_
  refine .bind hrun ?_
  refine .bind (compareAddrToNull_run _ _) ?_
  refine .cond (fun hnull => .pure (.inl ⟨rfl, rfl, ?_⟩)) fun hne => ?_
  . rintro ⟨ha, -⟩
    have hfound := h.run_findWithAddr_some hS.sep ha
    rw [hrun, Prod.mk.injEq, of_decide_eq_true hnull] at hfound
    exact hS.owns_ne_zero ha.1 hfound.1.symm
  simp only [decide_eq_true_eq] at hne
  rcases hb hne with ⟨rfl, hb⟩
  refine .bind (h.run_readPDFlag hb.1) ?_
  refine .cond (fun hflag => .pure (.inl ⟨rfl, rfl, ?_⟩)) fun hflag => ?_
  . rintro ⟨-, htrue⟩
    exact absurd htrue (by simpa using hflag)
  simp only [Bool.not_eq_true', Bool.not_eq_false] at hflag
  refine .bind (h.run_readStart hb.1) ?_
  refine .bind (h.run_readEnd hb) ?_
  rcases hS.flag_kind _ b hb hflag with ⟨hchild, -, hclive, hparent, hcroot⟩
  have hclear := hC.clear_dropTree hb hflag
  have hstart := hS.start_lt _ b hb
  have hdrop : C.CanDrop (C.slot b).startAddr := ⟨hclive, hcroot, hparent.symm⟩
  generalize hc : (C.slot b).startAddr = c at hclive hparent hcroot hclear hdrop
  have hc0 := hS.live_ne_zero hclive
  have hX := Conf.Reclaiming.start hS hdrop
  have hb₁ : (C.dropTree c).Has C.cur b :=
    ⟨(hX.owns_iff _ b).mpr ⟨hb.1, hdrop.not_below_cur hS⟩, hb.2⟩
  have hrange : Set.Ico c (C.slot b).endAddr = (C.slot b).range := by rw [← hc]; rfl
  have herase := SameOutside.of_eraseBlock c (C.slot b).endAddr s
  refine .step (fun s₁ => Sim s₁ (C.dropTree c) ∧ ∀ x, x ∉ (C.slot b).range → s₁.pdtables.get x = s.pdtables.get x)
    ⟨(h.dropTree c).outside hX.sep.toApart hclear (hrange ▸ herase), hrange ▸ herase.pdtables⟩ ?_
  rintro _ s₁ ⟨h₁, hpd₁⟩
  have hstructures : Linked s₁.nextStructure (s₁.pdtables.get C.cur).structurePtr
      (C.structures C.cur) := h₁.structures C.cur hb₁.live
  refine .bind (readPDField_run _ _ _) ?_
  refine .bind (h₁.run_readStart hb₁.1) ?_
  refine .bind (h₁.run_readEnd hb₁) ?_
  have hlength := hS.structures_length _ hS.cur_live
  have hloop := run_deleteSharedBlocksRecAux hS hdrop h₁ hX [] rfl hstructures
    (Nat.lt_of_le_of_lt hlength (show 8 < fuelN by decide))
  simp only [show ((C.dropTree c).slot b).startAddr = c from hc]
  refine .step (fun s' => ∃ X', Released C c s₁ (C.dropTree c)
    (fun a => ∃ k' ∈ C.structures C.cur, a ∈ slotsOf k') s' X') hloop ?_
  rintro - s₂ ⟨X₂, h₂⟩
  have hkept := h₂.kept b (by
    show (C.slot b).PDchild ≠ c
    rw [hchild]
    exact Ne.symm hc0)
  have hgiven : (X₂.slot b).GivenTo c :=
    Or.inr ⟨hkept.2.trans hflag, (h₂.reclaiming.startAddr b).trans hc⟩
  have hb₂ : X₂.Has C.cur b :=
    ⟨(h₂.reclaiming.owns_iff _ b).mpr ⟨hb.1, hdrop.not_below_cur hS⟩,
      (h₂.reclaiming.present b).trans hb.2⟩
  have hreclaiming := (h₂.reclaiming.reclaim hS hc0 hb₂ hgiven).1
  have hview : X₂.reclaim C.cur b = (C.dropTree c).reclaimAll C.cur (C.Releases b) := by
    rw [Conf.reclaim_eq_reclaimAll, h₂.view, Conf.reclaimAll_reclaimAll]
    congr 1
    funext x
    apply propext
    unfold Conf.Releases Conf.Owns
    rw [hc]
    simp only [hS.cur_live, true_and]
    rfl
  have hfinal : ∀ s', s'.pdtables = s₂.pdtables → Sim s' (X₂.reclaim C.cur b) → _ := fun s' hpd h' =>
    (show true = true ∧ C.Has C.cur b ∧ (C.slot b).PDflag = true ∧ C.CanDrop c
      ∧ (∀ x, x ∉ (C.slot b).range → s'.pdtables.get x = s.pdtables.get x)
      ∧ ∃ X, X = (C.dropTree c).reclaimAll C.cur (C.Releases b) ∧ C.Reclaiming c X ∧ Sim s' X from
    ⟨rfl, hb, hflag, hdrop, fun x hx => by rw [hpd, h₂.pdtables]; exact hpd₁ x hx, _, hview, hreclaiming, h'⟩)
  have hlo : c = (X₂.slot b).startAddr := by rw [h₂.reclaiming.startAddr, hc]
  have hhi : ((C.dropTree c).slot b).endAddr = (X₂.slot b).endAddr := (h₂.reclaiming.endAddr b).symm
  refine h₂.sim.run_reclaim h₂.reclaiming.sep hb₂ hlo hhi (fun s' hpd h' => ?_) fun s' hpd h' => ?_
  . refine .cond (fun hfalse => absurd hfalse (by simp)) fun _ => ?_
    refine .step (fun s'' => Sim s'' (X₂.reclaim C.cur b) ∧ s''.pdtables = s₂.pdtables)
      ⟨h', (writeAccessibleRec_pdtables _ _ _ s').trans hpd⟩ ?_
    rintro _ s'' ⟨h'', hpd'⟩
    exact .pure (.inr (hfinal s'' hpd' h''))
  . refine .cond (fun _ => .pure (.inr (hfinal s' hpd h'))) fun hfalse => absurd rfl hfalse

/--
No record of the child is left in the blocks of its parent.
-/
theorem notGiven_of_released (hC : C.Static) {b : Nat} (hb : C.Has C.cur b) (hdrop : C.CanDrop (C.slot b).startAddr)
    (hX : C.Reclaiming (C.slot b).startAddr X)
    (hview : X = (C.dropTree (C.slot b).startAddr).reclaimAll C.cur (C.Releases b)) {a : Nat} (ha : C.Has C.cur a)
    : ¬(X.slot a).GivenTo (C.slot b).startAddr := by
  intro hgiven
  by_cases hmem : C.Releases b a
  . rw [hview, Conf.reclaimAll.slot_of_mem hmem] at hgiven
    rcases hgiven with hchild | ⟨hflag, -⟩
    . exact hC.live_ne_zero hdrop.live hchild.symm
    . exact absurd hflag (by simp [Slot.clearSh1])
  . have hrecords := Conf.reclaimAll.records (C := C.dropTree (C.slot b).startAddr) (p := C.cur) hmem
    rw [← hview] at hrecords
    rcases hgiven with hchild | ⟨-, hstart⟩
    . rw [hrecords.1] at hchild
      exact hmem (.inl ⟨ha.1, hchild⟩)
    . -- two blocks of one partition start at different addresses
      rw [hX.startAddr] at hstart
      have hmemb := hC.mem_range_start ha
      rw [hstart] at hmemb
      exact hmem (.inr (hC.eq_of_mem_range ha hb hmemb (hC.mem_range_start hb)))

theorem run_deletePartition_moves (h : Sim s C) (hC : C.Inv) (a : Nat)
    : LLI.Ensures (deletePartition a) s fun _ => C.Moves := by
  apply (h.run_deletePartition_released hC a).mono
  rintro v s' (⟨-, rfl, -⟩ | ⟨-, ha, -, hdrop, -, X, hview, hX, h'⟩)
  . exact h.moves
  . exact ⟨_, hX.steps, h'.clearGiven_of_reclaiming hC.static hdrop hX fun _ hx =>
      notGiven_of_released hC.static ha hdrop hX hview hx⟩

theorem run_deletePartition (h : Sim s C) (hC : C.Inv) (a : Nat)
    : LLI.Ensures (deletePartition a) s fun _ => C.Follows :=
  (h.run_deletePartition_moves hC a).mono fun _ _ => Conf.Moves.follows

end Sim
