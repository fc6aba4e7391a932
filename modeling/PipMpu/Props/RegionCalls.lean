import PipMpu.Props.Unmapping
import PipMpu.Refine.Blocks
import PipMpu.Refine.Sharing

/-!
This module contains the runs of the services on blocks and on the virtual MPU, after which the regions of all
partitions still match their blocks.
-/

theorem enableBlock_tables (pd b n : Nat) (s : State)
    : (enableBlockInMPU pd b n s).2.constantRootPartM = s.constantRootPartM
        ∧ (enableBlockInMPU pd b n s).2.nextPointers = s.nextPointers
        ∧ (enableBlockInMPU pd b n s).2.blockEntries = s.blockEntries
        ∧ ∀ p, ((enableBlockInMPU pd b n s).2.pdtables.get p).core = (s.pdtables.get p).core := by
  by_cases hn : n < mpuRegionsNb
  . rw [enableBlockInMPU_run hn]
    rcases Mapping.replaceBlock_run pd b n s with ⟨regs, hrun⟩
    rw [hrun]
    refine ⟨rfl, rfl, rfl, fun p => ?_⟩
    dsimp only
    rw [Mem.get_set]
    split
    . next heq =>
      subst heq
      rfl
    . rfl
  . rw [enableBlockInMPU_invalid (Nat.le_of_not_lt hn)]
    exact ⟨rfl, rfl, rfl, fun _ => rfl⟩

theorem Chained.enable {C : Conf} {s : State} (h : Chained C s) (pd b n : Nat)
    : Chained C (enableBlockInMPU pd b n s).2 := by
  rcases enableBlock_tables pd b n s with ⟨hroot, hnext, -, hcore⟩
  refine h.of_tables hroot (fun p _ => ?_) hnext
  have hcore := hcore p
  simp only [PDTable.core, Prod.mk.injEq] at hcore
  exact ⟨hcore.2.2.2.2, hcore.1⟩

/--
Where the block is looked for, and what the search returns if it is in no region.
-/
theorem findBlockIdx_cases (pd b n : Nat) (s : State)
    : ((∀ i < mpuRegionsNb, s.region pd i ≠ b) ∧ findBlockIdxInPhysicalMPU pd b n s = (n, s))
        ∨ ∃ i < mpuRegionsNb, s.region pd i = b ∧ findBlockIdxInPhysicalMPU pd b n s = (i, s) := by
  unfold findBlockIdxInPhysicalMPU
  rw [readPDField_run]
  cases hfind : (List.range mpuRegionsNb).find? fun i => (s.pdtables.get pd).mpu.getD i nullAddr == b with
  | none =>
    left
    rw [List.find?_eq_none] at hfind
    exact ⟨fun i hi heq => hfind i (List.mem_range.mpr hi) (beq_iff_eq.mpr heq), rfl⟩
  | some i =>
    right
    rw [List.find?_range_eq_some] at hfind
    exact ⟨i, List.mem_range.mp hfind.2.1, beq_iff_eq.mp hfind.1, rfl⟩

namespace Mapped

variable {C : Conf} {stale : Nat → Prop} {s : State} {pd b n : Nat}

theorem enable (h : Mapped C stale s) (hC : C.Apart) (hpd : C.Live pd)
    (hb : b ≠ nullAddr → C.Owns pd b ∧ s.Offered b ∧ ∀ i, i ≠ n → s.region pd i ≠ b)
    : Mapped C stale (enableBlockInMPU pd b n s).2 :=
  ⟨h.mapping.enable hC hpd hb, h.chained.enable pd b n⟩

/--
The registers of a block whose entry has changed are written again, if it is in a region.
-/
theorem remap (h : Mapped C (· = b) s) (hC : C.Apart) (hb : C.Owns pd b) (hn : mpuRegionsNb ≤ n) {i : Nat}
    (hi : findBlockIdxInPhysicalMPU pd b n s = (i, s)) : Mapped C (fun _ => False) (enableBlockInMPU pd b i s).2 := by
  refine ⟨?_, h.chained.enable pd b i⟩
  have hpd := hb.1
  rcases findBlockIdx_cases pd b n s with ⟨hnone, hrun⟩ | ⟨j, hj, hregion, hrun⟩
  . rw [hrun, Prod.mk.injEq] at hi
    rw [← hi.1, enableBlockInMPU_invalid hn]
    apply h.mapping.narrow
    intro p j hp heq
    have hne : s.region p j ≠ nullAddr := heq ▸ hC.owns_ne_zero hb
    have howns := h.mapping.owns p j hp hne
    rw [heq] at howns
    have hsame := hC.owns_unique howns hb
    subst hsame
    exact hnone j (h.mapping.lt hp hne) heq
  . rw [hrun, Prod.mk.injEq] at hi
    rw [← hi.1, enableBlockInMPU_run hj]
    have hne : s.region pd j ≠ nullAddr := hregion ▸ hC.owns_ne_zero hb
    refine h.mapping.replace hpd hj (fun _ => ⟨hb, hregion ▸ h.mapping.offered pd j hpd hne, fun k hk heq => ?_⟩)
      (fun x hx => .inl ⟨hx, hC.owns_ne_zero hb⟩) hC
    exact hk (h.mapping.once pd hpd j k hne (hregion.trans heq.symm)).symm

end Mapped

/--
The other regions are as they were.
-/
theorem Mapping.unmapped_enable {C : Conf} {stale : Nat → Prop} {s : State} {pd b n : Nat} (h : Mapping C stale s)
    (hb : s.Unmapped C b) {a : Nat} (hne : a ≠ b) : (enableBlockInMPU pd a n s).2.Unmapped C b := by
  intro p i hp
  by_cases hn : n < mpuRegionsNb
  . rw [enableBlockInMPU_run hn]
    by_cases hpd : p = pd
    . subst hpd
      rw [region_replaceBlock (h.mpu_length p hp) hn]
      split
      . exact hne
      . exact hb p i hp
    . unfold State.region
      rw [Mapping.replaceBlock_table, if_neg hpd]
      exact hb p i hp
  . rw [enableBlockInMPU_invalid (Nat.le_of_not_lt hn)]
    exact hb p i hp

/--
The end of a block is written, its registers are out of date from then on.
-/
theorem Mapped.rewrite {C : Conf} {s : State} (h : Mapped C (fun _ => False) s) {a : Nat} (endAddr : Nat)
    : Mapped C (· = a) (writeBlockEndFromBlockEntryAddr a endAddr s).2 := by
  have hstale : Mapping C (· = a) s := h.mapping.mono fun _ _ _ hfalse => absurd hfalse id
  refine ⟨hstale.entry fun _ _ _ _ => ⟨⟨id, id⟩, .inl rfl⟩, ?_⟩
  exact h.chained.of_tables rfl (fun _ _ => ⟨rfl, rfl⟩) rfl

/--
The slot is in no region, and it holds an accessible block.
-/
structure Ready (C : Conf) (stale : Nat → Prop) (b : Nat) (s : State) : Prop extends Idle C stale b s where
  offered : s.Offered b

namespace Ready

variable {C : Conf} {stale : Nat → Prop} {s : State} {pd b n : Nat}

theorem sc (h : Ready C stale b s) (a : Nat) (f : SCEntry → SCEntry) : Ready C stale b (modifySCEntry a f s).2 :=
  ⟨Idle.sc a f s h.toIdle, h.offered⟩

theorem rewrite (h : Ready C (fun _ => False) b s) {a : Nat} (hne : a ≠ b) (endAddr : Nat)
    : Ready C (· = a) b (writeBlockEndFromBlockEntryAddr a endAddr s).2 := by
  refine ⟨⟨h.mapped.rewrite endAddr, h.unmapped⟩, ?_⟩
  unfold State.Offered writeBlockEndFromBlockEntryAddr
  rw [modifyBlockEntry_run]
  dsimp only
  rw [Mem.get_set_of_ne _ _ hne]
  exact h.offered

theorem unmapped_unmap (h : Ready C stale b s) (hb : b ≠ nullAddr) (pd a : Nat)
    : (removeBlockFromPhysicalMPU pd a s).2.Unmapped C b := by
  intro p i hp
  by_cases hpd : p = pd
  . subst hpd
    have hregion := (mpu_removeBlock p a s (h.mapped.mapping.mpu_length p hp)).2 i
    unfold State.region
    rw [hregion]
    split
    . exact hb.symm
    . exact h.unmapped p i hp
  . unfold removeBlockFromPhysicalMPU State.region
    rw [modifyPDTable_run]
    dsimp only
    rw [Mem.get_set_of_ne _ _ (Ne.symm hpd)]
    exact h.unmapped p i hp

theorem map (h : Ready C stale b s) (hC : C.Apart) (hb : C.Owns pd b) (n : Nat)
    : Mapped C stale (enableBlockInMPU pd b n s).2 :=
  h.mapped.enable hC hb.1 fun _ => ⟨hb, h.offered, fun i _ => h.unmapped pd i hb.1⟩

end Ready

/--
The entry of another block is reset.
-/
theorem freeSlot_offered (pd : Nat) {a b : Nat} (hne : a ≠ b)
    : Keeps (Carries (State.Offered · a)) (freeSlot pd b) := by
  have hblock : ∀ f, Keeps (Carries (State.Offered · a)) (modifyBlockEntry b f) := by
    intro f s hs
    unfold State.Offered
    rw [modifyBlockEntry_run]
    dsimp only
    rw [Mem.get_set_of_ne _ _ hne.symm]
    exact hs
  refine LLI.keeps_bind (fun _ hs => hs) fun _ => ?_
  refine LLI.keeps_read (fun _ => rfl) fun index => ?_
  refine LLI.keeps_bind ?_ fun _ => ?_
  . unfold writeBlockEntryFromBlockEntryAddr
    iterate 7 refine LLI.keeps_bind (hblock _) fun _ => ?_
    exact hblock _
  iterate 2 refine LLI.keeps_bind (fun _ hs => hs) fun _ => ?_
  refine LLI.keeps_read (fun _ => rfl) fun currFirstFreeSlot => ?_
  refine LLI.keeps_bind (hblock _) fun _ => ?_
  refine LLI.keeps_bind (fun _ hs => hs) fun _ => ?_
  iterate 2 refine LLI.keeps_read (fun _ => rfl) fun _ => ?_
  refine LLI.keeps_bind (fun _ hs => hs) fun _ => ?_
  exact LLI.keeps_pure _

/--
The ancestors get the access back.
-/
theorem allow_offered (pd a b : Nat)
    : Keeps (Carries (State.Offered · a)) (writeAccessibleToAncestorsIfNotCutRec pd b true) := by
  have hallow : ∀ entry, Keeps (Carries (State.Offered · a)) (writeBlockAccessibleFromBlockEntryAddr entry true) := by
    intro entry s hs
    unfold State.Offered writeBlockAccessibleFromBlockEntryAddr
    rw [modifyBlockEntry_run]
    dsimp only
    rw [Mem.get_set]
    split
    . next heq =>
      subst heq
      exact ⟨hs.1, rfl⟩
    . exact hs
  exact writeAccessibleToAncestorsIfNotCutRec_keeps hallow (fun _ _ _ hs => hs) pd b

theorem insertNewEntry_offered {s : State} {pd b : Nat} (hfirst : (s.pdtables.get pd).firstfreeslot = b)
    (startaddr endaddr origin : Nat) (r w e : Bool) (n : Nat)
    : (insertNewEntry pd startaddr endaddr origin r w e n s).2.Offered b := by
  show LLI.Ensures (insertNewEntry pd startaddr endaddr origin r w e n) s fun _ s' => s'.Offered b
  have hblock : ∀ f : BlockEntry → BlockEntry, (∀ e, (f e).present = e.present ∧ (f e).accessible = e.accessible) →
      Keeps (Carries (State.Offered · b)) (modifyBlockEntry b f) := by
    intro f hf s hs
    unfold State.Offered
    rw [modifyBlockEntry_run]
    dsimp only
    rw [Mem.get_set_self, (hf _).1, (hf _).2]
    exact hs
  unfold insertNewEntry
  refine .bind (readPDField_run _ _ _) ?_
  rw [hfirst]
  iterate 2 refine .read rfl ?_
  iterate 4 refine .step (fun _ => True) trivial fun _ _ _ => ?_
  refine .step (fun s' => (s'.blockEntries.get b).present = true) ?_ fun _ s₁ hpresent => ?_
  . show ((modifyBlockEntry b _ _).2.blockEntries.get b).present = true
    rw [modifyBlockEntry_run]
    dsimp only
    rw [Mem.get_set_self]
  refine .step (State.Offered · b) ?_ fun _ s₂ hoffered => ?_
  . show (modifyBlockEntry b _ _).2.Offered b
    unfold State.Offered
    rw [modifyBlockEntry_run]
    dsimp only
    rw [Mem.get_set_self]
    exact ⟨hpresent, rfl⟩
  refine (show Keeps (Carries (State.Offered · b)) _ from ?_) s₂ hoffered
  iterate 3 refine LLI.keeps_bind (hblock _ fun _ => ⟨rfl, rfl⟩) fun _ => ?_
  refine LLI.keeps_bind (fun _ hs => hs) fun _ => ?_
  exact LLI.keeps_pure _

/--
A free slot is in no region.
-/
theorem Mapped.unmapped_of_free {C D : Conf} {stale : Nat → Prop} {s : State} (h : Mapped C stale s) (hsim : Sim s D)
    (hD : D.Static) {p f : Nat} {rest : List Nat} (hp : D.Live p) (hfree : D.free p = f :: rest) : s.Unmapped C f := by
  have hf := hD.sep.toApart.free_sub p f hp (by rw [hfree]; simp)
  refine h.unmapped_of_absent (hD.owns_ne_zero hf.1) ?_
  rw [hsim.present_eq hf.1]
  exact hf.2

/-
The services on blocks and regions
-/

namespace Mapped

variable {C : Conf} {s : State}

theorem run_readMPU (h : Mapped C (fun _ => False) s) (idPD n : Nat)
    : Mapped C (fun _ => False) (readMPU idPD n s).2 :=
  readMPU_keeps (R := Carries (Mapped C fun _ => False)) idPD n s h

theorem run_setVIDT (h : Mapped C (fun _ => False) s) (pd vidtAddr : Nat)
    : Mapped C (fun _ => False) (setVIDT pd vidtAddr s).2 := by
  have hwrite : ∀ t value, Keeps (Carries (Mapped C fun _ => False)) (writePDVidt t value) :=
    fun t value s hs => hs.table t fun _ => ⟨rfl, rfl, rfl, rfl⟩
  refine (show Keeps (Carries (Mapped C fun _ => False)) (setVIDT pd vidtAddr) from ?_) s h
  refine LLI.keeps_read (fun _ => rfl) fun curPd => ?_
  refine LLI.keeps_read (getGlobalIdPDCurrentOrChild_state _ _) fun globalPd => ?_
  refine LLI.keeps_read (fun _ => rfl) fun globalPdNull => ?_
  refine LLI.keeps_guard ?_
  refine LLI.keeps_read (fun _ => rfl) fun vidtAddrNull => ?_
  refine Keeps.ite (fun _ => LLI.keeps_bind (hwrite _ _) fun _ => LLI.keeps_pure true) fun _ => ?_
  refine LLI.keeps_read (findBelongingBlock_state _ _) fun vidtBlock => ?_
  repeat first
    | with_reducible refine LLI.keeps_guard ?_
    | refine LLI.keeps_read (fun _ => rfl) fun _ => ?_
  apply Keeps.ite
  . intro _
    iterate 2 refine LLI.keeps_read (fun _ => rfl) fun _ => ?_
    exact LLI.keeps_guard (LLI.keeps_bind (hwrite _ _) fun _ => LLI.keeps_pure true)
  . intro _
    iterate 2 refine LLI.keeps_read (fun _ => rfl) fun _ => ?_
    exact LLI.keeps_guard (LLI.keeps_bind (hwrite _ _) fun _ => LLI.keeps_pure true)

/--
A block is taken out of its region before it is put in another one.
-/
theorem run_mapMPU (h : Mapped C (fun _ => False) s) (hsim : Sim s C) (hC : C.Static) (idPD b n : Nat)
    : Mapped C (fun _ => False) (mapMPU idPD b n s).2 := by
  have hapart := hC.sep.toApart
  rcases hsim.run_getGlobalIdPD hC hC.cur_live idPD with ⟨t, hglobal, ht⟩
  by_cases hnull : t = nullAddr
  . suffices hrun : mapMPU idPD b n s = (false, s) by
      rw [hrun]
      exact h
    unfold mapMPU
    rw [LLI.bind_run, hsim.run_getCurPartition]
    dsimp only
    rw [LLI.bind_run, hglobal, hnull]
    rfl
  have hlive : C.Live t := by
    rcases ht with ht | rfl | ⟨hlive, -⟩
    . exact absurd ht hnull
    . exact hC.cur_live
    . exact hlive
  have ht₁ : (getGlobalIdPDCurrentOrChild s.currentPartition idPD s).1 = t := by rw [hsim.cur, hglobal]
  have hcases := mapMPU_cases (b := b) (n := n) ht₁ hnull
  unfold LLI.Ensures at hcases
  rcases hcases with ⟨rfl, hrun⟩ | ⟨-, -, hrun⟩ | ⟨hb, hok, hrun⟩
  . rw [congrArg Prod.snd hrun]
    exact h.enable hapart hlive fun hne => absurd rfl hne
  . rw [congrArg Prod.snd hrun]
    exact h
  rw [congrArg Prod.snd hrun]
  rcases hsim.run_findWithAddr hC.sep hlive b with ⟨a, hfind, ha⟩
  have hfound := hok.found
  rw [hfind] at hfound
  rcases ha hfound with ⟨rfl, hhas⟩
  have hoffered : s.Offered a := ⟨by rw [hsim.present_eq hhas.1]; exact hhas.2, hok.accessible⟩
  rcases removeBlockIfAlreadyMapped_run t a s with ⟨hnone, hsame⟩ | ⟨i, hi, hregion, hemptied⟩
  . rw [hsame]
    refine h.enable hapart hlive fun _ => ⟨hhas.1, hoffered, fun i _ heq => ?_⟩
    exact hnone i (h.mapping.lt hlive (heq ▸ hb)) heq
  . have hempty : Mapped C (fun _ => False) (enableBlockInMPU t nullAddr i s).2 :=
      h.enable hapart hlive fun hne => absurd rfl hne
    rw [enableBlockInMPU_run hi] at hempty
    rw [hemptied]
    refine hempty.enable hapart hlive fun _ => ⟨hhas.1, ?_, fun j _ => ?_⟩
    . have hentries := (enableBlock_tables t nullAddr i s).2.2.1
      rw [enableBlockInMPU_run hi] at hentries
      unfold State.Offered
      rw [hentries]
      exact hoffered
    . rw [region_replaceBlock (h.mapping.mpu_length t hlive) hi]
      split
      . exact hb.symm
      . next hne =>
        intro heq
        exact hne (h.mapping.once t hlive j i (heq ▸ hb) (heq.trans hregion.symm))

theorem run_addMemoryBlock (h : Mapped C (fun _ => False) s) (hsim : Sim s C) (hC : C.Inv) (idPDchild a : Nat)
    (r w x : Bool) : Mapped C (fun _ => False) (addMemoryBlock idPDchild a r w x s).2 := by
  have hS := hC.static
  show LLI.Ensures (addMemoryBlock idPDchild a r w x) s fun _ s' => Mapped C (fun _ => False) s'
  rcases hsim.run_findWithAddr hS.sep hS.cur_live a with ⟨b, hrun, hb⟩
  unfold addMemoryBlock
  refine .bind hsim.run_getCurPartition ?_
  refine .bind hrun ?_
  refine .bind (compareAddrToNull_run _ _) ?_
  refine .cond (fun _ => .pure h) fun hne => ?_
  simp only [decide_eq_true_eq] at hne
  rcases hb hne with ⟨rfl, hb⟩
  refine .read (checkRights_state _ _ _ _ _) ?_
  refine .cond (fun _ => .pure h) fun _ => ?_
  rcases hsim.run_checkChild hS hS.cur_live idPDchild with ⟨hd, hflag, hchild⟩ | hchild
  swap
  . refine .bind hchild ?_
    exact .cond (fun _ => .pure h) fun hfalse => absurd rfl hfalse
  refine .bind hchild ?_
  refine .cond (fun hfalse => absurd hfalse (by simp)) fun _ => ?_
  refine .bind (hsim.run_readStart hd.1) ?_
  rcases hS.flag_kind _ idPDchild hd hflag with ⟨-, -, hclive, -, -⟩
  generalize (C.slot idPDchild).startAddr = c at hclive ⊢
  refine .bind (hsim.run_readNbFreeSlots hclive) ?_
  refine .read rfl ?_
  refine .bind rfl ?_
  refine .cond (fun _ => .pure h) fun hfull => ?_
  refine .bind (readPDField_run _ _ _) ?_
  refine .read rfl ?_
  refine .cond (fun _ => .pure h) fun _ => ?_
  refine .read rfl ?_
  refine .cond (fun _ => .pure h) fun _ => ?_
  refine .read rfl ?_
  refine .cond (fun _ => .pure h) fun _ => ?_
  refine .read rfl ?_
  refine .read rfl ?_
  refine .cond (fun _ => .pure h) fun _ => ?_
  refine .read rfl ?_
  refine .cond (fun _ => .pure h) fun _ => ?_
  iterate 2 refine .read rfl ?_
  rcases hfree : C.free c with _ | ⟨f, rest⟩
  . rw [hfree] at hfull
    exact absurd (decide_eq_true (Nat.le_refl 0)) hfull
  have hfirst := hsim.free c hclive
  rw [hfree] at hfirst
  have hidle := h.unmapped_of_free hsim hS hclive hfree
  refine .step (Mapped C fun _ => False) (h.insert hfirst.1 hidle _ _ _ _ _ _ _).mapped fun _ s₁ h₁ => ?_
  refine .step (Mapped C fun _ => False) (h₁.sh1 _ _) fun _ s₂ h₂ => ?_
  refine .step (Mapped C fun _ => False) (h₂.sh1 _ _) fun _ s₃ h₃ => ?_
  exact .pure h₃

/--
The registers of the block that was cut are written again before the new block is put in its region.
-/
theorem run_cutMemoryBlock (h : Mapped C (fun _ => False) s) (hsim : Sim s C) (hC : C.Inv) (a cutAddr region : Nat)
    : Mapped C (fun _ => False) (cutMemoryBlock a cutAddr region s).2 := by
  have hS := hC.static
  have hapart := hS.sep.toApart
  show LLI.Ensures (cutMemoryBlock a cutAddr region) s fun _ s' => Mapped C (fun _ => False) s'
  rcases hsim.run_findWithAddr hS.sep hS.cur_live a with ⟨b, hrun, hb⟩
  unfold cutMemoryBlock
  refine .bind hsim.run_getCurPartition ?_
  refine .bind (hsim.run_readNbFreeSlots hS.cur_live) ?_
  refine .read rfl ?_
  refine .bind rfl ?_
  refine .cond (fun _ => .pure h) fun hfull => ?_
  refine .bind hrun ?_
  refine .bind (compareAddrToNull_run _ _) ?_
  refine .cond (fun _ => .pure h) fun hne => ?_
  simp only [decide_eq_true_eq] at hne
  rcases hb hne with ⟨rfl, hb⟩
  refine .read rfl ?_
  refine .cond (fun _ => .pure h) fun _ => ?_
  iterate 2 refine .read rfl ?_
  refine .cond (fun _ => .pure h) fun _ => ?_
  iterate 2 refine .read rfl ?_
  refine .cond (fun _ => .pure h) fun _ => ?_
  iterate 2 refine .read rfl ?_
  refine .cond (fun _ => .pure h) fun _ => ?_
  iterate 5 refine .read rfl ?_
  refine .cond (fun _ => .pure h) fun _ => ?_
  refine .read rfl ?_
  refine .cond (fun _ => .pure h) fun _ => ?_
  rcases hfree : C.free C.cur with _ | ⟨f, rest⟩
  . rw [hfree] at hfull
    exact absurd (decide_eq_true (Nat.le_refl 0)) hfull
  have hf := hapart.free_sub C.cur f hS.cur_live (by rw [hfree]; simp)
  have hbf : b ≠ f := by
    rintro rfl
    exact absurd (hb.2.symm.trans hf.2) (by simp)
  -- the walk through the ancestors does not touch the free slots
  refine .step (fun s₁ => Mapped C (fun _ => False) s₁ ∧ Sim s₁ (C.walkFrom C.cur b false))
    ⟨h.ancestorsIfNotCut hapart hS.cur_live b false, hsim.run_writeAccessibleIfNotCut hS.sep hS.cur_live hb false⟩ ?_
  rintro _ s₁ ⟨h₁, hsim₁⟩
  have hfree₁ : (C.walkFrom C.cur b false).free C.cur = f :: rest := hfree
  have hidle : s₁.Unmapped C f := h₁.unmapped_of_free hsim₁ (hS.walkFrom C.cur b false) hS.cur_live hfree₁
  have hfirst := hsim₁.free C.cur hS.cur_live
  rw [hfree₁] at hfirst
  iterate 5 refine .read rfl ?_
  refine .step_eq (Ready C (fun _ => False) f) hfirst.1
    ⟨h₁.insert hfirst.1 hidle _ _ _ _ _ _ _, insertNewEntry_offered hfirst.1 _ _ _ _ _ _ _⟩ fun s₂ h₂ => ?_
  refine .step (Ready C (· = b) f) (h₂.rewrite hbf _) fun _ s₃ h₃ => ?_
  iterate 2 refine .read rfl ?_
  have hdefault : mpuRegionsNb ≤ add32 kernelStructureEntriesNb 1 := by decide
  rcases findBlockIdx_cases C.cur b (add32 kernelStructureEntriesNb 1) s₃ with ⟨-, hfind⟩ | ⟨i, -, -, hfind⟩
  all_goals
    refine .bind hfind ?_
    refine .step (Ready C (fun _ => False) f)
      ⟨⟨h₃.mapped.remap hapart hb.1 hdefault hfind, h₃.mapped.mapping.unmapped_enable h₃.unmapped hbf⟩, ?_⟩
      fun _ s₄ h₄ => ?_
    . unfold State.Offered
      rw [(enableBlock_tables _ _ _ _).2.2.1]
      exact h₃.offered
    refine .read rfl ?_
    refine .step (Ready C (fun _ => False) f) (h₄.sc _ _) fun _ s₅ h₅ => ?_
    refine .step (Ready C (fun _ => False) f) (h₅.sc _ _) fun _ s₆ h₆ => ?_
    refine .step (Mapped C fun _ => False) (h₆.map hapart hf.1 _) fun _ s₇ h₇ => ?_
    exact .pure h₇

/--
Both blocks are taken out of their regions before the merged one is put in a region.
-/
theorem run_mergeMemoryBlocks (h : Mapped C (fun _ => False) s) (hsim : Sim s C) (hC : C.Inv) (a₁ a₂ region : Nat)
    : Mapped C (fun _ => False) (mergeMemoryBlocks a₁ a₂ region s).2 := by
  have hS := hC.static
  have hapart := hS.sep.toApart
  show LLI.Ensures (mergeMemoryBlocks a₁ a₂ region) s fun _ s' => Mapped C (fun _ => False) s'
  rcases hsim.run_findWithAddr hS.sep hS.cur_live a₁ with ⟨b₁, hrun₁, hb₁⟩
  rcases hsim.run_findWithAddr hS.sep hS.cur_live a₂ with ⟨b₂, hrun₂, hb₂⟩
  unfold mergeMemoryBlocks
  refine .bind hsim.run_getCurPartition ?_
  refine .bind hrun₁ ?_
  refine .bind (compareAddrToNull_run _ _) ?_
  refine .cond (fun _ => .pure h) fun hne₁ => ?_
  simp only [decide_eq_true_eq] at hne₁
  rcases hb₁ hne₁ with ⟨rfl, hb₁⟩
  refine .bind hrun₂ ?_
  refine .bind (compareAddrToNull_run _ _) ?_
  refine .cond (fun _ => .pure h) fun hne₂ => ?_
  simp only [decide_eq_true_eq] at hne₂
  rcases hb₂ hne₂ with ⟨rfl, hb₂⟩
  refine .bind (hsim.run_readAccessible hb₁.1) ?_
  refine .bind (hsim.run_readAccessible hb₂.1) ?_
  refine .cond (fun _ => .pure h) fun hacc => ?_
  refine .bind (hsim.run_readPDChild hb₁.1) ?_
  refine .read rfl ?_
  refine .bind (hsim.run_readPDChild hb₂.1) ?_
  refine .read rfl ?_
  refine .cond (fun _ => .pure h) fun _ => ?_
  refine .bind (hsim.run_readNext hb₁.1) ?_
  refine .bind rfl ?_
  refine .cond (fun _ => .pure h) fun hnext => ?_
  simp only [Bool.not_eq_true', Bool.not_eq_false, Bool.and_eq_true] at hacc
  simp only [beqAddr_eq, Bool.not_eq_true', decide_eq_false_iff_not, Decidable.not_not] at hnext
  have hne : b₁ ≠ b₂ := by
    intro heq
    have hkind := (hS.next_kind _ b₁ hb₁ (hnext ▸ hS.owns_ne_zero hb₂.1)).2
    have hself : (C.slot b₁).next = b₁ := hnext.symm.trans heq.symm
    have hstart := hS.start_lt _ b₁ hb₁
    rw [hself] at hkind
    grind
  have hoffered : s.Offered b₁ := by
    constructor
    . rw [hsim.present_eq hb₁.1]
      exact hb₁.2
    . exact (congrArg Prod.fst (hsim.run_readAccessible hb₁.1)).trans hacc.1
  refine .read rfl ?_
  refine .step (fun s' => Mapped C (fun _ => False) s' ∧ s'.Offered b₁) ⟨h.sc _ _, hoffered⟩ ?_
  rintro _ s₁ ⟨h₁, hoffered₁⟩
  refine .read rfl ?_
  refine .step (fun s' => Mapped C (· = b₁) s' ∧ s'.Offered b₁) ⟨h₁.rewrite _, ?_⟩ ?_
  . unfold State.Offered writeBlockEndFromBlockEntryAddr
    rw [modifyBlockEntry_run]
    dsimp only
    rw [Mem.get_set_self]
    exact hoffered₁
  rintro _ s₂ ⟨h₂, hoffered₂⟩
  refine .step (fun s' => Mapped C (· = b₁) s' ∧ s'.Offered b₁)
    ⟨(h₂.free hapart hb₂.1).mapped, freeSlot_offered C.cur hne s₂ hoffered₂⟩ ?_
  rintro _ s₃ ⟨h₃, hoffered₃⟩
  refine .step (fun s' => Mapped C (· = b₁) s' ∧ s'.Offered b₁)
    ⟨h₃.ancestorsIfNotCut hapart hS.cur_live b₁ true, allow_offered C.cur b₁ b₁ s₃ hoffered₃⟩ ?_
  rintro _ s₄ ⟨h₄, hoffered₄⟩
  have hunmapped := h₄.mapping.unmapped hapart hb₁.1
  refine .step (Ready C (fun _ => False) b₁)
    ⟨⟨⟨(h₄.unmap C.cur b₁).mapping.narrow hunmapped, (h₄.unmap C.cur b₁).chained⟩, hunmapped⟩, hoffered₄⟩
    fun _ s₅ h₅ => ?_
  refine .step (Ready C (fun _ => False) b₁)
    ⟨⟨h₅.mapped.unmap C.cur b₂, h₅.unmapped_unmap (hS.owns_ne_zero hb₁.1) C.cur b₂⟩, h₅.offered⟩ fun _ s₆ h₆ => ?_
  refine .step (Mapped C fun _ => False) (h₆.map hapart hb₁.1 _) fun _ s₇ h₇ => ?_
  exact .pure h₇

end Mapped

/-
The service that takes a block back
-/

namespace Mapped

variable {C D : Conf} {s : State}

/--
The slots of the copies of a block leave the regions of the partitions they belong to.
-/
theorem removeInDescendants (hm : Mapped D (fun _ => False) s) (hD : D.Apart) (h : Sim s C) (hC : C.Sep)
    {fuel p a : Nat} {chain : List (Nat × Nat)} (hcopies : C.Copies p a chain) (hhas : ∀ x ∈ chain, C.Has x.1 x.2)
    (howns : ∀ x ∈ chain, D.Owns x.1 x.2) (hnodup : (chain.map Prod.snd).Nodup)
    : Mapped D (fun _ => False) (removeBlockInDescendantsRecAux fuel p a s).2 := by
  induction chain generalizing s C fuel p a with
  | nil => cases hcopies
  | cons x rest ih =>
    have hx := hhas x (by simp)
    have hxD := howns x (by simp)
    have hxa : x = (p, a) := by
      cases hcopies <;> rfl
    subst hxa
    have hne := hC.owns_ne_zero hx.1
    rw [List.map_cons, List.nodup_cons] at hnodup
    cases fuel with
    | zero => exact hm
    | succ fuel =>
      show LLI.Ensures (removeBlockInDescendantsRecAux (fuel + 1) p a) s fun _ s' => Mapped D (fun _ => False) s'
      unfold removeBlockInDescendantsRecAux
      refine .bind (compareAddrToNull_run _ _) ?_
      refine .cond (fun hzero => absurd (of_decide_eq_true hzero) hne) fun _ => ?_
      refine .bind (h.run_readPDChild hx.1) ?_
      refine .bind (h.run_readInChildLocation hx.1) ?_
      refine .step (fun s' => Sim s' ((C.setSlot a Slot.empty).setFree p (a :: C.free p)) ∧
        Mapped D (fun _ => False) s') ⟨h.run_freeSlot hC.toApart hx, (hm.free hD hxD).mapped⟩ ?_
      rintro _ s₁ ⟨h₁, hm₁⟩
      cases hcopies with
      | last hlast =>
        rw [hlast]
        cases fuel with
        | zero => exact hm₁
        | succ fuel =>
          unfold removeBlockInDescendantsRecAux
          refine .bind (compareAddrToNull_run _ _) ?_
          exact .cond (fun _ => .pure hm₁) fun hfalse => absurd (decide_eq_true rfl) hfalse
      | next hnext hrest =>
        -- the slot that was freed is none of the slots that follow
        have hslot : ∀ y ∈ rest, ((C.setSlot a Slot.empty).setFree p (a :: C.free p)).slot y.2 = C.slot y.2 := by
          intro y hy
          rw [Conf.setFree_slot, Conf.setSlot_slot_of_ne]
          intro heq
          have hmem := List.mem_map_of_mem (f := Prod.snd) hy
          rw [heq] at hmem
          exact hnodup.1 hmem
        refine ih hm₁ h₁ (hC.freed hx) (hrest.congr hslot) ?_ (fun y hy => howns y (by simp [hy])) hnodup.2
        intro y hy
        have hhas := hhas y (by simp [hy])
        exact ⟨hhas.1, by rw [hslot y hy]; exact hhas.2⟩

theorem removeSubblocks (hm : Mapped D (fun _ => False) s) (hD : D.Apart) (h : Sim s C) (hC : C.Sep)
    {c fuel a : Nat} {l : List Nat} (hlinked : Linked (fun b => (C.slot b).next) a l) (hhas : ∀ b ∈ l, C.Has c b)
    (howns : ∀ b ∈ l, D.Owns c b) : Mapped D (fun _ => False) (removeSubblocksRecAux fuel c a s).2 := by
  induction l generalizing s C fuel a with
  | nil =>
    cases fuel with
    | zero => exact hm
    | succ fuel =>
      have hzero : a = 0 := hlinked
      subst hzero
      exact hm
  | cons b rest ih =>
    have hnodup := hlinked.nodup
    rcases hlinked with ⟨rfl, hne, hrest⟩
    have ha := hhas a (by simp)
    cases fuel with
    | zero => exact hm
    | succ fuel =>
      show LLI.Ensures (removeSubblocksRecAux (fuel + 1) c a) s fun _ s' => Mapped D (fun _ => False) s'
      unfold removeSubblocksRecAux
      refine .bind (compareAddrToNull_run _ _) ?_
      refine .cond (fun hzero => absurd (of_decide_eq_true hzero) hne) fun _ => ?_
      refine .bind (h.run_readNext ha.1) ?_
      refine .step (fun s' => Sim s' ((C.setSlot a Slot.empty).setFree c (a :: C.free c)) ∧
        Mapped D (fun _ => False) s') ⟨h.run_freeSlot hC.toApart ha, (hm.free hD (howns a (by simp))).mapped⟩ ?_
      rintro _ s₁ ⟨h₁, hm₁⟩
      have hslot : ∀ y ∈ rest, ((C.setSlot a Slot.empty).setFree c (a :: C.free c)).slot y = C.slot y := by
        intro y hy
        rw [Conf.setFree_slot, Conf.setSlot_slot_of_ne]
        rintro rfl
        exact (List.nodup_cons.mp hnodup).1 hy
      refine ih hm₁ h₁ (hC.freed ha) (hrest.congr fun y hy => by rw [hslot y hy]) ?_ fun y hy => howns y (by simp [hy])
      intro y hy
      have hhas := hhas y (by simp [hy])
      exact ⟨hhas.1, by rw [hslot y hy]; exact hhas.2⟩

theorem run_removeBlockInChildAndDescendants (hm : Mapped C (fun _ => False) s) (h : Sim s C) (hC : C.Inv)
    {b c l : Nat} (hb : C.Has C.cur b) (hlent : C.Lent b c) (hloc : (C.slot b).inChildLocation = l)
    : Mapped C (fun _ => False) (removeBlockInChildAndDescendants C.cur b c l s).2 := by
  have hS := hC.static
  have hapart := hS.sep.toApart
  have hkind := hS.location_kind _ b hb hlent.2
  rw [hlent.1, hloc] at hkind
  have hl := hkind.2.1
  rcases h.run_checkBlockCut hl with ⟨v, hrun, hv⟩
  show LLI.Ensures (removeBlockInChildAndDescendants C.cur b c l) s fun _ s' => Mapped C (fun _ => False) s'
  unfold removeBlockInChildAndDescendants
  refine .read rfl ?_
  refine .bind hrun ?_
  refine .cond (fun huncut => ?_) fun hcut => ?_
  . simp only [Bool.not_eq_true'] at huncut
    refine .bind (h.run_readAccessible hl.1) ?_
    refine .cond (fun _ => .pure hm) fun hacc => ?_
    simp only [Bool.not_eq_true', Bool.not_eq_false] at hacc
    rcases hC.copies hb hlent hloc (hv.mp huncut) hacc with ⟨chain, hcopies, hchain, hnodup, -, -⟩
    have hhas : ∀ x ∈ chain, C.Has x.1 x.2 := fun x hx => (hchain x hx).1
    refine .step (Mapped C fun _ => False)
      (hm.removeInDescendants hapart h hS.sep hcopies hhas (fun x hx => (hhas x hx).1) hnodup) fun _ s₁ hm₁ => ?_
    exact .cond (fun _ => .pure hm₁) fun _ => .pure hm₁
  . rcases h.run_checkRemoveSubblocksRecAux hS fuelN hl with ⟨w, hcheck, hw⟩
    refine .bind hcheck ?_
    refine .cond (fun _ => .pure hm) fun hpossible => ?_
    simp only [Bool.not_eq_true', Bool.not_eq_false] at hpossible
    rcases hw hpossible with ⟨rest, hlinked, -⟩
    have hhas : ∀ a ∈ l :: rest, C.Has c a := by
      apply hlinked.forall_mem (P := C.Has c)
      . exact fun _ => hl
      . exact fun a ha hne => (hS.next_kind c a ha hne).1
    refine .step (Mapped C fun _ => False)
      (hm.removeSubblocks hapart h hS.sep hlinked hhas fun a ha => (hhas a ha).1) fun _ s₁ hm₁ => ?_
    refine .cond (fun _ => .pure hm₁) fun _ => ?_
    refine .step (Mapped C fun _ => False) (hm₁.allow b) fun _ s₂ hm₂ => ?_
    refine .read rfl ?_
    refine .step (Mapped C fun _ => False) (hm₂.ancestors hapart hS.cur_live _ _ true) fun _ s₃ hm₃ => ?_
    exact .cond (fun _ => .pure hm₃) fun _ => .pure hm₃

theorem run_removeMemoryBlock (hm : Mapped C (fun _ => False) s) (h : Sim s C) (hC : C.Inv) (a : Nat)
    : Mapped C (fun _ => False) (removeMemoryBlock a s).2 := by
  have hS := hC.static
  by_cases hshared : C.Has C.cur a ∧ (C.slot a).PDchild ≠ 0 ∧ (C.slot a).inChildLocation ≠ 0
  swap
  . have hrun := h.run_removeMemoryBlock_unshared hC a fun ha => by
      by_contra hne
      exact hshared ⟨ha, (not_or.mp hne).1, (not_or.mp hne).2⟩
    rw [hrun]
    exact hm
  rcases hshared with ⟨ha, hchild, hlocation⟩
  have hne := hS.owns_ne_zero ha.1
  show LLI.Ensures (removeMemoryBlock a) s fun _ s' => Mapped C (fun _ => False) s'
  unfold removeMemoryBlock
  refine .bind h.run_getCurPartition ?_
  refine .bind (h.run_findWithAddr_some hS.sep ha) ?_
  refine .bind (compareAddrToNull_run _ _) ?_
  refine .cond (fun _ => .pure hm) fun _ => ?_
  refine .bind (h.run_readPDChild ha.1) ?_
  refine .read rfl ?_
  refine .cond (fun _ => .pure hm) fun _ => ?_
  refine .bind (h.run_readInChildLocation ha.1) ?_
  refine .read rfl ?_
  refine .cond (fun _ => .pure hm) fun _ => ?_
  refine .read rfl ?_
  refine .cond (fun _ => .pure hm) fun _ => ?_
  refine .step (Mapped C fun _ => False) (hm.run_removeBlockInChildAndDescendants h hC ha ⟨rfl, hlocation⟩ rfl)
    fun _ s₁ hm₁ => ?_
  refine .cond (fun _ => .pure hm₁) fun _ => ?_
  refine .step (Mapped C fun _ => False) (hm₁.clearSh1 _) fun _ s₂ hm₂ => ?_
  exact .pure hm₂

end Mapped
