import PipMpu.Props.Regions
import PipMpu.Refine.Sharing

/-!
This module contains what the functions of `Internal.v` do to the regions of the partitions: blocks that become
inaccessible or are removed leave the regions of the partition that has them.
-/

/--
The partitions of the view find their parents and their structures.
-/
structure Chained (C : Conf) (s : State) : Prop where
  root : s.constantRootPartM = C.root
  parent : ∀ p, C.Live p → p ≠ C.root → (s.pdtables.get p).parent = C.parent p
  structures : ∀ p, C.Live p → Linked s.nextStructure (s.pdtables.get p).structurePtr (C.structures p)

theorem Sim.chained {s : State} {C : Conf} (h : Sim s C) : Chained C s := ⟨h.root, h.parent, h.structures⟩

namespace Chained

variable {C : Conf} {s s' : State}

/--
The parents, the structures, and the free slots of all partitions are the same, and so are the slots in use.
-/
structure Same (s s' : State) : Prop where
  root : s'.constantRootPartM = s.constantRootPartM
  core : ∀ p, (s'.pdtables.get p).core = (s.pdtables.get p).core
  next : s'.nextPointers = s.nextPointers
  present : ∀ a, (s'.blockEntries.get a).present = (s.blockEntries.get a).present

instance : Std.Refl Same := ⟨fun _ => ⟨rfl, fun _ => rfl, rfl, fun _ => rfl⟩⟩

instance : IsTrans State Same where
  trans _ _ _ h h' := ⟨h'.root.trans h.root, fun p => (h'.core p).trans (h.core p), h'.next.trans h.next,
    fun a => (h'.present a).trans (h.present a)⟩

theorem same (h : Chained C s) (hs : Same s s') : Chained C s' := by
  have hcore : ∀ p, (s'.pdtables.get p).parent = (s.pdtables.get p).parent
      ∧ (s'.pdtables.get p).structurePtr = (s.pdtables.get p).structurePtr := by
    intro p
    have hcore := hs.core p
    simp only [PDTable.core, Prod.mk.injEq] at hcore
    exact ⟨hcore.2.2.2.2, hcore.1⟩
  constructor
  . exact hs.root.trans h.root
  . intro p hp hroot
    rw [(hcore p).1]
    exact h.parent p hp hroot
  . intro p hp
    rw [(hcore p).2]
    apply (h.structures p hp).congr
    intro k _
    unfold State.nextStructure
    rw [hs.next]

namespace Same

theorem entry {f : BlockEntry → BlockEntry} (hf : ∀ e, (f e).present = e.present) (a : Nat)
    : Keeps Same (modifyBlockEntry a f) := by
  intro s
  rw [modifyBlockEntry_run]
  refine ⟨rfl, fun _ => rfl, rfl, fun x => ?_⟩
  dsimp only
  rw [Mem.get_set]
  split
  . next heq => rw [hf, heq]
  . rfl

theorem unmap (pd b : Nat) : Keeps Same (removeBlockFromPhysicalMPU pd b) := by
  intro s
  unfold removeBlockFromPhysicalMPU
  rw [modifyPDTable_run]
  refine ⟨rfl, fun p => ?_, rfl, fun _ => rfl⟩
  dsimp only
  rw [Mem.get_set]
  split
  . next heq => rw [Sim.unmapBlock_core, heq]
  . rfl

theorem ancestorsIfNotCut (pd b : Nat) (accessiblebit : Bool)
    : Keeps Same (writeAccessibleToAncestorsIfNotCutRec pd b accessiblebit) :=
  writeAccessibleToAncestorsIfNotCutRec_keeps
    (fun a => entry (f := fun e => { e with accessible := accessiblebit }) (fun _ => rfl) a) unmap pd b

end Same

theorem found (h : Chained C s) (hC : C.Apart) {p lo hi : Nat} (hp : C.Live p)
    (hne : (findExactBlockInKS p lo hi s).1 ≠ nullAddr) : C.Owns p (findExactBlockInKS p lo hi s).1 := by
  have hrun := findEntry_run (Sim.findExactBlockComp_run s lo hi) (h.structures p hp) (hC.structures_length p hp)
  have hresult : (findExactBlockInKS p lo hi s).1 = _ := congrArg Prod.fst hrun
  dsimp only at hresult
  rw [hresult] at hne ⊢
  cases hfind : ((C.structures p).flatMap slotsOf).find? fun a => (s.blockEntries.get a).present
      && (decide ((s.blockEntries.get a).startAddr = lo) && decide ((s.blockEntries.get a).endAddr = hi)) with
  | none =>
    rw [hfind] at hne
    exact absurd rfl hne
  | some a => exact (Conf.mem_slots hp a).mp (List.mem_of_find?_eq_some hfind)

end Chained

namespace Mapping

variable {C : Conf} {stale : Nat → Prop} {s : State} {pd b : Nat}

/--
A block that becomes inaccessible leaves the regions of its partition.
-/
theorem revoke (h : Mapping C stale s) (hC : C.Apart) (hb : C.Owns pd b)
    : Mapping C stale (removeBlockFromPhysicalMPU pd b (writeBlockAccessibleFromBlockEntryAddr b false s).2).2 := by
  have hpdtables : (removeBlockFromPhysicalMPU pd b (writeBlockAccessibleFromBlockEntryAddr b false s).2).2.pdtables =
      (removeBlockFromPhysicalMPU pd b s).2.pdtables := rfl
  have hentries :
      (removeBlockFromPhysicalMPU pd b (writeBlockAccessibleFromBlockEntryAddr b false s).2).2.blockEntries =
      s.blockEntries.set b { s.blockEntries.get b with accessible := false } := rfl
  generalize (removeBlockFromPhysicalMPU pd b (writeBlockAccessibleFromBlockEntryAddr b false s).2).2 = s' at *
  have hunmapped := h.unmapped hC hb
  refine h.step (fun p hp => ?_) fun p i hp hi => ?_
  . rw [hpdtables]
    unfold removeBlockFromPhysicalMPU
    rw [modifyPDTable_run]
    dsimp only
    rw [Mem.get_set]
    split
    . next heq =>
      subst heq
      exact PDTable.shrinks_unmapBlock b (h.LUT_length pd hp)
    . exact .refl _
  . have hne : s'.region p i ≠ b := by
      unfold State.region
      rw [hpdtables]
      exact hunmapped p i hp
    rw [hentries, Mem.get_set_of_ne _ _ (Ne.symm hne)]
    exact ⟨.refl _, .inr (.refl _)⟩

theorem allow (h : Mapping C stale s) : Mapping C stale (writeBlockAccessibleFromBlockEntryAddr b true s).2 :=
  h.entry fun _ _ _ _ => ⟨⟨id, fun _ => rfl⟩, .inr ⟨rfl, rfl, rfl, rfl⟩⟩

theorem ancestors (h : Mapping C stale s) (hchained : Chained C s) (hC : C.Apart) {p : Nat} (hp : C.Live p)
    (fuel lo hi : Nat) (v : Bool) : Mapping C stale (writeAccessibleRecAux fuel p lo hi v s).2 := by
  induction fuel generalizing s p with
  | zero => exact h
  | succ fuel ih =>
    unfold writeAccessibleRecAux
    simp only [LLI.bind_run, getRootPartition, LLI.gets_run, hchained.root, beqAddr_eq, LLI.ite_run,
      decide_eq_true_eq, LLI.pure_run, readPDParent, readPDField, findExactBlockInKS_state, compareAddrToNull_run]
    split
    . exact h
    . next hroot =>
      have hparent := hC.parent_live p hp hroot
      rw [hchained.parent p hp hroot]
      split
      . exact h
      . next hne =>
        have hfound := hchained.found hC hparent hne
        generalize (findExactBlockInKS (C.parent p) lo hi s).1 = b at hfound
        have hsame : Chained.Same s (removeBlockFromPhysicalMPUIfNotAccessible (C.parent p) b v
            (writeBlockAccessibleFromBlockEntryAddr b v s).2).2 := by
          have hwrite := Chained.Same.entry (f := fun e => { e with accessible := v }) (fun _ => rfl) b s
          cases v with
          | true => exact hwrite
          | false => exact IsTrans.trans _ _ _ hwrite (Chained.Same.unmap _ _ _)
        refine ih ?_ (hchained.same hsame) hparent
        cases v with
        | true => exact h.allow
        | false => exact h.revoke hC hfound

theorem ancestorsIfNotCut (h : Mapping C stale s) (hchained : Chained C s) (hC : C.Apart) {p : Nat} (hp : C.Live p)
    (b : Nat) (v : Bool) : Mapping C stale (writeAccessibleToAncestorsIfNotCutRec p b v s).2 := by
  unfold writeAccessibleToAncestorsIfNotCutRec
  have hwalk := fun lo hi => h.ancestors hchained hC hp fuelN lo hi v
  unfold readBlockStartFromBlockEntryAddr readBlockEndFromBlockEntryAddr
  simp only [LLI.bind_run, LLI.ite_run, readBlockField_run]
  split
  . split
    . exact hwalk _ _
    . exact hwalk _ _
  . exact h

end Mapping

/-
The functions that write more than one entry
-/

/--
What the operation starts with holds afterwards, too.
-/
def Carries (Q : State → Prop) (s s' : State) : Prop := Q s → Q s'

instance (Q : State → Prop) : Std.Refl (Carries Q) := ⟨fun _ h => h⟩

instance (Q : State → Prop) : IsTrans State (Carries Q) := ⟨fun _ _ _ h h' hs => h' (h hs)⟩

theorem Chained.of_tables {C : Conf} {s s' : State} (h : Chained C s)
    (hroot : s'.constantRootPartM = s.constantRootPartM)
    (htable : ∀ p, C.Live p → (s'.pdtables.get p).parent = (s.pdtables.get p).parent
      ∧ (s'.pdtables.get p).structurePtr = (s.pdtables.get p).structurePtr)
    (hnext : s'.nextPointers = s.nextPointers) : Chained C s' := by
  constructor
  . exact hroot.trans h.root
  . intro p hp hne
    rw [(htable p hp).1]
    exact h.parent p hp hne
  . intro p hp
    rw [(htable p hp).2]
    apply (h.structures p hp).congr
    intro k _
    unfold State.nextStructure
    rw [hnext]

/--
The regions match the blocks, and the walk through the tree finds its way.
-/
structure Mapped (C : Conf) (stale : Nat → Prop) (s : State) : Prop where
  mapping : Mapping C stale s
  chained : Chained C s

namespace Mapped

variable {C : Conf} {stale : Nat → Prop} {s s' : State} {pd b : Nat}

theorem sh1 (h : Mapped C stale s) (a : Nat) (f : Sh1Entry → Sh1Entry) : Mapped C stale (modifySh1Entry a f s).2 :=
  ⟨h.mapping.sh1 f, h.chained.of_tables rfl (fun _ _ => ⟨rfl, rfl⟩) rfl⟩

theorem sc (h : Mapped C stale s) (a : Nat) (f : SCEntry → SCEntry) : Mapped C stale (modifySCEntry a f s).2 :=
  ⟨h.mapping.sc f, h.chained.of_tables rfl (fun _ _ => ⟨rfl, rfl⟩) rfl⟩

theorem clearSh1 (h : Mapped C stale s) (a : Nat)
    : Mapped C stale (writeSh1EntryFromBlockEntryAddr a nullAddr false nullAddr s).2 :=
  ((h.sh1 a _).sh1 a _).sh1 a _

theorem table (h : Mapped C stale s) (pd : Nat) {f : PDTable → PDTable}
    (hf : ∀ pdt, (f pdt).mpu = pdt.mpu ∧ (f pdt).LUT = pdt.LUT ∧ (f pdt).parent = pdt.parent
      ∧ (f pdt).structurePtr = pdt.structurePtr) : Mapped C stale (modifyPDTable pd f s).2 := by
  refine ⟨h.mapping.table (hf _).1 (hf _).2.1, h.chained.of_tables rfl (fun p _ => ?_) rfl⟩
  rw [modifyPDTable_run]
  dsimp only
  rw [Mem.get_set]
  split
  . next heq =>
    subst heq
    exact (hf _).2.2
  . exact ⟨rfl, rfl⟩

theorem unmap (h : Mapped C stale s) (pd b : Nat) : Mapped C stale (removeBlockFromPhysicalMPU pd b s).2 :=
  ⟨h.mapping.unmap pd b, h.chained.same (Chained.Same.unmap pd b s)⟩

theorem allow (h : Mapped C stale s) (b : Nat) : Mapped C stale (writeBlockAccessibleFromBlockEntryAddr b true s).2 :=
  ⟨h.mapping.allow, h.chained.of_tables rfl (fun _ _ => ⟨rfl, rfl⟩) rfl⟩

theorem revoke (h : Mapped C stale s) (hC : C.Apart) (hb : C.Owns pd b)
    : Mapped C stale (removeBlockFromPhysicalMPU pd b (writeBlockAccessibleFromBlockEntryAddr b false s).2).2 := by
  have hwrite : Chained C (writeBlockAccessibleFromBlockEntryAddr b false s).2 :=
    h.chained.of_tables rfl (fun _ _ => ⟨rfl, rfl⟩) rfl
  exact ⟨h.mapping.revoke hC hb, hwrite.same (Chained.Same.unmap pd b _)⟩

theorem ancestors (h : Mapped C stale s) (hC : C.Apart) {p : Nat} (hp : C.Live p) (lo hi : Nat) (v : Bool)
    : Mapped C stale (writeAccessibleRec p lo hi v s).2 := by
  refine ⟨h.mapping.ancestors h.chained hC hp _ lo hi v, h.chained.same ?_⟩
  exact writeAccessibleRecAux_keeps
    (fun a => Chained.Same.entry (f := fun e => { e with accessible := v }) (fun _ => rfl) a) _ _ _ _
    (fun _ => Chained.Same.unmap) s

theorem ancestorsIfNotCut (h : Mapped C stale s) (hC : C.Apart) {p : Nat} (hp : C.Live p) (b : Nat) (v : Bool)
    : Mapped C stale (writeAccessibleToAncestorsIfNotCutRec p b v s).2 :=
  ⟨h.mapping.ancestorsIfNotCut h.chained hC hp b v, h.chained.same (Chained.Same.ancestorsIfNotCut p b v s)⟩

theorem outside (h : Mapped C stale s) {W : Set Nat} (hclear : C.Clear W) (hs : SameOutside W s s')
    : Mapped C stale s' := by
  have hpd : ∀ p, C.Live p → s'.pdtables.get p = s.pdtables.get p := fun p hp => hs.pdtables p (hclear.pd p hp)
  refine ⟨h.mapping.shrink (fun p hp => ?_) fun p a ha => ?_, ?_⟩
  . rw [hpd p hp]
    exact .refl _
  . rcases ha with ⟨hp, k, hk, hak⟩
    exact hs.blockEntries a (hclear.structures p k a hp hk (slotsOf_mem_structureRange hak))
  . constructor
    . exact hs.root.trans h.chained.root
    . intro p hp hroot
      rw [hpd p hp]
      exact h.chained.parent p hp hroot
    . intro p hp
      rw [hpd p hp]
      apply (h.chained.structures p hp).congr
      intro k hk
      apply hs.nextPointers
      apply hclear.structures p k _ hp hk
      unfold structureRange
      rw [nextOffset_eq, sizeofKStructure_eq]
      constructor <;> omega

end Mapped

/--
The slot is in no region, so that its entry may be written.
-/
structure Idle (C : Conf) (stale : Nat → Prop) (b : Nat) (s : State) : Prop where
  mapped : Mapped C stale s
  unmapped : s.Unmapped C b

namespace Idle

variable {C : Conf} {stale : Nat → Prop} {s : State} {pd b : Nat}

theorem block (f : BlockEntry → BlockEntry) : Keeps (Carries (Idle C stale b)) (modifyBlockEntry b f) :=
  fun _ h => ⟨⟨h.mapped.mapping.entry_unmapped h.unmapped f,
    h.mapped.chained.of_tables rfl (fun _ _ => ⟨rfl, rfl⟩) rfl⟩, h.unmapped⟩

theorem sh1 (a : Nat) (f : Sh1Entry → Sh1Entry) : Keeps (Carries (Idle C stale b)) (modifySh1Entry a f) :=
  fun _ h => ⟨h.mapped.sh1 a f, h.unmapped⟩

theorem sc (a : Nat) (f : SCEntry → SCEntry) : Keeps (Carries (Idle C stale b)) (modifySCEntry a f) :=
  fun _ h => ⟨h.mapped.sc a f, h.unmapped⟩

theorem table (pd : Nat) {f : PDTable → PDTable}
    (hf : ∀ pdt, (f pdt).mpu = pdt.mpu ∧ (f pdt).LUT = pdt.LUT ∧ (f pdt).parent = pdt.parent
      ∧ (f pdt).structurePtr = pdt.structurePtr) : Keeps (Carries (Idle C stale b)) (modifyPDTable pd f) := by
  intro s h
  refine ⟨h.mapped.table pd hf, fun p i hp => ?_⟩
  unfold State.region
  rw [modifyPDTable_run]
  dsimp only
  rw [Mem.get_set]
  split
  . next heq =>
    subst heq
    rw [(hf _).1]
    exact h.unmapped pd i hp
  . exact h.unmapped p i hp

end Idle

namespace Mapped

variable {C : Conf} {stale : Nat → Prop} {s : State} {pd b : Nat}

/--
A slot that is not present is in no region.
-/
theorem unmapped_of_absent (h : Mapped C stale s) (hb : b ≠ nullAddr)
    (habsent : (s.blockEntries.get b).present = false) : s.Unmapped C b := by
  intro p i hp heq
  have hpresent := (h.mapping.offered p i hp (heq ▸ hb)).1
  rw [heq, habsent] at hpresent
  exact absurd hpresent (by simp)

theorem free (h : Mapped C stale s) (hC : C.Apart) (hb : C.Owns pd b)
    : Idle C stale b (freeSlot pd b s).2 := by
  show LLI.Ensures (freeSlot pd b) s fun _ => Idle C stale b
  unfold freeSlot
  refine .step (Idle C stale b) ⟨h.unmap pd b, h.mapping.unmapped hC hb⟩ fun _ s₁ h₁ => ?_
  refine (show Keeps (Carries (Idle C stale b)) _ from ?_) s₁ h₁
  refine LLI.keeps_read (fun _ => rfl) fun index => ?_
  refine LLI.keeps_bind ?_ fun _ => ?_
  . unfold writeBlockEntryFromBlockEntryAddr
    iterate 7 refine LLI.keeps_bind (Idle.block _) fun _ => ?_
    exact Idle.block _
  refine LLI.keeps_bind (fun s hs => ⟨hs.mapped.clearSh1 b, hs.unmapped⟩) fun _ => ?_
  refine LLI.keeps_bind (LLI.keeps_bind (Idle.sc _ _) fun _ => Idle.sc _ _) fun _ => ?_
  refine LLI.keeps_read (fun _ => rfl) fun currFirstFreeSlot => ?_
  refine LLI.keeps_bind (Idle.block _) fun _ => ?_
  refine LLI.keeps_bind (Idle.table _ fun _ => ⟨rfl, rfl, rfl, rfl⟩) fun _ => ?_
  iterate 2 refine LLI.keeps_read (fun _ => rfl) fun _ => ?_
  refine LLI.keeps_bind (Idle.table _ fun _ => ⟨rfl, rfl, rfl, rfl⟩) fun _ => ?_
  exact LLI.keeps_pure _

/--
A new entry is written in a free slot, which is in no region.
-/
theorem insert (h : Mapped C stale s) (hfirst : (s.pdtables.get pd).firstfreeslot = b) (hb : s.Unmapped C b)
    (startaddr endaddr origin : Nat) (r w e : Bool) (n : Nat)
    : Idle C stale b (insertNewEntry pd startaddr endaddr origin r w e n s).2 := by
  show LLI.Ensures (insertNewEntry pd startaddr endaddr origin r w e n) s fun _ => Idle C stale b
  unfold insertNewEntry
  refine .bind (readPDField_run _ _ _) ?_
  rw [hfirst]
  refine (show Keeps (Carries (Idle C stale b)) _ from ?_) s ⟨h, hb⟩
  iterate 2 refine LLI.keeps_read (fun _ => rfl) fun _ => ?_
  iterate 2 refine LLI.keeps_bind (Idle.table _ fun _ => ⟨rfl, rfl, rfl, rfl⟩) fun _ => ?_
  iterate 7 refine LLI.keeps_bind (Idle.block _) fun _ => ?_
  refine LLI.keeps_bind (Idle.sc _ _) fun _ => ?_
  exact LLI.keeps_pure _

end Mapped
