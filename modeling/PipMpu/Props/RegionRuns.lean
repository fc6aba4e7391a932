import PipMpu.Props.AllServices
import PipMpu.Props.RegionTree

/-!
This module contains the virtual MPUs in all runs of the services: each region is empty or holds an accessible block
of its partition, no block is in two regions, and the LUT holds the registers that belong to the blocks.
-/

namespace State

/--
Each region of a partition is empty or holds an accessible block of it that is in no other region.
-/
structure RegionsHoldBlocks (s : State) : Prop where
  block : ∀ p i, s.Partition p → s.region p i ≠ nullAddr → s.HasBlock p (s.region p i)
  accessible : ∀ p i, s.Partition p → s.region p i ≠ nullAddr → (s.blockEntries.get (s.region p i)).accessible = true
  once : ∀ p, s.Partition p → s.OneRegionEach p

/--
The LUT of each partition holds the registers for the blocks in its regions.
-/
structure LUTsMatchRegions (s : State) : Prop where
  length : ∀ p, s.Partition p → (s.pdtables.get p).LUT.length = mpuRegionsNb * 2
  registers : ∀ p i, s.Partition p → i < mpuRegionsNb →
    (s.pdtables.get p).registers i = s.registersFor i (s.region p i)
  last : ∀ p i, s.Partition p → s.region p i ≠ nullAddr → i < mpuRegionsNb

/--
The state has a view that its regions match.
-/
def MappedView (s : State) : Prop := ∃ C : Conf, Sim s C ∧ C.Inv ∧ Mapping C (fun _ => False) s

end State

namespace Sim

variable {s : State} {C : Conf}

theorem mapped (h : Sim s C) (hm : Mapping C (fun _ => False) s) : Mapped C (fun _ => False) s := ⟨hm, h.chained⟩

theorem regionsHoldBlocks (h : Sim s C) (hC : C.Static) (hm : Mapping C (fun _ => False) s) : s.RegionsHoldBlocks where
  block p i hp hi := by
    have hlive := h.live_of_partition hC hp
    exact ⟨(h.ownsEntry_iff hlive).mpr (hm.owns p i hlive hi), (hm.offered p i hlive hi).1⟩
  accessible p i hp hi := (hm.offered p i (h.live_of_partition hC hp) hi).2
  once p hp := hm.once p (h.live_of_partition hC hp)

theorem LUTsMatchRegions (h : Sim s C) (hC : C.Static) (hm : Mapping C (fun _ => False) s) : s.LUTsMatchRegions where
  length p hp := hm.LUT_length p (h.live_of_partition hC hp)
  registers p i hp hi := hm.programmed p i (h.live_of_partition hC hp) hi id
  last _ _ hp hi := hm.lt (h.live_of_partition hC hp) hi

/-
The calls
-/

variable {s' : State} {D : Conf}

/--
The regions still match a view with the same blocks.
-/
theorem mappedView (h' : Sim s' D) (hD : D.Inv) (hm : Mapping C (fun _ => False) s')
    (hlive : ∀ p, D.Live p → C.Live p) (howns : ∀ p a, D.Live p → C.Owns p a → D.Owns p a) : s'.MappedView :=
  ⟨D, h', hD, hm.transfer hlive fun p a hp ha _ => howns p a hp ha⟩

theorem createPartition_mapped (h : Sim s C) (hC : C.Inv) (hm : Mapping C (fun _ => False) s) (a : Nat)
    : (createPartition a s).2.MappedView := by
  by_cases hcreate : (createPartition a s).1 = true
  . have hcases := h.run_createPartition_cases hC a
    unfold LLI.Ensures at hcases
    rcases hcases with ⟨hfalse, -⟩ | ⟨-, hcan, -, hadd, h'⟩
    . exact absurd (hfalse.symm.trans hcreate) (by simp)
    . have hD := ((hC.step (.access hcan)).step (.addPartition hadd))
      have hmapped := (h.mapped hm).run_createPartition h hC hcreate
      refine h'.mappedView hD hmapped.mapping ?_ ?_ <;> rw [Conf.addPartition_access]
      . exact fun _ hp => hp
      . exact fun _ _ _ ha => ha
  . rw [createPartition_failsClean a s (by simpa using hcreate)]
    exact ⟨C, h, hC, hm⟩

theorem cutMemoryBlock_mapped (h : Sim s C) (hC : C.Inv) (hm : Mapping C (fun _ => False) s) (a cutAddr region : Nat)
    : (cutMemoryBlock a cutAddr region s).2.MappedView := by
  have hmapped := (h.mapped hm).run_cutMemoryBlock h hC a cutAddr region
  rcases h.run_cutMemoryBlock_cases hC a cutAddr region with ⟨-, h'⟩ | ⟨rest, hsplit, -, h'⟩
  . exact ⟨C, h', hC, hmapped.mapping⟩
  . exact h'.mappedView (hC.step (.cut hsplit)) hmapped.mapping (fun _ hp => hp) fun _ _ _ ha => ha

theorem mergeMemoryBlocks_mapped (h : Sim s C) (hC : C.Inv) (hm : Mapping C (fun _ => False) s) (a₁ a₂ region : Nat)
    : (mergeMemoryBlocks a₁ a₂ region s).2.MappedView := by
  have hmapped := (h.mapped hm).run_mergeMemoryBlocks h hC a₁ a₂ region
  rcases h.run_mergeMemoryBlocks_cases hC a₁ a₂ region with ⟨-, h'⟩ | ⟨-, hjoin, hacc, h'⟩
  . exact ⟨C, h', hC, hmapped.mapping⟩
  . exact h'.mappedView (hC.step (.merge hjoin hacc)) hmapped.mapping (fun _ hp => hp) fun _ _ _ ha => ha

/--
The target of `prepare` gets one more structure.
-/
theorem prepare_mapped (h : Sim s C) (hC : C.Inv) (hm : Mapping C (fun _ => False) s) (idPD a : Nat)
    : (prepare idPD a s).2.MappedView := by
  have hchecks := h.run_prepare_checks hC idPD a
  unfold LLI.Ensures at hchecks
  rcases hchecks with hfailed | ⟨t, -, hcan, hrun⟩
  . rw [congrArg Prod.snd hfailed]
    exact ⟨C, h, hC, hm⟩
  . rw [congrArg Prod.snd hrun]
    have hmapping := (h.mapped hm).run_prepareBlock hC hcan
    rcases h.run_prepareBlock hC hcan with ⟨-, haccess, hlink, h'⟩
    refine h'.mappedView ((hC.step (.access haccess)).step (.link hlink)) hmapping (fun _ hp => hp) ?_
    exact fun p x _ hx => (hlink.owns_iff p x).mpr (.inl hx)

theorem addMemoryBlock_mapped (h : Sim s C) (hC : C.Inv) (hm : Mapping C (fun _ => False) s) (idPDchild a : Nat)
    (r w x : Bool) : (addMemoryBlock idPDchild a r w x s).2.MappedView := by
  have hmapped := (h.mapped hm).run_addMemoryBlock h hC idPDchild a r w x
  rcases h.run_addMemoryBlock_cases hC idPDchild a r w x with ⟨-, h'⟩ | ⟨c, rest, -, -, -, hshare, -, h'⟩
  . exact ⟨C, h', hC, hmapped.mapping⟩
  . exact h'.mappedView (hC.step (.share hshare)) hmapped.mapping (fun _ hp => hp) fun _ _ _ ha => ha

/--
A removal that does not fail half-way leaves a view.
-/
theorem removeMemoryBlock_mapped (h : Sim s C) (hC : C.Inv) (hm : Mapping C (fun _ => False) s) (a : Nat)
    (hwhole : ¬s.FailsHalfway (.removeMemoryBlock a)) : (removeMemoryBlock a s).2.MappedView := by
  have hmapped := (h.mapped hm).run_removeMemoryBlock h hC a
  by_cases hshared : C.Has C.cur a ∧ (C.slot a).PDchild ≠ 0 ∧ (C.slot a).inChildLocation ≠ 0
  swap
  . have hrun := h.run_removeMemoryBlock_unshared hC a fun ha => by
      by_contra hne
      exact hshared ⟨ha, (not_or.mp hne).1, (not_or.mp hne).2⟩
    rw [hrun]
    exact ⟨C, h, hC, hm⟩
  rcases hshared with ⟨ha, hchild, hlocation⟩
  rcases h.run_removeMemoryBlock_shared hC ha hchild hlocation with
    ⟨-, hsame, -⟩ | ⟨-, -, s₁, D, hD, h'⟩ | ⟨hfalse, -, -, D, hD⟩
  . rw [hsame]
    exact ⟨C, h, hC, hm⟩
  . have hinv := hC.steps (Conf.Move.steps hD.steps)
    refine h'.mappedView hinv hmapped.mapping (fun p hp => ?_) fun p x _ hx => ?_
    . exact hD.live_eq ▸ hp
    . exact (hD.owns p x).mpr hx
  . have hkind := (hC.static.location_kind _ a ha hlocation).2.1
    refine absurd ⟨hfalse, (C.slot a).inChildLocation, ?_, ?_⟩ hwhole
    . rw [h.present_eq hkind.1]
      exact hkind.2
    . rw [hD.sim.present_eq ((hD.owns _ _).mpr hkind.1)]
      exact hD.freed

theorem deletePartition_mapped (h : Sim s C) (hC : C.Inv) (hm : Mapping C (fun _ => False) s) (a : Nat)
    : (deletePartition a s).2.MappedView := by
  rcases h.run_deletePartition_released hC a with ⟨-, hsame, -⟩ | ⟨-, ha, hflag, hdrop, -, X, hview, hX, h'⟩
  . rw [hsame]
    exact ⟨C, h, hC, hm⟩
  . have hmapped := (h.mapped hm).run_deletePartition h hC ha hflag
    have hinv := hC.steps (Conf.Move.steps hX.steps)
    have hsim := h'.clearGiven_of_reclaiming hC.static hdrop hX fun _ hx =>
      notGiven_of_released hC.static ha hdrop hX hview hx
    refine hsim.mappedView hinv hmapped.mapping (fun p hp => ?_) fun p x hp hx => ?_
    . exact hX.live ▸ hp
    . exact (hX.owns_iff p x).mpr ⟨⟨hx.1.1, hx.2⟩, hx.1.2⟩

theorem collect_mapped (h : Sim s C) (hC : C.Inv) (hm : Mapping C (fun _ => False) s) {idPD : Nat}
    (hown : s.CollectsOwn (.collect idPD)) : (collect idPD s).2.MappedView := by
  have hS := hC.static
  rcases (h.mapped hm).run_collect h hS idPD (fun t hglobal ht => h.collectsOwn hS hown hglobal ht) with
    hsame | ⟨t, k, hunlink, hb, h', hm'⟩
  . rw [hsame]
    exact ⟨C, h, hC, hm⟩
  . refine ⟨_, h', ?_, hm'⟩
    rw [hunlink.giveBack_eq hS hb]
    exact (hC.step (.unlink hunlink)).step (.access (hunlink.canAccess hS hb))

/--
After each call there is again a view that the regions match.
-/
theorem after_mapped (h : Sim s C) (hC : C.Inv) (hm : Mapping C (fun _ => False) s) (call : ServiceCall)
    (hwhole : ¬s.FailsHalfway call) (hown : s.CollectsOwn call) : (s.after call).MappedView := by
  have hmapped := h.mapped hm
  cases call with
  | createPartition idBlock => exact h.createPartition_mapped hC hm idBlock
  | cutMemoryBlock idBlockToCut cutAddr MPURegionNb =>
    exact h.cutMemoryBlock_mapped hC hm idBlockToCut cutAddr MPURegionNb
  | mergeMemoryBlocks idBlockToMerge1 idBlockToMerge2 MPURegionNb =>
    exact h.mergeMemoryBlocks_mapped hC hm idBlockToMerge1 idBlockToMerge2 MPURegionNb
  | prepare idPD idRequisitionedBlock => exact h.prepare_mapped hC hm idPD idRequisitionedBlock
  | addMemoryBlock idPDchild idBlockToShare r w e =>
    exact h.addMemoryBlock_mapped hC hm idPDchild idBlockToShare r w e
  | removeMemoryBlock idBlockToRemove => exact h.removeMemoryBlock_mapped hC hm idBlockToRemove hwhole
  | deletePartition idPDchildToDelete => exact h.deletePartition_mapped hC hm idPDchildToDelete
  | collect idPD => exact h.collect_mapped hC hm hown
  | mapMPU idPD idBlockToEnable MPURegionNb =>
    exact ⟨C, Unseen.mapMPU _ _ _ s C h, hC, (hmapped.run_mapMPU h hC.static _ _ _).mapping⟩
  | readMPU idPD MPURegionNb => exact ⟨C, Unseen.readMPU _ _ s C h, hC, (hmapped.run_readMPU _ _).mapping⟩
  | setVIDT pd vidtAddr => exact ⟨C, Unseen.setVIDT _ _ s C h, hC, (hmapped.run_setVIDT _ _).mapping⟩

end Sim

/-
The boot
-/

namespace Layout

variable (layout : Layout)

/--
The regions of the root are still empty.
-/
def Blank (s : State) : Prop := (s.pdtables.get layout.rootPartDesc).Blank

theorem blank_table (p : Nat) (f : PDTable → PDTable) (hf : ∀ pdt, (f pdt).mpu = pdt.mpu ∧ (f pdt).LUT = pdt.LUT)
    : Keeps (Carries layout.Blank) (modifyPDTable p f) := by
  intro s h
  unfold Blank
  rw [modifyPDTable_run]
  dsimp only
  rw [Mem.get_set]
  split
  . next heq =>
    subst heq
    exact PDTable.Blank.of_eq h (hf _).1 (hf _).2
  . exact h

theorem blank_initializeRootPartitionDescriptor (s : State)
    : layout.Blank (layout.initializeRootPartitionDescriptor s).2 := by
  have hlt : ¬layout.rootPartDesc + sizeofPDTable ≤ layout.rootPartDesc := by
    rw [sizeofPDTable_eq]
    omega
  have herase : (eraseBlock layout.rootPartDesc (layout.rootPartDesc + sizeofPDTable) s).1 = true := by
    unfold eraseBlock
    rw [LLI.ite_run, if_neg hlt]
    rfl
  show layout.initializeRootPartitionDescriptor.Ensures s fun _ s' => layout.Blank s'
  unfold initializeRootPartitionDescriptor
  refine .step_eq (fun _ => True) herase trivial fun s₁ _ => ?_
  refine .cond (fun hfalse => absurd hfalse (by simp)) fun _ => ?_
  refine .step layout.Blank ?_ fun _ _ hblank => .pure hblank
  unfold Blank initPDTable
  rw [modifyPDTable_run]
  dsimp only
  rw [Mem.get_set_self]
  exact PDTable.blank_default

theorem blank_initializeRootKernelStructure (s : State) (h : layout.Blank s)
    : layout.Blank (layout.initializeRootKernelStructure s).2 := by
  have hinit := (initStructure_run layout.rootKernStruct (le_refl _) s).2.1
  unfold Blank initializeRootKernelStructure
  rw [hinit.pdtables]
  . exact h
  . have hapart := layout.apart
    rw [sizeofPDTable_eq, sizeofKStructure_eq] at hapart
    rintro ⟨hlo, hhi⟩
    rw [sizeofKStructure_eq] at hhi
    omega

theorem blank_prepareRootPartition (s : State) (h : layout.Blank s)
    : layout.Blank (layout.prepareRootPartition s).2 := by
  refine (show Keeps (Carries layout.Blank) layout.prepareRootPartition from ?_) s h
  iterate 3 refine LLI.keeps_bind (layout.blank_table _ _ fun _ => ⟨rfl, rfl⟩) fun _ => ?_
  exact layout.blank_table _ _ fun _ => ⟨rfl, rfl⟩

theorem blank_insertRegion (regionStart regionEnd : Nat) (r w e : Bool) (s : State) (h : layout.Blank s)
    : layout.Blank (layout.insertRegion regionStart regionEnd r w e s).2 := by
  refine (show Keeps (Carries layout.Blank) (layout.insertRegion regionStart regionEnd r w e) from ?_) s h
  refine LLI.keeps_read (fun _ => rfl) fun nbfreeslots => ?_
  unfold insertNewEntry
  iterate 3 refine LLI.keeps_read (fun _ => rfl) fun _ => ?_
  iterate 2 refine LLI.keeps_bind (layout.blank_table _ _ fun _ => ⟨rfl, rfl⟩) fun _ => ?_
  iterate 8 refine LLI.keeps_bind (fun _ hs => hs) fun _ => ?_
  exact LLI.keeps_pure _

theorem rootConf_offers {s : State} (h : Sim (s.rooted layout.rootPartDesc) layout.rootConf) {a : Nat}
    (ha : a ∈ slotsOf layout.rootKernStruct
      ∧ (layout.rootConf.slot a).present = true ∧ (layout.rootConf.slot a).accessible = true)
    : layout.rootConf.Owns layout.rootPartDesc a ∧ s.Offered a := by
  have howns : layout.rootConf.Owns layout.rootPartDesc a := layout.rootConf_owns.mpr ⟨rfl, ha.1⟩
  refine ⟨howns, ?_, ?_⟩
  . exact (h.present_eq howns).trans ha.2.1
  . exact (congrArg Prod.fst (h.run_readAccessible howns)).trans ha.2.2

/--
The blocks of `rest` are still to be put in a region of the root.
-/
structure Placing (rest : List Nat) (s : State) : Prop where
  mapping : Mapping layout.rootConf (fun _ => False) s
  owns : ∀ a ∈ rest, layout.rootConf.Owns layout.rootPartDesc a
  offered : ∀ a ∈ rest, s.Offered a
  unmapped : ∀ a ∈ rest, s.Unmapped layout.rootConf a

theorem enable_placing {a : Nat} {rest : List Nat} {s : State} (h : layout.Placing (a :: rest) s) (ha : a ∉ rest)
    (n : Nat) : layout.Placing rest (enableBlockInMPU layout.rootPartDesc a n s).2 := by
  have howns := h.owns a (List.mem_cons_self ..)
  have hrest : ∀ b ∈ rest, b ∈ a :: rest := fun b hb => List.mem_cons_of_mem a hb
  constructor
  case mapping =>
    refine h.mapping.enable layout.rootConf_onlyRoot.inv.static.sep.toApart rfl fun _ => ⟨howns, ?_, fun i _ => ?_⟩
    . exact h.offered a (List.mem_cons_self ..)
    . exact h.unmapped a (List.mem_cons_self ..) layout.rootPartDesc i rfl
  case owns => exact fun b hb => h.owns b (hrest b hb)
  case offered =>
    intro b hb
    unfold State.Offered
    rw [(enableBlock_tables layout.rootPartDesc a n s).2.2.1]
    exact h.offered b (hrest b hb)
  case unmapped =>
    intro b hb
    exact h.mapping.unmapped_enable (h.unmapped b (hrest b hb)) fun heq => ha (heq ▸ hb)

/--
The first three slots hold the blocks of the root.
-/
theorem rootConf_filled {a : Nat} (ha : a ∈ [layout.rootKernStruct, slotAddr layout.rootKernStruct 1,
    slotAddr layout.rootKernStruct 2])
    : a ∈ slotsOf layout.rootKernStruct
        ∧ (layout.rootConf.slot a).present = true ∧ (layout.rootConf.slot a).accessible = true := by
  rw [slotsOf_eq]
  simp only [List.mem_cons, List.not_mem_nil, or_false] at ha
  rcases ha with rfl | rfl | rfl <;>
    simp [rootConf, slotAddr_eq, regionSlot, Slot.filled]

/--
The blocks of the root are put in its first three regions.
-/
theorem boot_mapping (s : State) : Mapping layout.rootConf (fun _ => False) (layout.boot s).2 := by
  suffices hcreate : layout.createAndRegisterRootPartition.Ensures (initMPU s).2 fun v s' =>
      v = true ∧ Mapping layout.rootConf (fun _ => False) s' by
    show layout.boot.Ensures s fun _ s' => Mapping layout.rootConf (fun _ => False) s'
    unfold boot malInit
    refine .step_result (P := fun v s' => v = true ∧ Mapping layout.rootConf (fun _ => False) s') hcreate ?_
    rintro v s₁ ⟨rfl, hm₁⟩
    refine .cond (fun hfalse => absurd hfalse (by simp)) fun _ => ?_
    refine .step (Mapping layout.rootConf fun _ => False) ?_ fun _ _ hm₂ => .pure hm₂
    exact hm₁.shrink (fun _ _ => .refl _) fun _ _ _ => rfl
  refine layout.createAndRegister_regions (Q := layout.Blank) layout.blank_initializeRootPartitionDescriptor
    layout.blank_initializeRootKernelStructure layout.blank_prepareRootPartition layout.blank_insertRegion
    (fun s₀ hsim hblank => ?_) _
  have hplacing : layout.Placing [layout.rootKernStruct, slotAddr layout.rootKernStruct 1,
      slotAddr layout.rootKernStruct 2] s₀ := by
    constructor
    case mapping => exact .of_blank fun p hp => hp ▸ hblank
    case owns => exact fun a ha => (layout.rootConf_offers hsim (layout.rootConf_filled ha)).1
    case offered => exact fun a ha => (layout.rootConf_offers hsim (layout.rootConf_filled ha)).2
    case unmapped =>
      intro a ha p i hp heq
      have howns := (layout.rootConf_offers hsim (layout.rootConf_filled ha)).1
      have hnull : s₀.region p i = nullAddr := hp ▸ hblank.region i
      exact layout.rootConf_onlyRoot.inv.static.sep.toApart.owns_ne_zero howns (heq ▸ hnull)
  refine .step (layout.Placing _) (layout.enable_placing hplacing (by simp [slotAddr_eq]) _) fun _ s₁ h₁ => ?_
  refine .step (layout.Placing _) (layout.enable_placing h₁ (by simp [slotAddr_eq]) _) fun _ s₂ h₂ => ?_
  refine .step (layout.Placing _) (layout.enable_placing h₂ (by simp) _) fun _ s₃ h₃ => ?_
  refine .step (Mapping layout.rootConf fun _ => False) (h₃.mapping.table rfl rfl) fun _ s₄ h₄ => ?_
  refine .step (Mapping layout.rootConf fun _ => False) ?_ fun _ s₅ h₅ => .pure ⟨rfl, h₅⟩
  exact h₄.shrink (fun _ _ => .refl _) fun _ _ _ => rfl

end Layout

namespace ServiceCall

/--
Each state of such a run has a view that its regions match.
-/
theorem mappedView_of_orderly {s : State} (h : (system.restrict State.Orderly).Reachable s) : s.MappedView := by
  induction h with
  | init hs =>
    rcases hs with ⟨layout, s₀, rfl⟩
    exact ⟨_, (layout.run_boot s₀).2, layout.rootConf_onlyRoot.inv, layout.boot_mapping s₀⟩
  | @step s s' event _ hstep ih =>
    rcases ih with ⟨C, hsim, hC, hm⟩
    rcases hstep with ⟨⟨hwhole, hown⟩, hp, rfl⟩
    have hlive := hsim.live_of_partition hC.static hp
    have hC' := hC.step (.switch hlive)
    have hsim' := hsim.switch event.1
    have hm₁ : Mapping C (fun _ => False) (s.runBy event.1) := hm.shrink (fun _ _ => .refl _) fun _ _ _ => rfl
    have hm' : Mapping (C.switch event.1) (fun _ => False) (s.runBy event.1) :=
      hm₁.transfer (fun _ hp => hp) fun _ _ _ ha _ => ha
    exact hsim'.after_mapped hC' hm' event.2 (hsim'.not_failsHalfway hC' hwhole) hown

end ServiceCall

/--
In every such run the regions of the partitions hold accessible blocks of theirs, each in one region.
-/
theorem regionsHoldBlocks_of_reachable {s : State} (h : (ServiceCall.system.restrict State.Orderly).Reachable s)
    : s.RegionsHoldBlocks := by
  rcases ServiceCall.mappedView_of_orderly h with ⟨C, hsim, hC, hm⟩
  exact hsim.regionsHoldBlocks hC.static hm

theorem regionsHoldBlocks_threeLevels : threeLevels.RegionsHoldBlocks :=
  regionsHoldBlocks_of_reachable threeLevels_orderly

/--
The partition below the child makes a child of its own and shares two blocks with it, of which the second one is a
part of the block that the root shared. The lowest partition cuts this block.
-/
def fourLevelsCalls : List (List Nat × ServiceCall) :=
  [
    ([], .cutMemoryBlock 0x2000F111 0x20008800 8),
    ([], .createPartition 0x2000F111),
    ([], .cutMemoryBlock 0x2000F133 0x20009000 8),
    ([], .prepare 0x2000F111 0x2000F133),
    ([], .addMemoryBlock 0x2000F111 0x2000F144 true true false),
    ([0x2000F111], .cutMemoryBlock 0x20008800 0x20009800 8),
    ([0x2000F111], .createPartition 0x20008800),
    ([0x2000F111], .cutMemoryBlock 0x20008811 0x2000A000 8),
    ([0x2000F111], .prepare 0x20008800 0x20008811),
    ([0x2000F111], .cutMemoryBlock 0x20008822 0x2000D000 8),
    ([0x2000F111], .addMemoryBlock 0x20008800 0x20008822 true true false),
    ([0x2000F111], .addMemoryBlock 0x20008800 0x20008833 true true false),
    ([0x2000F111, 0x20008800], .cutMemoryBlock 0x20009800 0x2000A800 8),
    ([0x2000F111, 0x20008800], .createPartition 0x20009800),
    ([0x2000F111, 0x20008800], .cutMemoryBlock 0x20009822 0x2000B000 8),
    ([0x2000F111, 0x20008800], .prepare 0x20009800 0x20009822),
    ([0x2000F111, 0x20008800], .addMemoryBlock 0x20009800 0x20009833 true true false),
    ([0x2000F111, 0x20008800], .addMemoryBlock 0x20009800 0x20009811 true true false),
    ([0x2000F111, 0x20008800, 0x20009800], .cutMemoryBlock 0x2000A811 0x2000E000 8)
  ]

def fourLevels : State := (State.booted.replay fourLevelsCalls).getD State.booted

/--
The third partition tries to take the cut block back, which fails after the slots are freed.
-/
def slotsFreed : State := (fourLevels.runBy 0x20009000).after (.removeMemoryBlock 0x20009811)

/--
The second partition takes the same block back, which frees the first slot once more. Then the lowest partition cuts
its other block three times, so that the first and the third cut take the same slot.
-/
def slotTakenTwiceCalls : List (List Nat × ServiceCall) :=
  [
    ([0x2000F111], .removeMemoryBlock 0x20008833),
    ([0x2000F111, 0x20008800, 0x20009800], .cutMemoryBlock 0x2000A800 0x2000C800 1),
    ([0x2000F111, 0x20008800, 0x20009800], .cutMemoryBlock 0x2000A800 0x2000C000 8),
    ([0x2000F111, 0x20008800, 0x20009800], .cutMemoryBlock 0x2000A800 0x2000B800 3)
  ]

def slotTakenTwice : State := (slotsFreed.replay slotTakenTwiceCalls).getD slotsFreed

theorem fourLevels_eval
    : (State.booted.replay fourLevelsCalls).isSome = true
        ∧ fourLevels.follow fourLevels.constantRootPartM [0x2000F111, 0x20008800] = some 0x20009000 := by
  decide +kernel

theorem slotTakenTwice_eval
    : (slotsFreed.replay slotTakenTwiceCalls).isSome = true
        ∧ slotTakenTwice.follow slotTakenTwice.constantRootPartM [0x2000F111, 0x20008800, 0x20009800]
          = some 0x2000A000
        ∧ slotTakenTwice.region 0x2000A000 1 = 0x2000A811 ∧ slotTakenTwice.region 0x2000A000 3 = 0x2000A811 := by
  decide +kernel

theorem slotTakenTwice_reachable
    : (ServiceCall.system.restrict fun _ event => ¬event.2.IsCollect).Reachable slotTakenTwice := by
  have hplain : ∀ {events : List (List Nat × ServiceCall)}, ∀ event ∈ events, ∀ s p,
      (State.runBy s p).plain event.2 = true → ¬event.2.IsCollect :=
    fun _ _ _ _ hplain => (State.whole_of_plain hplain).1
  have hfour : (ServiceCall.system.restrict fun _ event => ¬event.2.IsCollect).Reachable fourLevels :=
    ServiceCall.reachable_of_isSome ServiceCall.reachable_booted hplain fourLevels_eval.1
  have hfreed : (ServiceCall.system.restrict fun _ event => ¬event.2.IsCollect).Reachable slotsFreed :=
    .step (e := (0x20009000, .removeMemoryBlock 0x20009811)) hfour
      ⟨id, State.partition_of_follow .root fourLevels_eval.2, rfl⟩
  exact ServiceCall.reachable_of_isSome hfreed hplain slotTakenTwice_eval.1

/--
The block in the slot is in two regions.
-/
theorem not_regionsHoldBlocks
    : ¬∀ s, (ServiceCall.system.restrict fun _ event => ¬event.2.IsCollect).Reachable s → s.RegionsHoldBlocks := by
  intro hall
  rcases slotTakenTwice_eval with ⟨-, hpath, hfirst, hthird⟩
  have hregions := hall slotTakenTwice slotTakenTwice_reachable
  have honce := hregions.once 0x2000A000 (State.partition_of_follow .root hpath)
  have hne : slotTakenTwice.region 0x2000A000 1 ≠ nullAddr := by
    rw [hfirst]
    decide
  exact absurd (honce 1 3 hne (hfirst.trans hthird.symm)) (by decide)

/--
In every such run the LUTs hold the registers that belong to the blocks in the regions.
-/
theorem LUTsMatchRegions_of_reachable {s : State} (h : (ServiceCall.system.restrict State.Orderly).Reachable s)
    : s.LUTsMatchRegions := by
  rcases ServiceCall.mappedView_of_orderly h with ⟨C, hsim, hC, hm⟩
  exact hsim.LUTsMatchRegions hC.static hm

theorem LUTsMatchRegions_threeLevels : threeLevels.LUTsMatchRegions := LUTsMatchRegions_of_reachable threeLevels_orderly
