import PipMpu.Core.MALInit
import PipMpu.Refine.Blocks
import PipMpu.Refine.Prepare
import PipMpu.Spec.Initial

/-!
This module contains the refinement of the boot: the state it leads to has a view in which the root is the only
partition.
-/

/--
The state in which `p` is the root and runs. At the boot the root is filled before it is registered.
-/
def State.rooted (s : State) (p : Nat) : State :=
  { s with currentPartition := p, constantRootPartM := p }

namespace Layout

variable (layout : Layout) {s : State}

/--
The root with one structure and no blocks.
-/
def emptyConf : Conf :=
  {
      cur := layout.rootPartDesc
      root := layout.rootPartDesc
      rootStructure := layout.rootKernStruct
      Live := (· = layout.rootPartDesc)
      parent := fun _ => 0
      depth := fun _ => 0
      structures := fun _ => [layout.rootKernStruct]
      free := fun _ => slotsOf layout.rootKernStruct
      slot := fun _ => Slot.empty
  }

/--
The block that a region of the root becomes.
-/
def regionSlot (regionStart regionEnd : Nat) (w e : Bool) : Slot :=
  Slot.empty.filled regionStart (regionEnd - 1) regionStart true w e

/--
The root at the end of the boot.
-/
def rootConf : Conf :=
  let k := layout.rootKernStruct
  { layout.emptyConf with
    free := fun _ => [slotAddr k 3, slotAddr k 4, slotAddr k 5, slotAddr k 6, slotAddr k 7]
    slot := fun a =>
      if a = slotAddr k 2 then regionSlot layout.unusedRomStart romEnd true true
      else if a = slotAddr k 1 then regionSlot mpuRegion1Start mpuRegion1End true false
      else if a = k then regionSlot mpuRegion0Start mpuRegion0End true false
      else Slot.empty }

theorem rootPartDesc_ne : layout.rootPartDesc ≠ 0 := by
  have := layout.rootPartDesc_le.1
  unfold pipRamStart at this
  omega

theorem rootKernStruct_ne : layout.rootKernStruct ≠ 0 := by
  have := layout.rootKernStruct_le.1
  unfold pipRamStart at this
  omega

theorem emptyConf_apart : layout.emptyConf.Apart := by
  constructor
  case live_ne_zero =>
    rintro p rfl
    exact layout.rootPartDesc_ne
  case parent_live => exact fun p hp hne => absurd hp hne
  case depth_parent => exact fun p hp hne => absurd hp hne
  case depth_le => exact fun p _ => Nat.zero_le _
  case structures_length => exact fun p _ => by simp [emptyConf]
  case structure_ne_zero =>
    intro p k _ hk
    rw [List.mem_singleton.mp hk]
    exact layout.rootKernStruct_ne
  case structures_disjoint =>
    intro p q k k' x hp hq hk hk' _ _
    exact ⟨Eq.trans hp (Eq.symm hq), (List.mem_singleton.mp hk).trans (List.mem_singleton.mp hk').symm⟩
  case free_nodup => exact fun p _ => slotsOf_nodup _
  case free_sub =>
    intro p a hp ha
    exact ⟨⟨hp, layout.rootKernStruct, List.mem_singleton_self _, ha⟩, rfl⟩

/-
The blocks of the root
-/

theorem rootConf_owns {p a : Nat}
    : layout.rootConf.Owns p a ↔ p = layout.rootPartDesc ∧ a ∈ slotsOf layout.rootKernStruct := by
  unfold Conf.Owns
  constructor
  . rintro ⟨hp, k, hk, ha⟩
    rw [List.mem_singleton.mp hk] at ha
    exact ⟨hp, ha⟩
  . rintro ⟨hp, ha⟩
    exact ⟨hp, layout.rootKernStruct, List.mem_singleton_self _, ha⟩

theorem rootConf_slot (a : Nat)
    : layout.rootConf.slot a = Slot.empty
        ∨ layout.rootConf.slot a = regionSlot mpuRegion0Start mpuRegion0End true false
          ∧ a = layout.rootKernStruct
        ∨ layout.rootConf.slot a = regionSlot mpuRegion1Start mpuRegion1End true false
          ∧ a = slotAddr layout.rootKernStruct 1
        ∨ layout.rootConf.slot a = regionSlot layout.unusedRomStart romEnd true true
          ∧ a = slotAddr layout.rootKernStruct 2 := by
  unfold rootConf
  simp only
  split
  . next h => exact .inr (.inr (.inr ⟨rfl, h⟩))
  . split
    . next h => exact .inr (.inr (.inl ⟨rfl, h⟩))
    . split
      . next h => exact .inr (.inl ⟨rfl, h⟩)
      . exact .inl rfl

theorem rootConf_has {p a : Nat} (h : layout.rootConf.Has p a)
    : layout.rootConf.slot a = regionSlot mpuRegion0Start mpuRegion0End true false
          ∧ a = layout.rootKernStruct
        ∨ layout.rootConf.slot a = regionSlot mpuRegion1Start mpuRegion1End true false
          ∧ a = slotAddr layout.rootKernStruct 1
        ∨ layout.rootConf.slot a = regionSlot layout.unusedRomStart romEnd true true
          ∧ a = slotAddr layout.rootKernStruct 2 := by
  rcases layout.rootConf_slot a with hempty | hslot
  . have hpresent := h.2
    rw [hempty] at hpresent
    exact absurd hpresent (by decide)
  . exact hslot

theorem rootConf_onlyRoot : layout.rootConf.OnlyRoot := by
  have hpd := layout.rootPartDesc_le
  have hk := layout.rootKernStruct_le
  have hapart := layout.apart
  have hrom := layout.unusedRomStart_lt
  rw [sizeofPDTable_eq] at hpd hapart
  rw [sizeofKStructure_eq] at hk hapart
  unfold pipRamStart at hpd hk
  unfold romEnd at hrom
  constructor
  case cur_eq => rfl
  case live_iff => exact fun p => Iff.rfl
  case root_ne => exact layout.rootPartDesc_ne
  case depth_root => rfl
  case structures_root => rfl
  case rootStructure_ne => exact layout.rootKernStruct_ne
  case disjoint_pd =>
    rw [Set.disjoint_left]
    rintro x ⟨h₁, h₂⟩ ⟨h₃, h₄⟩
    simp only [rootConf, emptyConf, sizeofPDTable_eq, sizeofKStructure_eq] at h₁ h₂ h₃ h₄
    omega
  case plain =>
    intro a ha
    rcases layout.rootConf_has ha with ⟨hslot, -⟩ | ⟨hslot, -⟩ | ⟨hslot, -⟩ <;> rw [hslot] <;>
      exact ⟨rfl, rfl, rfl, rfl, rfl⟩
  case bounds =>
    intro a ha
    rcases layout.rootConf_has ha with ⟨hslot, -⟩ | ⟨hslot, -⟩ | ⟨hslot, -⟩ <;> rw [hslot]
    . decide
    . decide
    . show layout.unusedRomStart < romEnd - 1 ∧ romEnd - 1 < wordSize
      rw [wordSize_eq, romEnd]
      omega
  case outside =>
    intro a ha
    have hbelow : ∀ x ∈ (layout.rootConf.slot a).range, x < 0x2000F000 := by
      rcases layout.rootConf_has ha with ⟨hslot, -⟩ | ⟨hslot, -⟩ | ⟨hslot, -⟩ <;> rw [hslot] <;>
        rintro x ⟨-, hx⟩ <;>
        simp only [regionSlot, Slot.filled, mpuRegion0End, mpuRegion1End, romEnd] at hx <;> omega
    constructor <;>
    . rw [Set.disjoint_left]
      rintro x ⟨hx, -⟩ hmem
      have := hbelow x hmem
      simp only [rootConf, emptyConf] at hx
      omega
  case disjoint =>
    intro a b ha hb hne
    rcases layout.rootConf_has ha with ⟨hslot, ha'⟩ | ⟨hslot, ha'⟩ | ⟨hslot, ha'⟩ <;>
    rcases layout.rootConf_has hb with ⟨hslot', hb'⟩ | ⟨hslot', hb'⟩ | ⟨hslot', hb'⟩ <;>
    first
    | exact absurd (ha'.trans hb'.symm) hne
    | rw [hslot, hslot']
      simp only [regionSlot, Slot.filled, mpuRegion0Start, mpuRegion0End, mpuRegion1Start, mpuRegion1End,
        romEnd]
      omega
  case free_nodup =>
    show [slotAddr layout.rootKernStruct 3, slotAddr layout.rootKernStruct 4, slotAddr layout.rootKernStruct 5,
      slotAddr layout.rootKernStruct 6, slotAddr layout.rootKernStruct 7].Nodup
    simp [slotAddr_eq]
  case mem_free =>
    intro a
    have howns : layout.rootConf.Owns layout.rootConf.root a ↔ a ∈ slotsOf layout.rootKernStruct :=
      layout.rootConf_owns.trans (and_iff_right rfl)
    rw [howns]
    show a ∈ [slotAddr layout.rootKernStruct 3, slotAddr layout.rootKernStruct 4,
      slotAddr layout.rootKernStruct 5, slotAddr layout.rootKernStruct 6, slotAddr layout.rootKernStruct 7] ↔ _
    rw [slotsOf_eq]
    unfold rootConf
    simp only [List.mem_cons, List.not_mem_nil, or_false, slotAddr_eq]
    split
    . simp [regionSlot, Slot.filled]
      omega
    . split
      . simp [regionSlot, Slot.filled]
        omega
      . split
        . simp [regionSlot, Slot.filled]
          omega
        . simp only [Slot.empty, and_true]
          omega
  case free_empty =>
    intro a ha habsent
    rcases layout.rootConf_slot a with hslot | ⟨hslot, -⟩ | ⟨hslot, -⟩ | ⟨hslot, -⟩
    . exact hslot
    all_goals
      rw [hslot] at habsent
      exact absurd habsent (by simp [regionSlot, Slot.filled])

/-
The run of the boot
-/

theorem insertRegion_rooted (regionStart regionEnd p : Nat) (r w e : Bool) (s : State)
    : layout.insertRegion regionStart regionEnd r w e (s.rooted p)
        =
      ((layout.insertRegion regionStart regionEnd r w e s).1,
        (layout.insertRegion regionStart regionEnd r w e s).2.rooted p) := by
  rfl

/--
The view in which a region is a block of the root.
-/
def withRegion (C : Conf) (f : Nat) (rest : List Nat) (regionStart regionEnd : Nat) (r w e : Bool) : Conf :=
  (C.setSlot f ((C.slot f).filled regionStart (addressMinusOne regionEnd) regionStart r w e)).setFree
    layout.rootPartDesc rest

theorem withRegion_free (C : Conf) (f : Nat) (rest : List Nat) (regionStart regionEnd : Nat) (r w e : Bool)
    : (layout.withRegion C f rest regionStart regionEnd r w e).free layout.rootPartDesc = rest :=
  if_pos rfl

theorem withRegion_slot (C : Conf) (f : Nat) (rest : List Nat) (regionStart regionEnd : Nat) (r w e : Bool)
    (a : Nat)
    : (layout.withRegion C f rest regionStart regionEnd r w e).slot a
        =
      if a = f then (C.slot f).filled regionStart (addressMinusOne regionEnd) regionStart r w e
      else C.slot a := by
  rfl

/--
A region becomes a block of the root.
-/
theorem run_insertRegion {C : Conf} (h : Sim (s.rooted layout.rootPartDesc) C) (hC : C.Apart)
    (hp : C.Live layout.rootPartDesc) {f : Nat} {rest : List Nat}
    (hfree : C.free layout.rootPartDesc = f :: rest) (regionStart regionEnd : Nat) (r w e : Bool)
    : (layout.insertRegion regionStart regionEnd r w e s).1 = f
        ∧ Sim ((layout.insertRegion regionStart regionEnd r w e s).2.rooted layout.rootPartDesc)
          (layout.withRegion C f rest regionStart regionEnd r w e)
        ∧ (layout.withRegion C f rest regionStart regionEnd r w e).Apart := by
  have hinsert := h.run_insertNewEntry hC hp hfree regionStart (addressMinusOne regionEnd) regionStart r w e
  have hrun : layout.insertRegion regionStart regionEnd r w e (s.rooted layout.rootPartDesc)
      = insertNewEntry layout.rootPartDesc regionStart (addressMinusOne regionEnd) regionStart r w e
        (C.free layout.rootPartDesc).length (s.rooted layout.rootPartDesc) := by
    unfold insertRegion
    rw [LLI.bind_run, h.run_readNbFreeSlots hp]
  rw [← hrun, insertRegion_rooted] at hinsert
  exact ⟨hinsert.1, hinsert.2, hC.taken hp hfree _⟩

/--
The descriptor of the root gets the initialised structure.
-/
theorem run_prepareRootPartition (hfresh : Fresh s layout.rootKernStruct)
    : Sim ((layout.prepareRootPartition s).2.rooted layout.rootPartDesc) layout.emptyConf := by
  have hk := layout.rootKernStruct_ne
  generalize hs' : (layout.prepareRootPartition s).2.rooted layout.rootPartDesc = s'
  have hblocks : s'.blockEntries = s.blockEntries := by rw [← hs']; rfl
  have hsh1 : s'.sh1Entries = s.sh1Entries := by rw [← hs']; rfl
  have hsc : s'.scEntries = s.scEntries := by rw [← hs']; rfl
  have hnext : s'.nextPointers = s.nextPointers := by rw [← hs']; rfl
  have hcore : (s'.pdtables.get layout.rootPartDesc).structurePtr = layout.rootKernStruct
      ∧ (s'.pdtables.get layout.rootPartDesc).firstfreeslot = layout.rootKernStruct
      ∧ (s'.pdtables.get layout.rootPartDesc).nbfreeslots = kernelStructureEntriesNb
      ∧ (s'.pdtables.get layout.rootPartDesc).nbprepare = 1 := by
    rw [← hs']
    unfold prepareRootPartition
    simp only [LLI.bind_run, writePDStructurePointer, writePDFirstFreeSlotPointer, writePDNbFreeSlots,
      writePDNbPrepare, modifyPDTable_run, State.rooted, Mem.get_set_self, and_self]
  constructor
  case cur => rw [← hs']; rfl
  case root => rw [← hs']; rfl
  case parent => exact fun p hp hne => absurd hp hne
  case structures =>
    rintro p rfl
    refine ⟨hcore.1, hk, ?_⟩
    unfold State.nextStructure
    rw [hnext]
    exact hfresh.next
  case free =>
    rintro p rfl
    rw [hcore.2.1]
    have hlinked : Linked s'.nextFree layout.rootKernStruct (slotsOf layout.rootKernStruct ++ []) := by
      apply linked_slotsOf hk (x := 0)
      . intro i hi
        unfold State.nextFree
        rw [hblocks, hfresh.blockEntries i (by omega)]
        simp only [freshEntry, hi, if_true]
      . unfold State.nextFree
        rw [hblocks, hfresh.blockEntries 7 (by omega)]
        rfl
      . rfl
    rw [List.append_nil] at hlinked
    exact hlinked
  case nbfreeslots =>
    rintro p rfl
    exact hcore.2.2.1
  case nbprepare =>
    rintro p rfl
    exact hcore.2.2.2
  case blockindex =>
    intro p k i _ hmem hi
    rw [List.mem_singleton.mp hmem, hblocks, hfresh.blockEntries i hi]
    rfl
  case slot =>
    intro p k i _ hmem hi
    rw [List.mem_singleton.mp hmem]
    unfold State.slotView
    rw [hblocks, hsh1, hsc, hfresh.blockEntries i hi, hfresh.sh1Entries i hi, hfresh.scEntries i hi]
    rfl

theorem run_enableBlock_rooted {C : Conf} {p : Nat} (h : Sim (s.rooted p) C) (q b i : Nat)
    : Sim ((enableBlockInMPU q b i s).2.rooted p) C := by
  show LLI.Ensures (enableBlockInMPU q b i) s fun _ s' => Sim (s'.rooted p) C
  unfold enableBlockInMPU
  refine .bind rfl ?_
  refine .bind rfl ?_
  refine .bind rfl ?_
  refine .bind rfl ?_
  refine .cond (fun _ => .pure h) fun _ => ?_
  refine .step (fun s' => Sim (s'.rooted p) C) ?_ fun _ _ h₁ => .pure h₁
  show LLI.Ensures (replaceBlockInPhysicalMPU q b i) s fun _ s' => Sim (s'.rooted p) C
  unfold replaceBlockInPhysicalMPU
  refine .bind (LLI.get_run s) ?_
  have hset := h.setPD q (fun pdt =>
    { pdt with
      mpu := pdt.mpu.set i b
      LUT := configureLUTEntry pdt.LUT i (blockEntryAt b s) (s.blockEntries.get b).startAddr }) fun _ => rfl
  refine .step (fun s' => Sim (s'.rooted p) C) hset fun _ s₁ h₁ => ?_
  refine .bind (LLI.gets_run _ _) ?_
  refine .cond (fun _ => ?_) fun _ => .pure h₁
  refine .bind (LLI.gets_run _ _) ?_
  exact h₁.of_mpuRegs _

theorem initializeRootPartitionDescriptor_run (s : State)
    : (layout.initializeRootPartitionDescriptor s).1 = true := by
  have hlt : ¬layout.rootPartDesc + sizeofPDTable ≤ layout.rootPartDesc := by
    rw [sizeofPDTable_eq]
    omega
  unfold initializeRootPartitionDescriptor eraseBlock
  rw [LLI.bind_run, LLI.ite_run, if_neg hlt]
  rfl

theorem agree_rootConf {C : Conf} (hcur : C.cur = layout.rootPartDesc) (hroot : C.root = layout.rootPartDesc)
    (hlive : C.Live = layout.emptyConf.Live) (hstructures : C.structures = layout.emptyConf.structures)
    (hfree : C.free layout.rootPartDesc = layout.rootConf.free layout.rootPartDesc)
    (hslot : C.slot = layout.rootConf.slot) : C.Agree layout.rootConf := by
  constructor
  case cur => exact hcur.symm
  case root => exact hroot.symm
  case live => exact hlive.symm
  case parent =>
    intro p hp hne
    rw [hlive] at hp
    exact absurd (Eq.trans hp hroot.symm) hne
  case structures =>
    intro p _
    rw [hstructures]
    rfl
  case free =>
    intro p hp
    rw [hlive] at hp
    rw [show p = layout.rootPartDesc from hp]
    exact hfree.symm
  case slot =>
    intro p a _
    rw [hslot]

/--
The root up to the point where its blocks are put in regions, with a condition that the writes so far keep.
-/
theorem createAndRegister_regions {Q : State → Prop} {post : Bool → State → Prop}
    (hdescriptor : ∀ s, Q (layout.initializeRootPartitionDescriptor s).2)
    (hstructure : ∀ s, Q s → Q (layout.initializeRootKernelStructure s).2)
    (hprepare : ∀ s, Q s → Q (layout.prepareRootPartition s).2)
    (hinsert : ∀ regionStart regionEnd r w e s, Q s → Q (layout.insertRegion regionStart regionEnd r w e s).2)
    (hrest : ∀ s', Sim (s'.rooted layout.rootPartDesc) layout.rootConf → Q s' →
      LLI.Ensures
        (do
          let _ ← enableBlockInMPU layout.rootPartDesc layout.rootKernStruct 0
          let _ ← enableBlockInMPU layout.rootPartDesc (slotAddr layout.rootKernStruct 1) 1
          let _ ← enableBlockInMPU layout.rootPartDesc (slotAddr layout.rootKernStruct 2) 2
          writePDVidt layout.rootPartDesc layout.rootVidtStart
          updateRootPartition layout.rootPartDesc
          pure true) s' post)
    (s : State) : layout.createAndRegisterRootPartition.Ensures s post := by
  have hk := layout.rootKernStruct_ne
  have hp : layout.emptyConf.Live layout.rootPartDesc := rfl
  unfold createAndRegisterRootPartition
  refine .step_eq Q (layout.initializeRootPartitionDescriptor_run _) (hdescriptor s) fun s₁ hq₁ => ?_
  refine .cond (fun hfalse => absurd hfalse (by simp)) fun _ => ?_
  rcases initStructure_run layout.rootKernStruct (le_refl _) s₁ with ⟨hval, -, hfresh⟩
  refine .step_eq (fun s' => Fresh s' layout.rootKernStruct ∧ Q s') hval ⟨hfresh, hstructure s₁ hq₁⟩ ?_
  rintro s₂ ⟨hfresh₂, hq₂⟩
  refine .cond (fun hfalse => absurd hfalse (by simp)) fun _ => ?_
  refine .step (fun s' => Sim (s'.rooted layout.rootPartDesc) layout.emptyConf ∧ Q s')
    ⟨layout.run_prepareRootPartition hfresh₂, hprepare s₂ hq₂⟩ ?_
  rintro _ s₃ ⟨h₃, hq₃⟩
  have hfree₃ : layout.emptyConf.free layout.rootPartDesc
      = layout.rootKernStruct :: [slotAddr layout.rootKernStruct 1, slotAddr layout.rootKernStruct 2,
        slotAddr layout.rootKernStruct 3, slotAddr layout.rootKernStruct 4, slotAddr layout.rootKernStruct 5,
        slotAddr layout.rootKernStruct 6, slotAddr layout.rootKernStruct 7] := slotsOf_eq _
  -- each region takes the next free slot
  rcases layout.run_insertRegion h₃ layout.emptyConf_apart hp hfree₃ mpuRegion0Start mpuRegion0End true true
    false with ⟨hval₄, h₄, hapart₄⟩
  refine .step_eq (fun s' => Sim (s'.rooted layout.rootPartDesc) _ ∧ Q s') hval₄ ⟨h₄, hinsert _ _ _ _ _ s₃ hq₃⟩ ?_
  rintro s₄ ⟨h₄, hq₄⟩
  rcases layout.run_insertRegion h₄ hapart₄ hp (layout.withRegion_free ..) mpuRegion1Start mpuRegion1End true
    true false with ⟨hval₅, h₅, hapart₅⟩
  refine .step_eq (fun s' => Sim (s'.rooted layout.rootPartDesc) _ ∧ Q s') hval₅ ⟨h₅, hinsert _ _ _ _ _ s₄ hq₄⟩ ?_
  rintro s₅ ⟨h₅, hq₅⟩
  rcases layout.run_insertRegion h₅ hapart₅ hp (layout.withRegion_free ..) layout.unusedRomStart romEnd true
    true true with ⟨hval₆, h₆, -⟩
  refine .step_eq (fun s' => Sim (s'.rooted layout.rootPartDesc) _ ∧ Q s') hval₆ ⟨h₆, hinsert _ _ _ _ _ s₅ hq₅⟩ ?_
  rintro s₆ ⟨h₆, hq₆⟩
  have hsim : Sim (s₆.rooted layout.rootPartDesc) layout.rootConf := by
    apply h₆.congr
    refine layout.agree_rootConf rfl rfl rfl rfl ?_ ?_
    . exact layout.withRegion_free ..
    . funext a
      have h₁ : slotAddr layout.rootKernStruct 1 ≠ layout.rootKernStruct := by
        rw [slotAddr_eq]
        omega
      have h₂ : slotAddr layout.rootKernStruct 2 ≠ layout.rootKernStruct := by
        rw [slotAddr_eq]
        omega
      have h₂₁ : slotAddr layout.rootKernStruct 2 ≠ slotAddr layout.rootKernStruct 1 := by
        rw [slotAddr_eq, slotAddr_eq]
        omega
      simp only [withRegion_slot, if_neg h₁, if_neg h₂, if_neg h₂₁]
      rfl
  exact hrest s₆ hsim hq₆

/--
The boot does not panic, and it leads to the root as the only partition.
-/
theorem run_boot (s : State)
    : layout.boot.Ensures s fun v s' => v = true ∧ Sim s' layout.rootConf := by
  suffices hcreate : layout.createAndRegisterRootPartition.Ensures (initMPU s).2 fun v s' =>
      v = true ∧ Sim (s'.rooted layout.rootPartDesc) layout.rootConf
        ∧ s'.constantRootPartM = layout.rootPartDesc by
    unfold boot malInit
    refine .step_result (P := fun v s' => v = true ∧ Sim (s'.rooted layout.rootPartDesc) layout.rootConf
        ∧ s'.constantRootPartM = layout.rootPartDesc) hcreate ?_
    rintro v s₁ ⟨rfl, h₁, hroot⟩
    refine .cond (fun hfalse => absurd hfalse (by simp)) fun _ => ?_
    have hs : { s₁ with currentPartition := layout.rootPartDesc } = s₁.rooted layout.rootPartDesc := by
      unfold State.rooted
      rw [← hroot]
    refine .step (Sim · layout.rootConf) ?_ fun _ _ h₂ => .pure ⟨rfl, h₂⟩
    show LLI.Ensures (activate layout.rootPartDesc) { s₁ with currentPartition := layout.rootPartDesc }
      fun _ s' => Sim s' layout.rootConf
    rw [hs]
    unfold activate
    refine .bind (readPDField_run _ _ _) ?_
    exact h₁.of_mpuRegs _
  refine layout.createAndRegister_regions (Q := fun _ => True) (fun _ => trivial) (fun _ _ => trivial)
    (fun _ _ => trivial) (fun _ _ _ _ _ _ _ => trivial) (fun s₆ hsim _ => ?_) _
  refine .step (fun s' => Sim (s'.rooted layout.rootPartDesc) layout.rootConf)
    (run_enableBlock_rooted hsim _ _ _) fun _ s₇ h₇ => ?_
  refine .step (fun s' => Sim (s'.rooted layout.rootPartDesc) layout.rootConf)
    (run_enableBlock_rooted h₇ _ _ _) fun _ s₈ h₈ => ?_
  refine .step (fun s' => Sim (s'.rooted layout.rootPartDesc) layout.rootConf)
    (run_enableBlock_rooted h₈ _ _ _) fun _ s₉ h₉ => ?_
  have hvidt := h₉.setPD layout.rootPartDesc (fun pd => { pd with vidtAddr := layout.rootVidtStart }) fun _ => rfl
  refine .step (fun s' => Sim (s'.rooted layout.rootPartDesc) layout.rootConf) hvidt fun _ s₁₀ h₁₀ => ?_
  refine .step (fun s' => Sim (s'.rooted layout.rootPartDesc) layout.rootConf
    ∧ s'.constantRootPartM = layout.rootPartDesc) ⟨h₁₀, rfl⟩ fun _ s₁₁ h₁₁ => ?_
  exact .pure ⟨rfl, h₁₁⟩

end Layout
