import PipMpu.Core.MemManage
import PipMpu.Props.CoveringRegion

/-!
This module contains when the region that the MemManage handler programs is confined to the block of the faulting
address. The lookup over the blocks takes the end of a block as its last address, all the other functions as the
first address behind it.
-/

/-
The lookup and the reconfiguration
-/

/--
The block at the index `i` of the array of the current partition, a null pointer is no block.
-/
def State.mpuBlock (s : State) (i : Nat) : Option BlockEntry :=
  blockEntryAt ((s.pdtables.get s.currentPartition).mpu.getD i nullAddr) s

/--
The blocks of the array are present and accessible, and their bounds are multiples of 32.
-/
structure State.MPUArray (s : State) : Prop where
  mpu_length : (s.pdtables.get s.currentPartition).mpu.length = mpuRegionsNb
  LUT_length : (s.pdtables.get s.currentPartition).LUT.length = mpuRegionsNb * 2
  present : ∀ {i block}, s.mpuBlock i = some block → block.present = true
  accessible : ∀ {i block}, s.mpuBlock i = some block → block.accessible = true
  start_dvd : ∀ {i block}, s.mpuBlock i = some block → 32 ∣ block.startAddr
  end_dvd : ∀ {i block}, s.mpuBlock i = some block → 32 ∣ block.endAddr
  end_lt : ∀ {i block}, s.mpuBlock i = some block → block.endAddr < wordSize

/--
The address is in the range of the block at the index `i`.
-/
def State.InRange (s : State) (i addr : Nat) : Prop :=
  ∃ block, s.mpuBlock i = some block ∧ block.startAddr ≤ addr ∧ addr < block.endAddr

/--
The address is in the range of the block at the index `i` or at its end.
-/
def State.Touches (s : State) (i addr : Nat) : Prop :=
  ∃ block, s.mpuBlock i = some block ∧ block.startAddr ≤ addr ∧ addr ≤ block.endAddr

variable {s : State} {addr : Nat}

theorem isMappedInVirtualMpu_run (addr : Nat) (h : s.MPUArray) (i : Nat)
    : ∃ v, isMappedInVirtualMpu addr i s = (v, s) ∧ (v = true ↔ s.Touches i addr) := by
  have hpresent := @State.MPUArray.present s h i
  unfold State.Touches
  unfold State.mpuBlock blockEntryAt at *
  unfold isMappedInVirtualMpu
  simp only [LLI.bind_run, getCurPartition, LLI.gets_run, readPDField, LLI.ite_run, LLI.pure_run,
    readBlockPresentFromBlockEntryAddr, readBlockStartFromBlockEntryAddr, readBlockEndFromBlockEntryAddr,
    readBlockField]
  generalize (s.pdtables.get s.currentPartition).mpu.getD i nullAddr = b at *
  by_cases hnull : b = nullAddr
  . exact ⟨false, by simp [hnull], by simp [hnull]⟩
  . have hpresent := hpresent (if_neg hnull)
    simp only [if_neg hnull, hpresent, Bool.not_true, if_neg Bool.false_ne_true]
    generalize s.blockEntries.get b = block
    by_cases hstart : block.startAddr > addr
    . refine ⟨false, if_pos hstart, by simp, ?_⟩
      rintro ⟨block', heq, hle, _⟩
      cases heq
      exact absurd hle (Nat.not_le.mpr hstart)
    . rw [if_neg hstart]
      by_cases hend : addr > block.endAddr
      . refine ⟨false, if_pos hend, by simp, ?_⟩
        rintro ⟨block', heq, _, hle⟩
        cases heq
        exact absurd hle (Nat.not_le.mpr hend)
      . exact ⟨true, if_neg hend, fun _ => ⟨block, rfl, Nat.le_of_not_lt hstart, Nat.le_of_not_lt hend⟩,
          fun _ => rfl⟩

theorem findMpuIndex_go (addr : Nat) (h : s.MPUArray) (n i : Nat)
    : (findMpuIndex.go addr n i s = (none, s) ∧ ∀ j, i ≤ j → j < i + n → ¬s.Touches j addr)
        ∨ ∃ vidx : Nat, findMpuIndex.go addr n i s = (some vidx, s) ∧ i ≤ vidx ∧ vidx < i + n
          ∧ s.Touches vidx addr ∧ ∀ j, i ≤ j → j < vidx → ¬s.Touches j addr := by
  induction n generalizing i with
  | zero => exact Or.inl ⟨rfl, fun j hle hlt => by omega⟩
  | succ n ih =>
    rcases isMappedInVirtualMpu_run addr h i with ⟨v, hrun, hv⟩
    unfold findMpuIndex.go
    simp only [LLI.bind_run, hrun, LLI.ite_run, LLI.pure_run]
    cases v with
    | true => exact Or.inr ⟨i, rfl, Nat.le_refl i, by omega, hv.mp rfl, fun j hle hlt => by omega⟩
    | false =>
      have hnot : ¬s.Touches i addr := fun htouch => Bool.false_ne_true (hv.mpr htouch)
      rw [if_neg Bool.false_ne_true]
      have hfirst : ∀ {j}, i ≤ j → (i + 1 ≤ j → ¬s.Touches j addr) → ¬s.Touches j addr := by
        intro j hle hrest
        rcases Nat.eq_or_lt_of_le hle with rfl | hlt
        . exact hnot
        . exact hrest hlt
      rcases ih (i + 1) with ⟨hnone, hall⟩ | ⟨vidx, hsome, hle, hlt, htouch, hall⟩
      . exact Or.inl ⟨hnone, fun j hle hlt => hfirst hle fun hle' => hall j hle' (by omega)⟩
      . exact Or.inr ⟨vidx, hsome, by omega, by omega, htouch,
          fun j hle hlt => hfirst hle fun hle' => hall j hle' hlt⟩

/--
The first block of the array that the address touches.
-/
structure State.FirstTouching (s : State) (addr vidx : Nat) (block : BlockEntry) : Prop where
  lt : vidx < mpuRegionsNb - 2
  block_eq : s.mpuBlock vidx = some block
  start_le : block.startAddr ≤ addr
  le_end : addr ≤ block.endAddr
  first : ∀ j < vidx, ¬s.Touches j addr

theorem State.FirstTouching.unique {v v' : Nat} {block block' : BlockEntry}
    (h : s.FirstTouching addr v block) (h' : s.FirstTouching addr v' block') : v = v' ∧ block = block' := by
  have heq : v = v' := by
    rcases Nat.lt_trichotomy v v' with hlt | heq | hlt
    . exact absurd ⟨block, h.block_eq, h.start_le, h.le_end⟩ (h'.first v hlt)
    . exact heq
    . exact absurd ⟨block', h'.block_eq, h'.start_le, h'.le_end⟩ (h.first v' hlt)
  subst heq
  have hsome := h.block_eq.symm.trans h'.block_eq
  exact ⟨rfl, Option.some.inj hsome⟩

theorem findMpuIndex_run (addr : Nat) (h : s.MPUArray)
    : (findMpuIndex addr s = (none, s) ∧ ∀ j < mpuRegionsNb - 2, ¬s.Touches j addr)
        ∨ ∃ (vidx : Nat) (block : BlockEntry), findMpuIndex addr s = (some vidx, s)
          ∧ s.FirstTouching addr vidx block := by
  rcases findMpuIndex_go addr h (mpuRegionsNb - 2) 0 with
    ⟨hnone, hall⟩ | ⟨vidx, hsome, _, hlt, ⟨block, hblock, hstart, hend⟩, hall⟩
  . exact Or.inl ⟨hnone, fun j hj => hall j (Nat.zero_le j) (by omega)⟩
  . exact Or.inr ⟨vidx, block, hsome, by omega, hblock, hstart, hend, fun j hj => hall j (Nat.zero_le j) hj⟩

/--
Reading the region registers selects a region, nothing else.
-/
theorem isMappedInPhysicalMpu_state (addr i : Nat) (s : State)
    : ∃ regs, (isMappedInPhysicalMpu addr i s).2 = { s with mpuRegs := regs } := by
  exact ⟨_, rfl⟩

theorem getD_setLUTEntry {LUT : List Nat} {pidx : Nat} (hlength : LUT.length = mpuRegionsNb * 2)
    (hpidx : pidx < mpuRegionsNb) (entry : Nat × Nat)
    : (setLUTEntry LUT pidx entry).getD (pidx * 2) 0 = entry.1
        ∧ (setLUTEntry LUT pidx entry).getD (pidx * 2 + 1) 0 = entry.2 := by
  unfold setLUTEntry
  rw [List.getD_eq_getElem?_getD, List.getD_eq_getElem?_getD]
  constructor
  . rw [List.getElem?_set_ne (by omega), List.getElem?_set_self (by omega)]
    rfl
  . rw [List.getElem?_set_self (by rw [List.length_set]; omega)]
    rfl

/--
The region that the LUT entry `pidx` of the current partition stands for.
-/
def State.regionOf (s : State) (pidx : Nat) : Region :=
  Region.decode ((s.pdtables.get s.currentPartition).LUT.getD (pidx * 2) 0)
    ((s.pdtables.get s.currentPartition).LUT.getD (pidx * 2 + 1) 0)

theorem reconfigureMpu_regionOf (addr : Nat) (h : s.MPUArray) {vidx pidx : Nat} {block : BlockEntry}
    (hblock : s.mpuBlock vidx = some block) (hpidx : pidx < mpuRegionsNb) (regs : MpuRegs)
    : (reconfigureMpu addr vidx pidx { s with mpuRegs := regs }).2.regionOf pidx
        =
      Region.decode (coveringLUTEntry pidx block addr).1 (coveringLUTEntry pidx block addr).2 := by
  unfold reconfigureMpu State.regionOf
  simp only [LLI.bind_run, getCurPartition, LLI.gets_run, LLI.get_run, modifyPDTable, LLI.modify_run,
    readPDField, mpuConfigureFromLUT, Mem.get_set_self]
  have hentry : blockEntryAt ((s.pdtables.get s.currentPartition).mpu.getD vidx nullAddr)
      { s with mpuRegs := regs } = some block := hblock
  rw [hentry]
  have hget := getD_setLUTEntry h.LUT_length hpidx (coveringLUTEntry pidx block addr)
  unfold configureLUTEntry
  simp only [hget.1, hget.2]

theorem reconfigureOne_run (addr : Nat) (h : s.MPUArray) (flag : Nat) {spare : Nat} (hspare : spare < mpuRegionsNb)
    : (reconfigureOne addr flag spare s).1 = none
          ∧ (∀ vidx block, s.FirstTouching addr vidx block → (isMappedInPhysicalMpu addr vidx s).1 = true)
        ∨ ∃ (vidx pidx flag' : Nat) (block : BlockEntry),
          (reconfigureOne addr flag spare s).1 = some ([pidx], flag') ∧ pidx < mpuRegionsNb
            ∧ s.FirstTouching addr vidx block ∧ (isMappedInPhysicalMpu addr vidx s).1 = false
            ∧ (reconfigureOne addr flag spare s).2.regionOf pidx
                =
              Region.decode (coveringLUTEntry pidx block addr).1 (coveringLUTEntry pidx block addr).2 := by
  rcases findMpuIndex_run addr h with ⟨hnone, hall⟩ | ⟨vidx, block, hsome, hfirst⟩
  . left
    constructor
    . unfold reconfigureOne
      simp only [LLI.bind_run, hnone, LLI.pure_run]
    . intro vidx block hfirst
      exact absurd ⟨block, hfirst.block_eq, hfirst.start_le, hfirst.le_end⟩ (hall vidx hfirst.lt)
  . rcases isMappedInPhysicalMpu_state addr vidx s with ⟨regs, hregs⟩
    cases hmapped : (isMappedInPhysicalMpu addr vidx s).1 with
    | true =>
      left
      constructor
      . unfold reconfigureOne
        simp only [LLI.bind_run, hsome, hmapped, if_pos, LLI.pure_run]
      . intro vidx' block' hfirst'
        rw [← (hfirst.unique hfirst').1]
        exact hmapped
    | false =>
      right
      have hlt : vidx < mpuRegionsNb := Nat.lt_of_lt_of_le hfirst.lt (Nat.sub_le _ _)
      have hpidx : (if flag ≠ 0 then spare else vidx) < mpuRegionsNb := by
        split
        . exact hspare
        . exact hlt
      have hregion := reconfigureMpu_regionOf addr h hfirst.block_eq hpidx regs
      refine ⟨vidx, if flag ≠ 0 then spare else vidx, flag ^^^ 1, block, ?_, hpidx, hfirst, hmapped, ?_⟩
      . unfold reconfigureOne
        simp only [LLI.bind_run, hsome, hmapped, if_neg Bool.false_ne_true, LLI.pure_run]
      . rw [← hregion]
        unfold reconfigureOne
        simp only [LLI.bind_run, hsome, hmapped, if_neg Bool.false_ne_true, LLI.pure_run, hregs]

/-
Confinement
-/

/--
The region is legal, contains the address, and is within the block and with the rights of the block.
-/
structure Region.ConfinedTo (region : Region) (block : BlockEntry) (addr : Nat) : Prop where
  legal : region.Legal
  base_le : region.base ≤ addr
  lt_top : addr < region.base + region.size
  start_le : block.startAddr ≤ region.base
  le_end : region.base + region.size ≤ block.endAddr
  rights : region.HasRightsOf block

/--
The region is confined to a block of the array whose range contains the address.
-/
def State.Confines (s : State) (addr : Nat) (region : Region) : Prop :=
  ∃ i block, i < mpuRegionsNb ∧ s.mpuBlock i = some block ∧ block.startAddr ≤ addr
    ∧ addr < block.endAddr ∧ region.ConfinedTo block addr

/--
The address is in the range of one of the blocks that the handler searches.
-/
def State.InSearched (s : State) (addr : Nat) : Prop := ∃ i < mpuRegionsNb - 2, s.InRange i addr

/--
An address outside of all blocks is a fault, and every region that the handler programs is confined.
-/
def Confined (s : State) (addr : Nat) (run : MemManageOutcome × Machine) : Prop :=
  (¬s.InSearched addr → ∃ outcome, run.1 = .faulted outcome)
    ∧ ∀ regions flag pidx, run.1 = .returned regions flag → pidx ∈ regions →
      s.Confines addr (run.2.state.regionOf pidx)

/--
The address is within the block, and the search does not reach the end of the address space. Or the address is the
end of the block, the largest aligned region that begins in the block goes 32 bytes beyond its end, and all of it is
in another block of the array with the same rights.
-/
def State.Coverable (s : State) (addr : Nat) (block : BlockEntry) : Prop :=
  (addr < block.endAddr ∧ ¬largestCoveringMPURegion.ReachesEnd block.startAddr block.endAddr addr)
    ∨ (addr = block.endAddr ∧ s.InSearched addr
      ∧ ∃ k, largestCoveringMPURegion.FitsAtEnd block.startAddr block.endAddr k
        ∧ ∃ i block', i < mpuRegionsNb ∧ s.mpuBlock i = some block'
          ∧ block'.startAddr ≤ addr + 32 - 2 ^ k ∧ addr + 32 ≤ block'.endAddr
          ∧ block'.write = block.write ∧ block'.exec = block.exec)

/--
A region that goes up to the end of the address space is in no block.
-/
theorem State.Confines.top_lt (h : s.MPUArray) {region : Region} (hconf : s.Confines addr region)
    : region.base + region.size < wordSize := by
  rcases hconf with ⟨i, block, _, hblock, _, _, hregion⟩
  exact Nat.lt_of_le_of_lt hregion.le_end (h.end_lt hblock)

open largestCoveringMPURegion

/--
The region for an interval with the rights of the block `block`.
-/
def Region.interval (base k number : Nat) (block : BlockEntry) : Region :=
  {
      base
      number
      enable := 1
      sizeField := k - 1
      subregionDisable := 0
      AP := if block.write then 3 else 2
      XN := if block.exec then 0 else 1
  }

section

variable (base : Nat) {k : Nat} (number : Nat) (block : BlockEntry)

theorem Region.interval_size (hk : 5 ≤ k) : (Region.interval base k number block).size = 2 ^ k := by
  unfold Region.size Region.interval
  rw [Nat.sub_add_cancel (by omega)]

theorem Region.interval_legal {base : Nat} {number : Nat} {block : BlockEntry} (hk : 5 ≤ k) (hbase : 2 ^ k ∣ base)
    : (Region.interval base k number block).Legal := by
  have hsize := Region.interval_size base number block hk
  constructor
  . rfl
  . rfl
  . rw [hsize]
    exact Nat.pow_le_pow_right Nat.two_pos hk
  . rw [hsize]
    exact hbase

/--
The region of an interval has the rights of every block with the same rights.
-/
theorem Region.interval_rights {base number : Nat} {block block' : BlockEntry}
    : (Region.interval base k number block).HasRightsOf block'
        ↔ block'.write = block.write ∧ block'.exec = block.exec := by
  unfold Region.HasRightsOf Region.interval
  cases block.write <;> cases block.exec <;> cases block'.write <;> cases block'.exec <;> simp

end

theorem Overflows.not_confines (h : s.MPUArray) {block : BlockEntry} {pidx : Nat}
    (hpidx : pidx < mpuRegionsNb) (hover : Overflows (largestCoveringMPURegion block addr))
    : ¬s.Confines addr (Region.decode (coveringLUTEntry pidx block addr).1
        (coveringLUTEntry pidx block addr).2) := by
  rcases hover with ⟨k, hk, hk32, heq⟩
  have hpow := pow_le_wordSize hk32
  have hpos : 0 < 2 ^ k := Nat.pow_pos (by decide)
  have hsize : sub32 0 (wordSize - 2 ^ k) = 2 ^ k := by
    have := sub32_top (wordSize - 2 ^ k) hpow hpos (by omega)
    rw [show wordSize - 2 ^ k + 2 ^ k = wordSize by omega, Nat.mod_self] at this
    exact this
  rw [decode_of_size heq hk hk32 (oddMultiple_end hk32).dvd hsize (Nat.lt_trans hpidx (by decide))]
  intro hconf
  have := hconf.top_lt h
  have hinterval := Region.interval_size (wordSize - 2 ^ k) pidx block hk
  unfold Region.interval at hinterval
  rw [hinterval] at this
  dsimp only at this
  omega

theorem confines_iff (h : s.MPUArray) {vidx pidx : Nat} {block : BlockEntry}
    (hfirst : s.FirstTouching addr vidx block) (hpidx : pidx < mpuRegionsNb)
    : (s.InSearched addr ∧ s.Confines addr (Region.decode (coveringLUTEntry pidx block addr).1
          (coveringLUTEntry pidx block addr).2))
        ↔ s.Coverable addr block := by
  have hstart := h.start_dvd hfirst.block_eq
  have hend := h.end_dvd hfirst.block_eq
  have hword := h.end_lt hfirst.block_eq
  have hpidx16 : pidx < 16 := Nat.lt_trans hpidx (by decide)
  have hvidx : vidx < mpuRegionsNb := Nat.lt_of_lt_of_le hfirst.lt (Nat.sub_le _ _)
  rcases Nat.lt_or_ge addr block.endAddr with hin | hge
  . have hrange : s.InRange vidx addr := ⟨block, hfirst.block_eq, hfirst.start_le, hin⟩
    rcases largestCoveringMPURegion_inside hstart hend hword hfirst.start_le hin with
      ⟨⟨k, hk, hk32, haround, htop, hS, hE⟩, hreach⟩ | ⟨hover, hreach⟩
    . refine iff_of_true ⟨⟨vidx, hfirst.lt, hrange⟩, ?_⟩ (Or.inl ⟨hin, hreach⟩)
      have hlt := haround.lt
      have hle := haround.le
      generalize hregion : largestCoveringMPURegion block addr = region at *
      rcases region with ⟨base, top⟩
      dsimp only at *
      have hsize : sub32 top base = 2 ^ k := by
        have := sub32_top base (pow_le_wordSize hk32) (Nat.pow_pos (by decide)) (by omega)
        rw [Nat.mod_eq_of_lt (by omega), ← htop] at this
        exact this
      rw [decode_of_size hregion hk hk32 haround.aligned hsize hpidx16]
      refine ⟨vidx, block, hvidx, hfirst.block_eq, hfirst.start_le, hin, ?_⟩
      have hinterval := Region.interval_size base pidx block hk
      exact
        {
            legal := Region.interval_legal hk haround.aligned
            base_le := hle
            lt_top := hinterval.symm ▸ hlt
            start_le := hS
            le_end := hinterval.symm ▸ hE
            rights := Region.interval_rights.mpr ⟨rfl, rfl⟩
        }
    . refine iff_of_false (fun hconf => Overflows.not_confines h hpidx hover hconf.2) ?_
      rintro (⟨_, hnot⟩ | ⟨heq, _⟩)
      . exact hnot hreach
      . omega
  . have heq : addr = block.endAddr := Nat.le_antisymm hfirst.le_end hge
    subst heq
    have hnotin : ¬block.endAddr < block.endAddr := Nat.lt_irrefl _
    have hnofit : (¬∃ k, FitsAtEnd block.startAddr block.endAddr k) → ¬s.Coverable block.endAddr block := by
      rintro hnone (⟨hlt, _⟩ | ⟨_, _, k, hk, _⟩)
      . exact hnotin hlt
      . exact hnone ⟨k, hk⟩
    cases largestCoveringMPURegion_atEnd hend hword hfirst.start_le with
    | fits k hk hregion =>
      have htop_lt := hk.top_lt
      have hk32 : k < 32 := by
        by_contra hge
        have h1 : 2 ^ (k + 1) ≤ block.endAddr + 32 := Nat.le_of_dvd (by omega) hk.aligned
        have h2 : wordSize ≤ 2 ^ (k + 1) := Nat.pow_le_pow_right (by decide) (by omega)
        omega
      have hdvd : 2 ^ k ∣ block.endAddr + 32 := (Nat.pow_dvd_pow 2 (Nat.le_succ k)).trans hk.aligned
      have hpowle : 2 ^ k ≤ block.endAddr + 32 := Nat.le_of_dvd (by omega) hdvd
      have hpow32 : 2 ^ 5 ≤ 2 ^ k := Nat.pow_le_pow_right (by decide) hk.size
      have hbase : 2 ^ k ∣ block.endAddr + 32 - 2 ^ k := Nat.dvd_sub hdvd (Nat.dvd_refl _)
      have hsize : sub32 (block.endAddr + 32) (block.endAddr + 32 - 2 ^ k) = 2 ^ k := by
        have := sub32_top (block.endAddr + 32 - 2 ^ k) (pow_le_wordSize hk32)
          (Nat.pow_pos (by decide)) (by omega)
        rw [Nat.sub_add_cancel hpowle, Nat.mod_eq_of_lt htop_lt] at this
        exact this
      rw [decode_of_size hregion hk.size hk32 hbase hsize hpidx16]
      have hinterval := Region.interval_size (block.endAddr + 32 - 2 ^ k) pidx block hk.size
      constructor
      . rintro ⟨hsearched, i, block', hi, hblock', _, _, hconf⟩
        have hle : block.endAddr + 32 - 2 ^ k + 2 ^ k ≤ block'.endAddr := hinterval ▸ hconf.le_end
        rw [Nat.sub_add_cancel hpowle] at hle
        have hrights := Region.interval_rights.mp hconf.rights
        exact Or.inr ⟨rfl, hsearched, k, hk, i, block', hi, hblock', hconf.start_le, hle, hrights⟩
      . rintro (⟨hlt, _⟩ | ⟨_, hsearched, k', hk', i, block', hi, hblock', hS, hE, hrights⟩)
        . exact absurd hlt hnotin
        . have hkk : k' = k := hk'.unique hk
          subst hkk
          have htop : block.endAddr + 32 - 2 ^ k' + 2 ^ k' = block.endAddr + 32 := Nat.sub_add_cancel hpowle
          refine ⟨hsearched, i, block', hi, hblock', by omega, by omega, ?_⟩
          exact
            {
                legal := Region.interval_legal hk.size hbase
                base_le := show block.endAddr + 32 - 2 ^ k' ≤ block.endAddr by omega
                lt_top := hinterval.symm ▸ show block.endAddr < block.endAddr + 32 - 2 ^ k' + 2 ^ k' by omega
                start_le := hS
                le_end := hinterval.symm ▸ show block.endAddr + 32 - 2 ^ k' + 2 ^ k' ≤ block'.endAddr by omega
                rights := Region.interval_rights.mpr hrights
            }
    | tooSmall hnone hregion =>
      refine iff_of_false ?_ (hnofit hnone)
      rintro ⟨_, hconf⟩
      have hrs : (powlog2 (sub32 (block.endAddr + 1) block.endAddr) % 256 + 255) % 256 = 255 := by
        have := sub32_top block.endAddr (show 1 < wordSize by decide) (by decide) (by omega)
        rw [Nat.mod_eq_of_lt (show block.endAddr + 1 < wordSize by
          have hdvd : 32 ∣ wordSize := by decide
          have := add_le_of_dvd_of_lt hend hdvd hword
          omega)] at this
        rw [this]
        rfl
      rw [decode_coveringLUTEntry hregion hend hrs hpidx16] at hconf
      have := hconf.top_lt h
      unfold Region.size at this
      dsimp only at this
      have hwide : 2 ^ (255 % 32 + 1) = wordSize := by decide
      omega
    | overflows hnone hover =>
      exact iff_of_false (fun hconf => Overflows.not_confines h hpidx hover hconf.2) (hnofit hnone)
    | below hnone k hk hk32 hdvd htop hle =>
      refine iff_of_false ?_ (hnofit hnone)
      generalize hregion : largestCoveringMPURegion block block.endAddr = region at *
      rcases region with ⟨base, top⟩
      dsimp only at *
      have hsize : sub32 top base = 2 ^ k := by
        have := sub32_top base (pow_le_wordSize hk32) (Nat.pow_pos (by decide)) (by omega)
        rw [Nat.mod_eq_of_lt (by omega), ← htop] at this
        exact this
      rw [decode_of_size hregion hk hk32 hdvd hsize hpidx16]
      rintro ⟨_, i, block', _, _, _, _, hconf⟩
      have hlt := hconf.lt_top
      have hinterval := Region.interval_size base pidx block hk
      unfold Region.interval at hinterval
      rw [hinterval] at hlt
      dsimp only at hlt
      omega

/--
The region that is used every other time, for a data access and for a 16-bit instruction.
-/
def MemFaultCause.spare : MemFaultCause → Index
  | DACCVIOL => mpuRegionsNb - 1
  | _ => mpuRegionsNb - 2

section

variable (fuel : Nat) {flag ctx : Nat} {scs : MemFaultStatus} {m : Machine} {cause : MemFaultCause}

theorem MemManage_Handler_C_returned {regions : List Nat} {flag' : Nat}
    (hfault : (getFaultedAddress scs ctx m.state).1 = (addr, cause))
    (hcause : cause = .DACCVIOL ∨ cause = .IACCVIOL16)
    (hone : (reconfigureOne addr flag cause.spare m.state).1 = some (regions, flag'))
    : MemManage_Handler_C fuel scs ctx flag m
        =
      (.returned regions flag', { m with state := (reconfigureOne addr flag cause.spare m.state).2 }) := by
  unfold MemManage_Handler_C
  simp only [Handler.bind_run, Handler.lift_run, hfault, getFaultedAddress_state]
  rcases hcause with rfl | rfl
  . unfold MemFaultCause.spare at hone
    simp only [hone]
    rfl
  . unfold MemFaultCause.spare at hone
    simp only [hone]
    rfl

theorem MemManage_Handler_C_faulted
    (hfault : (getFaultedAddress scs ctx m.state).1 = (addr, cause))
    (hcause : cause = .DACCVIOL ∨ cause = .IACCVIOL16)
    (hone : (reconfigureOne addr flag cause.spare m.state).1 = none)
    : ∃ outcome, (MemManage_Handler_C fuel scs ctx flag m).1 = .faulted outcome := by
  unfold MemManage_Handler_C
  simp only [Handler.bind_run, Handler.lift_run, hfault, getFaultedAddress_state]
  rcases hcause with rfl | rfl
  . unfold MemFaultCause.spare at hone
    simp only [hone]
    exact ⟨_, rfl⟩
  . unfold MemFaultCause.spare at hone
    simp only [hone]
    exact ⟨_, rfl⟩

/--
The handler confines the access if and only if the first block that the address touches can cover it, unless this
block has a region for the address already.
-/
theorem MemManage_Handler_C_confined_iff (h : m.state.MPUArray)
    (hfault : (getFaultedAddress scs ctx m.state).1 = (addr, cause))
    (hcause : cause = .DACCVIOL ∨ cause = .IACCVIOL16)
    : Confined m.state addr (MemManage_Handler_C fuel scs ctx flag m)
        ↔ ∀ vidx block, m.state.FirstTouching addr vidx block →
            (isMappedInPhysicalMpu addr vidx m.state).1 = false → m.state.Coverable addr block := by
  have hspare : cause.spare < mpuRegionsNb := by
    rcases hcause with rfl | rfl <;> decide
  rcases reconfigureOne_run addr h flag hspare with
    ⟨hnone, hmapped⟩ | ⟨vidx, pidx, flag', block, hsome, hpidx, hfirst, hmapped, hregion⟩
  . rcases MemManage_Handler_C_faulted fuel hfault hcause hnone with ⟨outcome, houtcome⟩
    apply iff_of_true
    . refine ⟨fun _ => ⟨outcome, houtcome⟩, ?_⟩
      intro regions flag' pidx hreturned
      rw [houtcome] at hreturned
      cases hreturned
    . intro vidx block hfirst hnot
      rw [hmapped vidx block hfirst] at hnot
      cases hnot
  . have hrun := MemManage_Handler_C_returned fuel hfault hcause hsome
    have hiff := confines_iff h hfirst hpidx
    rw [← hregion] at hiff
    constructor
    . intro hconf vidx' block' hfirst' _
      rw [← (hfirst.unique hfirst').2]
      apply hiff.mp
      constructor
      . by_contra hsearched
        rcases hconf.1 hsearched with ⟨outcome, houtcome⟩
        rw [hrun] at houtcome
        cases houtcome
      . have := hconf.2 [pidx] flag' pidx (by rw [hrun]) (List.mem_singleton.mpr rfl)
        rw [hrun] at this
        exact this
    . intro hcover
      have hboth := hiff.mpr (hcover vidx block hfirst hmapped)
      constructor
      . intro hsearched
        exact absurd hboth.1 hsearched
      . intro regions flag'' pidx' hreturned hmem
        rw [hrun] at hreturned
        cases hreturned
        rw [List.mem_singleton.mp hmem, hrun]
        exact hboth.2

end

/--
A partition whose first region is the block from 0x20008000 to before 0x20009000.
-/
def oneBlock : Machine :=
  let pdt : PDTable := default
  {
      state :=
        {
            currentPartition := 4096
            constantRootPartM := 4096
            pdtables := Mem.empty.set 4096 { pdt with mpu := [512, 0, 0, 0, 0, 0, 0, 0] }
            blockEntries := Mem.empty.set 512 (ramBlock 0x20008000 0x20009000 0 true)
            sh1Entries := Mem.empty
            scEntries := Mem.empty
            nextPointers := Mem.empty
            bytes := Mem.empty
            mpuRegs := MpuRegs.initial
        }
      basepri := 0
      previousContextUseFpu := false
      stkalign := 0
      fpRegs := []
      accesses := []
  }

theorem oneBlock_mpuBlock {i : Nat} {block : BlockEntry} (h : oneBlock.state.mpuBlock i = some block)
    : i = 0 ∧ block = ramBlock 0x20008000 0x20009000 0 true := by
  match i with
  | 0 => exact ⟨rfl, (Option.some.inj h).symm⟩
  | 1 | 2 | 3 | 4 | 5 | 6 | 7 => cases h
  | i + 8 => cases h

theorem oneBlock_array : oneBlock.state.MPUArray := by
  constructor
  . rfl
  . rfl
  all_goals
    intro i block h
    rw [(oneBlock_mpuBlock h).2]
    decide

/--
An access to data at the address `addr` that the MPU refused.
-/
def dataFault (addr : Nat) (h : addr < wordSize) : MemFaultStatus :=
  {
      IACCVIOL := false
      DACCVIOL := true
      MUNSTKERR := false
      MMARVALID := true
      MMFAR := addr
      MMFAR_lt := h
      VECTACTIVE := 4
  }

theorem MemManage_Handler_C_confined_inside
    : Confined oneBlock.state 0x20008044
        (MemManage_Handler_C 1 (dataFault 0x20008044 (by decide)) 0 0 oneBlock) := by
  have hfault : (getFaultedAddress (dataFault 0x20008044 (by decide)) 0 oneBlock.state).1
      = (0x20008044, .DACCVIOL) := rfl
  apply (MemManage_Handler_C_confined_iff 1 oneBlock_array hfault (Or.inl rfl)).mpr
  intro vidx block hfirst _
  rw [(oneBlock_mpuBlock hfirst.block_eq).2]
  refine Or.inl ⟨by decide, ?_⟩
  rintro ⟨k, j, hk, hS, hle, _⟩
  have hpow : 2 ^ k ≤ 2 ^ 31 := Nat.pow_le_pow_right (by decide) (by omega)
  have hword := wordSize_eq
  omega

/--
The handler maps a region for the first address behind the block.
-/
theorem MemManage_Handler_C_not_confined
    : oneBlock.state.MPUArray ∧ ¬Confined oneBlock.state 0x20009000
        (MemManage_Handler_C 1 (dataFault 0x20009000 (by decide)) 0 0 oneBlock) := by
  refine ⟨oneBlock_array, ?_⟩
  rintro ⟨hout, _⟩
  have hsearched : ¬oneBlock.state.InSearched 0x20009000 := by
    rintro ⟨i, _, block, hblock, _, hend⟩
    rw [(oneBlock_mpuBlock hblock).2] at hend
    exact absurd hend (by decide)
  rcases hout hsearched with ⟨outcome, houtcome⟩
  have hreturned : (MemManage_Handler_C 1 (dataFault 0x20009000 (by decide)) 0 0 oneBlock).1
      = .returned [0] 1 := by decide +kernel
  rw [hreturned] at houtcome
  cases houtcome
