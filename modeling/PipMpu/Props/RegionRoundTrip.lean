import PipMpu.Core.MemManage
import PipMpu.Props.LargestRegion
import PipMpu.Refine.Calls

/-!
This module contains why the readers of `mpu.c` give back the region that `configure_LUT_entry` has encoded. The words
are sums of fields that lie side by side, and a mask with a shift takes one field out of such a sum.
-/

theorem and_mask_shiftRight (x width pos : Nat)
    : (x &&& ((2 ^ width - 1) <<< pos)) >>> pos = x / 2 ^ pos % 2 ^ width := by
  rw [Nat.shiftRight_and_distrib, Nat.shiftLeft_shiftRight, Nat.and_two_pow_sub_one_eq_mod, Nat.shiftRight_eq_div_pow]

theorem and_mask_shiftLeft {x width pos : Nat} (hx : x < 2 ^ (width + pos))
    : x &&& ((2 ^ width - 1) <<< pos) = x / 2 ^ pos * 2 ^ pos := by
  have hhigh : (x &&& ((2 ^ width - 1) <<< pos)) / 2 ^ pos = x / 2 ^ pos := by
    rw [← Nat.shiftRight_eq_div_pow, and_mask_shiftRight]
    apply Nat.mod_eq_of_lt
    rw [Nat.div_lt_iff_lt_mul (Nat.two_pow_pos pos), ← Nat.pow_add]
    exact hx
  have hlow : (x &&& ((2 ^ width - 1) <<< pos)) % 2 ^ pos = 0 := by
    rw [Nat.and_mod_two_pow, Nat.shiftLeft_eq, Nat.mul_mod_left, Nat.and_zero]
  have := Nat.div_add_mod (x &&& ((2 ^ width - 1) <<< pos)) (2 ^ pos)
  rw [hhigh, hlow, Nat.add_zero, Nat.mul_comm] at this
  exact this.symm

/-
The fields of the two words
-/

section

variable {base n size AP XN : Nat}

theorem rbar_addr (hbase : 32 ∣ base) (hword : base < wordSize) (hn : n < 16)
    : (base + 16 + n) &&& mpuRbarAddrMsk = base := by
  rw [wordSize_eq] at hword
  have hmask : mpuRbarAddrMsk = (2 ^ 27 - 1) <<< 5 := by decide
  rw [hmask, and_mask_shiftLeft (by omega)]
  omega

theorem rbar_valid (hbase : 32 ∣ base) (hn : n < 16) : (base + 16 + n) &&& mpuRbarValidMsk ≠ 0 := by
  intro hzero
  have hbit := and_mask_shiftRight (base + 16 + n) 1 4
  rw [show (2 ^ 1 - 1) <<< 4 = mpuRbarValidMsk by rfl, hzero, Nat.zero_shiftRight] at hbit
  omega

theorem rbar_region (hbase : 32 ∣ base) (hn : n < 16) : (base + 16 + n) &&& mpuRbarRegionMsk = n := by
  have hmask : mpuRbarRegionMsk = 2 ^ 4 - 1 := by decide
  rw [hmask, Nat.and_two_pow_sub_one_eq_mod]
  omega

theorem rasr_size (hsize : size < 32)
    : ((XN * 2 ^ 28 + (AP * 2 ^ 24 + (size * 2 + 1))) &&& mpuRasrSizeMsk) >>> mpuRasrSizePos = size := by
  refine (and_mask_shiftRight _ 5 1).trans ?_
  omega

theorem rasr_AP (hsize : size < 32) (hAP : AP < 8)
    : ((XN * 2 ^ 28 + (AP * 2 ^ 24 + (size * 2 + 1))) &&& mpuRasrAPMsk) >>> mpuRasrAPPos = AP := by
  refine (and_mask_shiftRight _ 3 24).trans ?_
  omega

theorem rasr_XN (hsize : size < 32) (hAP : AP < 8) (hXN : XN < 2)
    : ((XN * 2 ^ 28 + (AP * 2 ^ 24 + (size * 2 + 1))) &&& mpuRasrXNMsk) >>> mpuRasrXNPos = XN := by
  refine (and_mask_shiftRight _ 1 28).trans ?_
  omega

theorem rasr_enable : (XN * 2 ^ 28 + (AP * 2 ^ 24 + (size * 2 + 1))) &&& mpuRasrEnableMsk = 1 := by
  have hmask : mpuRasrEnableMsk = 2 ^ 1 - 1 := by decide
  rw [hmask, Nat.and_two_pow_sub_one_eq_mod]
  omega

end

/-
The registers of a region and their readers
-/

/--
The pair of region `n` in the LUT is written to RBAR and RASR.
-/
def State.programRegion (LUT : List Word) (n : Index) (s : State) : State :=
  { s with mpuRegs := (s.mpuRegs.writeRBAR (LUT.getD (n * 2) 0)).writeRASR (LUT.getD (n * 2 + 1) 0) }

/--
The words that the readers take apart for region `n`.
-/
structure State.HasRegion (n : Index) (rbar rasr : Word) (s : State) : Prop where
  rbar_eq : s.mpuRegs.rbar.getD n 0 = rbar &&& mpuRbarAddrMsk
  rasr_eq : s.mpuRegs.rasr.getD n 0 = rasr

theorem setLUTEntry_getD {LUT : List Word} {n : Nat} (entry : Word × Word) (hLUT : n * 2 + 1 < LUT.length)
    : (setLUTEntry LUT n entry).getD (n * 2) 0 = entry.1 ∧ (setLUTEntry LUT n entry).getD (n * 2 + 1) 0 = entry.2 := by
  have hlen : n * 2 < LUT.length := Nat.lt_of_succ_lt hLUT
  unfold setLUTEntry
  constructor
  . rw [List.getD_eq_getElem?_getD, List.getElem?_set_ne (Nat.succ_ne_self _), List.getElem?_set_self hlen,
      Option.getD_some]
  . rw [List.getD_eq_getElem?_getD, List.getElem?_set_self (by rwa [List.length_set]), Option.getD_some]

theorem hasRegion_programRegion {LUT : List Word} {n rbar rasr : Nat} {s : State}
    (hrbar : LUT.getD (n * 2) 0 = rbar) (hrasr : LUT.getD (n * 2 + 1) 0 = rasr)
    (hvalid : rbar &&& mpuRbarValidMsk ≠ 0) (hregion : rbar &&& mpuRbarRegionMsk = n)
    (hn : n < s.mpuRegs.rbar.length) (hn' : n < s.mpuRegs.rasr.length)
    : (s.programRegion LUT n).HasRegion n rbar rasr := by
  unfold State.programRegion MpuRegs.writeRASR MpuRegs.writeRBAR
  rw [hrbar, hrasr]
  constructor
  . simp only [if_neg hvalid, hregion, List.getD_eq_getElem?_getD, List.getElem?_set_self hn, Option.getD_some]
  . simp only [if_neg hvalid, hregion, List.getD_eq_getElem?_getD, List.getElem?_set_self hn', Option.getD_some]

namespace State.HasRegion

variable {n rbar rasr : Nat} {s : State}

theorem readStartAddr (h : s.HasRegion n rbar rasr) : (readPhysicalMPUStartAddr n s).1 = rbar &&& mpuRbarAddrMsk := by
  have hrun : (readPhysicalMPUStartAddr n s).1 = s.mpuRegs.rbar.getD n 0 &&& mpuRbarAddrMsk := rfl
  rw [hrun, h.rbar_eq, Nat.and_assoc, Nat.and_self]

theorem readSizeBytes (h : s.HasRegion n rbar rasr)
    (hsize : (rasr &&& mpuRasrSizeMsk) >>> mpuRasrSizePos ≠ 0)
    : (readPhysicalMPUSizeBytes n s).1 = pow32 ((rasr &&& mpuRasrSizeMsk) >>> mpuRasrSizePos + 1) := by
  have hrun : (readPhysicalMPUSizeBytes n s).1
      = if (s.mpuRegs.rasr.getD n 0 &&& mpuRasrSizeMsk) >>> mpuRasrSizePos = 0 then 0
        else pow32 ((s.mpuRegs.rasr.getD n 0 &&& mpuRasrSizeMsk) >>> mpuRasrSizePos + 1) := rfl
  rw [hrun, h.rasr_eq, if_neg hsize]

theorem readAP (h : s.HasRegion n rbar rasr)
    : (readPhysicalMPUAP n s).1 = (rasr &&& mpuRasrAPMsk) >>> mpuRasrAPPos := by
  have hrun : (readPhysicalMPUAP n s).1 = (s.mpuRegs.rasr.getD n 0 &&& mpuRasrAPMsk) >>> mpuRasrAPPos := rfl
  rw [hrun, h.rasr_eq]

theorem readXN (h : s.HasRegion n rbar rasr)
    : (readPhysicalMPUXN n s).1 = (rasr &&& mpuRasrXNMsk) >>> mpuRasrXNPos := by
  have hrun : (readPhysicalMPUXN n s).1 = (s.mpuRegs.rasr.getD n 0 &&& mpuRasrXNMsk) >>> mpuRasrXNPos := rfl
  rw [hrun, h.rasr_eq]

theorem readEnable (h : s.HasRegion n rbar rasr)
    : (readPhysicalMPURegionEnable n s).1 = rasr &&& mpuRasrEnableMsk := by
  have hrun : (readPhysicalMPURegionEnable n s).1 = s.mpuRegs.rasr.getD n 0 &&& mpuRasrEnableMsk := rfl
  rw [hrun, h.rasr_eq]

theorem readEndAddr_run (n : Nat) (s : State)
    : (readPhysicalMPUEndAddr n s).1
        =
      let eaddr := add32 (readPhysicalMPUStartAddr n s).1 (readPhysicalMPUSizeBytes n s).1
      if eaddr > 0 then eaddr - 1 else eaddr := by
  rfl

end State.HasRegion

/--
What is read back of region `n` is the interval and the rights of the block.
-/
structure ReadsBack (n : Index) (block : BlockEntry) (region : Paddr × Paddr) (s : State) : Prop where
  startAddr : (readPhysicalMPUStartAddr n s).1 = region.1
  endAddr : (readPhysicalMPUEndAddr n s).1 = region.2 - 1
  sizeBytes : (readPhysicalMPUSizeBytes n s).1 = region.2 - region.1
  AP : (readPhysicalMPUAP n s).1 = if block.write then 3 else 2
  XN : (readPhysicalMPUXN n s).1 = if block.exec then 0 else 1
  enable : (readPhysicalMPURegionEnable n s).1 = 1

/--
The words of a region of `2 ^ k` bytes, no field goes beyond its own bits.
-/
structure Packed (n : Index) (block : BlockEntry) (base k : Nat) (rbar rasr : Word) : Prop where
  aligned : 32 ∣ base
  base_lt : base < wordSize
  size_ge : 5 ≤ k
  size_lt : k < 32
  rbar_eq : rbar = base + mpuRbarValidMsk + n
  rasr_eq : rasr
      =
    (if block.exec then 0 else 1) * 2 ^ mpuRasrXNPos
      + ((if block.write then 3 else 2) * 2 ^ mpuRasrAPPos + ((k - 1) * 2 ^ mpuRasrSizePos + 1))
  valid : rbar &&& mpuRbarValidMsk ≠ 0
  number : rbar &&& mpuRbarRegionMsk = n
  subregions : (Region.decode rbar rasr).subregionDisable = 0

theorem Packed.readsBack {n base k rbar rasr : Nat} {block : BlockEntry} {s : State}
    (h : Packed n block base k rbar rasr) (hn : n < 16) (htop : base + 2 ^ k < wordSize)
    (hregion : s.HasRegion n rbar rasr) : ReadsBack n block (base, base + 2 ^ k) s := by
  have hk : k - 1 < 32 := Nat.lt_of_le_of_lt (Nat.sub_le k 1) h.size_lt
  have hge := h.size_ge
  have hAP : (if block.write then 3 else 2) < 8 := by split <;> decide
  have hXN : (if block.exec then 0 else 1) < 2 := by split <;> decide
  have hstart : (readPhysicalMPUStartAddr n s).1 = base := by
    rw [hregion.readStartAddr, h.rbar_eq]
    exact rbar_addr h.aligned h.base_lt hn
  have hfield : (rasr &&& mpuRasrSizeMsk) >>> mpuRasrSizePos = k - 1 := by
    rw [h.rasr_eq]
    exact rasr_size hk
  have hsize : (readPhysicalMPUSizeBytes n s).1 = 2 ^ k := by
    rw [hregion.readSizeBytes (by rw [hfield]; omega), hfield, Nat.sub_add_cancel (by omega)]
    exact pow32_eq h.size_lt
  constructor
  case startAddr => exact hstart
  case endAddr =>
    rw [State.HasRegion.readEndAddr_run, hstart, hsize]
    have hsum : add32 base (2 ^ k) = base + 2 ^ k := Nat.mod_eq_of_lt htop
    have hpos : 0 < base + 2 ^ k := Nat.add_pos_right base (Nat.two_pow_pos k)
    rw [hsum]
    exact if_pos hpos
  case sizeBytes =>
    rw [hsize]
    exact (Nat.add_sub_cancel_left base (2 ^ k)).symm
  case AP =>
    rw [hregion.readAP, h.rasr_eq]
    exact rasr_AP hk hAP
  case XN =>
    rw [hregion.readXN, h.rasr_eq]
    exact rasr_XN hk hAP hXN
  case enable =>
    rw [hregion.readEnable, h.rasr_eq]
    exact rasr_enable

theorem coveringLUTEntry_packed {block : BlockEntry} {addr base k n : Nat}
    (hregion : largestCoveringMPURegion block addr = (base, base + 2 ^ k)) (hk : 5 ≤ k) (hk32 : k < 32)
    (hbase : 2 ^ k ∣ base) (htop : base + 2 ^ k < wordSize) (hn : n < 16)
    : Packed n block base k (coveringLUTEntry n block addr).1 (coveringLUTEntry n block addr).2 := by
  have hbase32 : 32 ∣ base := (Nat.pow_dvd_pow 2 hk : 2 ^ 5 ∣ 2 ^ k).trans hbase
  have hsize : sub32 (base + 2 ^ k) base = 2 ^ k := by
    have := sub32_top base (Nat.pow_lt_pow_right (by decide) hk32) (Nat.two_pow_pos k) (Nat.le_of_lt htop)
    rwa [Nat.mod_eq_of_lt htop] at this
  have hentry := coveringLUTEntry_eq hregion hbase32 (regionsize_eq hk hk32 hsize) hn
  have hdecode := decode_of_size hregion hk hk32 hbase hsize hn
  constructor
  case aligned => exact hbase32
  case base_lt => exact Nat.lt_of_le_of_lt (Nat.le_add_right base _) htop
  case size_ge => exact hk
  case size_lt => exact hk32
  case rbar_eq => rw [hentry]; rfl
  case rasr_eq => rw [hentry]; rfl
  case valid => rw [hentry]; exact rbar_valid hbase32 hn
  case number => rw [hentry]; exact rbar_region hbase32 hn
  case subregions => rw [hdecode]

theorem configureLUTEntry_roundTrip {LUT : List Word} {block : BlockEntry} {addr n : Nat} {s : State}
    (hstart : 32 ∣ block.startAddr) (hend : 32 ∣ block.endAddr + 1) (hword : block.endAddr + 1 < 2 ^ 31)
    (hle : block.startAddr ≤ addr) (haddr : addr ≤ block.endAddr) (hn : n < mpuRegionsNb)
    (hLUT : LUT.length = mpuRegionsNb * 2) (hrbar : s.mpuRegs.rbar.length = mpuRegionsNb)
    (hrasr : s.mpuRegs.rasr.length = mpuRegionsNb)
    : ∃ k, largestCoveringMPURegion.LargestAround block.startAddr (block.endAddr + 1) addr k
          (largestCoveringMPURegion block addr)
        ∧ Packed n block (largestCoveringMPURegion block addr).1 k
          ((configureLUTEntry LUT n (some block) addr).getD (n * 2) 0)
          ((configureLUTEntry LUT n (some block) addr).getD (n * 2 + 1) 0)
        ∧ ReadsBack n block (largestCoveringMPURegion block addr)
          (s.programRegion (configureLUTEntry LUT n (some block) addr) n) := by
  have h16 : n < 16 := Nat.lt_trans hn (by decide)
  have hzero : block.startAddr = 0 → block.endAddr + 1 < 2 ^ 31 := fun _ => hword
  rcases largestCoveringMPURegion_finds hstart hend (Nat.le_of_lt hword) hzero hle haddr (Nat.le_refl 32)
    with ⟨k, hlargest, -⟩
  have hlen : n * 2 + 1 < LUT.length := by
    rw [hLUT]
    omega
  rcases setLUTEntry_getD (coveringLUTEntry n block addr) hlen with ⟨hfst, hsnd⟩
  obtain ⟨base, top, hfound⟩ : ∃ base top : Nat, largestCoveringMPURegion block addr = (base, top) := ⟨_, _, rfl⟩
  rw [hfound] at hlargest ⊢
  have htop : top = base + 2 ^ k := hlargest.top_eq
  have hfits : base + 2 ^ k ≤ block.endAddr + 1 := hlargest.fits.le_end
  have hword32 : base + 2 ^ k < wordSize := by
    rw [wordSize_eq]
    omega
  have hk32 : k < 32 := by
    have : 2 ^ k < 2 ^ 31 := by omega
    have := (Nat.pow_lt_pow_iff_right (a := 2) (by decide)).mp this
    omega
  have hpacked := coveringLUTEntry_packed (by rw [hfound, htop]) hlargest.fits.size_le hk32
    hlargest.fits.around.aligned hword32 h16
  have hregion : (s.programRegion (configureLUTEntry LUT n (some block) addr) n).HasRegion n
      (coveringLUTEntry n block addr).1 (coveringLUTEntry n block addr).2 :=
    hasRegion_programRegion hfst hsnd hpacked.valid hpacked.number (by rw [hrbar]; exact hn) (by rw [hrasr]; exact hn)
  refine ⟨k, hlargest, ?_, ?_⟩
  . rw [show configureLUTEntry LUT n (some block) addr = setLUTEntry LUT n (coveringLUTEntry n block addr) by rfl,
      hfst, hsnd]
    exact hpacked
  . rw [htop]
    exact hpacked.readsBack h16 hword32 hregion

theorem configureLUTEntry_roundTrip_ram
    : ∃ k, largestCoveringMPURegion.LargestAround 0x20001000 0x20007000 0x20003010 k
          (largestCoveringMPURegion (ramBlock 0x20001000 0x20006FFF 0 true) 0x20003010)
        ∧ Packed 3 (ramBlock 0x20001000 0x20006FFF 0 true)
          (largestCoveringMPURegion (ramBlock 0x20001000 0x20006FFF 0 true) 0x20003010).1 k
          ((configureLUTEntry (List.replicate 16 0) 3 (some (ramBlock 0x20001000 0x20006FFF 0 true)) 0x20003010).getD 6 0)
          ((configureLUTEntry (List.replicate 16 0) 3 (some (ramBlock 0x20001000 0x20006FFF 0 true)) 0x20003010).getD 7 0)
        ∧ ReadsBack 3 (ramBlock 0x20001000 0x20006FFF 0 true)
          (largestCoveringMPURegion (ramBlock 0x20001000 0x20006FFF 0 true) 0x20003010)
          (State.programRegion
            (configureLUTEntry (List.replicate 16 0) 3 (some (ramBlock 0x20001000 0x20006FFF 0 true)) 0x20003010) 3
            State.booted) :=
  configureLUTEntry_roundTrip (show 32 ∣ (ramBlock 0x20001000 0x20006FFF 0 true).startAddr by decide) (by decide)
    (by decide) (by decide) (by decide) (by decide) (show (List.replicate 16 0).length = mpuRegionsNb * 2 by decide)
    (by decide +kernel) (by decide +kernel)
