import PipMpu.Core.Exceptions

/-!
This module contains the MemManage handler of `exception_handlers.c` with the functions of `mpu.c` that
read the regions of the hardware MPU.
-/

def selectMPURegion (MPURegionNb : Index) : LLI Unit :=
  LLI.modify fun s => { s with mpuRegs := { s.mpuRegs with rnr := MPURegionNb } }

def readMPURBAR : LLI Word := LLI.gets fun s => s.mpuRegs.rbar.getD s.mpuRegs.rnr 0

def readMPURASR : LLI Word := LLI.gets fun s => s.mpuRegs.rasr.getD s.mpuRegs.rnr 0

def readPhysicalMPUSizeBytes (MPURegionNb : Index) : LLI Word := do
  selectMPURegion MPURegionNb
  let rasr ← readMPURASR
  let size := (rasr &&& mpuRasrSizeMsk) >>> mpuRasrSizePos
  pure (if size = 0 then 0 else pow32 (size + 1))

def readPhysicalMPUStartAddr (MPURegionNb : Index) : LLI Paddr := do
  selectMPURegion MPURegionNb
  let rbar ← readMPURBAR
  pure (rbar &&& mpuRbarAddrMsk)

def readPhysicalMPUEndAddr (MPURegionNb : Index) : LLI Paddr := do
  let saddr ← readPhysicalMPUStartAddr MPURegionNb
  let size ← readPhysicalMPUSizeBytes MPURegionNb
  let eaddr := add32 saddr size
  pure (if eaddr > 0 then eaddr - 1 else eaddr)

def mpuRasrAPMsk : Word := 0x7 <<< mpuRasrAPPos
def mpuRasrXNMsk : Word := 0x1 <<< mpuRasrXNPos

def readPhysicalMPUAP (MPURegionNb : Index) : LLI Word := do
  selectMPURegion MPURegionNb
  let rasr ← readMPURASR
  pure ((rasr &&& mpuRasrAPMsk) >>> mpuRasrAPPos)

def readPhysicalMPUXN (MPURegionNb : Index) : LLI Word := do
  selectMPURegion MPURegionNb
  let rasr ← readMPURASR
  pure ((rasr &&& mpuRasrXNMsk) >>> mpuRasrXNPos)

def readPhysicalMPURegionEnable (MPURegionNb : Index) : LLI Word := do
  selectMPURegion MPURegionNb
  let rasr ← readMPURASR
  pure (rasr &&& mpuRasrEnableMsk)

def isMappedInVirtualMpu (addr : Paddr) (idx : Index) : LLI Bool := do
  let pd ← getCurPartition
  let block ← readPDField (fun pdt => pdt.mpu.getD idx nullAddr) pd
  if block = nullAddr then
    pure false
  else do
    let present ← readBlockPresentFromBlockEntryAddr block
    if !present then
      pure false
    else do
      let saddr ← readBlockStartFromBlockEntryAddr block
      let eaddr ← readBlockEndFromBlockEntryAddr block
      if saddr > addr then
        pure false
      else if addr > eaddr then
        pure false
      else
        pure true

def isMappedInPhysicalMpu (addr : Paddr) (idx : Index) : LLI Bool := do
  let saddr ← readPhysicalMPUStartAddr idx
  let eaddr ← readPhysicalMPUEndAddr idx
  pure (decide (saddr ≤ addr) && decide (addr ≤ eaddr))

/--
The last two regions are not searched.
-/
def findMpuIndex (addr : Paddr) : LLI (Option Index) := go (mpuRegionsNb - 2) 0
where
  go : Nat → Index → LLI (Option Index)
    | 0, _ => pure none
    | n + 1, i => do
      let mapped ← isMappedInVirtualMpu addr i
      if mapped then
        pure (some i)
      else
        go n (i + 1)

def reconfigureMpu (addr : Paddr) (vidx pidx : Index) : LLI Unit := do
  let pd ← getCurPartition
  let s ← LLI.get
  modifyPDTable pd fun pdt =>
    { pdt with
      LUT := configureLUTEntry pdt.LUT pidx (blockEntryAt (pdt.mpu.getD vidx nullAddr) s) addr }
  let LUT ← readPDField PDTable.LUT pd
  mpuConfigureFromLUT LUT

inductive MemFaultCause where
  | DACCVIOL
  | IACCVIOL16
  | IACCVIOL32
  | UNKNOWN
  deriving DecidableEq, Repr

/--
The bits of the MMFSR, the MMFAR and the exception number in the ICSR when the handler is entered.
-/
structure MemFaultStatus where
  IACCVIOL : Bool
  DACCVIOL : Bool
  MUNSTKERR : Bool
  MMARVALID : Bool
  MMFAR : Nat
  MMFAR_lt : MMFAR < wordSize
  VECTACTIVE : Nat

def readHalfword (addr : Paddr) : LLI Word :=
  LLI.gets fun s => s.bytes.get addr % 256 + s.bytes.get (addr + 1) % 256 * 256

def getFaultedAddress (scs : MemFaultStatus) (ctx : Paddr) : LLI (Paddr × MemFaultCause) := do
  if scs.DACCVIOL && scs.MMARVALID then
    pure (scs.MMFAR, .DACCVIOL)
  else if scs.IACCVIOL then do
    let isBasicFrame ← readMemory (isBasicFrameAddr ctx)
    let addr ←
      if isBasicFrame ≠ 0 then
        readMemory (Register.pc.basicAddr ctx)
      else
        readMemory (Register.pc.extendedAddr ctx)
    -- the high bits of the first halfword tell the length of the instruction
    let halfword ← readHalfword addr
    let bits := (halfword >>> 11) &&& 0x1f
    if bits = 0x1d ∨ bits = 0x1e ∨ bits = 0x1f then
      pure (addr, .IACCVIOL32)
    else
      pure (addr, .IACCVIOL16)
  else if scs.MUNSTKERR then
    pure (0, .UNKNOWN)
  else
    pure (0, .UNKNOWN)

/--
The handler returns to the faulted instruction after it has programmed some regions, or it enters
`Fault_Handler_C`. `flag` is the static variable of the handler.
-/
inductive MemManageOutcome where
  | returned (regions : List Index) (flag : Nat)
  | faulted (outcome : Option HandlerOutcome)
  deriving DecidableEq, Repr

/--
A data access or a 16-bit instruction that faults, `spare` is the region that is used every other time.
The result is `none` for an illegal access.
-/
def reconfigureOne (addr : Paddr) (flag : Nat) (spare : Index) : LLI (Option (List Index × Nat)) := do
  let found ← findMpuIndex addr
  match found with
  | none => pure none
  | some vidx =>
    let mapped ← isMappedInPhysicalMpu addr vidx
    if mapped then
      pure none
    else do
      let pidx := if flag ≠ 0 then spare else vidx
      reconfigureMpu addr vidx pidx
      pure (some ([pidx], flag ^^^ 1))

/--
A 32-bit instruction that faults.
-/
def reconfigureTwo (addr : Paddr) (flag : Nat) : LLI (Option (List Index × Nat)) := do
  let addr2 := add32 addr 2
  let found ← findMpuIndex addr
  match found with
  | none => pure none
  | some vidx =>
    let inBlock ← isMappedInVirtualMpu addr2 vidx
    if !inBlock then
      pure none
    else do
      let pidx := mpuRegionsNb - 2
      let mapped ← isMappedInPhysicalMpu addr vidx
      let mapped2 ← isMappedInPhysicalMpu addr2 pidx
      if mapped && mapped2 then
        pure none
      else do
        if !mapped then
          reconfigureMpu addr vidx vidx
        if !mapped2 then
          reconfigureMpu addr2 vidx pidx
        pure (some ((if mapped then [] else [vidx]) ++ (if mapped2 then [] else [pidx]), flag))

def Fault_Handler_C (fuel : Nat) (scs : MemFaultStatus) (ctx : Paddr)
    : Handler (Option HandlerOutcome) :=
  Fault_Handler_C_Irq fuel ctx scs.VECTACTIVE

def MemManage_Handler_C (fuel : Nat) (scs : MemFaultStatus) (ctx : Paddr) (flag : Nat)
    : Handler MemManageOutcome := do
  let (addr, cause) ← .lift (getFaultedAddress scs ctx)
  let programmed ← .lift (match cause with
    | .DACCVIOL => reconfigureOne addr flag (mpuRegionsNb - 1)
    | .IACCVIOL16 => reconfigureOne addr flag (mpuRegionsNb - 2)
    | .IACCVIOL32 => reconfigureTwo addr flag
    | .UNKNOWN => pure none)
  match programmed with
  | some (regions, flag) => pure (.returned regions flag)
  | none => do
    let outcome ← Fault_Handler_C fuel scs ctx
    pure (.faulted outcome)

/-
Functions that only read
-/

theorem isMappedInVirtualMpu_state (addr idx : Nat) (s : State) : (isMappedInVirtualMpu addr idx s).2 = s := by
  unfold isMappedInVirtualMpu
  simp only [LLI.bind_run, LLI.ite_run]
  repeat' split
  all_goals rfl

theorem findMpuIndex_state (addr : Nat) (s : State) : (findMpuIndex addr s).2 = s := by
  have hgo : ∀ n i, (findMpuIndex.go addr n i s).2 = s := by
    intro n
    induction n with
    | zero => exact fun _ => rfl
    | succ n ih =>
      intro i
      unfold findMpuIndex.go
      rw [LLI.bind_run, LLI.ite_run, isMappedInVirtualMpu_state]
      split
      . rfl
      . exact ih (i + 1)
  exact hgo _ _

theorem getFaultedAddress_state (scs : MemFaultStatus) (ctx : Nat) (s : State)
    : (getFaultedAddress scs ctx s).2 = s := by
  unfold getFaultedAddress
  simp only [LLI.bind_run, LLI.ite_run, LLI.pure_run, readMemory, readHalfword, LLI.gets_run]
  split
  . rfl
  . split
    . split <;> split <;> rfl
    . split <;> rfl
