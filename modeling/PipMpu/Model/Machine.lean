import PipMpu.Model.MAL

/-!
This module contains what the exception handlers work on: the words of the memory of the partitions,
the layout of the VIDT and of the stacked contexts, and the processor state around the machine state
of the services.
-/

/-
Words are stored in little-endian order.
-/

def readWord (bytes : Mem Nat) (addr : Paddr) : Nat :=
  bytes.get addr % 256
    + bytes.get (addr + 1) % 256 * 256
    + bytes.get (addr + 2) % 256 * 65536
    + bytes.get (addr + 3) % 256 * 16777216

def writeWord (bytes : Mem Nat) (addr : Paddr) (value : Nat) : Mem Nat :=
  (((bytes.set addr (value % 256)).set (addr + 1) (value / 256 % 256)).set (addr + 2)
    (value / 65536 % 256)).set (addr + 3) (value / 16777216 % 256)

theorem readWord_lt (bytes : Mem Nat) (addr : Nat) : readWord bytes addr < wordSize := by
  unfold readWord
  rw [wordSize_eq]
  omega

theorem writeWord_get (bytes : Mem Nat) (addr a : Nat) (value : Nat)
    (h : a < addr ∨ addr + 4 ≤ a) : (writeWord bytes addr value).get a = bytes.get a := by
  unfold writeWord
  rw [Mem.get_set_of_ne, Mem.get_set_of_ne, Mem.get_set_of_ne, Mem.get_set_of_ne]
  all_goals omega

theorem readWord_writeWord_self (bytes : Mem Nat) (addr : Nat) (value : Nat)
    : readWord (writeWord bytes addr value) addr = value % wordSize := by
  unfold readWord writeWord
  simp [Mem.get_set]
  rw [wordSize_eq]
  omega

theorem readWord_mark (bytes : Mem Nat) (key addr : Nat) : readWord (bytes.mark key) addr = readWord bytes addr := by
  unfold readWord
  simp only [Mem.get_mark]

/--
Writing the same word again changes nothing.
-/
theorem writeWord_writeWord (bytes : Mem Nat) (addr : Nat) (value : Nat)
    : writeWord (writeWord bytes addr value) addr value = writeWord bytes addr value := by
  unfold writeWord Mem.set
  simp only [Mem.mk.injEq]
  simp
  apply List.filter_congr
  grind

theorem readWord_writeWord_of_disjoint (bytes : Mem Nat) {addr a : Nat} (value : Nat)
    (h : a + 4 ≤ addr ∨ addr + 4 ≤ a) : readWord (writeWord bytes addr value) a = readWord bytes a := by
  unfold readWord
  rw [writeWord_get, writeWord_get, writeWord_get, writeWord_get]
  all_goals omega

/-
The VIDT
-/

def armv7mInterruptNumber : Nat := 15
def nrf52832InterruptNumber : Nat := 39
def softInterruptNumber : Nat := 2

def vidtInterruptNumber : Nat :=
  armv7mInterruptNumber + nrf52832InterruptNumber + softInterruptNumber

/--
The address of `contexts[index]`, which follow the word `currentInterrupt`.
-/
def vidtContextAddr (vidtAddr : Nat) (index : Nat) : Nat := vidtAddr + 4 + 4 * index

/-
The stacked contexts
-/

def basicFrameSize : Nat := 17
def extendedFrameSize : Nat := 50

def sizeofBasicContext : Nat := 8 + 4 * basicFrameSize
def sizeofExtendedContext : Nat := 8 + 4 * extendedFrameSize

def isBasicFrameAddr (context : Nat) : Nat := context
def pipflagsAddr (context : Nat) : Nat := context + 4
def frameAddr (context : Nat) : Nat := context + 8

/--
The registers of a basic frame, in the order in which they are stored.
-/
inductive Register where
  | sp | r4 | r5 | r6 | r7 | r8 | r9 | r10 | r11 | r0 | r1 | r2 | r3 | r12 | lr | pc | xpsr
  deriving DecidableEq, Repr

namespace Register

def index : Register → Nat
  | sp => 0
  | r4 => 1
  | r5 => 2
  | r6 => 3
  | r7 => 4
  | r8 => 5
  | r9 => 6
  | r10 => 7
  | r11 => 8
  | r0 => 9
  | r1 => 10
  | r2 => 11
  | r3 => 12
  | r12 => 13
  | lr => 14
  | pc => 15
  | xpsr => 16

def basicAddr (r : Register) (context : Nat) : Nat := frameAddr context + 4 * r.index

/--
In an extended frame the registers S16 to S31 come first.
-/
def extendedAddr (r : Register) (context : Nat) : Nat := frameAddr context + 4 * (16 + r.index)

end Register

/--
The address of the register S16 + `i` in an extended frame.
-/
def highFpAddr (context : Nat) (i : Nat) : Nat := frameAddr context + 4 * i

/--
The address of the register S`i` in an extended frame, and that of FPSCR for 16.
-/
def lowFpAddr (context : Nat) (i : Nat) : Nat := frameAddr context + 4 * (33 + i)

/-
The processor
-/

inductive AccessKind where
  | vidtRead
  | vidtWrite
  | contextRead
  -- the frame type of the context that was interrupted
  | frameTypeRead
  deriving DecidableEq, Repr

/--
The kernel reads or writes the word at `addr` on behalf of the partition.
-/
structure Access where
  kind : AccessKind
  partition : Paddr
  addr : Paddr
  state : State
  deriving DecidableEq, Repr

/--
The machine the handlers run on. `fpRegs` holds S0 to S31 and FPSCR, `accesses` records the accesses to
the VIDTs and to the contexts that are resumed, and where it is decided whether the interrupted context has used the
FPU, the last one first.
-/
structure Machine where
  state : State
  basepri : Nat
  previousContextUseFpu : Bool
  stkalign : Nat
  fpRegs : List Word
  accesses : List Access
  deriving DecidableEq, Repr

abbrev Handler (α : Type) : Type := Machine → α × Machine

namespace Handler

instance : Monad Handler where
  pure value := fun m => (value, m)
  bind h f := fun m => f (h m).1 (h m).2

def get : Handler Machine := fun m => (m, m)

def modify (f : Machine → Machine) : Handler Unit := fun m => ((), f m)

/--
Run an operation of the services.
-/
def lift {α : Type} (op : LLI α) : Handler α := fun m =>
  ((op m.state).1, { m with state := (op m.state).2 })

variable {α β : Type}

@[simp]
theorem pure_run (value : α) (m : Machine) : (pure value : Handler α) m = (value, m) := by
  rfl

@[simp]
theorem bind_run (h : Handler α) (f : α → Handler β) (m : Machine)
    : (h >>= f) m = f (h m).1 (h m).2 := by
  rfl

@[simp]
theorem get_run (m : Machine) : get m = (m, m) := by
  rfl

@[simp]
theorem modify_run (f : Machine → Machine) (m : Machine) : modify f m = ((), f m) := by
  rfl

@[simp]
theorem lift_run (op : LLI α) (m : Machine)
    : lift op m = ((op m.state).1, { m with state := (op m.state).2 }) := by
  rfl

@[simp]
theorem ite_run (c : Prop) [Decidable c] (h k : Handler α) (m : Machine)
    : (if c then h else k) m = if c then h m else k m := by
  split <;> rfl

end Handler

/-
The accesses of the handlers to the memory of the partitions
-/

def readMemory (addr : Paddr) : LLI Word := LLI.gets fun s => readWord s.bytes addr

def writeMemory (addr : Paddr) (value : Word) : LLI Unit :=
  LLI.modify fun s => { s with bytes := writeWord s.bytes addr value }

def logAccess (kind : AccessKind) (partition addr : Paddr) : Handler Unit :=
  Handler.modify fun m =>
    { m with accesses := { kind, partition, addr, state := m.state } :: m.accesses }

def readVidtContext (pd vidtAddr : Paddr) (index : Nat) : Handler Paddr := do
  logAccess .vidtRead pd (vidtContextAddr vidtAddr index)
  .lift (readMemory (vidtContextAddr vidtAddr index))

def writeVidtCurrentInterrupt (pd vidtAddr : Paddr) (interrupt : Word) : Handler Unit := do
  logAccess .vidtWrite pd vidtAddr
  .lift (writeMemory vidtAddr interrupt)

def readFrameType (pd context : Paddr) : Handler Word := do
  logAccess .frameTypeRead pd (isBasicFrameAddr context)
  .lift (readMemory (isBasicFrameAddr context))

/--
Read a word of the context that the current partition is resumed on.
-/
def readContextWord (addr : Paddr) : Handler Word := do
  let partition ← .lift getCurPartition
  logAccess .contextRead partition addr
  .lift (readMemory addr)

def setBASEPRI (value : Nat) : Handler Unit := Handler.modify fun m => { m with basepri := value }

/--
If the interrupted context has used the FPU, clear its registers so that they do not leak.
-/
def clearFpuRegsIfUsed : Handler Unit :=
  Handler.modify fun m =>
    if m.previousContextUseFpu then { m with fpRegs := List.replicate 33 0 } else m
