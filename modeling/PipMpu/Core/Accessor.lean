import PipMpu.Core.Exceptions
import PipMpu.Core.Register

/-!
This module contains the accesses of the root to the registers of the peripherals, of `accessor.c`.
-/

/--
The peripherals, which are not part of the kernel: what a read of a register yields, and what reads and writes do.
-/
structure Bus (δ : Type) where
  read : Nat → δ → Word × δ
  write : Nat → Word → δ → δ

/--
The machine and the peripherals around it.
-/
structure Board (δ : Type) where
  machine : Machine
  peripherals : δ

abbrev BoardHandler (δ α : Type) : Type := Board δ → α × Board δ

namespace BoardHandler

variable {δ α β : Type}

instance : Monad (BoardHandler δ) where
  pure value := fun b => (value, b)
  bind h f := fun b => f (h b).1 (h b).2

def lift (op : Handler α) : BoardHandler δ α := fun b =>
  ((op b.machine).1, { b with machine := (op b.machine).2 })

@[simp]
theorem pure_run (value : α) (b : Board δ) : (pure value : BoardHandler δ α) b = (value, b) := by
  rfl

@[simp]
theorem bind_run (h : BoardHandler δ α) (f : α → BoardHandler δ β) (b : Board δ)
    : (h >>= f) b = f (h b).1 (h b).2 := by
  rfl

@[simp]
theorem lift_run (op : Handler α) (b : Board δ)
    : lift op b = ((op b.machine).1, { b with machine := (op b.machine).2 }) := by
  rfl

@[simp]
theorem ite_run (c : Prop) [Decidable c] (h k : BoardHandler δ α) (b : Board δ)
    : (if c then h else k) b = if c then h b else k b := by
  split <;> rfl

/--
Run an operation of the services.
-/
def service (op : LLI α) : BoardHandler δ α := lift (.lift op)

end BoardHandler

namespace Bus

variable {δ : Type} (bus : Bus δ)

def load (reg : Nat) : BoardHandler δ Word := fun b =>
  ((bus.read reg b.peripherals).1, { b with peripherals := (bus.read reg b.peripherals).2 })

def store (reg : Nat) (value : Word) : BoardHandler δ Unit := fun b =>
  ((), { b with peripherals := bus.write reg value b.peripherals })

end Bus

inductive RegisterAccessType where
  | read
  | write
  deriving DecidableEq, Repr

section Accessors

variable {δ : Type} (bus : Bus δ)

def registerAccessRead (type : RegisterAccessType) (reg : Nat) (val : Paddr) : BoardHandler δ Bool :=
  if type ≠ .read then pure false else do
  let value ← bus.load reg
  .service (writeMemory val value)
  pure true

def registerAccessWrite (type : RegisterAccessType) (reg : Nat) (val : Paddr) : BoardHandler δ Bool :=
  if type ≠ .write then pure false else do
  let value ← .service (readMemory val)
  bus.store reg value
  pure true

def registerAccessReadWrite (type : RegisterAccessType) (reg : Nat) (val : Paddr) : BoardHandler δ Bool :=
  match type with
  | .read => do
    let value ← bus.load reg
    .service (writeMemory val value)
    pure true
  | .write => do
    let value ← .service (readMemory val)
    bus.store reg value
    pure true

/--
Call the function the accessor stands for.
-/
def RegisterAccessor.call : RegisterAccessor → RegisterAccessType → Nat → Paddr → BoardHandler δ Bool
  | readOnly => registerAccessRead bus
  | writeOnly => registerAccessWrite bus
  | readWrite => registerAccessReadWrite bus

end Accessors

/--
The handler of a system call returns to the caller, or a context is resumed, or the call ends in the fault handler.
-/
inductive SvcOutcome where
  | returned
  | resumed (resumption : Resumption)
  | faulted (outcome : Option HandlerOutcome)
  deriving DecidableEq, Repr

def MEMMANAGE_IRQ_NUMBER : Nat := 4

section SystemCalls

variable {δ : Type} (bus : Bus δ) (fuel : Nat)

/--
The fault handler is called with fuel for its recursion and does not return.
-/
def accessFault (ctx : Paddr) : BoardHandler δ SvcOutcome := do
  let outcome ← .lift (Fault_Handler_C_Irq fuel ctx MEMMANAGE_IRQ_NUMBER)
  pure (.faulted outcome)

def doAccess (ctx : Paddr) (type : RegisterAccessType) (id : Word) (val : Paddr) : BoardHandler δ SvcOutcome := do
  let root ← .service getRootPartition
  let cur ← .service getCurPartition
  if root ≠ cur then accessFault fuel ctx else
  match REGISTER_ID_TO_ACCESSOR[id]? with
  -- the id is not below `ARRAY_SIZE`
  | none => accessFault fuel ctx
  | some entry => do
    let done ← entry.accessor.call bus type entry.address val
    if !done then accessFault fuel ctx else pure .returned

def in_ (ctx : Paddr) (id : Word) (val : Paddr) : BoardHandler δ SvcOutcome := doAccess bus fuel ctx .read id val

def out (ctx : Paddr) (id : Word) (val : Paddr) : BoardHandler δ SvcOutcome := doAccess bus fuel ctx .write id val

end SystemCalls
