import PipMpu.Core.Services
import PipMpu.Model.Machine

/-!
This module contains the service `findBlock`, the only one that writes to the memory of its caller.
-/

def writeByteBool (bytes : Mem Nat) (addr : Paddr) (value : Bool) : Mem Nat :=
  bytes.set addr (if value then 1 else 0)

/--
The record `blockAttr_t` is packed.
-/
def copyBlock (blockTarget blockSource : Paddr) : LLI Unit :=
  LLI.modify fun s =>
    let entry := s.blockEntries.get blockSource
    let bytes := writeWord s.bytes blockTarget blockSource
    let bytes := writeWord bytes (blockTarget + 4) entry.startAddr
    let bytes := writeWord bytes (blockTarget + 8) entry.endAddr
    let bytes := writeByteBool bytes (blockTarget + 12) entry.read
    let bytes := writeByteBool bytes (blockTarget + 13) entry.write
    let bytes := writeByteBool bytes (blockTarget + 14) entry.exec
    { s with bytes := writeByteBool bytes (blockTarget + 15) entry.accessible }

def findBlock (idPD addrInBlock blockResult : Paddr) : LLI Bool := do
  let currentPart ← getCurPartition
  let globalIdPD ← getGlobalIdPDCurrentOrChild currentPart idPD
  let addrIsNull ← compareAddrToNull globalIdPD
  if addrIsNull then pure false else do
  let blockAddr ← findBelongingBlock globalIdPD addrInBlock
  let addrIsNull ← compareAddrToNull blockAddr
  if addrIsNull then pure false else do
  let blockResultAddr ← findBelongingBlock globalIdPD blockResult
  let resAddrIsNull ← compareAddrToNull blockResultAddr
  if resAddrIsNull then pure false else do
  let isBlockResultInKS ← findBlockInKSWithAddr currentPart blockResultAddr
  let addrIsNull ← compareAddrToNull isBlockResultInKS
  if addrIsNull then pure false else do
  let addrIsAccessible ← readBlockAccessibleFromBlockEntryAddr isBlockResultInKS
  if !addrIsAccessible then pure false else do
  let r ← readBlockRFromBlockEntryAddr blockResultAddr
  let w ← readBlockWFromBlockEntryAddr blockResultAddr
  if !r then pure false else do
  if !w then pure false else do
  copyBlock blockResult blockAddr
  pure true
