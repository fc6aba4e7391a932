import PipMpu.Refine.Calls
import PipMpu.Refine.KernelData
import PipMpu.Spec.SharedDown

/-!
This module contains why one removal undoes a chain of shares: the copies of the block are the slots that the shares
have taken, and they are freed from the first to the last one.
-/

open LLI

namespace Sim

variable {s : State} {C : Conf}

end Sim

/--
The root has a child, the child has one too, and the root keeps a block that it has not shared.
-/
def beforeSharesCalls : List (List Nat × ServiceCall) :=
  [
    ([], .cutMemoryBlock 0x2000F111 0x20009000 8),
    ([], .createPartition 0x2000F111),
    ([], .cutMemoryBlock 0x2000F133 0x2000A000 8),
    ([], .prepare 0x2000F111 0x2000F133),
    ([], .cutMemoryBlock 0x2000F144 0x2000D000 8),
    ([], .addMemoryBlock 0x2000F111 0x2000F144 true true false),
    ([0x2000F111], .cutMemoryBlock 0x20009000 0x2000B000 8),
    ([0x2000F111], .createPartition 0x20009000),
    ([0x2000F111], .cutMemoryBlock 0x20009011 0x2000C000 8),
    ([0x2000F111], .prepare 0x20009000 0x20009011)
  ]

def beforeShares : State := (State.booted.replay beforeSharesCalls).getD State.booted

theorem beforeShares_reachable : (ServiceCall.system.restrict State.Whole).Reachable beforeShares :=
  ServiceCall.reachable_of_isSome ServiceCall.reachable_booted (fun _ _ _ _ => State.whole_of_plain)
    (by decide +kernel)
