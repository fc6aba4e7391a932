import PipMpu.Model.MALInternal
import PipMpu.Util.DoWhile

/-!
This module contains the search for the covering MPU region with the loops of `malinternal.c` as they are written. The
result is nothing if one of its loops needs more than `fuel` passes.
-/

def maxPowlog2AlignmentLoop (fuel : Nat) (v : Word) : Option Word :=
  if v = 0 then
    some 31
  else
    (doWhile (fun s : Word × Word => (s.1 >>> 1, s.2 + 1)) (fun s => s.1 % 2 != 1) fuel (v >>> 4, 4)).map Prod.snd

namespace largestCoveringMPURegion

/-
The state of these loops is `tmp_maxpow2` with the bound that is adjusted.
-/

def raiseBottomLoop (fuel : Nat) (startAddr top maxpow2 : Word) : Option Word :=
  (doWhile (fun s : Word × Word => (sub32 s.1 1, sub32 top (pow32 (sub32 s.1 1))))
    (fun s => decide (s.2 < startAddr)) fuel (maxpow2, top)).map Prod.snd

def lowerTopLoop (fuel : Nat) (endAddr bottom maxpow2 : Word) : Option Word :=
  (doWhile (fun s : Word × Word => (sub32 s.1 1, add32 bottom (pow32 (sub32 s.1 1))))
    (fun s => decide (s.2 > endAddr)) fuel (maxpow2, bottom)).map Prod.snd

def goLoop (fuel : Nat) (startAddr endAddr : Word) : Nat → Word → Word → Option (Word × Word)
  | 0, bottom, top => some (bottom, top)
  | i + 1, bottom, top => do
    let topMaxpow2 ← maxPowlog2AlignmentLoop fuel top
    let bottomMaxpow2 ← maxPowlog2AlignmentLoop fuel bottom
    if topMaxpow2 > bottomMaxpow2 then
      let bottom := sub32 top (pow32 topMaxpow2)
      if bottom < startAddr then
        let bottom ← raiseBottomLoop fuel startAddr top topMaxpow2
        some (bottom, top)
      else
        goLoop fuel startAddr endAddr i bottom top
    else
      let top := add32 bottom (pow32 bottomMaxpow2)
      if top > endAddr then
        let top ← lowerTopLoop fuel endAddr bottom bottomMaxpow2
        some (bottom, top)
      else
        goLoop fuel startAddr endAddr i bottom top

end largestCoveringMPURegion

def largestCoveringMPURegionLoop (fuel : Nat) (blockentry : BlockEntry) (addrtocover : Paddr)
    : Option (Paddr × Paddr) :=
  let bottom := addrtocover / 32 * 32
  let top := add32 bottom 32
  largestCoveringMPURegion.goLoop fuel blockentry.startAddr (add32 blockentry.endAddr 1) 32 bottom top
