import PipMpu.Switch.Reads
import PipMpu.Switch.Rejected

/-!
This module contains what a switch does to the registers of the FPU: they are loaded from an extended
context, and cleared for a basic one if the interrupted context has used them, exactly as long as the frame
type of the interrupted context is looked up where that context is.
-/

/-
The record of the accesses
-/

namespace Access

/--
The access does not look up the frame type of an interrupted context.
-/
def NoLookup (a : Access) : Prop := a.kind ≠ .frameTypeRead

/--
If the access looks up the frame type of an interrupted context, this is done in the given context.
-/
def LooksAt (context : Paddr) (a : Access) : Prop := a.kind = .frameTypeRead → a.addr = isBasicFrameAddr context

end Access

/--
On the way from `m` to `m'` an access with the property was recorded.
-/
def Recorded (P : Access → Prop) (m m' : Machine) : Prop :=
  ∃ new, m'.accesses = new ++ m.accesses ∧ ∃ a ∈ new, P a

namespace Recorded

variable {P ok : Access → Prop} {m m₁ m₂ : Machine}

theorem after (h : Recorded P m m₁) (hrecords : Records ok m₁ m₂) : Recorded P m m₂ := by
  rcases h with ⟨new, heq, a, ha, hread⟩
  rcases hrecords with ⟨new', heq', -⟩
  exact ⟨new' ++ new, by rw [heq', heq, List.append_assoc], a, List.mem_append_right new' ha, hread⟩

theorem before (hrecords : Records ok m m₁) (h : Recorded P m₁ m₂) : Recorded P m m₂ := by
  rcases h with ⟨new, heq, a, ha, hread⟩
  rcases hrecords with ⟨new', heq', -⟩
  exact ⟨new ++ new', by rw [heq, heq', List.append_assoc], a, List.mem_append_left new' ha, hread⟩

end Recorded

/--
The word at `addr` of the context to resume was read, it was `value`.
-/
def LoadedFrom (m m' : Machine) (addr : Paddr) (value : Word) : Prop :=
  Recorded (fun a => a.kind = .contextRead ∧ a.addr = addr ∧ readWord a.state.bytes addr = value) m m'

/--
The frame type of an interrupted context was looked up in the word at `addr`.
-/
def LookedUpAt (m m' : Machine) (addr : Paddr) : Prop :=
  Recorded (fun a => a.kind = .frameTypeRead ∧ a.addr = addr) m m'

/--
The addresses in an extended context of the registers S0 to S31 and FPSCR.
-/
def fpAddrs (context : Paddr) : List Paddr :=
  (List.range 16).map (lowFpAddr context) ++ (List.range 16).map (highFpAddr context)
    ++ [lowFpAddr context 16]

/--
How a context is resumed on `m'`, if it is known that the one interrupted on `m` has used the FPU or not.
-/
structure FpuLoaded (usedFpu : Bool) (m : Machine) (resumption : Resumption) (m' : Machine) : Prop where
  -- the frame type is the first word of the resumed context
  frame : ∃ isBasicFrame, LoadedFrom m m' (isBasicFrameAddr resumption.context) isBasicFrame
    ∧ (resumption.extended = true ↔ isBasicFrame = 0)
  cleared : usedFpu = true → resumption.extended = false → m'.fpRegs = List.replicate 33 0
  loaded : resumption.extended = true →
    List.Forall₂ (LoadedFrom m m') (fpAddrs resumption.context) m'.fpRegs
  known : m'.previousContextUseFpu = usedFpu

theorem FpuLoaded.before {usedFpu : Bool} {ok : Access → Prop} {m m₁ m' : Machine} {resumption : Resumption}
    (hrecords : Records ok m m₁) (h : FpuLoaded usedFpu m₁ resumption m') : FpuLoaded usedFpu m resumption m' := by
  rcases h with ⟨⟨isBasicFrame, hframe, hextended⟩, hcleared, hloaded, hknown⟩
  exact
    {
      frame := ⟨isBasicFrame, hframe.before hrecords, hextended⟩
      cleared := hcleared
      loaded := fun h => (hloaded h).imp fun _ _ hread => hread.before hrecords
      known := hknown
    }

namespace FpuSafe

variable {context : Paddr} {usedFpu decided : Bool} {m m' : Machine} {resumption : Resumption}

end FpuSafe

/-
Loading a context
-/

/--
The record grows, what is known of the FPU and its registers do not change.
-/
structure SameFpu (m m' : Machine) : Prop where
  records : Records Access.NoLookup m m'
  previousContextUseFpu : m'.previousContextUseFpu = m.previousContextUseFpu
  fpRegs : m'.fpRegs = m.fpRegs

namespace SameFpu

theorem of_eq {m m' : Machine} (hrecord : m'.accesses = m.accesses)
    (hused : m'.previousContextUseFpu = m.previousContextUseFpu) (hregs : m'.fpRegs = m.fpRegs)
    : SameFpu m m' :=
  ⟨.of_eq hrecord, hused, hregs⟩

instance : Std.Refl SameFpu where
  refl _ := of_eq rfl rfl rfl

instance : IsTrans Machine SameFpu where
  trans _ _ _ h₁₂ h₂₃ :=
    {
      records := IsTrans.trans _ _ _ h₁₂.records h₂₃.records
      previousContextUseFpu := h₂₃.previousContextUseFpu.trans h₁₂.previousContextUseFpu
      fpRegs := h₂₃.fpRegs.trans h₁₂.fpRegs
    }

end SameFpu

section Loads

variable {m : Machine}

end Loads

/-
One attempt to switch
-/

namespace State

variable {s : State}

/--
The context is an extended one.
-/
def usedFpu (s : State) (context : Paddr) : Bool := readWord s.bytes context == 0

/--
The caller does not want to be saved, or the address where it wants to be passes the checks.
-/
def CanSave (s : State) (caller saveAddr context : Paddr) : Prop :=
  saveAddr = nullAddr ∨ (checkCallerContext caller saveAddr context s).1 = none

/--
The switch to the partition passes all checks from the VIDT of the caller on. Those on the contexts come after
`currentInterrupt` was written.
-/
structure Switches (s : State) (callee caller : Paddr) (saveIndex interrupt : Nat) (context : Paddr)
    : Prop where
  vidt : s.VidtPasses caller
  able : s.Able callee interrupt
  save : (s.interruptWritten callee interrupt).CanSave caller (s.contextAt caller saveIndex) context

end State

/--
A context is resumed exactly if `c` holds, where the one interrupted has used the FPU or not.
-/
def ResumesIf (c : Prop) (usedFpu : Bool) (m : Machine) (outcome : YieldOutcome) (m' : Machine) : Prop :=
  (c ∧ ∃ resumption, outcome = .resumed resumption ∧ FpuLoaded usedFpu m resumption m')
    ∨ (¬c ∧ ∃ code, outcome = .returned code)

/--
The attempt succeeds exactly if `c` holds, and it looks up the frame type in the interrupted context only.
-/
structure Attempt (c : Prop) (context : Paddr) (usedFpu : Bool) (m : Machine) (outcome : YieldOutcome) (m' : Machine)
    : Prop where
  ends : ResumesIf c usedFpu m outcome m'
  lookedUp : c → LookedUpAt m m' (isBasicFrameAddr context)
  lookups : Records (Access.LooksAt context) m m'

section Ends

variable {c c' : Prop} {context : Paddr} {usedFpu : Bool} {m m₁ m' : Machine} {outcome : YieldOutcome}

theorem ResumesIf.congr (h : ResumesIf c usedFpu m outcome m') (hc : c ↔ c') : ResumesIf c' usedFpu m outcome m' := by
  unfold ResumesIf at *
  rwa [← hc]

theorem ResumesIf.before {ok : Access → Prop} (hrecords : Records ok m m₁) (h : ResumesIf c usedFpu m₁ outcome m')
    : ResumesIf c usedFpu m outcome m' := by
  rcases h with ⟨hc, resumption, houtcome, hloaded⟩ | hfails
  . exact .inl ⟨hc, resumption, houtcome, hloaded.before hrecords⟩
  . exact .inr hfails

theorem Attempt.congr (h : Attempt c context usedFpu m outcome m') (hc : c ↔ c')
    : Attempt c' context usedFpu m outcome m' :=
  ⟨h.ends.congr hc, fun hc' => h.lookedUp (hc.mpr hc'), h.lookups⟩

theorem Attempt.before (hlookups : Records (Access.LooksAt context) m m₁)
    (h : Attempt c context usedFpu m₁ outcome m') : Attempt c context usedFpu m outcome m' :=
  ⟨h.ends.before hlookups, fun hc => (h.lookedUp hc).before hlookups, IsTrans.trans _ _ _ hlookups h.lookups⟩

end Ends

section Attempts

variable {m : Machine} {callee caller saveAddr context targetContext vidtAddr : Paddr}
  {interrupt saveIndex : Nat} {flagsOnYield flagsOnWake : Word}

end Attempts

/-
The ways in which an attempt ends
-/

namespace State

/--
The partition is able to handle the interrupt, but its caller cannot be saved and this is abandoned.
-/
structure Abandons (s : State) (callee caller : Paddr) (saveIndex interrupt : Nat) (context : Paddr)
    : Prop where
  able : s.Able callee interrupt
  aligned : ¬s.SaveMisaligned caller saveIndex
  fails : ¬s.Switches callee caller saveIndex interrupt context

/--
The frame type is looked up in the context that was interrupted, and it still says there whether this context has used
the FPU. When a save is abandoned the frame type is looked up at address 0.
-/
structure LooksUp (s : State) (callee caller : Paddr) (saveIndex interrupt : Nat) (context : Paddr)
    (usedFpu : Bool) : Prop where
  saved : s.Switches callee caller saveIndex interrupt context →
    context ≠ nullAddr ∧ (s.interruptWritten callee interrupt).usedFpu context = usedFpu
  abandoned : ¬s.Abandons callee caller saveIndex interrupt context

variable {s : State} {callee caller context : Paddr} {saveIndex interrupt : Nat} {usedFpu : Bool}

end State

section Attempts

variable {m : Machine} {callee caller context : Paddr} {interrupt saveIndex : Nat}
  {flagsOnYield flagsOnWake : Word}

end Attempts

/-
The events that switch
-/

/--
An event on which the kernel switches away from the context it interrupts.
-/
inductive SwitchEvent where
  | yield (calleePartDescLocalId : Paddr) (userTargetInterrupt userCallerContextSaveIndex : Word)
      (flagsOnYield flagsOnWake : Word)
  | interrupt (currentInterrupt : Nat)
  | fault (fuel irq : Nat)

def YieldOutcome.resumption? : YieldOutcome → Option Resumption
  | returned _ => none
  | resumed resumption => some resumption

def HandlerOutcome.resumption? : HandlerOutcome → Option Resumption
  | resumed resumption => some resumption
  | panic => none

/--
The context that is resumed, if the kernel switches to one.
-/
def SwitchEvent.run (context : Paddr) : SwitchEvent → Handler (Option Resumption)
  | yield calleePartDescLocalId userTargetInterrupt userCallerContextSaveIndex flagsOnYield flagsOnWake => do
    let outcome ← yieldGlue context calleePartDescLocalId userTargetInterrupt userCallerContextSaveIndex
      flagsOnYield flagsOnWake
    pure outcome.resumption?
  | interrupt currentInterrupt => do
    let outcome ← Interrupt_Handler_C context currentInterrupt
    pure outcome.resumption?
  | fault fuel irq => do
    let outcome ← Fault_Handler_C_Irq fuel context irq
    pure (outcome.bind HandlerOutcome.resumption?)

namespace State

/--
A yield passes the checks before those on the VIDTs.
-/
structure Admits (s : State) (calleePartDescLocalId : Paddr) (interrupt saveIndex : Nat) : Prop where
  interrupt : interrupt < vidtInterruptNumber
  saveIndex : saveIndex < vidtInterruptNumber
  parent : calleePartDescLocalId = nullAddr → s.currentPartition ≠ s.constantRootPartM
  child : calleePartDescLocalId ≠ nullAddr → calleePartDescLocalId ≠ s.currentPartition →
    (checkChildOfCurrPart s.currentPartition calleePartDescLocalId s).1 = true

/--
The same for each level of a fault's walk towards the root, up to the one where somebody is resumed.
-/
def FaultLooksUp (interrupt : Nat) (context : Paddr) (usedFpu : Bool) : Nat → State → Paddr → Nat → Prop
  | 0, _, _, _ => True
  | fuel + 1, s, pd, saveIndex =>
    let parent := s.parentOf pd
    pd ≠ s.constantRootPartM →
      s.LooksUp parent pd saveIndex interrupt context usedFpu
      ∧ (s.VidtPasses pd → (s.Able parent interrupt → s.SaveMisaligned pd saveIndex) →
        FaultLooksUp interrupt context usedFpu fuel (s.tried parent interrupt) parent DOUBLE_FAULT_LEVEL)

end State

/--
The kernel looks up the frame type of the interrupted context there, and it has not changed, in the state after the
stack pointer of the context was reset.
-/
def SwitchEvent.LooksUp (s : State) (context : Paddr) : SwitchEvent → Prop
  | yield calleePartDescLocalId userTargetInterrupt userCallerContextSaveIndex _ _ =>
    s.Admits calleePartDescLocalId userTargetInterrupt userCallerContextSaveIndex →
    s.Switches (s.calleeOf calleePartDescLocalId) s.currentPartition userCallerContextSaveIndex
      userTargetInterrupt context →
    context ≠ nullAddr ∧ (s.interruptWritten (s.calleeOf calleePartDescLocalId) userTargetInterrupt).usedFpu context
      = s.usedFpu context
  | interrupt currentInterrupt =>
    s.LooksUp s.constantRootPartM s.currentPartition s.saveIndex currentInterrupt context (s.usedFpu context)
  | fault fuel irq =>
    State.FaultLooksUp irq context (s.usedFpu context) fuel s s.currentPartition s.saveIndex

section Yields

variable {m : Machine} {calleePartDescLocalId context : Paddr} {interrupt saveIndex : Nat}
  {flagsOnYield flagsOnWake : Word}

end Yields

/--
Whoever is resumed, the switch is safe for the given kind of interrupted context exactly if `c` holds.
-/
inductive SafeExactly (c : Prop) (context : Paddr) (usedFpu : Bool) (m : Machine) (outcome : Option Resumption)
    (m' : Machine) : Prop where
  | nobody (houtcome : outcome = none) (hc : c)
  | switched (resumption : Resumption) (decided : Bool) (houtcome : outcome = some resumption)
      (hloaded : FpuLoaded decided m resumption m') (hlookedUp : LookedUpAt m m' (isBasicFrameAddr context))
      (hlookups : Records (Access.LooksAt context) m m') (hc : c ↔ context ≠ nullAddr ∧ decided = usedFpu)
  | atNull (resumption : Resumption) (houtcome : outcome = some resumption)
      (hlookedUp : LookedUpAt m m' (isBasicFrameAddr nullAddr)) (hc : ¬c)

namespace SafeExactly

variable {c c' : Prop} {context : Paddr} {usedFpu : Bool} {m m₁ m' : Machine} {outcome : Option Resumption}

theorem before (hlookups : Records (Access.LooksAt context) m m₁) (h : SafeExactly c context usedFpu m₁ outcome m')
    : SafeExactly c context usedFpu m outcome m' := by
  cases h with
  | nobody houtcome hc => exact .nobody houtcome hc
  | switched resumption decided houtcome hloaded hlookedUp hlookups' hc =>
    exact .switched resumption decided houtcome (hloaded.before hlookups) (hlookedUp.before hlookups)
      (IsTrans.trans _ _ _ hlookups hlookups') hc
  | atNull resumption houtcome hlookedUp hc => exact .atNull resumption houtcome (hlookedUp.before hlookups) hc

theorem congr (h : SafeExactly c context usedFpu m outcome m') (hc : c ↔ c')
    : SafeExactly c' context usedFpu m outcome m' :=
  propext hc ▸ h

end SafeExactly

section Handlers

variable {m : Machine} {pd : Paddr} {context : Nat} {interrupt saveIndex : Nat}
  {flagOnYield flagOnWake : Word} {usedFpu : Bool}

theorem State.Switches.aligned {s : State} {callee caller : Paddr}
    (h : s.Switches callee caller saveIndex interrupt context) : ¬s.SaveMisaligned caller saveIndex := by
  intro hmisaligned
  rcases h.save with hnull | hcheck
  . exact hmisaligned.save_ne hnull
  . exact checkCallerContext_none hcheck ((misalignedSave_bytes _ _ _).mpr hmisaligned.misaligned)

end Handlers
