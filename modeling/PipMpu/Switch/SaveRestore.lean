import PipMpu.Core.ExceptionEntry
import PipMpu.Switch.Reads

/-!
This module contains the proof that a context which is taken from the stack of a partition, saved, and loaded
again gives the partition its registers back.
-/

/-
The stack pointer
-/

section StackPointer

variable {extended : Bool} {stkalign sp : Nat}

theorem and_not32_zero {x : Nat} (hx : x < wordSize) : x &&& not32 0 = x := by
  show x &&& 2 ^ 32 - 1 = x
  rw [Nat.and_two_pow_sub_one_eq_mod]
  exact Nat.mod_eq_of_lt hx

/--
Clearing the bit 2 of an aligned address aligns it to eight bytes.
-/
theorem and_not32_four {x : Nat} (hx : x < wordSize) (haligned : x % 4 = 0)
    : x &&& not32 4 = 8 * (x / 8) := by
  have hdiv : (x &&& not32 4) / 8 = x / 8 := by
    have hand : (x &&& not32 4) / 2 ^ 3 = x / 2 ^ 3 &&& not32 4 / 2 ^ 3 := Nat.and_div_two_pow
    have hmask : not32 4 / 2 ^ 3 = 2 ^ 29 - 1 := by decide
    rw [hmask, Nat.and_two_pow_sub_one_eq_mod] at hand
    rw [wordSize_eq] at hx
    omega
  have hmod : (x &&& not32 4) % 8 = 0 := by
    have hand : (x &&& not32 4) % 2 ^ 3 = x % 2 ^ 3 &&& not32 4 % 2 ^ 3 := Nat.and_mod_two_pow
    have hcases : x % 2 ^ 3 = 0 ∨ x % 2 ^ 3 = 4 := by omega
    rcases hcases with h | h
    . rw [h] at hand
      exact hand
    . rw [h] at hand
      exact hand
  omega

theorem sub32_of_le {a b : Nat} (ha : a < wordSize) (h : b ≤ a) : sub32 a b = a - b := by
  unfold sub32
  rw [wordSize_eq] at *
  omega

/--
`STKALIGN` is a single bit.
-/
theorem forceAlignOf_cases (extended : Bool) (h : stkalign < 2)
    : forceAlignOf extended stkalign = 0 ∨ forceAlignOf extended stkalign = 1 := by
  unfold forceAlignOf
  cases extended
  . show stkalign = 0 ∨ stkalign = 1
    omega
  . exact .inr rfl

theorem frameSizeOf_mod (extended : Bool) : frameSizeOf extended % 8 = 0 := by
  cases extended <;> rfl

/--
The padding is what the alignment of the stack pointer takes away.
-/
theorem framePtrOf_add (hsp : sp < wordSize) (haligned : sp % 4 = 0) (hroom : frameSizeOf extended ≤ sp)
    (hstkalign : stkalign < 2)
    : framePtrOf extended stkalign sp + frameSizeOf extended + 4 * framePtrAlignOf extended stkalign sp = sp
        ∧ framePtrAlignOf extended stkalign sp < 2
        ∧ (framePtrAlignOf extended stkalign sp = 1 → framePtrOf extended stkalign sp % 8 = 0)
        ∧ framePtrAlignOf extended stkalign sp &&& forceAlignOf extended stkalign
          = framePtrAlignOf extended stkalign sp := by
  have hsize := frameSizeOf_mod extended
  unfold framePtrOf framePtrAlignOf
  rw [sub32_of_le hsp hroom]
  rcases forceAlignOf_cases extended hstkalign with hforce | hforce
  . rw [hforce, Nat.zero_shiftLeft, and_not32_zero (by omega), Nat.and_zero]
    refine ⟨by omega, by decide, fun h => absurd h (by decide), rfl⟩
  . have hshift : sp >>> 2 &&& 1 = sp / 4 % 2 := by
      rw [Nat.and_one_is_mod, Nat.shiftRight_eq_div_pow]
    rw [hforce, hshift, show 1 <<< 2 = 4 from rfl, and_not32_four (by omega) (by omega)]
    refine ⟨by omega, by omega, fun _ => by omega, ?_⟩
    rw [Nat.and_one_is_mod]
    omega

/--
What `resetInitialSp` and an exception return compute from the frame pointer and the padding.
-/
theorem sp_restored (hsp : sp < wordSize) (haligned : sp % 4 = 0) (hroom : frameSizeOf extended ≤ sp)
    (hstkalign : stkalign < 2)
    : add32 (framePtrOf extended stkalign sp) (frameSizeOf extended)
        ||| (framePtrAlignOf extended stkalign sp <<< 2) = sp := by
  rcases framePtrOf_add hsp haligned hroom hstkalign with ⟨hadd, hlt, hmod, -⟩
  have hsize := frameSizeOf_mod extended
  generalize framePtrOf extended stkalign sp = framePtr at *
  generalize framePtrAlignOf extended stkalign sp = align at *
  have hadd32 : add32 framePtr (frameSizeOf extended) = framePtr + frameSizeOf extended := by
    unfold add32
    exact Nat.mod_eq_of_lt (by omega)
  rw [hadd32]
  have hcases : align = 0 ∨ align = 1 := by omega
  rcases hcases with rfl | rfl
  . rw [Nat.zero_shiftLeft, Nat.or_zero]
    omega
  . have hmod := hmod rfl
    have hdiv : framePtr + frameSizeOf extended = ((framePtr + frameSizeOf extended) / 8) <<< 3 := by
      rw [Nat.shiftLeft_eq]
      omega
    rw [hdiv, ← Nat.shiftLeft_add_eq_or_of_lt (by decide), ← hdiv]
    exact hadd

end StackPointer

/-
xPSR
-/

section Xpsr

variable {align forceAlign : Nat}

theorem stackedXpsr_padding (hforce : forceAlign = 0 ∨ forceAlign = 1) (halign : align &&& forceAlign = align)
    (xpsr : Nat) : (stackedXpsr align xpsr >>> 9) &&& forceAlign = align := by
  unfold stackedXpsr
  rw [Nat.shiftRight_or_distrib, Nat.shiftRight_and_distrib, Nat.shiftLeft_shiftRight, Nat.and_or_distrib_right,
    Nat.and_assoc, halign]
  rcases hforce with rfl | rfl
  . rw [Nat.and_zero, Nat.and_zero, Nat.zero_or]
  . rw [show not32 (1 <<< 9) >>> 9 &&& 1 = 0 by decide, Nat.and_zero, Nat.zero_or]

/--
The padding of a frame that is built again is recorded a second time.
-/
theorem loadedXpsr_padding (hforce : forceAlign = 0 ∨ forceAlign = 1) (halign : align &&& forceAlign = align)
    (xpsr : Nat)
    : ((stackedXpsr align xpsr ||| (align <<< 9) ||| (1 <<< 24)) >>> 9) &&& forceAlign = align := by
  rw [Nat.shiftRight_or_distrib, Nat.shiftRight_or_distrib, Nat.shiftLeft_shiftRight, Nat.and_or_distrib_right,
    Nat.and_or_distrib_right, stackedXpsr_padding hforce halign, halign, Nat.or_self]
  rcases hforce with rfl | rfl
  . rw [Nat.and_zero, Nat.or_zero]
  . rw [show (1 <<< 24) >>> 9 &&& 1 = 0 by decide, Nat.or_zero]

/--
Neither the padding nor the clearing of its bit is seen in the restored xPSR.
-/
theorem loadedXpsr_masked {xpsr : Nat} (hreserved : xpsr &&& xpsrMask = xpsr) (halign : align < 2)
    : (stackedXpsr align xpsr ||| (align <<< 9) ||| (1 <<< 24)) &&& xpsrMask = xpsr ||| 1 <<< 24 := by
  have hpadding : align <<< 9 &&& xpsrMask = 0 := by
    have hcases : align = 0 ∨ align = 1 := by omega
    rcases hcases with rfl | rfl <;> decide
  have hcleared : xpsr &&& not32 (1 <<< 9) &&& xpsrMask = xpsr := by
    rw [Nat.and_assoc, show not32 (1 <<< 9) &&& xpsrMask = xpsrMask by decide, hreserved]
  unfold stackedXpsr
  rw [Nat.and_or_distrib_right, Nat.and_or_distrib_right, Nat.and_or_distrib_right, hpadding, hcleared,
    Nat.or_zero, Nat.or_zero, show 1 <<< 24 &&& xpsrMask = 1 <<< 24 by decide]

end Xpsr

/-
Words that lie one after the other
-/

/--
The words from `addr` on are those of the list.
-/
def HoldsWords (bytes : Mem Nat) (addr : Nat) (values : List Word) : Prop :=
  ∀ k (h : k < values.length), readWord bytes (addr + 4 * k) = values[k]

section Words

variable {bytes bytes' : Mem Nat} {addr addr' : Nat} {values values' : List Word}

theorem storeWords_other (addr : Nat) (values : List Word) (s : State) {a : Nat}
    (h : a + 4 ≤ addr ∨ addr + 4 * values.length ≤ a)
    : readWord (storeWords addr values s).2.bytes a = readWord s.bytes a := by
  induction values generalizing addr s with
  | nil => rfl
  | cons value values ih =>
    rw [List.length_cons] at h
    have hrest : readWord (storeWords (addr + 4) values (writeMemory addr value s).2).2.bytes a
        = readWord (writeMemory addr value s).2.bytes a := ih (addr + 4) _ (by omega)
    refine hrest.trans (readWord_writeWord_of_disjoint _ _ ?_)
    omega

theorem storeWords_holds (addr : Nat) (values : List Word) (s : State) (h : ∀ value ∈ values, value < wordSize)
    : HoldsWords (storeWords addr values s).2.bytes addr values := by
  induction values generalizing addr s with
  | nil => exact fun k hk => absurd hk (Nat.not_lt_zero k)
  | cons value values ih =>
    intro k hk
    cases k with
    | zero =>
      have hother : readWord (storeWords (addr + 4) values (writeMemory addr value s).2).2.bytes addr
          = readWord (writeMemory addr value s).2.bytes addr := storeWords_other (addr + 4) _ _ (by omega)
      refine hother.trans ((readWord_writeWord_self _ _ _).trans ?_)
      exact Nat.mod_eq_of_lt (h value List.mem_cons_self)
    | succ k =>
      have hrest := ih (addr + 4) (writeMemory addr value s).2 (fun v hv => h v (List.mem_cons_of_mem _ hv)) k
        (Nat.lt_of_succ_lt_succ hk)
      rw [show addr + 4 * (k + 1) = addr + 4 + 4 * k by omega]
      exact hrest

/--
Pushing words below others.
-/
theorem HoldsWords.push {s : State} (h : HoldsWords s.bytes addr values)
    (haddr : addr' + 4 * values'.length = addr) (hlt : ∀ value ∈ values', value < wordSize)
    : HoldsWords (storeWords addr' values' s).2.bytes addr' (values' ++ values) := by
  intro k hk
  rw [List.length_append] at hk
  by_cases hpushed : k < values'.length
  . rw [List.getElem_append_left hpushed]
    exact storeWords_holds addr' values' s hlt k hpushed
  . have hk' : k - values'.length < values.length := by omega
    have haddr' : addr' + 4 * k = addr + 4 * (k - values'.length) := by omega
    rw [List.getElem_append_right (Nat.le_of_not_lt hpushed), storeWords_other _ _ _ (by omega), haddr']
    exact h _ hk'

theorem HoldsWords.tail {value : Word} (h : HoldsWords bytes addr (value :: values))
    : HoldsWords bytes (addr + 4) values := by
  intro k hk
  have hword := h (k + 1) (Nat.succ_lt_succ hk)
  rwa [show addr + 4 * (k + 1) = addr + 4 + 4 * k by omega] at hword

theorem HoldsWords.word (h : HoldsWords bytes addr values) {k : Nat} {value : Word}
    (hk : values[k]? = some value) : readWord bytes (addr + 4 * k) = value := by
  rcases List.getElem?_eq_some_iff.mp hk with ⟨hlt, rfl⟩
  exact h k hlt

theorem HoldsWords.set (h : HoldsWords bytes addr values) {i : Nat} {value : Word} (hvalue : value < wordSize)
    : HoldsWords (writeWord bytes (addr + 4 * i) value) addr (values.set i value) := by
  intro k hk
  rw [List.length_set] at hk
  rw [List.getElem_set]
  split
  . next heq =>
    subst heq
    rw [readWord_writeWord_self]
    exact Nat.mod_eq_of_lt hvalue
  . next hne =>
    rw [readWord_writeWord_of_disjoint _ _ (by omega)]
    exact h k hk

theorem HoldsWords.congr (h : HoldsWords bytes addr values)
    (hwords : ∀ k < values.length, readWord bytes' (addr' + 4 * k) = readWord bytes (addr + 4 * k))
    : HoldsWords bytes' addr' values := by
  intro k hk
  rw [hwords k hk]
  exact h k hk

end Words

/-
The context of an interrupted partition
-/

def lowFpWords (extended : Bool) (regs : RegisterFile) : List Word :=
  if extended then (List.range 16).map regs.fp ++ [regs.fp 32] else []

def highFpWords (extended : Bool) (regs : RegisterFile) : List Word :=
  if extended then (List.range 16).map fun i => regs.fp (16 + i) else []

/--
The words of the frame of a context, where only the stack pointer and xPSR change on the way.
-/
def frameWords (extended : Bool) (regs : RegisterFile) (sp xpsr : Word) : List Word :=
  highFpWords extended regs ++ ((sp :: savedRegisters.map regs.core)
    ++ (stackedRegisters.map regs.core ++ [xpsr] ++ lowFpWords extended regs))

structure HoldsContext (bytes : Mem Nat) (context : Nat) (extended : Bool) (regs : RegisterFile)
    (sp xpsr : Word) : Prop where
  isBasicFrame : readWord bytes context = if extended then 0 else 1
  frame : HoldsWords bytes (frameAddr context) (frameWords extended regs sp xpsr)

def sizeofContext (extended : Bool) : Nat := if extended then sizeofExtendedContext else sizeofBasicContext

section Contexts

variable {m : Machine} {s : State} {regs : RegisterFile} {extended : Bool} {stkalign sp xpsr : Nat}

theorem frameWords_length (extended : Bool) (regs : RegisterFile) (sp xpsr : Word)
    : 8 + 4 * (frameWords extended regs sp xpsr).length = sizeofContext extended := by
  cases extended <;> rfl

theorem lowFpWords_lt : ∀ value ∈ lowFpWords extended regs, value < wordSize := by
  unfold lowFpWords
  intro value hvalue
  cases extended
  . exact nomatch hvalue
  . rcases List.mem_append.mp hvalue with hlow | hstatus
    . rcases List.mem_map.mp hlow with ⟨i, -, rfl⟩
      exact regs.fp_lt i
    . rw [List.mem_singleton.mp hstatus]
      exact regs.fp_lt 32

theorem highFpWords_lt : ∀ value ∈ highFpWords extended regs, value < wordSize := by
  unfold highFpWords
  intro value hvalue
  cases extended
  . exact nomatch hvalue
  . rcases List.mem_map.mp hvalue with ⟨i, -, rfl⟩
    exact regs.fp_lt (16 + i)

theorem coreWords_lt (registers : List Register) : ∀ value ∈ registers.map regs.core, value < wordSize := by
  intro value hvalue
  rcases List.mem_map.mp hvalue with ⟨r, -, rfl⟩
  exact regs.core_lt r

theorem stackedXpsr_lt {align : Nat} (halign : align < 2) (hxpsr : xpsr < wordSize)
    : stackedXpsr align xpsr < wordSize := by
  unfold stackedXpsr
  apply Nat.or_lt_two_pow (n := 32)
  . exact Nat.lt_of_le_of_lt Nat.and_le_left hxpsr
  . rw [Nat.shiftLeft_eq]
    omega

/--
The processor pushes the second part of the frame.
-/
theorem pushStack_holds (hlt : framePtrAlignOf extended stkalign (regs.core .sp) < 2)
    : (pushStack regs extended stkalign s).1 = framePtrOf extended stkalign (regs.core .sp)
        ∧ HoldsWords (pushStack regs extended stkalign s).2.bytes (framePtrOf extended stkalign (regs.core .sp))
          (stackedRegisters.map regs.core
            ++ [stackedXpsr (framePtrAlignOf extended stkalign (regs.core .sp)) (regs.core .xpsr)]
            ++ lowFpWords extended regs) := by
  refine ⟨rfl, storeWords_holds _ _ s fun value hvalue => ?_⟩
  rcases List.mem_append.mp hvalue with hcore | hfp
  . rcases List.mem_append.mp hcore with hcore | hxpsr
    . exact coreWords_lt _ value hcore
    . rw [List.mem_singleton.mp hxpsr]
      exact stackedXpsr_lt hlt (regs.core_lt .xpsr)
  . exact lowFpWords_lt value hfp

/--
The distance from the frame of the processor to the start of the context.
-/
def pushedSize (extended : Bool) : Nat := if extended then 108 else 44

/--
The entry point pushes the first part of the frame and what comes before it.
-/
theorem exceptionEntryPoint_holds {psp : Nat} {values : List Word} (hpsp : psp < wordSize)
    (hroom : pushedSize extended ≤ psp) (h : HoldsWords s.bytes psp values)
    : (exceptionEntryPoint regs extended psp s).1 = psp - pushedSize extended
        ∧ readWord (exceptionEntryPoint regs extended psp s).2.bytes (psp - pushedSize extended)
          = (if extended then 0 else 1)
        ∧ HoldsWords (exceptionEntryPoint regs extended psp s).2.bytes (frameAddr (psp - pushedSize extended))
          (highFpWords extended regs ++ ((psp :: savedRegisters.map regs.core) ++ values)) := by
  have hsaved : ∀ value ∈ psp :: savedRegisters.map regs.core, value < wordSize := by
    intro value hvalue
    rcases List.mem_cons.mp hvalue with rfl | hvalue
    . exact hpsp
    . exact coreWords_lt _ value hvalue
  have hkind : ∀ value ∈ [if extended then 0 else 1, 0], value < wordSize := by
    cases extended <;> decide
  have hsub : ∀ a b, 0 < a → a + b ≤ psp → sub32 (psp - a) b = psp - (a + b) := by
    intro a b ha hab
    rw [sub32_of_le (by omega) (by omega), Nat.sub_sub]
  unfold exceptionEntryPoint
  cases extended
  . have hroom : 44 ≤ psp := hroom
    have hpushed : HoldsWords (storeWords (psp - 36) _ s).2.bytes (psp - 36) _ :=
      h.push (by show psp - 36 + 4 * 9 = psp; omega) hsaved
    have hcontext : HoldsWords (storeWords (psp - 44) _ _).2.bytes (psp - 44) _ :=
      hpushed.push (by show psp - 44 + 4 * 2 = psp - 36; omega) hkind
    simp only [LLI.bind_run, LLI.pure_run, Bool.false_eq_true, if_false]
    rw [sub32_of_le hpsp (by omega), hsub (4 * 9) 8 (by omega) (by omega)]
    exact ⟨rfl, hcontext 0 (by simp), hcontext.tail.tail⟩
  . have hroom : 108 ≤ psp := hroom
    have hpushed : HoldsWords (storeWords (psp - 36) _ s).2.bytes (psp - 36) _ :=
      h.push (by show psp - 36 + 4 * 9 = psp; omega) hsaved
    have hhigh : ∀ value ∈ highFpWords true regs, value < wordSize := highFpWords_lt
    have hfp : HoldsWords (storeWords (psp - 100) (highFpWords true regs) _).2.bytes (psp - 100) _ :=
      hpushed.push (by show psp - 100 + 4 * 16 = psp - 36; omega) hhigh
    have hcontext : HoldsWords (storeWords (psp - 108) _ _).2.bytes (psp - 108) _ :=
      hfp.push (by show psp - 108 + 4 * 2 = psp - 100; omega) hkind
    simp only [LLI.bind_run, LLI.pure_run, if_true]
    rw [sub32_of_le hpsp (by omega), hsub (4 * 9) (4 * 16) (by omega) (by omega),
      hsub (4 * 9 + 4 * 16) 8 (by omega) (by omega)]
    exact ⟨rfl, hcontext 0 (by simp), hcontext.tail.tail⟩

theorem takeException_holds (hstkalign : m.stkalign < 2)
    (hroom : frameSizeOf extended + 4 + pushedSize extended ≤ regs.core .sp)
    : (takeException regs extended).Ensures m fun context m' =>
      context = framePtrOf extended m.stkalign (regs.core .sp) - pushedSize extended
        ∧ m'.stkalign = m.stkalign
        ∧ HoldsContext m'.state.bytes context extended regs
          (framePtrOf extended m.stkalign (regs.core .sp))
          (stackedXpsr (framePtrAlignOf extended m.stkalign (regs.core .sp)) (regs.core .xpsr)) := by
  have hsize : frameSizeOf extended ≤ regs.core .sp := by omega
  rcases framePtrOf_add (regs.core_lt .sp) regs.aligned hsize hstkalign with ⟨hadd, hlt, -, -⟩
  have hpsp : framePtrOf extended m.stkalign (regs.core .sp) < wordSize :=
    Nat.lt_of_le_of_lt (by omega) (regs.core_lt .sp)
  have hpushed : pushedSize extended ≤ framePtrOf extended m.stkalign (regs.core .sp) := by omega
  unfold takeException
  refine .bind (fun a m' => a = m ∧ m' = m) ⟨rfl, rfl⟩ fun a m₀ h₀ => ?_
  rw [h₀.1, h₀.2]
  generalize hxpsr : stackedXpsr (framePtrAlignOf extended m.stkalign (regs.core .sp)) (regs.core .xpsr) = xpsr
  refine .bind (fun psp m' => psp = framePtrOf extended m.stkalign (regs.core .sp) ∧ m'.stkalign = m.stkalign
    ∧ HoldsWords m'.state.bytes psp (stackedRegisters.map regs.core ++ [xpsr] ++ lowFpWords extended regs)) ?_
    fun psp m₁ h₁ => ?_
  . rw [← hxpsr]
    exact ⟨rfl, rfl, (pushStack_holds hlt).2⟩
  . rcases h₁ with ⟨rfl, hstkalign₁, hwords⟩
    rcases exceptionEntryPoint_holds (s := m₁.state) hpsp hpushed hwords with ⟨hcontext, hkind, hframe⟩
    rw [Handler.Ensures, Handler.lift_run, hcontext]
    exact ⟨rfl, hstkalign₁, hkind, hframe⟩

/-
The registers in a context
-/

/--
The number of words before the stack pointer in the frame.
-/
def spIndex (extended : Bool) : Nat := if extended then 16 else 0

def Register.addr (extended : Bool) (context : Nat) (r : Register) : Nat :=
  if extended then r.extendedAddr context else r.basicAddr context

/--
The value of the register in a context where the stack pointer and xPSR are given.
-/
def RegisterFile.stored (regs : RegisterFile) (sp xpsr : Word) : Register → Word
  | .sp => sp
  | .xpsr => xpsr
  | r => regs.core r

theorem frameWords_core (r : Register)
    : (frameWords extended regs sp xpsr)[spIndex extended + r.index]? = some (regs.stored sp xpsr r) := by
  cases extended <;> cases r <;> rfl

theorem HoldsContext.register {bytes : Mem Nat} {context : Nat}
    (h : HoldsContext bytes context extended regs sp xpsr) (r : Register)
    : readWord bytes (r.addr extended context) = regs.stored sp xpsr r := by
  have hword := h.frame.word (frameWords_core r)
  have haddr : r.addr extended context = frameAddr context + 4 * (spIndex extended + r.index) := by
    cases extended
    . show frameAddr context + 4 * r.index = frameAddr context + 4 * (0 + r.index)
      rw [Nat.zero_add]
    . rfl
  rw [haddr]
  exact hword

theorem frameWords_set (sp' : Word)
    : (frameWords extended regs sp xpsr).set (spIndex extended) sp' = frameWords extended regs sp' xpsr := by
  cases extended <;> rfl

theorem resetInitialSp_holds {context psp : Nat}
    (h : HoldsContext m.state.bytes context extended regs psp xpsr)
    (hreset : add32 psp (frameSizeOf extended)
      ||| (((xpsr >>> 9) &&& forceAlignOf extended m.stkalign) <<< 2) = sp)
    (hsp : sp < wordSize)
    : (resetInitialSp context).Ensures m fun _ m' =>
      m'.stkalign = m.stkalign ∧ HoldsContext m'.state.bytes context extended regs sp xpsr := by
  have hxpsr : readWord m.state.bytes (Register.xpsr.addr extended context) = xpsr := h.register .xpsr
  have hpsp : readWord m.state.bytes (Register.sp.addr extended context) = psp := h.register .sp
  have hvalue : add32 (readWord m.state.bytes (Register.sp.addr extended context)) (frameSizeOf extended)
      ||| (((readWord m.state.bytes (Register.xpsr.addr extended context) >>> 9)
        &&& forceAlignOf extended m.stkalign) <<< 2) = sp := by
    rw [hpsp, hxpsr]
    exact hreset
  have hwritten : HoldsContext (writeWord m.state.bytes (Register.sp.addr extended context) sp) context extended
      regs sp xpsr := by
    have haddr : Register.sp.addr extended context = frameAddr context + 4 * spIndex extended := by
      cases extended <;> rfl
    constructor
    . rw [haddr, readWord_writeWord_of_disjoint, h.isBasicFrame]
      exact .inl (by unfold frameAddr; omega)
    . rw [haddr, ← frameWords_set]
      exact h.frame.set hsp
  have hkind := h.isBasicFrame
  nth_rewrite 1 [← hvalue] at hwritten
  refine .bind (fun a m' => a = m ∧ m' = m) ⟨rfl, rfl⟩ fun a m₀ h₀ => ?_
  rw [h₀.1, h₀.2]
  refine .read (readMemory_run _ _) ?_
  cases extended
  . refine .cond (fun _ => ?_) fun hextended => ?_
    . exact .read (readMemory_run _ _) (.read (readMemory_run _ _) ⟨rfl, hwritten⟩)
    . exact absurd (hkind.trans_ne (by decide)) hextended
  . refine .cond (fun hbasic => ?_) fun _ => ?_
    . exact absurd hkind hbasic
    . exact .read (readMemory_run _ _) (.read (readMemory_run _ _) ⟨rfl, hwritten⟩)

/--
The save area does not overlap the context on the stack.
-/
theorem writeContext_holds {context saveAddr : Nat} (flagsOnWake : Nat)
    (h : HoldsContext s.bytes context extended regs sp xpsr)
    (hdisjoint : saveAddr + sizeofContext extended ≤ context ∨ context + sizeofContext extended ≤ saveAddr)
    : HoldsContext (writeContext context saveAddr flagsOnWake s).2.bytes saveAddr extended regs sp xpsr := by
  have hkind := h.isBasicFrame
  have hlength := frameWords_length extended regs sp xpsr
  have hnb : savedRegistersNb s context = (frameWords extended regs sp xpsr).length := by
    unfold savedRegistersNb
    rw [hkind]
    cases extended <;> rfl
  constructor
  . have hself : readWord (writeContext context saveAddr flagsOnWake s).2.bytes (saveAddr + 4 * 0)
        = savedWord s context saveAddr flagsOnWake 0 := writeContext_self (by omega)
    rw [Nat.mul_zero, Nat.add_zero] at hself
    rw [hself, savedWord, hkind]
    cases extended <;> rfl
  . apply h.frame.congr
    intro k hk
    have hself : readWord (writeContext context saveAddr flagsOnWake s).2.bytes (saveAddr + 4 * (k + 2))
        = savedWord s context saveAddr flagsOnWake (k + 2) := writeContext_self (by omega)
    have hsource : savedWord s context saveAddr flagsOnWake (k + 2)
        = readWord s.bytes (frameAddr context + 4 * k) := by
      apply savedWord_of_disjoint
      intro j hj
      unfold frameAddr
      omega
    have haddr : frameAddr saveAddr + 4 * k = saveAddr + 4 * (k + 2) := by
      unfold frameAddr
      omega
    rw [haddr, hself, hsource]

/--
The context depends on the bytes it consists of only.
-/
theorem HoldsContext.congr {bytes bytes' : Mem Nat} {context : Nat}
    (h : HoldsContext bytes context extended regs sp xpsr)
    (hbytes : ∀ addr, context ≤ addr → addr < context + sizeofContext extended → bytes'.get addr = bytes.get addr)
    : HoldsContext bytes' context extended regs sp xpsr := by
  have hword : ∀ addr, context ≤ addr → addr + 4 ≤ context + sizeofContext extended →
      readWord bytes' addr = readWord bytes addr := by
    intro addr hle hlt
    unfold readWord
    rw [hbytes addr (by omega) (by omega), hbytes (addr + 1) (by omega) (by omega),
      hbytes (addr + 2) (by omega) (by omega), hbytes (addr + 3) (by omega) (by omega)]
  have hlength := frameWords_length extended regs sp xpsr
  constructor
  . rw [hword context (Nat.le_refl _) (by omega)]
    exact h.isBasicFrame
  . apply h.frame.congr
    intro k hk
    unfold frameAddr
    exact hword _ (by omega) (by omega)

end Contexts

/-
Loading the context
-/

/--
The words outside of `[lo, hi)` are the same.
-/
def SameWordsOutside (lo hi : Nat) (bytes bytes' : Mem Nat) : Prop :=
  ∀ addr, addr + 4 ≤ lo ∨ hi ≤ addr → readWord bytes' addr = readWord bytes addr

theorem SameWordsOutside.trans {lo hi : Nat} {b₁ b₂ b₃ : Mem Nat} (h : SameWordsOutside lo hi b₁ b₂)
    (h' : SameWordsOutside lo hi b₂ b₃) : SameWordsOutside lo hi b₁ b₃ :=
  fun addr haddr => (h' addr haddr).trans (h addr haddr)

theorem SameWordsOutside.mono {lo lo' hi hi' : Nat} {bytes bytes' : Mem Nat}
    (h : SameWordsOutside lo hi bytes bytes') (hlo : lo' ≤ lo) (hhi : hi ≤ hi')
    : SameWordsOutside lo' hi' bytes bytes' :=
  fun addr haddr => h addr (by omega)

theorem HoldsContext.outside {bytes bytes' : Mem Nat} {context lo hi : Nat} {extended : Bool}
    {regs : RegisterFile} {sp xpsr : Nat} (h : HoldsContext bytes context extended regs sp xpsr)
    (hsame : SameWordsOutside lo hi bytes bytes')
    (hdisjoint : hi ≤ context ∨ context + sizeofContext extended ≤ lo)
    : HoldsContext bytes' context extended regs sp xpsr := by
  have hlength := frameWords_length extended regs sp xpsr
  constructor
  . rw [hsame context (by omega)]
    exact h.isBasicFrame
  . apply h.frame.congr
    intro k hk
    apply hsame
    unfold frameAddr
    omega

section Loads

variable {m : Machine}

theorem loadRegisters_values (addrs : List Nat) (m : Machine)
    : (loadRegisters addrs).Ensures m fun values m' =>
      values = addrs.map (readWord m.state.bytes) ∧ m'.state.bytes = m.state.bytes
        ∧ m'.stkalign = m.stkalign := by
  induction addrs generalizing m with
  | nil => exact ⟨rfl, rfl, rfl⟩
  | cons addr addrs ih =>
    refine .bind (fun value m' => value = readWord m.state.bytes addr ∧ m'.state.bytes = m.state.bytes
      ∧ m'.stkalign = m.stkalign) ⟨rfl, rfl, rfl⟩ fun value m₁ h₁ => ?_
    refine .bind _ (ih m₁) fun values m₂ h₂ => ?_
    refine ⟨?_, h₂.2.1.trans h₁.2.1, h₂.2.2.trans h₁.2.2⟩
    rw [h₁.1, h₂.1, h₁.2.1]
    rfl

/--
The registers that are read do not lie in the frame that is written.
-/
theorem stackRegisters_values (frame i : Nat) {addrs : List Nat} (m : Machine)
    (h : ∀ addr ∈ addrs, addr + 4 ≤ frame + 4 * i ∨ frame + 4 * (i + addrs.length) ≤ addr)
    : (stackRegisters frame i addrs).Ensures m fun _ m' =>
      HoldsWords m'.state.bytes (frame + 4 * i) (addrs.map (readWord m.state.bytes))
        ∧ SameWordsOutside (frame + 4 * i) (frame + 4 * (i + addrs.length)) m.state.bytes m'.state.bytes
        ∧ m'.stkalign = m.stkalign := by
  induction addrs generalizing i m with
  | nil => exact ⟨fun k hk => absurd hk (Nat.not_lt_zero k), fun _ _ => rfl, rfl⟩
  | cons addr addrs ih =>
    simp only [List.length_cons] at h ⊢
    refine .bind (fun value m' => value = readWord m.state.bytes addr ∧ m'.state.bytes = m.state.bytes
      ∧ m'.stkalign = m.stkalign) ⟨rfl, rfl, rfl⟩ fun value m₁ h₁ => ?_
    refine .bind (fun _ m' => m'.state.bytes = writeWord m₁.state.bytes (frame + 4 * i) value
      ∧ m'.stkalign = m₁.stkalign) ⟨rfl, rfl⟩ fun _ m₂ h₂ => ?_
    have hwritten : SameWordsOutside (frame + 4 * i) (frame + 4 * (i + 1)) m.state.bytes m₂.state.bytes := by
      intro a ha
      rw [h₂.1, h₁.2.1]
      exact readWord_writeWord_of_disjoint _ _ (by omega)
    have hrest := fun addr haddr => h addr (List.mem_cons_of_mem _ haddr)
    refine (ih (i + 1) m₂ fun addr haddr => ?_).mono ?_
    . have := hrest addr haddr
      omega
    . rintro _ m₃ ⟨hwords, hsame, hstkalign⟩
      refine ⟨?_, ?_, hstkalign.trans (h₂.2.trans h₁.2.2)⟩
      . intro k hk
        cases k with
        | zero =>
          rw [Nat.mul_zero, Nat.add_zero, hsame _ (by omega), h₂.1, readWord_writeWord_self, h₁.1]
          exact Nat.mod_eq_of_lt (readWord_lt _ _)
        | succ k =>
          have hk : k < (addrs.map (readWord m₂.state.bytes)).length := by simpa using hk
          have hword := hwords k hk
          rw [show frame + 4 * i + 4 * (k + 1) = frame + 4 * (i + 1) + 4 * k by omega, hword]
          simp only [List.map_cons, List.getElem_cons_succ, List.getElem_map]
          apply hwritten
          have := hrest _ (List.getElem_mem (l := addrs) (n := k) (by simpa using hk))
          omega
      . have hfirst : SameWordsOutside (frame + 4 * i) (frame + 4 * (i + (addrs.length + 1))) m.state.bytes
            m₂.state.bytes := hwritten.mono (Nat.le_refl _) (by omega)
        exact hfirst.trans (hsame.mono (by omega) (by omega))

variable {regs : RegisterFile} {extended : Bool} {context : Nat} {sp xpsr : Nat}

/--
What the exception return unstacks from the frame, and the registers R4 to R11.
-/
structure Unstacks (extended : Bool) (regs : RegisterFile) (frame : Nat) (xpsr : Word)
    (resumption : Resumption) (m : Machine) : Prop where
  kind : resumption.extended = extended
  psp : resumption.psp = frame
  highRegs : resumption.highRegs = savedRegisters.map regs.core
  frame : HoldsWords m.state.bytes frame (stackedRegisters.map regs.core ++ [xpsr])
  fpRegs : extended = true → m.fpRegs = (List.range 33).map regs.fp

theorem HoldsContext.registers (h : HoldsContext m.state.bytes context extended regs sp xpsr)
    {registers : List Register} (hregisters : ∀ r ∈ registers, r ≠ .sp ∧ r ≠ .xpsr)
    : (registers.map fun r => r.addr extended context).map (readWord m.state.bytes)
        = registers.map regs.core := by
  rw [List.map_map, Function.comp_def]
  apply List.map_congr_left
  intro r hr
  have hstored : regs.stored sp xpsr r = regs.core r := by
    rcases hregisters r hr with ⟨hsp, hxpsr⟩
    cases r <;> first | rfl | contradiction
  rw [h.register r, hstored]

/--
The word after the first seven of the frame.
-/
theorem HoldsWords.snoc {bytes : Mem Nat} {addr n : Nat} {values : List Word} {value : Word}
    (h : HoldsWords bytes addr values) (hn : values.length = n) (hvalue : value < wordSize)
    : HoldsWords (writeWord bytes (addr + 4 * n) value) addr (values ++ [value]) := by
  intro k hk
  rw [List.length_append, List.length_singleton] at hk
  by_cases hlast : k < values.length
  . rw [List.getElem_append_left hlast, readWord_writeWord_of_disjoint _ _ (by omega)]
    exact h k hlast
  . have hk : k = n := by omega
    subst hk
    rw [List.getElem_append_right (by omega), readWord_writeWord_self]
    simpa using Nat.mod_eq_of_lt hvalue

theorem stackedRegisters_core : ∀ r ∈ stackedRegisters, r ≠ .sp ∧ r ≠ .xpsr := by
  decide

theorem savedRegisters_core : ∀ r ∈ savedRegisters, r ≠ .sp ∧ r ≠ .xpsr := by
  decide

/--
A word of the context, as it is read.
-/
theorem readContextWord_value (addr : Nat) (m : Machine)
    : (readContextWord addr).Ensures m fun value m' =>
      value = readWord m.state.bytes addr ∧ m'.state.bytes = m.state.bytes ∧ m'.stkalign = m.stkalign :=
  ⟨rfl, rfl, rfl⟩

theorem setMaskingFor_bytes (enforceInterrupts : Bool) (m : Machine)
    : (setMaskingFor enforceInterrupts).Ensures m fun _ m' =>
      m'.state.bytes = m.state.bytes ∧ m'.stkalign = m.stkalign := by
  cases enforceInterrupts <;> exact ⟨rfl, rfl⟩

theorem clearFpuRegsIfUsed_bytes (m : Machine)
    : clearFpuRegsIfUsed.Ensures m fun _ m' =>
      m'.state.bytes = m.state.bytes ∧ m'.stkalign = m.stkalign := by
  unfold clearFpuRegsIfUsed Handler.Ensures
  rw [Handler.modify_run]
  split <;> exact ⟨rfl, rfl⟩

/--
The frame that is built is where the processor has stacked it, the padding is recorded again.
-/
theorem loadBasicContext_unstacks (enforceInterrupts : Bool)
    (h : HoldsContext m.state.bytes context false regs sp xpsr)
    (hpsr : xpsr ||| (framePtrAlignOf false m.stkalign sp <<< 9) ||| (1 <<< 24) < wordSize)
    (hdisjoint : framePtrOf false m.stkalign sp + 4 * 8 ≤ context
      ∨ context + sizeofContext false ≤ framePtrOf false m.stkalign sp)
    : (loadBasicContext context enforceInterrupts).Ensures m fun resumption m' =>
      m'.stkalign = m.stkalign
        ∧ Unstacks false regs (framePtrOf false m.stkalign sp)
          (xpsr ||| (framePtrAlignOf false m.stkalign sp <<< 9) ||| (1 <<< 24)) resumption m' := by
  have hsp : readWord m.state.bytes (Register.sp.basicAddr context) = sp := h.register .sp
  have hframe : sub32 sp 0x20 &&& not32 (m.stkalign <<< 2) = framePtrOf false m.stkalign sp := rfl
  have hpadding : sp >>> 2 &&& m.stkalign = framePtrAlignOf false m.stkalign sp := rfl
  have hwithin := frameWords_length false regs sp xpsr
  unfold loadBasicContext
  refine .bind (fun a m' => a = m ∧ m' = m) ⟨rfl, rfl⟩ fun a m₀ h₀ => ?_
  rw [h₀.1, h₀.2]
  refine .bind _ (readContextWord_value _ m) fun value m₁ h₁ => ?_
  rcases h₁ with ⟨rfl, hbytes₁, hstkalign₁⟩
  rw [hsp, hframe, hpadding]
  generalize framePtrOf false m.stkalign sp = frame at *
  generalize framePtrAlignOf false m.stkalign sp = align at *
  rw [← hbytes₁] at h
  refine .bind _ (stackRegisters_values frame 0 m₁ ?_) fun _ m₂ h₂ => ?_
  . intro addr haddr
    rcases List.mem_map.mp haddr with ⟨r, -, rfl⟩
    have hbounds : context ≤ r.basicAddr context ∧ r.basicAddr context + 4 ≤ context + sizeofContext false :=
      r.basicAddr_within context
    show _ ∨ frame + 4 * (0 + 7) ≤ _
    omega
  rcases h₂ with ⟨hwords, hsame₂, hstkalign₂⟩
  have hregisters : (stackedRegisters.map fun r => r.basicAddr context).map (readWord m₁.state.bytes)
      = stackedRegisters.map regs.core := h.registers stackedRegisters_core
  rw [hregisters, Nat.mul_zero, Nat.add_zero] at hwords
  have h₂ : HoldsContext m₂.state.bytes context false regs sp xpsr :=
    h.outside hsame₂ (by show frame + 4 * (0 + 7) ≤ context ∨ _; omega)
  refine .bind _ (readContextWord_value _ m₂) fun value m₃ h₃ => ?_
  rcases h₃ with ⟨rfl, hbytes₃, hstkalign₃⟩
  have hxpsr : readWord m₂.state.bytes (Register.xpsr.basicAddr context) = xpsr := h₂.register .xpsr
  rw [hxpsr]
  generalize xpsr ||| (align <<< 9) ||| (1 <<< 24) = psr at *
  refine .bind (fun _ m' => m'.state.bytes = writeWord m₃.state.bytes (frame + 4 * 7) psr
    ∧ m'.stkalign = m₃.stkalign) ⟨rfl, rfl⟩ fun _ m₄ h₄ => ?_
  rcases h₄ with ⟨hbytes₄, hstkalign₄⟩
  rw [hbytes₃] at hbytes₄
  have hwords₄ : HoldsWords m₄.state.bytes frame (stackedRegisters.map regs.core ++ [psr]) := by
    rw [hbytes₄]
    exact HoldsWords.snoc hwords rfl hpsr
  have h₄ : HoldsContext m₄.state.bytes context false regs sp xpsr := by
    rw [hbytes₄]
    have hsame : SameWordsOutside frame (frame + 4 * 8) m₂.state.bytes
        (writeWord m₂.state.bytes (frame + 4 * 7) psr) :=
      fun addr haddr => readWord_writeWord_of_disjoint _ _ (by omega)
    exact h₂.outside hsame hdisjoint
  refine .bind _ (setMaskingFor_bytes _ m₄) fun _ m₅ h₅ => ?_
  refine .bind _ (clearFpuRegsIfUsed_bytes m₅) fun _ m₆ h₆ => ?_
  refine .bind _ (loadRegisters_values _ m₆) fun highRegs m₇ h₇ => ?_
  rcases h₇ with ⟨rfl, hbytes₇, hstkalign₇⟩
  have hbytes₆ : m₆.state.bytes = m₄.state.bytes := h₆.1.trans h₅.1
  have hsaved : (savedRegisters.map fun r => r.basicAddr context).map (readWord m₆.state.bytes)
      = savedRegisters.map regs.core := by
    rw [hbytes₆]
    exact h₄.registers savedRegisters_core
  refine ⟨?_, ?_⟩
  . show m₇.stkalign = m.stkalign
    rw [hstkalign₇, h₆.2, h₅.2, hstkalign₄, hstkalign₃, hstkalign₂, hstkalign₁]
  . constructor
    . rfl
    . rfl
    . exact hsaved
    . show HoldsWords m₇.state.bytes frame _
      rw [hbytes₇, hbytes₆]
      exact hwords₄
    . exact fun h => absurd h Bool.false_ne_true

theorem HoldsWords.outside {bytes bytes' : Mem Nat} {addr lo hi : Nat} {values : List Word}
    (h : HoldsWords bytes addr values) (hsame : SameWordsOutside lo hi bytes bytes')
    (hdisjoint : addr + 4 * values.length ≤ lo ∨ hi ≤ addr) : HoldsWords bytes' addr values := by
  apply h.congr
  intro k hk
  exact hsame _ (by omega)

theorem HoldsContext.lowFp (h : HoldsContext m.state.bytes context true regs sp xpsr)
    : ((List.range 17).map (lowFpAddr context)).map (readWord m.state.bytes) = lowFpWords true regs := by
  have hsplit : frameWords true regs sp xpsr
      = (highFpWords true regs ++ ((sp :: savedRegisters.map regs.core)
        ++ (stackedRegisters.map regs.core ++ [xpsr]))) ++ lowFpWords true regs := by
    simp only [frameWords, List.append_assoc]
  have hword : ∀ i, (frameWords true regs sp xpsr)[33 + i]? = (lowFpWords true regs)[i]? := by
    intro i
    rw [hsplit, List.getElem?_append_right (Nat.le_add_right 33 i)]
    congr 1
    exact Nat.add_sub_cancel_left 33 i
  rw [List.map_map, Function.comp_def]
  apply List.ext_getElem
  . rw [List.length_map, List.length_range]
    rfl
  . intro i hi hi'
    rw [List.getElem_map, List.getElem_range]
    exact h.frame.word ((hword i).trans (List.getElem?_eq_getElem hi'))

theorem HoldsContext.highFp (h : HoldsContext m.state.bytes context true regs sp xpsr)
    : ((List.range 16).map (highFpAddr context)).map (readWord m.state.bytes) = highFpWords true regs := by
  have hword : ∀ i < 16, (frameWords true regs sp xpsr)[i]? = (highFpWords true regs)[i]? := by
    intro i hi
    exact List.getElem?_append_left hi
  rw [List.map_map, Function.comp_def]
  apply List.ext_getElem
  . rw [List.length_map, List.length_range]
    rfl
  . intro i hi hi'
    have hlt : i < 16 := hi'
    rw [List.getElem_map, List.getElem_range]
    exact h.frame.word ((hword i hlt).trans (List.getElem?_eq_getElem hi'))

theorem loadExtendedContext_unstacks (enforceInterrupts : Bool)
    (h : HoldsContext m.state.bytes context true regs sp xpsr)
    (hpsr : xpsr ||| (framePtrAlignOf true m.stkalign sp <<< 9) ||| (1 <<< 24) < wordSize)
    (hdisjoint : framePtrOf true m.stkalign sp + 4 * 25 ≤ context
      ∨ context + sizeofContext true ≤ framePtrOf true m.stkalign sp)
    : (loadExtendedContext context enforceInterrupts).Ensures m fun resumption m' =>
      m'.stkalign = m.stkalign
        ∧ Unstacks true regs (framePtrOf true m.stkalign sp)
          (xpsr ||| (framePtrAlignOf true m.stkalign sp <<< 9) ||| (1 <<< 24)) resumption m' := by
  have hsp : readWord m.state.bytes (Register.sp.extendedAddr context) = sp := h.register .sp
  have hframe : sub32 sp 0x68 &&& not32 (1 <<< 2) = framePtrOf true m.stkalign sp := rfl
  have hpadding : sp >>> 2 &&& 1 = framePtrAlignOf true m.stkalign sp := rfl
  unfold loadExtendedContext
  refine .bind _ (readContextWord_value _ m) fun value m₁ h₁ => ?_
  rcases h₁ with ⟨rfl, hbytes₁, hstkalign₁⟩
  rw [hsp, hframe, hpadding]
  generalize framePtrOf true m.stkalign sp = frame at *
  generalize framePtrAlignOf true m.stkalign sp = align at *
  rw [← hbytes₁] at h
  refine .bind _ (stackRegisters_values frame 0 m₁ ?_) fun _ m₂ h₂ => ?_
  . intro addr haddr
    rcases List.mem_map.mp haddr with ⟨r, -, rfl⟩
    have hbounds : context ≤ r.extendedAddr context
        ∧ r.extendedAddr context + 4 ≤ context + sizeofContext true := r.extendedAddr_within context
    show _ ∨ frame + 4 * (0 + 7) ≤ _
    omega
  rcases h₂ with ⟨hwords, hsame₂, hstkalign₂⟩
  have hregisters : (stackedRegisters.map fun r => r.extendedAddr context).map (readWord m₁.state.bytes)
      = stackedRegisters.map regs.core := h.registers stackedRegisters_core
  rw [hregisters, Nat.mul_zero, Nat.add_zero] at hwords
  have h₂ : HoldsContext m₂.state.bytes context true regs sp xpsr :=
    h.outside hsame₂ (by show frame + 4 * (0 + 7) ≤ context ∨ _; omega)
  refine .bind _ (readContextWord_value _ m₂) fun value m₃ h₃ => ?_
  rcases h₃ with ⟨rfl, hbytes₃, hstkalign₃⟩
  have hxpsr : readWord m₂.state.bytes (Register.xpsr.extendedAddr context) = xpsr := h₂.register .xpsr
  rw [hxpsr]
  generalize xpsr ||| (align <<< 9) ||| (1 <<< 24) = psr at *
  refine .bind (fun _ m' => m'.state.bytes = writeWord m₃.state.bytes (frame + 4 * 7) psr
    ∧ m'.stkalign = m₃.stkalign) ⟨rfl, rfl⟩ fun _ m₄ h₄ => ?_
  rcases h₄ with ⟨hbytes₄, hstkalign₄⟩
  rw [hbytes₃] at hbytes₄
  have hwords₄ : HoldsWords m₄.state.bytes frame (stackedRegisters.map regs.core ++ [psr]) := by
    rw [hbytes₄]
    exact HoldsWords.snoc hwords rfl hpsr
  have h₄ : HoldsContext m₄.state.bytes context true regs sp xpsr := by
    rw [hbytes₄]
    have hsame : SameWordsOutside frame (frame + 4 * 25) m₂.state.bytes
        (writeWord m₂.state.bytes (frame + 4 * 7) psr) :=
      fun addr haddr => readWord_writeWord_of_disjoint _ _ (by omega)
    exact h₂.outside hsame hdisjoint
  -- S0 to S15 and FPSCR
  refine .bind _ (stackRegisters_values frame 8 m₄ ?_) fun _ m₅ h₅ => ?_
  . intro addr haddr
    rcases List.mem_map.mp haddr with ⟨i, hi, rfl⟩
    have hbounds : context ≤ lowFpAddr context i ∧ lowFpAddr context i + 4 ≤ context + sizeofContext true :=
      lowFpAddr_within (List.mem_range.mp hi) context
    show _ ∨ frame + 4 * (8 + 17) ≤ _
    omega
  rcases h₅ with ⟨hlow, hsame₅, hstkalign₅⟩
  rw [h₄.lowFp] at hlow
  have hwords₅ := hwords₄.outside hsame₅ (.inl (Nat.le_refl _))
  have h₅ : HoldsContext m₅.state.bytes context true regs sp xpsr :=
    h₄.outside hsame₅ (by show frame + 4 * (8 + 17) ≤ context ∨ _; omega)
  refine .bind _ (setMaskingFor_bytes _ m₅) fun _ m₆ h₆ => ?_
  rcases h₆ with ⟨hbytes₆, hstkalign₆⟩
  refine .bind _ (loadRegisters_values _ m₆) fun highFpRegs m₇ h₇ => ?_
  rcases h₇ with ⟨rfl, hbytes₇, hstkalign₇⟩
  refine .bind _ (loadRegisters_values _ m₇) fun highRegs m₈ h₈ => ?_
  rcases h₈ with ⟨rfl, hbytes₈, hstkalign₈⟩
  have hhigh : ((List.range 16).map (highFpAddr context)).map (readWord m₆.state.bytes)
      = highFpWords true regs := by
    rw [hbytes₆]
    exact h₅.highFp
  have hsaved : (savedRegisters.map fun r => r.extendedAddr context).map (readWord m₇.state.bytes)
      = savedRegisters.map regs.core := by
    rw [hbytes₇, hbytes₆]
    exact h₅.registers savedRegisters_core
  have hbytes : m₈.state.bytes = m₅.state.bytes := by rw [hbytes₈, hbytes₇, hbytes₆]
  rw [hhigh, hsaved]
  refine .bind (fun _ m' => m'.state.bytes = m₈.state.bytes ∧ m'.stkalign = m₈.stkalign
    ∧ m'.fpRegs = (List.range 16).map (fun i => readWord m₈.state.bytes (frame + 4 * (8 + i)))
      ++ highFpWords true regs ++ [readWord m₈.state.bytes (frame + 4 * 24)]) ⟨rfl, rfl, rfl⟩ fun _ m₉ h₉ => ?_
  rcases h₉ with ⟨hbytes₉, hstkalign₉, hfpRegs₉⟩
  refine ⟨?_, ?_⟩
  . show m₉.stkalign = m.stkalign
    rw [hstkalign₉, hstkalign₈, hstkalign₇, hstkalign₆, hstkalign₅, hstkalign₄, hstkalign₃, hstkalign₂,
      hstkalign₁]
  . constructor
    . rfl
    . rfl
    . rfl
    . show HoldsWords m₉.state.bytes frame _
      rw [hbytes₉, hbytes]
      exact hwords₅
    . intro _
      have hword : ∀ i value, (lowFpWords true regs)[i]? = some value →
          readWord m₈.state.bytes (frame + 4 * (8 + i)) = value := by
        intro i value hvalue
        rw [hbytes, Nat.mul_add, ← Nat.add_assoc]
        exact hlow.word hvalue
      have hlow : (List.range 16).map (fun i => readWord m₈.state.bytes (frame + 4 * (8 + i)))
          = (List.range 16).map regs.fp := by
        apply List.map_congr_left
        intro i hi
        apply hword
        have hlt := List.mem_range.mp hi
        simp [lowFpWords, List.getElem?_append_left, hlt]
      show m₉.fpRegs = _
      rw [hfpRegs₉, hlow, hword 16 (regs.fp 32) rfl]
      rfl

end Loads

/-
Save and restore
-/

/--
The partition is resumed with the registers it was interrupted with. The bit of xPSR that is forced is the one that
says that the processor executes Thumb instructions.
-/
structure Restores (regs : RegisterFile) (extended : Bool) (resumption : Resumption) (m : Machine) : Prop where
  kind : resumption.extended = extended
  core : ∀ r, r ≠ .xpsr → resumption.popStack m r = regs.core r
  xpsr : resumption.popStack m .xpsr = regs.core .xpsr ||| 1 <<< 24
  fpRegs : extended = true → m.fpRegs = (List.range 33).map regs.fp

section Restores

variable {m m₁ m₂ : Machine} {regs : RegisterFile} {extended : Bool} {context saveAddr : Nat}
  {flagsOnWake : Word}

theorem Unstacks.restores {psr : Nat} {resumption : Resumption}
    (h : Unstacks extended regs (framePtrOf extended m.stkalign (regs.core .sp)) psr resumption m)
    (hpadding : psr >>> 9 &&& forceAlignOf extended m.stkalign = framePtrAlignOf extended m.stkalign (regs.core .sp))
    (hmasked : psr &&& xpsrMask = regs.core .xpsr ||| 1 <<< 24)
    (hsp : add32 (framePtrOf extended m.stkalign (regs.core .sp)) (frameSizeOf extended)
      ||| (framePtrAlignOf extended m.stkalign (regs.core .sp) <<< 2) = regs.core .sp)
    : Restores regs extended resumption m := by
  have hword : ∀ k value, (stackedRegisters.map regs.core ++ [psr])[k]? = some value →
      readWord m.state.bytes (resumption.psp + 4 * k) = value := by
    intro k value hvalue
    rw [h.psp]
    exact h.frame.word hvalue
  have hpsr : readWord m.state.bytes (resumption.psp + 0x1c) = psr := hword 7 psr rfl
  refine ⟨h.kind, fun r hr => ?_, ?_, h.fpRegs⟩
  . cases r with
    | sp =>
      unfold Resumption.popStack
      simp only
      rw [hpsr, h.kind, h.psp, hpadding]
      exact hsp
    | xpsr => exact absurd rfl hr
    | r0 => exact hword 0 _ rfl
    | r1 => exact hword 1 _ rfl
    | r2 => exact hword 2 _ rfl
    | r3 => exact hword 3 _ rfl
    | r12 => exact hword 4 _ rfl
    | lr => exact hword 5 _ rfl
    | pc => exact hword 6 _ rfl
    | _ =>
      unfold Resumption.popStack
      rw [h.highRegs]
      rfl
  . unfold Resumption.popStack
    rw [hpsr]
    exact hmasked

theorem saveOnException_context (hstkalign : m.stkalign < 2)
    (hroom : frameSizeOf extended + 4 + pushedSize extended ≤ regs.core .sp)
    : (saveOnException regs extended saveAddr flagsOnWake m).1
        = framePtrOf extended m.stkalign (regs.core .sp) - pushedSize extended := by
  have hspec : (saveOnException regs extended saveAddr flagsOnWake).Ensures m fun context _ =>
      context = framePtrOf extended m.stkalign (regs.core .sp) - pushedSize extended := by
    refine .bind _ (takeException_holds hstkalign hroom) fun context m₁ h₁ => ?_
    refine .bind (fun _ _ => True) trivial fun _ m₂ _ => ?_
    refine .bind (fun _ _ => True) trivial fun _ m₃ _ => ?_
    exact h₁.1
  exact hspec

/--
The area is next to the context on the stack.
-/
theorem saveOnException_holds (hstkalign : m.stkalign < 2)
    (hroom : frameSizeOf extended + 4 + pushedSize extended ≤ regs.core .sp)
    (hdisjoint : saveAddr + sizeofContext extended
        ≤ framePtrOf extended m.stkalign (regs.core .sp) - pushedSize extended
      ∨ framePtrOf extended m.stkalign (regs.core .sp) - pushedSize extended + sizeofContext extended ≤ saveAddr)
    : (saveOnException regs extended saveAddr flagsOnWake).Ensures m fun _ m' =>
      m'.stkalign = m.stkalign
        ∧ HoldsContext m'.state.bytes saveAddr extended regs (regs.core .sp)
          (stackedXpsr (framePtrAlignOf extended m.stkalign (regs.core .sp)) (regs.core .xpsr)) := by
  have hsize : frameSizeOf extended ≤ regs.core .sp := by omega
  rcases framePtrOf_add (regs.core_lt .sp) regs.aligned hsize hstkalign with ⟨-, -, -, halign⟩
  have hsp := sp_restored (regs.core_lt .sp) regs.aligned hsize hstkalign
  have hforce := forceAlignOf_cases extended hstkalign
  refine .bind _ (takeException_holds hstkalign hroom) fun context m₁ h₁ => ?_
  rcases h₁ with ⟨rfl, hstkalign₁, hholds₁⟩
  have hvalue : add32 (framePtrOf extended m.stkalign (regs.core .sp)) (frameSizeOf extended)
      ||| (((stackedXpsr (framePtrAlignOf extended m.stkalign (regs.core .sp)) (regs.core .xpsr) >>> 9)
        &&& forceAlignOf extended m₁.stkalign) <<< 2) = regs.core .sp := by
    rw [hstkalign₁, stackedXpsr_padding hforce halign]
    exact hsp
  refine .bind _ (resetInitialSp_holds hholds₁ hvalue (regs.core_lt .sp)) fun _ m₂ h₂ => ?_
  rcases h₂ with ⟨hstkalign₂, hholds₂⟩
  have hholds₃ := writeContext_holds flagsOnWake hholds₂ hdisjoint
  rcases hwrite : writeContext (framePtrOf extended m.stkalign (regs.core .sp) - pushedSize extended) saveAddr
    flagsOnWake m₂.state with ⟨_, saved⟩
  rw [hwrite] at hholds₃
  refine .step hwrite ?_
  exact ⟨hstkalign₂.trans hstkalign₁, hholds₃⟩

/--
A context that is saved on an exception, loaded later and unstacked gives all registers back. It is saved next to
the context on the stack, and left alone until it is loaded.
-/
theorem loadContext_restores (hstkalign : m.stkalign < 2)
    (hroom : frameSizeOf extended + 4 + pushedSize extended ≤ regs.core .sp)
    (hsaved : saveOnException regs extended saveAddr flagsOnWake m = (context, m₁))
    (hdisjoint : saveAddr + sizeofContext extended ≤ context ∨ context + sizeofContext extended ≤ saveAddr)
    (hstkalign₂ : m₂.stkalign = m₁.stkalign)
    (hkept : ∀ addr, saveAddr ≤ addr → addr < saveAddr + sizeofContext extended →
      m₂.state.bytes.get addr = m₁.state.bytes.get addr)
    (enforceInterrupts : Bool)
    : (loadContext saveAddr enforceInterrupts).Ensures m₂ (Restores regs extended) := by
  have hsize : frameSizeOf extended ≤ regs.core .sp := by omega
  rcases framePtrOf_add (regs.core_lt .sp) regs.aligned hsize hstkalign with ⟨hadd, hlt, -, halign⟩
  have hcontext : (saveOnException regs extended saveAddr flagsOnWake m).1 = _ :=
    saveOnException_context hstkalign hroom
  rw [hsaved] at hcontext
  have hcontext : context = framePtrOf extended m.stkalign (regs.core .sp) - pushedSize extended := hcontext
  have hholds : (saveOnException regs extended saveAddr flagsOnWake).Ensures m _ :=
    saveOnException_holds hstkalign hroom (hcontext ▸ hdisjoint)
  unfold Handler.Ensures at hholds
  rw [hsaved] at hholds
  have hstkalign₀ : m₂.stkalign = m.stkalign := hstkalign₂.trans hholds.1
  have h₂ := hholds.2.congr hkept
  rw [← hstkalign₀] at hstkalign hlt halign hadd h₂ hcontext
  have hsp := sp_restored (regs.core_lt .sp) regs.aligned hsize hstkalign
  have hforce := forceAlignOf_cases extended hstkalign
  have hpadding := loadedXpsr_padding hforce halign (regs.core .xpsr)
  have hmasked := loadedXpsr_masked regs.reserved hlt
  have hpsr : stackedXpsr (framePtrAlignOf extended m₂.stkalign (regs.core .sp)) (regs.core .xpsr)
      ||| (framePtrAlignOf extended m₂.stkalign (regs.core .sp) <<< 9) ||| (1 <<< 24) < wordSize := by
    apply Nat.or_lt_two_pow (n := 32)
    . apply Nat.or_lt_two_pow (n := 32) (stackedXpsr_lt hlt (regs.core_lt .xpsr))
      rw [Nat.shiftLeft_eq]
      omega
    . decide
  refine .bind _ (readContextWord_value _ m₂) fun isBasicFrame m₃ h₃ => ?_
  rcases h₃ with ⟨rfl, hbytes₃, hstkalign₃⟩
  have hkind : readWord m₂.state.bytes (isBasicFrameAddr saveAddr) = if extended then 0 else 1 :=
    h₂.isBasicFrame
  rw [hkind]
  rw [← hbytes₃] at h₂
  rw [← hstkalign₃] at hpadding hmasked hpsr hsp h₂ hcontext hadd
  have hrestores : ∀ resumption m', m'.stkalign = m₃.stkalign
      ∧ Unstacks extended regs (framePtrOf extended m₃.stkalign (regs.core .sp))
        (stackedXpsr (framePtrAlignOf extended m₃.stkalign (regs.core .sp)) (regs.core .xpsr)
          ||| (framePtrAlignOf extended m₃.stkalign (regs.core .sp) <<< 9) ||| (1 <<< 24)) resumption m' →
      Restores regs extended resumption m' := by
    rintro resumption m' ⟨hstkalign', hunstacks⟩
    rw [← hstkalign'] at hunstacks hpadding hmasked hsp
    exact hunstacks.restores hpadding hmasked hsp
  cases extended
  . refine .cond (fun _ => ?_) fun h => absurd (by decide) h
    refine (loadBasicContext_unstacks enforceInterrupts h₂ hpsr ?_).mono hrestores
    rw [show sizeofContext false = 76 from rfl] at *
    rw [show pushedSize false = 44 from rfl] at *
    omega
  . refine .cond (fun h => absurd rfl h) fun _ => ?_
    refine (loadExtendedContext_unstacks enforceInterrupts h₂ hpsr ?_).mono hrestores
    rw [show sizeofContext true = 208 from rfl] at *
    rw [show pushedSize true = 108 from rfl] at *
    omega

end Restores

/--
The child of `childRuns` is interrupted with an odd-aligned stack pointer, it has used the FPU.
-/
def oddStack : RegisterFile where
  core
    | .sp => 0x20002ffc
    | .xpsr => 0x61000000
    | r => 0x100 + r.index
  fp i := i % 256
  core_lt r := by cases r <;> decide
  fp_lt i := Nat.lt_trans (Nat.mod_lt i (by decide)) (by decide)
  aligned := by decide
  reserved := by decide

theorem loadContext_restores_childRuns
    : (loadContext 0x20002a00 true).Ensures
        (saveOnException oddStack true 0x20002a00 1 (childRuns 0x20002a00)).2 (Restores oddStack true) := by
  have hdisjoint : 0x20002a00 + sizeofContext true
      ≤ (saveOnException oddStack true 0x20002a00 1 (childRuns 0x20002a00)).1 := by decide +kernel
  have hstkalign : (childRuns 0x20002a00).stkalign < 2 := by decide
  have hroom : frameSizeOf true + 4 + pushedSize true ≤ oddStack.core .sp := by decide
  exact loadContext_restores hstkalign hroom (Prod.eta _).symm (.inl hdisjoint) rfl (fun _ _ _ => rfl) true
