import PipMpu.Switch.Delivery

/-!
This module contains which words of the target context are read when it is loaded: they lie in the block
that was checked, unless saving the caller turned a basic target context into an extended one.
-/

/-
The record of the accesses
-/

/--
The accesses that are recorded on the way from `m` to `m'` meet `ok`.
-/
def Records (ok : Access → Prop) (m m' : Machine) : Prop :=
  ∃ new, m'.accesses = new ++ m.accesses ∧ ∀ a ∈ new, ok a

namespace Records

variable {ok ok' : Access → Prop}

theorem of_eq {m m' : Machine} (h : m'.accesses = m.accesses) : Records ok m m' :=
  ⟨[], h, fun _ ha => nomatch ha⟩

theorem of_cons {m m' : Machine} {a : Access} (h : m'.accesses = a :: m.accesses) (ha : ok a) : Records ok m m' :=
  ⟨[a], h, fun _ ha' => List.mem_singleton.mp ha' ▸ ha⟩

instance : Std.Refl (Records ok) where
  refl _ := of_eq rfl

instance : IsTrans Machine (Records ok) where
  trans := by
    rintro m₁ m₂ m₃ ⟨new, heq, hnew⟩ ⟨new', heq', hnew'⟩
    refine ⟨new' ++ new, by rw [heq', heq, List.append_assoc], ?_⟩
    intro a ha
    rcases List.mem_append.mp ha with ha | ha
    . exact hnew' a ha
    . exact hnew a ha

theorem mem {m m' : Machine} (h : Records ok m m') {a : Access} (ha : a ∈ m.accesses) : a ∈ m'.accesses := by
  rcases h with ⟨new, heq, -⟩
  rw [heq]
  exact List.mem_append_right new ha

theorem mono {m m' : Machine} (h : Records ok m m') (hok : ∀ a, ok a → ok' a) : Records ok' m m' := by
  rcases h with ⟨new, heq, hnew⟩
  exact ⟨new, heq, fun a ha => hok a (hnew a ha)⟩

end Records

/--
The accesses to contexts that are recorded on the way from `m` to `m'` stay between `lo` and `hi`.
-/
abbrev ReadsWithin (lo hi : Nat) : Machine → Machine → Prop :=
  Records fun a => a.kind = .contextRead → lo ≤ a.addr ∧ a.addr + 4 ≤ hi

theorem ReadsWithin.widen {lo hi lo' hi' : Nat} {m m' : Machine} (h : ReadsWithin lo hi m m') (hlo : lo' ≤ lo)
    (hhi : hi ≤ hi') : ReadsWithin lo' hi' m m' := by
  refine h.mono fun a hwithin hkind => ?_
  rcases hwithin hkind with ⟨hle, hlt⟩
  exact ⟨Nat.le_trans hlo hle, Nat.le_trans hlt hhi⟩

section Loads

variable {lo hi : Nat}

theorem lift_reads {α : Type} (op : LLI α) : Keeps (ReadsWithin lo hi) (Handler.lift op) := by
  intro m
  exact .of_eq rfl

theorem readContextWord_reads {addr : Nat} (hlo : lo ≤ addr) (hhi : addr + 4 ≤ hi)
    : Keeps (ReadsWithin lo hi) (readContextWord addr) := by
  intro m
  exact .of_cons rfl fun _ => ⟨hlo, hhi⟩

theorem stackRegisters_reads (frame i : Nat) {addrs : List Nat}
    (h : ∀ addr ∈ addrs, lo ≤ addr ∧ addr + 4 ≤ hi)
    : Keeps (ReadsWithin lo hi) (stackRegisters frame i addrs) := by
  induction addrs generalizing i with
  | nil => exact Handler.keeps_pure ()
  | cons addr addrs ih =>
    rcases h addr (List.mem_cons_self ..) with ⟨hlo, hhi⟩
    apply Handler.keeps_bind (readContextWord_reads hlo hhi)
    intro value
    apply Handler.keeps_bind (lift_reads _)
    intro _
    exact ih (i + 1) fun addr haddr => h addr (List.mem_cons_of_mem _ haddr)

theorem loadRegisters_reads {addrs : List Nat} (h : ∀ addr ∈ addrs, lo ≤ addr ∧ addr + 4 ≤ hi)
    : Keeps (ReadsWithin lo hi) (loadRegisters addrs) := by
  induction addrs with
  | nil => exact Handler.keeps_pure []
  | cons addr addrs ih =>
    rcases h addr (List.mem_cons_self ..) with ⟨hlo, hhi⟩
    apply Handler.keeps_bind (readContextWord_reads hlo hhi)
    intro value
    apply Handler.keeps_bind (ih fun addr haddr => h addr (List.mem_cons_of_mem _ haddr))
    intro values
    exact Handler.keeps_pure _

theorem setMaskingFor_reads (enforceInterrupts : Bool)
    : Keeps (ReadsWithin lo hi) (setMaskingFor enforceInterrupts) := by
  intro m
  cases enforceInterrupts <;> exact .of_eq rfl

theorem clearFpuRegsIfUsed_reads : Keeps (ReadsWithin lo hi) clearFpuRegsIfUsed := by
  intro m
  unfold clearFpuRegsIfUsed
  rw [Handler.modify_run]
  split <;> exact .of_eq rfl

/--
The words of a frame with `n` registers lie in the context.
-/
theorem frame_within {context i n : Nat} (h : i < n)
    : context ≤ frameAddr context + 4 * i ∧ frameAddr context + 4 * i + 4 ≤ context + (8 + 4 * n) := by
  unfold frameAddr
  omega

theorem Register.index_lt (r : Register) : r.index < basicFrameSize := by
  cases r <;> decide

theorem Register.basicAddr_within (r : Register) (context : Nat)
    : context ≤ r.basicAddr context ∧ r.basicAddr context + 4 ≤ context + sizeofBasicContext :=
  frame_within r.index_lt

theorem Register.extendedAddr_within (r : Register) (context : Nat)
    : context ≤ r.extendedAddr context
        ∧ r.extendedAddr context + 4 ≤ context + sizeofExtendedContext := by
  have hlt : 16 + r.index < extendedFrameSize := by
    have := r.index_lt
    unfold basicFrameSize at this
    unfold extendedFrameSize
    omega
  exact frame_within hlt

theorem lowFpAddr_within {i : Nat} (h : i < 17) (context : Nat)
    : context ≤ lowFpAddr context i ∧ lowFpAddr context i + 4 ≤ context + sizeofExtendedContext := by
  have hlt : 33 + i < extendedFrameSize := by
    unfold extendedFrameSize
    omega
  exact frame_within hlt

theorem highFpAddr_within {i : Nat} (h : i < 16) (context : Nat)
    : context ≤ highFpAddr context i ∧ highFpAddr context i + 4 ≤ context + sizeofExtendedContext := by
  have hlt : i < extendedFrameSize := by
    unfold extendedFrameSize
    omega
  exact frame_within hlt

theorem loadBasicContext_reads (context : Nat) (enforceInterrupts : Bool)
    : Keeps (ReadsWithin context (context + sizeofBasicContext))
        (loadBasicContext context enforceInterrupts) := by
  have hregister := fun r : Register => r.basicAddr_within context
  have hregisters : ∀ registers : List Register, ∀ addr ∈ registers.map fun r => r.basicAddr context,
      context ≤ addr ∧ addr + 4 ≤ context + sizeofBasicContext := by
    intro registers addr haddr
    rcases List.mem_map.mp haddr with ⟨r, -, rfl⟩
    exact hregister r
  apply Handler.keeps_bind (R := ReadsWithin context (context + sizeofBasicContext)) Handler.keeps_get
  intro m
  apply Handler.keeps_bind (readContextWord_reads (hregister .sp).1 (hregister .sp).2)
  intro sp
  apply Handler.keeps_bind (stackRegisters_reads _ _ (hregisters _))
  intro _
  apply Handler.keeps_bind (readContextWord_reads (hregister .xpsr).1 (hregister .xpsr).2)
  intro xpsr
  apply Handler.keeps_bind (lift_reads _)
  intro _
  apply Handler.keeps_bind (setMaskingFor_reads _)
  intro _
  apply Handler.keeps_bind clearFpuRegsIfUsed_reads
  intro _
  apply Handler.keeps_bind (loadRegisters_reads (hregisters _))
  intro highRegs
  apply Handler.keeps_bind (lift_reads _)
  intro partition
  exact Handler.keeps_pure _

theorem loadExtendedContext_reads (context : Nat) (enforceInterrupts : Bool)
    : Keeps (ReadsWithin context (context + sizeofExtendedContext))
        (loadExtendedContext context enforceInterrupts) := by
  have hregister := fun r : Register => r.extendedAddr_within context
  have hregisters : ∀ registers : List Register,
      ∀ addr ∈ registers.map fun r => r.extendedAddr context,
      context ≤ addr ∧ addr + 4 ≤ context + sizeofExtendedContext := by
    intro registers addr haddr
    rcases List.mem_map.mp haddr with ⟨r, -, rfl⟩
    exact hregister r
  apply Handler.keeps_bind (readContextWord_reads (hregister .sp).1 (hregister .sp).2)
  intro sp
  apply Handler.keeps_bind (stackRegisters_reads _ _ (hregisters _))
  intro _
  apply Handler.keeps_bind (readContextWord_reads (hregister .xpsr).1 (hregister .xpsr).2)
  intro xpsr
  apply Handler.keeps_bind (lift_reads _)
  intro _
  apply Handler.keeps_bind
  . apply stackRegisters_reads
    intro addr haddr
    rcases List.mem_map.mp haddr with ⟨i, hi, rfl⟩
    exact lowFpAddr_within (List.mem_range.mp hi) context
  intro _
  apply Handler.keeps_bind (setMaskingFor_reads _)
  intro _
  apply Handler.keeps_bind
  . apply loadRegisters_reads
    intro addr haddr
    rcases List.mem_map.mp haddr with ⟨i, hi, rfl⟩
    exact highFpAddr_within (List.mem_range.mp hi) context
  intro highFpRegs
  apply Handler.keeps_bind (loadRegisters_reads (hregisters _))
  intro highRegs m
  exact .of_eq rfl

/--
Reading registers records each of them.
-/
theorem stackRegisters_records (frame i : Nat) {addrs : List Nat}
    (h : ∀ addr ∈ addrs, lo ≤ addr ∧ addr + 4 ≤ hi) (m : Machine)
    : (stackRegisters frame i addrs).Ensures m fun _ m' =>
        ∀ addr ∈ addrs, ∃ a ∈ m'.accesses, a.kind = .contextRead ∧ a.addr = addr := by
  induction addrs generalizing i m with
  | nil => exact fun _ haddr => nomatch haddr
  | cons addr addrs ih =>
    refine .bind (fun _ m' => ∃ a ∈ m'.accesses, a.kind = .contextRead ∧ a.addr = addr) ?_
      fun value m₁ h₁ => ?_
    . exact ⟨_, List.mem_cons_self .., rfl, rfl⟩
    refine .bind (fun _ m' => ∃ a ∈ m'.accesses, a.kind = .contextRead ∧ a.addr = addr) h₁
      fun _ m₂ h₂ => ?_
    have h := fun addr haddr => h addr (List.mem_cons_of_mem _ haddr)
    have hkeeps := stackRegisters_reads frame (i + 1) h m₂
    have hrest := ih (i + 1) h m₂
    intro addr' haddr'
    rcases List.mem_cons.mp haddr' with rfl | haddr'
    . rcases h₂ with ⟨a, ha, hread⟩
      exact ⟨a, hkeeps.mem ha, hread⟩
    . exact hrest addr' haddr'

/--
The last word of an extended context is read.
-/
theorem loadExtendedContext_records (context : Nat) (enforceInterrupts : Bool) (m : Machine)
    : (loadExtendedContext context enforceInterrupts).Ensures m fun _ m' =>
        ∃ a ∈ m'.accesses, a.kind = .contextRead ∧ a.addr + 4 = context + sizeofExtendedContext := by
  refine .bind (fun _ _ => True) trivial fun sp m₁ _ => ?_
  refine .bind (fun _ _ => True) trivial fun _ m₂ _ => ?_
  refine .bind (fun _ _ => True) trivial fun xpsr m₃ _ => ?_
  refine .bind (fun _ _ => True) trivial fun _ m₄ _ => ?_
  have hlast : lowFpAddr context 16 ∈ (List.range 17).map (lowFpAddr context) :=
    List.mem_map_of_mem (List.mem_range.mpr (by decide))
  have haddr : lowFpAddr context 16 + 4 = context + sizeofExtendedContext := by
    show context + 8 + 4 * 49 + 4 = context + (8 + 4 * 50)
    omega
  let P : Machine → Prop := fun m' =>
    ∃ a ∈ m'.accesses, a.kind = .contextRead ∧ a.addr + 4 = context + sizeofExtendedContext
  have hP : ∀ {m m' : Machine}, P m → ReadsWithin context (context + sizeofExtendedContext) m m' →
      P m' := by
    rintro m m' ⟨a, ha, hread⟩ hkeeps
    exact ⟨a, hkeeps.mem ha, hread⟩
  refine .bind (fun _ => P) ?_ fun _ m₅ h₅ => ?_
  . have hlow : ∀ addr ∈ (List.range 17).map (lowFpAddr context),
        context ≤ addr ∧ addr + 4 ≤ context + sizeofExtendedContext := by
      intro addr haddr
      rcases List.mem_map.mp haddr with ⟨i, hi, rfl⟩
      exact lowFpAddr_within (List.mem_range.mp hi) context
    rcases stackRegisters_records _ 8 hlow m₄ _ hlast with ⟨a, ha, hkind, heq⟩
    exact ⟨a, ha, hkind, by rw [heq]; exact haddr⟩
  refine .bind (fun _ => P) (hP h₅ (setMaskingFor_reads _ _)) fun _ m₆ h₆ => ?_
  refine .bind (fun _ => P) (hP h₆ (loadRegisters_reads ?_ _)) fun highFpRegs m₇ h₇ => ?_
  . intro addr haddr
    rcases List.mem_map.mp haddr with ⟨i, hi, rfl⟩
    exact highFpAddr_within (List.mem_range.mp hi) context
  refine .bind (fun _ => P) (hP h₇ (loadRegisters_reads ?_ _)) fun highRegs m₈ h₈ => ?_
  . intro addr haddr
    rcases List.mem_map.mp haddr with ⟨r, -, rfl⟩
    exact r.extendedAddr_within context
  exact h₈

end Loads

/-
The switch reads a basic context unless its first word is zero when it is loaded.
-/

section Switches

variable {m : Machine} {callee context : Nat} {flagsOnYield : Word}

theorem basic_le_extended (context : Nat)
    : context + sizeofBasicContext ≤ context + sizeofExtendedContext :=
  Nat.add_le_add_left (by decide) _

theorem loadContext_reads (context : Nat) (enforceInterrupts : Bool) (m : Machine)
    : (loadContext context enforceInterrupts).Ensures m fun _ m' =>
      (readWord m.state.bytes context ≠ 0 →
        ReadsWithin context (context + sizeofBasicContext) m m')
      ∧ (readWord m.state.bytes context = 0 →
        ReadsWithin context (context + sizeofExtendedContext) m m'
          ∧ ∃ a ∈ m'.accesses, a.kind = .contextRead ∧ a.addr + 4 = context + sizeofExtendedContext) := by
  have hword : context + 4 ≤ context + sizeofBasicContext := Nat.add_le_add_left (by decide) _
  refine .bind (fun value m' => value = readWord m.state.bytes context
    ∧ ReadsWithin context (context + sizeofBasicContext) m m') ⟨rfl, ?_⟩ fun value m₁ h₁ => ?_
  . exact readContextWord_reads (Nat.le_refl _) hword m
  rcases h₁ with ⟨rfl, h₁⟩
  refine .cond (fun hbasic => ?_) fun hextended => ?_
  . refine ⟨fun _ => ?_, fun hzero => absurd hzero hbasic⟩
    exact IsTrans.trans _ _ _ h₁ (loadBasicContext_reads _ _ m₁)
  . refine ⟨fun hbasic => absurd hbasic hextended, fun _ => ⟨?_, ?_⟩⟩
    . have h₁ := h₁.widen (Nat.le_refl _) (basic_le_extended context)
      exact IsTrans.trans _ _ _ h₁ (loadExtendedContext_reads _ _ m₁)
    . exact loadExtendedContext_records _ _ m₁

theorem switchContextCont_reads
    : (switchContextCont callee flagsOnYield context).Ensures m fun _ m' =>
      (readWord m.state.bytes context ≠ 0 →
        ReadsWithin context (context + sizeofBasicContext) m m')
      ∧ (readWord m.state.bytes context = 0 →
        ReadsWithin context (context + sizeofExtendedContext) m m'
          ∧ ∃ a ∈ m'.accesses, a.kind = .contextRead ∧ a.addr + 4 = context + sizeofExtendedContext) := by
  have hflags : context ≤ pipflagsAddr context
      ∧ pipflagsAddr context + 4 ≤ context + sizeofBasicContext := by
    show context ≤ context + 4 ∧ context + 4 + 4 ≤ context + (8 + 4 * 17)
    omega
  let P : Machine → Prop := fun m' => m'.state.bytes = m.state.bytes
    ∧ ReadsWithin context (context + sizeofBasicContext) m m'
  have hread : ∀ m₁, P m₁ → P (readContextWord (pipflagsAddr context) m₁).2 := by
    intro m₁ h₁
    exact ⟨h₁.1, IsTrans.trans _ _ _ h₁.2 (readContextWord_reads hflags.1 hflags.2 m₁)⟩
  refine .bind (fun _ => P) ⟨rfl, .of_eq rfl⟩ fun _ m₁ h₁ => ?_
  refine .bind (fun _ => P) ⟨h₁.1, h₁.2⟩ fun _ m₂ h₂ => ?_
  refine .bind (fun _ => P) (hread m₂ h₂) fun pipflags m₃ h₃ => ?_
  refine .bind (fun _ => P) ⟨h₃.1, h₃.2⟩ fun _ m₄ h₄ => ?_
  refine .bind (fun _ => P) ⟨h₄.1, h₄.2⟩ fun rootPart m₅ h₅ => ?_
  refine .bind (fun _ => P) (hread m₅ h₅) fun pipflags m₆ h₆ => ?_
  refine .bind _ (loadContext_reads context _ m₆) fun resumption m₇ h₇ => ?_
  rw [h₆.1] at h₇
  constructor
  . intro hbasic
    exact IsTrans.trans _ _ _ h₆.2 (h₇.1 hbasic)
  . intro hextended
    have h₆ := h₆.2.widen (Nat.le_refl _) (basic_le_extended context)
    exact ⟨IsTrans.trans _ _ _ h₆ (h₇.2 hextended).1, (h₇.2 hextended).2⟩

end Switches

/-
Saving the caller
-/

section Saves

variable {s : State} {srcContext dstContext context saveAddr target : Nat}

theorem copyFrame_succ (srcContext dstContext i : Nat) (s : State)
    : (copyFrame srcContext dstContext (i + 1) s).2.bytes
        =
      writeWord (copyFrame srcContext dstContext i s).2.bytes (frameAddr dstContext + 4 * i)
        (readWord (copyFrame srcContext dstContext i s).2.bytes (frameAddr srcContext + 4 * i)) := by
  rfl

/--
A register is copied from where its source is at that moment.
-/
theorem copyFrame_self {i n : Nat} (h : i < n)
    : readWord (copyFrame srcContext dstContext n s).2.bytes (frameAddr dstContext + 4 * i)
        =
      readWord (copyFrame srcContext dstContext i s).2.bytes (frameAddr srcContext + 4 * i) := by
  induction n with
  | zero => exact absurd h (Nat.not_lt_zero i)
  | succ n ih =>
    rw [copyFrame_succ]
    by_cases hi : i = n
    . subst hi
      rw [readWord_writeWord_self]
      exact Nat.mod_eq_of_lt (readWord_lt _ _)
    . rw [readWord_writeWord_of_disjoint, ih (by omega)]
      omega

theorem copyFrame_other {a n : Nat}
    (h : ∀ i < n, a + 4 ≤ frameAddr dstContext + 4 * i ∨ frameAddr dstContext + 4 * i + 4 ≤ a)
    : readWord (copyFrame srcContext dstContext n s).2.bytes a = readWord s.bytes a := by
  induction n with
  | zero => rfl
  | succ n ih =>
    rw [copyFrame_succ, readWord_writeWord_of_disjoint _ _ (h n (Nat.lt_succ_self n))]
    exact ih fun i hi => h i (Nat.lt_succ_of_lt hi)

/--
The number of registers that are saved for the interrupted context.
-/
def savedRegistersNb (s : State) (context : Nat) : Nat :=
  if readWord s.bytes context ≠ 0 then basicFrameSize else extendedFrameSize

/--
The words that are saved for the interrupted context: what kind of frame it has, the flags, and the
registers.
-/
def savedWord (s : State) (context saveAddr flagsOnWake : Nat) : Nat → Nat
  | 0 => if readWord s.bytes context ≠ 0 then 1 else 0
  | 1 => flagsOnWake % wordSize
  | i + 2 => readWord (copyFrame context saveAddr i s).2.bytes (frameAddr context + 4 * i)

theorem writeContext_run (context saveAddr flagsOnWake : Nat) (s : State)
    : (writeContext context saveAddr flagsOnWake s).2.bytes
        =
      writeWord (writeWord (copyFrame context saveAddr (savedRegistersNb s context) s).2.bytes saveAddr
        (savedWord s context saveAddr flagsOnWake 0)) (pipflagsAddr saveAddr) flagsOnWake := by
  unfold writeContext savedRegistersNb savedWord
  rw [LLI.bind_run, LLI.ite_run]
  by_cases h : readWord s.bytes context ≠ 0
  . have h' : (readMemory (isBasicFrameAddr context) s).1 ≠ 0 := h
    rw [if_pos h, if_pos h, if_pos h']
    rfl
  . have h' : ¬(readMemory (isBasicFrameAddr context) s).1 ≠ 0 := h
    rw [if_neg h, if_neg h, if_neg h']
    rfl

theorem writeContext_self {flagsOnWake k : Nat} (hk : k < 2 + savedRegistersNb s context)
    : readWord (writeContext context saveAddr flagsOnWake s).2.bytes (saveAddr + 4 * k)
        =
      savedWord s context saveAddr flagsOnWake k := by
  rw [writeContext_run]
  unfold pipflagsAddr
  match k with
  | 0 =>
    rw [readWord_writeWord_of_disjoint _ _ (by omega), Nat.mul_zero, Nat.add_zero,
      readWord_writeWord_self]
    apply Nat.mod_eq_of_lt
    show (if readWord s.bytes context ≠ 0 then 1 else 0) < wordSize
    split <;> decide
  | 1 =>
    rw [Nat.mul_one, readWord_writeWord_self]
    rfl
  | i + 2 =>
    rw [readWord_writeWord_of_disjoint _ _ (by omega), readWord_writeWord_of_disjoint _ _ (by omega)]
    have haddr : saveAddr + 4 * (i + 2) = frameAddr saveAddr + 4 * i := by
      unfold frameAddr
      omega
    rw [haddr, copyFrame_self (by omega)]
    rfl

theorem writeContext_other {flagsOnWake a : Nat}
    (h : ∀ k < 2 + savedRegistersNb s context, a + 4 ≤ saveAddr + 4 * k ∨ saveAddr + 4 * k + 4 ≤ a)
    : readWord (writeContext context saveAddr flagsOnWake s).2.bytes a = readWord s.bytes a := by
  rw [writeContext_run]
  unfold pipflagsAddr
  have h₀ := h 0 (by omega)
  have h₁ := h 1 (by omega)
  rw [readWord_writeWord_of_disjoint _ _ (by omega), readWord_writeWord_of_disjoint _ _ (by omega)]
  apply copyFrame_other
  intro i hi
  have := h (i + 2) (by omega)
  unfold frameAddr
  omega

/--
The save puts a zero where the target context starts.
-/
def SaveZeroes (s : State) (context saveAddr flagsOnWake target : Nat) : Prop :=
  ∃ k < 2 + savedRegistersNb s context,
    target = saveAddr + 4 * k ∧ savedWord s context saveAddr flagsOnWake k = 0

/--
As long as the save does not overlap the interrupted context, its registers are saved as they are.
-/
theorem savedWord_of_disjoint {flagsOnWake i : Nat}
    (h : ∀ j < i, frameAddr context + 4 * i + 4 ≤ frameAddr saveAddr + 4 * j
      ∨ frameAddr saveAddr + 4 * j + 4 ≤ frameAddr context + 4 * i)
    : savedWord s context saveAddr flagsOnWake (i + 2) = readWord s.bytes (frameAddr context + 4 * i) :=
  copyFrame_other h

theorem aligned_mod {addr : Nat} (h : isMisaligned addr = false) : addr % 4 = 0 := by
  unfold isMisaligned at h
  have hand : addr &&& 3 = addr % 4 := Nat.and_two_pow_sub_one_eq_mod addr 2
  rw [hand] at h
  simpa using h

theorem saveZeroes_iff (context flagsOnWake : Nat) (htarget : isMisaligned target = false)
    (hsave : isMisaligned saveAddr = false) (hbasic : readWord s.bytes target ≠ 0)
    : readWord (writeContext context saveAddr flagsOnWake s).2.bytes target = 0
        ↔ SaveZeroes s context saveAddr flagsOnWake target := by
  have htarget := aligned_mod htarget
  have hsave := aligned_mod hsave
  by_cases hk : ∃ k < 2 + savedRegistersNb s context, target = saveAddr + 4 * k
  . rcases hk with ⟨k, hk, rfl⟩
    rw [writeContext_self hk]
    constructor
    . exact fun hzero => ⟨k, hk, rfl, hzero⟩
    . rintro ⟨k', -, heq, hzero⟩
      have : k' = k := by omega
      exact this ▸ hzero
  . have hother : ∀ k < 2 + savedRegistersNb s context,
        target + 4 ≤ saveAddr + 4 * k ∨ saveAddr + 4 * k + 4 ≤ target := by
      intro k hlt
      have : target ≠ saveAddr + 4 * k := fun heq => hk ⟨k, hlt, heq⟩
      omega
    rw [writeContext_other hother]
    apply iff_of_false hbasic
    rintro ⟨k, hlt, heq, -⟩
    exact hk ⟨k, hlt, heq⟩

end Saves

/-
The reads on the way to the target context
-/

/--
The context fits its block as the kind its first word says.
-/
theorem contextFits_iff {addr endAddr isBasicFrame : Nat} (hle : addr ≤ endAddr)
    (hend : endAddr < wordSize)
    : contextFits addr endAddr isBasicFrame = true
        ↔ (isBasicFrame = 1 ∧ addr + sizeofBasicContext ≤ endAddr)
          ∨ (isBasicFrame = 0 ∧ addr + sizeofExtendedContext ≤ endAddr) := by
  have hsub : sub32 endAddr addr = endAddr - addr := by
    unfold sub32
    rw [wordSize_eq] at *
    omega
  unfold contextFits isNotEnoughSpace
  rw [hsub]
  by_cases hbasic : isBasicFrame = 1
  . subst hbasic
    simp only [if_true, Bool.not_eq_true', decide_eq_false_iff_not, true_and, Nat.one_ne_zero,
      false_and, or_false]
    omega
  . by_cases hextended : isBasicFrame = 0
    . subst hextended
      simp only [Nat.zero_ne_one, if_false, if_true, Bool.not_eq_true', decide_eq_false_iff_not,
        true_and, false_and, false_or]
      omega
    . simp only [hbasic, hextended, if_false, false_and, or_false, Bool.false_eq_true]

namespace State

variable {s : State} {pd context addr : Nat}

/--
The word at `addr` lies in the block that was found present, accessible, and readable for the context,
between the address of the context and the end of the block.
-/
structure InContextBlock (s : State) (pd context addr : Nat) : Prop extends s.Opens pd context where
  read : (s.blockOf pd context).read = true
  start : (s.blockOf pd context).startAddr ≤ addr
  after : context ≤ addr
  before : addr + 4 ≤ (s.blockOf pd context).endAddr + 1

theorem Opens.bounds (h : s.Opens pd context)
    : (s.blockOf pd context).startAddr ≤ context ∧ context < (s.blockOf pd context).endAddr := by
  have hfound := findBelongingBlock_found h.found
  exact ⟨hfound.2.1, hfound.2.2⟩

theorem ContextFits.inContextBlock (h : s.ContextFits pd context) (hafter : context ≤ addr)
    (hbefore : addr + 4 ≤ (s.blockOf pd context).endAddr + 1) : s.InContextBlock pd context addr :=
  { h.toOpens with
      read := h.read
      start := Nat.le_trans h.toOpens.bounds.1 hafter
      after := hafter
      before := hbefore }

end State

section Confined

variable {m : Machine} {callee caller vidtAddr saveAddr context : Paddr} {interrupt : Nat}
  {flagsOnYield flagsOnWake : Word}

/--
The target context is checked as a basic one, with too little space behind it for an extended one, and
saving the caller puts a zero where it starts.
-/
structure State.Overruns (s : State) (callee caller target saveAddr flagsOnWake context : Nat)
    : Prop where
  passes : s.ContextPasses callee target
  basic : readWord s.bytes target = 1
  short : (s.blockOf callee target).endAddr + 1 < target + sizeofExtendedContext
  save_ne : saveAddr ≠ nullAddr
  saved : (checkCallerContext caller saveAddr context s).1 = none
  zeroes : SaveZeroes s context saveAddr flagsOnWake target

/--
What is known of the reads depends on the first word of the target context when it is loaded.
-/
def LoadReads (basic : Prop) (target : Nat) (m m' : Machine) : Prop :=
  (basic → ReadsWithin target (target + sizeofBasicContext) m m')
    ∧ (¬basic → ReadsWithin target (target + sizeofExtendedContext) m m'
      ∧ ∃ a ∈ m'.accesses, a.kind = .contextRead ∧ a.addr + 4 = target + sizeofExtendedContext)

theorem switchContextCont_loadReads {target : Nat} {m₀ : Machine} (h : ReadsWithin target target m₀ m)
    : (switchContextCont callee flagsOnYield target).Ensures m fun _ m' =>
        LoadReads (readWord m.state.bytes target ≠ 0) target m₀ m' := by
  have htrans : ∀ {size : Nat} {m' : Machine}, ReadsWithin target (target + size) m m' →
      ReadsWithin target (target + size) m₀ m' := by
    intro size m' hwithin
    exact IsTrans.trans _ _ _ (h.widen (Nat.le_refl _) (Nat.le_add_right _ _)) hwithin
  refine switchContextCont_reads.mono ?_
  intro outcome m' hreads
  constructor
  . intro hbasic
    exact htrans (hreads.1 hbasic)
  . intro hextended
    have hextended := hreads.2 (Decidable.not_not.mp hextended)
    exact ⟨htrans hextended.1, hextended.2⟩

theorem saveSourcePartCtxCont_fails {target : Paddr} {code : YieldReturnCode}
    {post : YieldOutcome → Machine → Prop}
    (hcheck : checkCallerContext caller saveAddr context m.state = (some code, m.state))
    (hpost : post (.returned code) m)
    : (saveSourcePartCtxCont callee caller saveAddr flagsOnYield flagsOnWake context
        target).Ensures m post := by
  unfold saveSourcePartCtxCont
  refine .read hcheck ?_
  show Handler.Ensures (pure _) m post
  exact .pure hpost

theorem saveSourcePartCtxCont_saves {target : Paddr} {saved : State}
    {post : YieldOutcome → Machine → Prop}
    (hcheck : checkCallerContext caller saveAddr context m.state = (none, m.state))
    (hsaved : writeContext context saveAddr flagsOnWake m.state = ((), saved))
    (hpost : ∀ m₁, m₁.accesses = m.accesses → m₁.state = saved →
      (switchContextCont callee flagsOnYield target).Ensures m₁ post)
    : (saveSourcePartCtxCont callee caller saveAddr flagsOnYield flagsOnWake context
        target).Ensures m post := by
  unfold saveSourcePartCtxCont
  refine .read hcheck ?_
  refine .step hsaved ?_
  exact hpost _ rfl rfl

/--
The first steps of `getTargetPartCtxCont`, up to the checks.
-/
theorem getTargetPartCtxCont_checks {target : Nat} {error : Option YieldReturnCode}
    {post : YieldOutcome → Machine → Prop}
    (htarget : target = readWord m.state.bytes (vidtContextAddr vidtAddr interrupt))
    (hcheck : checkCalleeContext callee target m.state = (error, m.state))
    (hpost : ∀ m₁, m₁.state = m.state → ReadsWithin target target m m₁ →
      match error with
      | some code => post (.returned code) m₁
      | none =>
        if saveAddr = nullAddr then
          (switchContextCont callee flagsOnYield target).Ensures m₁ post
        else
          (saveSourcePartCtxCont callee caller saveAddr flagsOnYield flagsOnWake context
            target).Ensures m₁ post)
    : (getTargetPartCtxCont callee caller vidtAddr saveAddr interrupt flagsOnYield flagsOnWake
        context).Ensures m post := by
  have hread : Handler.Ensures (readVidtContext callee vidtAddr interrupt) m fun a m' =>
      a = target ∧ m'.state = m.state ∧ ReadsWithin target target m m' := by
    exact ⟨htarget.symm, rfl, .of_cons rfl fun hkind => nomatch hkind⟩
  unfold getTargetPartCtxCont
  refine .bind _ hread fun a m₁ h₁ => ?_
  rcases h₁ with ⟨rfl, hstate₁, hlog₁⟩
  rw [← hstate₁] at hcheck
  refine .read hcheck ?_
  cases error with
  | some code =>
    show Handler.Ensures (pure _) m₁ post
    exact .pure (hpost m₁ hstate₁ hlog₁)
  | none =>
    have hlookup : ReadsWithin a a m₁ (readFrameType caller context m₁).2 :=
      .of_cons rfl fun hkind => nomatch hkind
    refine .bind (fun _ m' => m'.state = m.state ∧ ReadsWithin a a m m') ⟨hstate₁, IsTrans.trans _ _ _ hlog₁ hlookup⟩
      fun isBasicFrame m₂ h₂ => ?_
    refine .bind (fun _ m' => m'.state = m.state ∧ ReadsWithin a a m m') ?_ fun _ m₃ h₃ => ?_
    . rw [Handler.Ensures, Handler.modify_run]
      exact ⟨h₂.1, IsTrans.trans _ _ _ h₂.2 (.of_eq rfl)⟩
    have hpost := hpost m₃ h₃.1 h₃.2
    refine .read rfl ?_
    by_cases hsave : saveAddr = nullAddr
    . rw [if_pos hsave] at hpost
      exact .cond (fun h => absurd hsave (saves_iff.mp h)) fun _ => hpost
    . rw [if_neg hsave] at hpost
      exact .cond (fun _ => hpost) fun h => absurd (saves_iff.mpr hsave) h

/--
What is read of the target context: nothing if a check fails, and else what is in a basic context unless
its first word is zero after the caller was saved.
-/
theorem getTargetPartCtxCont_reads {target : Nat} {saved : State}
    (htarget : target = readWord m.state.bytes (vidtContextAddr vidtAddr interrupt))
    (hsaved : writeContext context saveAddr flagsOnWake m.state = ((), saved))
    : (getTargetPartCtxCont callee caller vidtAddr saveAddr interrupt flagsOnYield flagsOnWake
        context).Ensures m fun _ m' =>
      (ReadsWithin target target m m'
        ∧ (m.state.ContextPasses callee target → saveAddr ≠ nullAddr
          ∧ (checkCallerContext caller saveAddr context m.state).1 ≠ none))
      ∨ (m.state.ContextPasses callee target
        ∧ ((saveAddr = nullAddr ∧ LoadReads (readWord m.state.bytes target ≠ 0) target m m')
          ∨ (saveAddr ≠ nullAddr ∧ (checkCallerContext caller saveAddr context m.state).1 = none
            ∧ LoadReads (readWord saved.bytes target ≠ 0) target m m'))) := by
  cases hcheck : (checkCalleeContext callee target m.state).1 with
  | some code =>
    apply getTargetPartCtxCont_checks htarget (Prod.ext hcheck (checkCalleeContext_state ..))
    intro m₁ _ hlog₁
    exact .inl ⟨hlog₁, fun hpasses => absurd (hcheck.symm.trans hpasses) (Option.some_ne_none code)⟩
  | none =>
    apply getTargetPartCtxCont_checks htarget (Prod.ext hcheck (checkCalleeContext_state ..))
    intro m₁ hstate₁ hlog₁
    show ite _ _ _
    rw [← hstate₁] at hcheck hsaved ⊢
    by_cases hsave : saveAddr = nullAddr
    . rw [if_pos hsave]
      refine (switchContextCont_loadReads hlog₁).mono ?_
      intro outcome m' hreads
      exact .inr ⟨hcheck, .inl ⟨hsave, hreads⟩⟩
    . rw [if_neg hsave]
      have hstate := checkCallerContext_state caller saveAddr context m₁.state
      cases hcaller : (checkCallerContext caller saveAddr context m₁.state).1 with
      | some code =>
        apply saveSourcePartCtxCont_fails (Prod.ext hcaller hstate)
        exact .inl ⟨hlog₁, fun _ => ⟨hsave, Option.some_ne_none code⟩⟩
      | none =>
        apply saveSourcePartCtxCont_saves (Prod.ext hcaller hstate) hsaved
        intro m₂ hlog₂ hstate₂
        have hlog₂ : ReadsWithin target target m m₂ :=
          IsTrans.trans _ _ _ hlog₁ (Records.of_eq hlog₂)
        refine (switchContextCont_loadReads hlog₂).mono ?_
        intro outcome m' hreads
        rw [hstate₂] at hreads
        exact .inr ⟨hcheck, .inr ⟨hsave, rfl, hreads⟩⟩

theorem checkCallerContext_aligned {s : State}
    (h : (checkCallerContext caller saveAddr context s).1 = none) : isMisaligned saveAddr = false := by
  by_contra hmisaligned
  rw [checkCallerContext_run] at h
  generalize (findBelongingBlock caller saveAddr s).1 = b at h
  generalize readWord s.bytes context = w at h
  simp only [eq_true_of_ne_false hmisaligned, if_true] at h
  repeat' split at h
  all_goals cases h

namespace ReadsWithin

variable {m m' : Machine} {target endAddr : Nat}

theorem confined (h : ReadsWithin target endAddr m m') (hrecord : m.accesses = [])
    (hend : endAddr ≤ (m.state.blockOf callee target).endAddr + 1)
    (hfits : m.state.ContextFits callee target)
    : ∀ a ∈ m'.accesses, a.kind = .contextRead → m.state.InContextBlock callee target a.addr := by
  rcases h with ⟨new, heq, hnew⟩
  rw [hrecord, List.append_nil] at heq
  subst heq
  intro a ha hkind
  have hwithin := hnew a ha hkind
  exact hfits.inContextBlock hwithin.1 (Nat.le_trans hwithin.2 hend)

end ReadsWithin

/--
A root with a single block yields to itself: it wants to be resumed on a basic context close to the end
of the block, and its interrupted context, whose R4 is 0, is saved over the start of that one.
-/
def selfYields : Machine :=
  let pdt : PDTable := default
  let root := 0x20000000
  let structurePtr := 0x20000100
  let words : List (Paddr × Word) := [(0x20001004, 0x200011b0), (0x200011b0, 1), (0x20000800, 1)]
  {
      state :=
        {
            currentPartition := root
            constantRootPartM := root
            pdtables := Mem.empty.set root { pdt with structurePtr, vidtAddr := 0x20001000 }
            blockEntries := Mem.empty.set structurePtr (ramBlock 0x20001000 0x20001200 0 true)
            sh1Entries := Mem.empty
            scEntries := Mem.empty.set (structurePtr + 208) ⟨0x20001000, nullAddr⟩
            nextPointers := Mem.empty
            bytes := words.foldl (fun bytes word => writeWord bytes word.1 word.2) Mem.empty
            mpuRegs := MpuRegs.initial
        }
      basepri := 0
      previousContextUseFpu := false
      stkalign := 1
      fpRegs := List.replicate 33 0
      accesses := []
  }

/--
Everything that is read of the target context lies in its block, unless the save turns a basic context
that is too close to the end of the block into an extended one.
-/
theorem context_reads_confined_iff {target : Nat} (hrecord : m.accesses = [])
    (htarget : target = readWord m.state.bytes (vidtContextAddr vidtAddr interrupt))
    (hend : (m.state.blockOf callee target).endAddr < wordSize)
    : ((getTargetPartCtxCont callee caller vidtAddr saveAddr interrupt flagsOnYield flagsOnWake
        context).Ensures m fun _ m' =>
          ∀ a ∈ m'.accesses, a.kind = .contextRead → m.state.InContextBlock callee target a.addr)
        ↔
      ¬m.state.Overruns callee caller target saveAddr flagsOnWake context := by
  rcases hsaved : writeContext context saveAddr flagsOnWake m.state with ⟨_, saved⟩
  have hspec : (getTargetPartCtxCont callee caller vidtAddr saveAddr interrupt flagsOnYield flagsOnWake
      context).Ensures m fun _ m' =>
        (∀ a ∈ m'.accesses, a.kind = .contextRead → m.state.InContextBlock callee target a.addr)
          ↔ ¬m.state.Overruns callee caller target saveAddr flagsOnWake context := by
    refine (getTargetPartCtxCont_reads htarget hsaved).mono ?_
    rintro outcome m' (⟨hnothing, hfails⟩ | ⟨hpasses, hloads⟩)
    . apply iff_of_true
      . rcases hnothing with ⟨new, heq, hnew⟩
        rw [hrecord, List.append_nil] at heq
        intro a ha hkind
        have hwithin := hnew a (heq ▸ ha) hkind
        have hempty : ∀ addr : Nat, target ≤ addr → ¬addr + 4 ≤ target := by omega
        exact absurd hwithin.2 (hempty _ hwithin.1)
      . intro hoverruns
        exact (hfails hoverruns.passes).2 hoverruns.saved
    . have hfits := hpasses.fits
      have hbounds := hfits.toOpens.bounds
      have hkind := (contextFits_iff (Nat.le_of_lt hbounds.2) hend).mp hfits.fits
      have hbasic : target + sizeofBasicContext ≤ (m.state.blockOf callee target).endAddr := by
        have := basic_le_extended target
        omega
      have hbasic := Nat.le_succ_of_le hbasic
      rcases hloads with ⟨hnull, hreads⟩ | ⟨hsave, hcaller, hreads⟩
      . -- nothing is saved in between
        apply iff_of_true
        . by_cases hword : readWord m.state.bytes target = 0
          . have hextended : target + sizeofExtendedContext ≤ (m.state.blockOf callee target).endAddr := by
              omega
            have hreads := (hreads.2 (not_not.mpr hword)).1
            exact hreads.confined hrecord (Nat.le_succ_of_le hextended) hfits
          . exact (hreads.1 hword).confined hrecord hbasic hfits
        . exact fun hoverruns => hoverruns.save_ne hnull
      . have hzeroes : readWord m.state.bytes target ≠ 0 → (readWord saved.bytes target = 0
            ↔ SaveZeroes m.state context saveAddr flagsOnWake target) := by
          intro hword
          have hiff := saveZeroes_iff context flagsOnWake hfits.aligned
            (checkCallerContext_aligned hcaller) hword
          rw [hsaved] at hiff
          exact hiff
        by_cases hword : readWord saved.bytes target = 0
        . have hreads := hreads.2 (not_not.mpr hword)
          by_cases hshort : (m.state.blockOf callee target).endAddr + 1 < target + sizeofExtendedContext
          . have hone : readWord m.state.bytes target = 1 := by omega
            apply iff_of_false
            . intro hconfined
              rcases hreads.2 with ⟨a, ha, hkind, hlast⟩
              have hend := (hconfined a ha hkind).before
              rw [hlast] at hend
              exact absurd hend (Nat.not_le.mpr hshort)
            . intro hnot
              apply hnot
              exact
                {
                  passes := hpasses
                  basic := hone
                  short := hshort
                  save_ne := hsave
                  saved := hcaller
                  zeroes := (hzeroes (by omega)).mp hword
                }
          . apply iff_of_true
            . exact hreads.1.confined hrecord (Nat.le_of_not_lt hshort) hfits
            . exact fun hoverruns => hshort hoverruns.short
        . apply iff_of_true
          . exact (hreads.1 hword).confined hrecord hbasic hfits
          . intro hoverruns
            have hone := hoverruns.basic
            exact hword ((hzeroes (by omega)).mpr hoverruns.zeroes)
  exact hspec

theorem context_reads_confined_selfYields
    : ((getTargetPartCtxCont 0x20000000 0x20000000 0x20001000 0x20001104 0 1 1 0x20000800).Ensures
          selfYields fun _ m' => ∀ a ∈ m'.accesses, a.kind = .contextRead →
            selfYields.state.InContextBlock 0x20000000 0x200011b0 a.addr)
        ↔
      ¬selfYields.state.Overruns 0x20000000 0x20000000 0x200011b0 0x20001104 1 0x20000800 :=
  context_reads_confined_iff rfl (by decide +kernel) (by decide +kernel)

/--
The save puts the R4 of the interrupted context where the target context starts, which is then read as
an extended one, over the end of the block.
-/
theorem context_reads_not_confined
    : let m' := (getTargetPartCtxCont 0x20000000 0x20000000 0x20001000 0x200011a4 0 1 1 0x20000800
        selfYields).2
      ∃ a ∈ m'.accesses, a.kind = .contextRead
        ∧ ¬selfYields.state.InContextBlock 0x20000000 0x200011b0 a.addr := by
  have hread : ∃ a ∈ (getTargetPartCtxCont 0x20000000 0x20000000 0x20001000 0x200011a4 0 1 1 0x20000800
      selfYields).2.accesses, a.kind = .contextRead
        ∧ (selfYields.state.blockOf 0x20000000 0x200011b0).endAddr + 1 < a.addr + 4 := by
    decide +kernel
  rcases hread with ⟨a, ha, hkind, hend⟩
  exact ⟨a, ha, hkind, fun hblock => Nat.not_le.mpr hend hblock.before⟩

end Confined
