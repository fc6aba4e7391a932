import PipMpu.Core.CoqCut
import PipMpu.Props.PhysicalMPU
import Mathlib.Logic.Function.Basic
import Mathlib.Logic.Relation

/-!
This module contains what `cutMemoryBlock` of the Coq model does to the MPU of the caller. A block that is
not mapped is looked for with the default index, which is one more than the number of entries of a kernel
structure. Where the MPU has a region of this number the block ends up there.
-/

namespace CoqMAL

variable {c : Constants} {α β : Type} {s s' : State c}

/-
Runs that are defined
-/

/--
If `op` is defined on `s`, its result and the state it ends in meet `post`.
-/
def Ensures (op : LLI c α) (s : State c) (post : α → State c → Prop) : Prop :=
  ∀ a s', op s = .val a s' → post a s'

namespace Ensures

variable {op op' : LLI c α} {f : α → LLI c β} {post : α → State c → Prop} {post' : β → State c → Prop}

theorem pure {a : α} (h : post a s) : Ensures (pure a) s post := by
  rintro _ _ ⟨⟩
  exact h

theorem bind (P : α → State c → Prop) (hop : Ensures op s P)
    (h : ∀ a s₁, P a s₁ → Ensures (f a) s₁ post') : Ensures (op >>= f) s post' := by
  intro b s' hrun
  simp only [Bind.bind] at hrun
  cases hop' : op s with
  | val a s₁ =>
    rw [hop'] at hrun
    exact h a s₁ (hop a s₁ hop') b s' hrun
  | undef code s₁ =>
    rw [hop'] at hrun
    cases hrun

theorem mono (h : Ensures op s post) {post₂ : α → State c → Prop}
    (hpost : ∀ a s', post a s' → post₂ a s') : Ensures op s post₂ :=
  fun a s' hrun => hpost a s' (h a s' hrun)

theorem cond {p : Prop} [Decidable p] (hthen : p → Ensures op s post) (helse : ¬p → Ensures op' s post)
    : Ensures (if p then op else op') s post := by
  split
  . next h => exact hthen h
  . next h => exact helse h

end Ensures

/--
The operation does not change the state.
-/
def Reads (op : LLI c α) : Prop := ∀ s, Ensures op s fun _ s' => s' = s

namespace Reads

variable {op op' : LLI c α} {f : α → LLI c β}

theorem pure (a : α) : Reads (pure a : LLI c α) := fun _ => .pure rfl

theorem bind (hop : Reads op) (hf : ∀ a, Reads (f a)) : Reads (op >>= f) := by
  intro s
  refine .bind _ (hop s) fun a s₁ h₁ => ?_
  subst h₁
  exact hf a s₁

theorem ite {p : Prop} [Decidable p] (h : Reads op) (h' : Reads op') : Reads (if p then op else op') := by
  split
  . exact h
  . exact h'

end Reads

/-
Association lists
-/

theorem lookup_cons {C : Type} (a x : Paddr) (v : C) (l : List (Paddr × C))
    : lookup a ((x, v) :: l) = if x = a then some v else lookup a l := by
  simp only [lookup, beqAddr, beq_iff_eq]

theorem removeDup_cons {C : Type} (a x : Paddr) (v : C) (l : List (Paddr × C))
    : removeDup a ((x, v) :: l) = if x = a then removeDup a l else (x, v) :: removeDup a l := by
  simp only [removeDup, beqAddr, beq_iff_eq]

theorem lookup_removeDup {C : Type} {a b : Paddr} (h : a ≠ b) (l : List (Paddr × C))
    : lookup a (removeDup b l) = lookup a l := by
  induction l with
  | nil => rfl
  | cons entry l ih =>
    rcases entry with ⟨x, v⟩
    rw [removeDup_cons, lookup_cons]
    by_cases hb : x = b
    . have hx : x ≠ a := fun heq => h (heq.symm.trans hb)
      rw [if_pos hb, if_neg hx, ih]
    . rw [if_neg hb, lookup_cons, ih]

theorem lookup_add {C : Type} (a b : Paddr) (v : C) (l : List (Paddr × C))
    : lookup a (add b v l) = if a = b then some v else lookup a l := by
  unfold add
  rw [lookup_cons]
  by_cases h : a = b
  . rw [if_pos h.symm, if_pos h]
  . rw [if_neg (Ne.symm h), if_neg h, lookup_removeDup h]

/-
What the memory holds
-/

namespace State

def pdt (s : State c) (addr : Paddr) : Option PDTable := (lookup addr s.memory).bind Value.pdt?

def be (s : State c) (addr : Paddr) : Option (BlockEntry c.toSizes) := (lookup addr s.memory).bind Value.be?

end State

theorem reads_readEntry (get : Value c → Option β) (field : β → α) (codes : Nat × Nat) (addr : Paddr)
    : Reads (readEntry get field codes addr) := by
  intro s a s' hrun
  unfold readEntry at hrun
  split at hrun
  . split at hrun <;> cases hrun
    rfl
  . cases hrun

theorem readEntry_spec (get : Value c → Option β) (field : β → α) (codes : Nat × Nat) (addr : Paddr)
    : Ensures (readEntry get field codes addr) s fun a s' =>
      s' = s ∧ ∃ entry, (lookup addr s.memory).bind get = some entry ∧ a = field entry := by
  intro a s' hrun
  unfold readEntry at hrun
  split at hrun
  . next v hv =>
    split at hrun
    . next entry hentry =>
      cases hrun
      exact ⟨rfl, entry, by rw [hv]; exact hentry, rfl⟩
    . cases hrun
  . cases hrun

theorem writeEntry_spec (get : Value c → Option β) (put : β → Value c) (codes : Nat × Nat) (addr : Paddr)
    (update : β → β)
    : Ensures (writeEntry get put codes addr update) s fun _ s' =>
      ∃ entry, (lookup addr s.memory).bind get = some entry
        ∧ s' = { s with memory := add addr (put (update entry)) s.memory } := by
  intro a s' hrun
  unfold writeEntry at hrun
  split at hrun
  . next v hv =>
    split at hrun
    . next entry hentry =>
      cases hrun
      exact ⟨entry, by rw [hv]; exact hentry, rfl⟩
    . cases hrun
  . cases hrun

/--
A write of another type of entry is not seen.
-/
theorem bind_add_other {get : Value c → Option β} {get' : Value c → Option α} {addr : Paddr} {v : Value c}
    {entry : α} (hold : (lookup addr s.memory).bind get' = some entry) (hv : get v = none)
    (hget : ∀ w entry, get' w = some entry → get w = none)
    : (fun a => (lookup a (add addr v s.memory)).bind get) = fun a => (lookup a s.memory).bind get := by
  funext a
  rw [lookup_add]
  split
  . next ha =>
    subst ha
    rcases Option.bind_eq_some_iff.mp hold with ⟨w, hw, hentry⟩
    rw [hw, Option.bind_some, Option.bind_some, hv, hget w entry hentry]
  . rfl

theorem bind_add_self (get : Value c → Option β) (addr : Paddr) (v : Value c) (m : List (Paddr × Value c))
    : (fun a => (lookup a (add addr v m)).bind get)
        =
      Function.update (fun a => (lookup a m).bind get) addr (get v) := by
  funext a
  rw [lookup_add]
  by_cases ha : a = addr
  . subst ha
    simp
  . rw [if_neg ha, Function.update_of_ne ha]

theorem be_of_other {w : Value c} (h : (∃ t, w.pdt? = some t) ∨ ∃ e, w.sce? = some e) : w.be? = none := by
  cases w <;> simp_all [Value.be?, Value.pdt?, Value.sce?]

theorem pdt_of_other {w : Value c} (h : (∃ e, w.be? = some e) ∨ ∃ e, w.sce? = some e) : w.pdt? = none := by
  cases w <;> simp_all [Value.be?, Value.pdt?, Value.sce?]

theorem writePDT_spec (addr : Paddr) (update : PDTable → PDTable)
    : Ensures (writePDT addr update) s fun _ s' =>
      s'.currentPartition = s.currentPartition ∧ s'.be = s.be
        ∧ ∃ t, s.pdt addr = some t ∧ s'.pdt = Function.update s.pdt addr (some (update t)) := by
  refine (writeEntry_spec _ _ _ _ _).mono ?_
  rintro _ s' ⟨t, ht, rfl⟩
  refine ⟨rfl, ?_, t, ht, bind_add_self _ _ _ _⟩
  exact bind_add_other ht rfl fun w entry h => be_of_other (.inl ⟨entry, h⟩)

theorem writeBE_spec (addr : Paddr) (update : BlockEntry c.toSizes → BlockEntry c.toSizes)
    : Ensures (writeBE addr update) s fun _ s' =>
      s'.currentPartition = s.currentPartition ∧ s'.pdt = s.pdt
        ∧ ∃ e, s.be addr = some e ∧ s'.be = Function.update s.be addr (some (update e)) := by
  refine (writeEntry_spec _ _ _ _ _).mono ?_
  rintro _ s' ⟨e, he, rfl⟩
  refine ⟨rfl, ?_, e, he, bind_add_self _ _ _ _⟩
  exact bind_add_other he rfl fun w entry h => pdt_of_other (.inl ⟨entry, h⟩)

theorem writeSCE_spec (addr : Paddr) (update : SCEntry → SCEntry)
    : Ensures (writeSCE addr update) s fun _ s' =>
      s'.currentPartition = s.currentPartition ∧ s'.pdt = s.pdt ∧ s'.be = s.be := by
  refine (writeEntry_spec _ _ _ _ _).mono ?_
  rintro _ s' ⟨e, he, rfl⟩
  refine ⟨rfl, ?_, ?_⟩
  . exact bind_add_other he rfl fun w entry h => pdt_of_other (.inr ⟨entry, h⟩)
  . exact bind_add_other he rfl fun w entry h => be_of_other (.inr ⟨entry, h⟩)

/-
The searches
-/

theorem reads_bounded (bound code res : Nat) : Reads (bounded bound code res : LLI c Nat) := by
  refine .ite (.pure res) fun s a s' hrun => ?_
  cases hrun

theorem reads_compareAddrToNull (addr : Paddr) : Reads (compareAddrToNull addr : LLI c Bool) :=
  .bind (.pure _) fun _ => .pure _

theorem reads_checkEntry (kernelstructurestart addr : Paddr)
    : Reads (checkEntry kernelstructurestart addr : LLI c Bool) := by
  intro s a s' hrun
  unfold checkEntry at hrun
  split at hrun <;> cases hrun <;> rfl

theorem reads_readBlockStart (addr : Paddr) : Reads (readBlockStartFromBlockEntryAddr addr : LLI c Paddr) :=
  .bind (reads_readEntry _ _ _ _) fun _ => .pure _

theorem reads_readBlockEnd (addr : Paddr) : Reads (readBlockEndFromBlockEntryAddr addr : LLI c Paddr) :=
  .bind (reads_readEntry _ _ _ _) fun _ => .pure _

theorem reads_readNext (addr : Paddr) : Reads (readNextFromKernelStructureStart addr : LLI c Paddr) :=
  .bind (.pure _) fun _ => reads_readEntry _ _ _ _

theorem reads_getSCEntryAddr (addr : Paddr) : Reads (getSCEntryAddrFromBlockEntryAddr addr : LLI c Paddr) :=
  .bind (reads_readEntry _ _ _ _) fun _ => .bind (reads_bounded _ _ _) fun _ => .pure _

theorem reads_readSCOrigin (addr : Paddr) : Reads (readSCOriginFromBlockEntryAddr addr : LLI c Paddr) :=
  .bind (reads_getSCEntryAddr addr) fun _ => reads_readEntry _ _ _ _

theorem reads_readSCNext (addr : Paddr) : Reads (readSCNextFromBlockEntryAddr addr : LLI c Paddr) :=
  .bind (reads_getSCEntryAddr addr) fun _ => reads_readEntry _ _ _ _

theorem reads_readSh1PDChild (addr : Paddr) : Reads (readSh1PDChildFromBlockEntryAddr addr : LLI c Paddr) := by
  refine .bind (.bind (reads_readEntry _ _ _ _) fun _ => ?_) fun _ => reads_readEntry _ _ _ _
  exact .bind (reads_bounded _ _ _) fun _ => .pure _

theorem reads_findExactBlockComp (entryaddr startaddr endaddr : Paddr)
    : Reads (findExactBlockComp entryaddr startaddr endaddr : LLI c Bool) := by
  refine .bind (reads_readBlockStart _) fun _ => .bind (reads_readBlockEnd _) fun _ => ?_
  exact .ite (.ite (.pure _) (.pure _)) (.pure _)

theorem reads_findExactBlockInKSInStructAux (timeout : Nat) (currentidx : Index)
    (currentkernelstructure startaddr endaddr : Paddr)
    : Reads (findExactBlockInKSInStructAux timeout currentidx currentkernelstructure startaddr endaddr
        : LLI c Paddr) := by
  induction timeout generalizing currentidx with
  | zero => exact .pure _
  | succ timeout1 ih =>
    refine .bind (.pure _) fun _ => .bind (reads_readEntry _ _ _ _) fun _ => ?_
    refine .bind (reads_findExactBlockComp _ _ _) fun _ => .ite (.pure _) ?_
    refine .bind (.pure _) fun _ => .bind (reads_bounded _ _ _) fun _ => ?_
    exact .ite (ih _) (.pure _)

theorem reads_findExactBlockInKSAux (timeout : Nat) (currentkernelstructure idblock endblock : Paddr)
    : Reads (findExactBlockInKSAux timeout currentkernelstructure idblock endblock : LLI c Paddr) := by
  induction timeout generalizing currentkernelstructure with
  | zero => exact .pure _
  | succ timeout1 ih =>
    refine .bind (.pure _) fun _ => .bind (reads_findExactBlockInKSInStructAux _ _ _ _ _) fun _ => ?_
    refine .bind (reads_compareAddrToNull _) fun _ => .ite (.pure _) ?_
    refine .bind (reads_readNext _) fun _ => .bind (reads_compareAddrToNull _) fun _ => ?_
    exact .ite (.pure _) (ih _)

theorem reads_findExactBlockInKS (idPD idBlock endBlock : Paddr)
    : Reads (findExactBlockInKS idPD idBlock endBlock : LLI c Paddr) := by
  refine .bind (reads_readEntry _ _ _ _) fun _ => .bind (reads_compareAddrToNull _) fun _ => ?_
  exact .ite (.pure _) (reads_findExactBlockInKSAux _ _ _ _)

/--
The search gives back the address it was called with, if it is that of a present block.
-/
def Finds (blockEntryAddr : Paddr) (s : State c) (a : Paddr) (s' : State c) : Prop :=
  s' = s ∧ (a ≠ nullAddr → a = blockEntryAddr ∧ ∃ e, s.be a = some e ∧ e.present = true)

theorem finds_null {blockEntryAddr : Paddr} (s : State c) : Finds blockEntryAddr s nullAddr s :=
  ⟨rfl, fun h => absurd rfl h⟩

theorem findBlockInKSWithAddrAux_finds (timeout : Nat) (currentkernelstructure blockEntryAddr : Paddr)
    : Ensures (findBlockInKSWithAddrAux timeout currentkernelstructure blockEntryAddr) s
        (Finds blockEntryAddr s) := by
  induction timeout generalizing currentkernelstructure with
  | zero => exact .pure (finds_null s)
  | succ timeout1 ih =>
    refine .bind (fun _ s' => s' = s) (.pure rfl) fun zeroIdx s₁ h₁ => ?_
    refine .bind (fun _ s' => s' = s) (.pure h₁) fun maxEntryAddrInStructure s₂ h₂ => ?_
    subst h₂
    refine .cond (fun _ => ?_) fun _ => ?_
    . refine .bind _ (reads_checkEntry _ _ _) fun entryExists s₃ h₃ => ?_
      subst h₃
      refine .cond (fun _ => .pure (finds_null _)) fun _ => ?_
      refine .bind _ (readEntry_spec _ _ _ _) fun isPresent s₄ h₄ => ?_
      rcases h₄ with ⟨rfl, e, he, rfl⟩
      refine .cond (fun hpresent => .pure ⟨rfl, fun _ => ⟨rfl, e, he, hpresent⟩⟩) fun _ => ?_
      exact .pure (finds_null _)
    . refine .bind _ (reads_readNext _ _) fun nextKernelStructure s₃ h₃ => ?_
      subst h₃
      refine .bind _ (reads_compareAddrToNull _ _) fun isnull s₄ h₄ => ?_
      subst h₄
      exact .cond (fun _ => .pure (finds_null _)) fun _ => ih _

theorem findBlockInKSWithAddr_finds (idPD blockEntryAddr : Paddr)
    : Ensures (findBlockInKSWithAddr idPD blockEntryAddr) s (Finds blockEntryAddr s) := by
  refine .bind _ (reads_readEntry _ _ _ _ s) fun kernelstructurestart s₁ h₁ => ?_
  subst h₁
  refine .bind _ (reads_compareAddrToNull _ _) fun isnull s₂ h₂ => ?_
  subst h₂
  exact .cond (fun _ => .pure (finds_null _)) fun _ => findBlockInKSWithAddrAux_finds _ _ _

/-
The ancestors
-/

/--
`p` is recorded as the parent of `pd`, where the walk up the tree goes on.
-/
def State.ParentOf (s : State c) (pd p : Paddr) : Prop :=
  pd ≠ c.constantRootPartM ∧ (s.pdt pd).map PDTable.parent = some p

/--
The bounds of a block and whether it is present.
-/
def BlockEntry.place {z : Sizes} (e : BlockEntry z) : Block z × Bool := (e.blockrange, e.present)

theorem place_CBlockEntry (e : BlockEntry c.toSizes) (read write exec accessible : Bool)
    : (CBlockEntry c read write exec e.present accessible e.blockindex e.blockrange).place = e.place := by
  unfold CBlockEntry
  rw [dif_pos e.Hidx]
  rfl

/--
What the walk over the ancestors leaves alone when `pd` is none of them.
-/
structure AncestorWrites (pd : Paddr) (s s' : State c) : Prop where
  current : s'.currentPartition = s.currentPartition
  own : s'.pdt pd = s.pdt pd
  parents : ∀ a, (s'.pdt a).map PDTable.parent = (s.pdt a).map PDTable.parent
  places : ∀ b, (s'.be b).map BlockEntry.place = (s.be b).map BlockEntry.place

namespace AncestorWrites

variable {pd : Paddr} {s₁ s₂ s₃ : State c}

theorem refl (s : State c) : AncestorWrites pd s s := ⟨rfl, rfl, fun _ => rfl, fun _ => rfl⟩

theorem trans (h : AncestorWrites pd s₁ s₂) (h' : AncestorWrites pd s₂ s₃) : AncestorWrites pd s₁ s₃ where
  current := h'.current.trans h.current
  own := h'.own.trans h.own
  parents a := (h'.parents a).trans (h.parents a)
  places b := (h'.places b).trans (h.places b)

theorem parentOf (h : AncestorWrites pd s₁ s₂) {a p : Paddr} : s₂.ParentOf a p ↔ s₁.ParentOf a p := by
  unfold State.ParentOf
  rw [h.parents]

end AncestorWrites

theorem writeBlockAccessible_ancestorWrites (pd addr : Paddr) (accessiblebit : Bool)
    : Ensures (writeBlockAccessibleFromBlockEntryAddr addr accessiblebit) s fun _ s' =>
      AncestorWrites pd s s' := by
  refine (writeBE_spec _ _).mono ?_
  rintro _ s' ⟨hcurrent, hpdt, e, he, hbe⟩
  refine ⟨hcurrent, by rw [hpdt], fun a => by rw [hpdt], fun b => ?_⟩
  rw [hbe]
  by_cases hb : b = addr
  . subst hb
    rw [Function.update_self, he, Option.map_some, Option.map_some, place_CBlockEntry]
  . rw [Function.update_of_ne hb]

theorem writePDMPU_ancestorWrites {pd addr : Paddr} (h : addr ≠ pd) (MPUlist : List Paddr)
    : Ensures (writePDMPU addr MPUlist) s fun _ s' => AncestorWrites pd s s' := by
  refine (writePDT_spec _ _).mono ?_
  rintro _ s' ⟨hcurrent, hbe, t, ht, hpdt⟩
  refine ⟨hcurrent, ?_, fun a => ?_, fun b => by rw [hbe]⟩
  . rw [hpdt, Function.update_of_ne (Ne.symm h)]
  . rw [hpdt]
    by_cases ha : a = addr
    . subst ha
      rw [Function.update_self, ht]
      rfl
    . rw [Function.update_of_ne ha]

theorem removeBlock_ancestorWrites {pd addr : Paddr} (h : addr ≠ pd) (blockentryaddr : Paddr)
    (accessiblebit : Bool)
    : Ensures (removeBlockFromPhysicalMPUIfNotAccessible addr blockentryaddr accessiblebit) s fun _ s' =>
      AncestorWrites pd s s' := by
  refine .cond (fun _ => ?_) fun _ => .pure (.refl s)
  refine .bind _ (reads_readEntry _ _ _ _ s) fun realMPU s₁ h₁ => ?_
  subst h₁
  exact writePDMPU_ancestorWrites h _

theorem writeAccessibleRecAux_ancestorWrites (timeout : Nat) {pd pdbasepartition : Paddr}
    (idblock endblock : Paddr) (accessiblebit : Bool)
    (h : ∀ p, Relation.TransGen s.ParentOf pdbasepartition p → p ≠ pd)
    : Ensures (writeAccessibleRecAux timeout pdbasepartition idblock endblock accessiblebit) s fun _ s' =>
      AncestorWrites pd s s' := by
  induction timeout generalizing s pdbasepartition with
  | zero => exact .pure (.refl s)
  | succ timeout1 ih =>
    refine .cond (fun _ => .pure (.refl s)) fun hroot => ?_
    refine .bind _ (readEntry_spec _ _ _ _) fun pdparent s₁ h₁ => ?_
    rcases h₁ with ⟨rfl, t, ht, rfl⟩
    refine .bind _ (reads_findExactBlockInKS _ _ _ _) fun block s₂ h₂ => ?_
    subst h₂
    refine .bind _ (reads_compareAddrToNull _ _) fun addrIsNull s₃ h₃ => ?_
    subst h₃
    refine .cond (fun _ => .pure (.refl _)) fun _ => ?_
    -- the parent is not `pd`, and neither is an ancestor of the parent
    have hparent : s₃.ParentOf pdbasepartition t.parent := by
      refine ⟨fun heq => hroot (by simp [beqAddr, heq]), ?_⟩
      unfold State.pdt
      rw [ht]
      rfl
    have hne : t.parent ≠ pd := h _ (.single hparent)
    refine .bind _ (writeBlockAccessible_ancestorWrites pd _ _) fun _ s₄ h₄ => ?_
    refine .bind _ (removeBlock_ancestorWrites hne _ _) fun _ s₅ h₅ => ?_
    have hwrites := h₄.trans h₅
    have hle : s₅.ParentOf ≤ s₃.ParentOf := fun a b hab => hwrites.parentOf.mp hab
    refine (ih fun p hp => ?_).mono fun _ s' h' => hwrites.trans h'
    exact h p (.head hparent (Relation.TransGen.mono hle _ _ hp))

theorem writeAccessibleToAncestors_ancestorWrites {pd : Paddr} (blockentryaddr : Paddr) (accessiblebit : Bool)
    (h : ¬Relation.TransGen s.ParentOf pd pd)
    : Ensures (writeAccessibleToAncestorsIfNotCutRec pd blockentryaddr accessiblebit) s fun _ s' =>
      AncestorWrites pd s s' := by
  refine .bind _ (reads_readSCOrigin _ s) fun _ s₁ h₁ => ?_
  subst h₁
  refine .bind _ (reads_readBlockStart _ _) fun _ s₂ h₂ => ?_
  subst h₂
  refine .bind _ (reads_readSCNext _ _) fun _ s₃ h₃ => ?_
  subst h₃
  refine .bind _ (reads_readBlockStart _ _) fun _ s₄ h₄ => ?_
  subst h₄
  refine .bind _ (reads_readBlockEnd _ _) fun _ s₅ h₅ => ?_
  subst h₅
  refine .cond (fun _ => ?_) fun _ => .pure (.refl _)
  have hne : ∀ p, Relation.TransGen s₅.ParentOf pd p → p ≠ pd := by
    rintro p hp rfl
    exact h hp
  refine .bind _ (writeAccessibleRecAux_ancestorWrites _ _ _ _ hne) fun _ s₆ h₆ => ?_
  exact .cond (fun _ => .pure h₆) fun _ => .pure h₆

/-
The new entry
-/

/--
What the writes to the entry `slot` leave alone.
-/
structure SlotWrites (pd slot : Paddr) (s s' : State c) : Prop where
  current : s'.currentPartition = s.currentPartition
  mpu : (s'.pdt pd).map PDTable.MPU = (s.pdt pd).map PDTable.MPU
  others : ∀ b, b ≠ slot → s'.be b = s.be b

namespace SlotWrites

variable {pd slot : Paddr} {s₁ s₂ s₃ : State c}

theorem trans (h : SlotWrites pd slot s₁ s₂) (h' : SlotWrites pd slot s₂ s₃) : SlotWrites pd slot s₁ s₃ where
  current := h'.current.trans h.current
  mpu := h'.mpu.trans h.mpu
  others b hb := (h'.others b hb).trans (h.others b hb)

theorem writeBE (update : BlockEntry c.toSizes → BlockEntry c.toSizes)
    : Ensures (writeBE slot update) s fun _ s' => SlotWrites pd slot s s' := by
  refine (writeBE_spec _ _).mono ?_
  rintro _ s' ⟨hcurrent, hpdt, e, -, hbe⟩
  exact ⟨hcurrent, by rw [hpdt], fun b hb => by rw [hbe, Function.update_of_ne hb]⟩

theorem writePDT (update : PDTable → PDTable) (h : ∀ t, (update t).MPU = t.MPU)
    : Ensures (writePDT pd update) s fun _ s' => SlotWrites pd slot s s' := by
  refine (writePDT_spec _ _).mono ?_
  rintro _ s' ⟨hcurrent, hbe, t, ht, hpdt⟩
  refine ⟨hcurrent, ?_, fun b _ => by rw [hbe]⟩
  rw [hpdt, Function.update_self, ht, Option.map_some, Option.map_some, h]

theorem writeSCOrigin (addr neworigin : Paddr)
    : Ensures (writeSCOriginFromBlockEntryAddr addr neworigin) s fun _ s' => SlotWrites pd slot s s' := by
  refine .bind _ (reads_getSCEntryAddr _ s) fun SCEAddr s₁ h₁ => ?_
  subst h₁
  refine (writeSCE_spec _ _).mono ?_
  rintro _ s' ⟨hcurrent, hpdt, hbe⟩
  exact ⟨hcurrent, by rw [hpdt], fun b _ => by rw [hbe]⟩

end SlotWrites

theorem insertNewEntry_spec (pd startaddr endaddr origin : Paddr) (r w e : Bool) (currnbfreeslots : Index)
    : Ensures (insertNewEntry pd startaddr endaddr origin r w e currnbfreeslots) s fun new s' =>
      (∃ t, s.pdt pd = some t ∧ new = t.firstfreeslot) ∧ SlotWrites pd new s s' := by
  refine .bind _ (readEntry_spec _ _ _ _) fun slot s₁ h₁ => ?_
  rcases h₁ with ⟨rfl, t, ht, rfl⟩
  refine .bind _ (reads_readBlockEnd _ _) fun newFirstFreeSlotAddr s₂ h₂ => ?_
  subst h₂
  refine .bind _ (reads_bounded _ _ _ _) fun predCurrentNbFreeSlots s₃ h₃ => ?_
  subst h₃
  let Q : State c → Prop := SlotWrites pd t.firstfreeslot s₃
  have hfirst : ∀ t : PDTable, { t with firstfreeslot := newFirstFreeSlotAddr }.MPU = t.MPU := fun _ => rfl
  have hnb : ∀ t : PDTable, { t with nbfreeslots := predCurrentNbFreeSlots }.MPU = t.MPU := fun _ => rfl
  refine .bind (fun _ => Q) (SlotWrites.writePDT _ hfirst) fun _ s₄ h₄ => ?_
  refine .bind (fun _ => Q) ((SlotWrites.writePDT _ hnb).mono fun _ _ => h₄.trans) fun _ s₅ h₅ => ?_
  refine .bind (fun _ => Q) ((SlotWrites.writeBE _).mono fun _ _ => h₅.trans) fun _ s₆ h₆ => ?_
  refine .bind (fun _ => Q) ((SlotWrites.writeBE _).mono fun _ _ => h₆.trans) fun _ s₇ h₇ => ?_
  refine .bind (fun _ => Q) ((SlotWrites.writeBE _).mono fun _ _ => h₇.trans) fun _ s₈ h₈ => ?_
  refine .bind (fun _ => Q) ((SlotWrites.writeBE _).mono fun _ _ => h₈.trans) fun _ s₉ h₉ => ?_
  refine .bind (fun _ => Q) ((SlotWrites.writeBE _).mono fun _ _ => h₉.trans) fun _ s₁₀ h₁₀ => ?_
  refine .bind (fun _ => Q) ((SlotWrites.writeBE _).mono fun _ _ => h₁₀.trans) fun _ s₁₁ h₁₁ => ?_
  refine .bind (fun _ => Q) ((SlotWrites.writeBE _).mono fun _ _ => h₁₁.trans) fun _ s₁₂ h₁₂ => ?_
  refine .bind (fun _ => Q) ((SlotWrites.writeSCOrigin _ _).mono fun _ _ => h₁₂.trans) fun _ s₁₃ h₁₃ => ?_
  exact .pure ⟨⟨t, ht, rfl⟩, h₁₃⟩

/-
The MPU
-/

def State.mpu (s : State c) (pd : Paddr) : List Paddr := ((s.pdt pd).map PDTable.MPU).getD []

/--
The block in the region `i` of the partition `pd`.
-/
def State.region (s : State c) (pd : Paddr) (i : Nat) : Paddr := (s.mpu pd).getD i nullAddr

theorem CIndex_of_le {p : Nat} (h : p ≤ c.maxIdx) : CIndex c p = p := if_pos h

theorem mpu_of_pdt {pd : Paddr} {t : PDTable} (h : s.pdt pd = some t) : s.mpu pd = t.MPU := by
  unfold State.mpu
  rw [h]
  rfl

theorem enableBlockInMPU_spec (pd b : Paddr) (n : Index)
    : Ensures (enableBlockInMPU pd b n) s fun _ s' =>
      s'.currentPartition = s.currentPartition ∧ s'.be = s.be
        ∧ ∀ i, s'.region pd i = if i = n ∧ n < c.MPURegionsNb then b else s.region pd i := by
  refine .bind (fun a s' => a = 0 ∧ s' = s) (.pure ⟨CIndex_of_le (Nat.zero_le _), rfl⟩) fun zeroIdx s₁ h₁ => ?_
  rcases h₁ with ⟨rfl, rfl⟩
  refine .bind (fun a s' => a = c.MPURegionsNb ∧ s' = s₁)
    (.pure ⟨CIndex_of_le c.MPURegionsNbBelowMaxIdx, rfl⟩) fun maxMPURegions s₂ h₂ => ?_
  rcases h₂ with ⟨rfl, rfl⟩
  refine .cond (fun hinvalid => .pure ⟨rfl, rfl, fun i => ?_⟩) fun hvalid => ?_
  . have hinvalid : ¬n < c.MPURegionsNb := by simpa using hinvalid
    rw [if_neg fun h => hinvalid h.2]
  . have hvalid : n < c.MPURegionsNb := by simpa using hvalid
    refine .bind (fun _ s' => s'.currentPartition = s₂.currentPartition ∧ s'.be = s₂.be
      ∧ ∀ i, s'.region pd i = if i = n then b else s₂.region pd i) ?_ fun _ s₃ h₃ => ?_
    . refine .bind _ (readEntry_spec _ _ _ _) fun realMPU s₃ h₃ => ?_
      rcases h₃ with ⟨rfl, t, ht, rfl⟩
      have ht : s₃.pdt pd = some t := ht
      refine (writePDT_spec _ _).mono ?_
      rintro _ s' ⟨hcurrent, hbe, t', ht', hpdt⟩
      refine ⟨hcurrent, hbe, fun i => ?_⟩
      have hself : s'.pdt pd = some { t' with MPU := CoqMPU.replaceBlockInPhysicalMPU t.MPU b n } := by
        rw [hpdt, Function.update_self]
      unfold State.region
      rw [mpu_of_pdt hself, mpu_of_pdt ht]
      exact CoqMPU.addElementAt_getD n b t.MPU nullAddr i
    . refine .pure ⟨h₃.1, h₃.2.1, fun i => ?_⟩
      rw [h₃.2.2]
      simp only [hvalid, and_true]

theorem writeSCNext_spec (addr newnext : Paddr)
    : Ensures (writeSCNextFromBlockEntryAddr addr newnext) s fun _ s' =>
      s'.currentPartition = s.currentPartition ∧ s'.pdt = s.pdt ∧ s'.be = s.be := by
  refine .bind _ (reads_getSCEntryAddr _ s) fun SCEAddr s₁ h₁ => ?_
  subst h₁
  exact writeSCE_spec _ _

/--
The index that the search in the MPU gives: the region of the block or the default index.
-/
theorem findBlockIdx_spec (pd b : Paddr) (defaultidx : Index)
    : Ensures (findBlockIdxInPhysicalMPU pd b defaultidx) s fun n s' =>
      s' = s ∧ n = CIndex c (CoqMPU.indexOf b 0 (s.mpu pd) defaultidx) := by
  refine .bind _ (readEntry_spec _ _ _ _) fun realMPU s₁ h₁ => ?_
  rcases h₁ with ⟨rfl, t, ht, rfl⟩
  refine .pure ⟨rfl, ?_⟩
  have ht : s₁.pdt pd = some t := ht
  rw [mpu_of_pdt ht]
  rfl

theorem mpu_eq {pd : Paddr} (h : (s'.pdt pd).map PDTable.MPU = (s.pdt pd).map PDTable.MPU)
    : s'.mpu pd = s.mpu pd := by
  unfold State.mpu
  rw [h]

/-
The cut
-/

/--
The bounds of the block at `b`.
-/
def State.HasBounds (s : State c) (b start stop : Paddr) : Prop :=
  ∃ e, s.be b = some e ∧ e.blockrange.startAddr = start ∧ e.blockrange.endAddr = stop

theorem hasBounds_congr {b start stop : Paddr} (h : s.HasBounds b start stop) (hbe : s'.be = s.be)
    : s'.HasBounds b start stop := by
  unfold State.HasBounds
  rw [hbe]
  exact h

theorem AncestorWrites.hasBounds {pd b start stop : Paddr} (h : AncestorWrites pd s s')
    (hb : s.HasBounds b start stop) : s'.HasBounds b start stop := by
  rcases hb with ⟨e, he, hstart, hstop⟩
  have hplace := h.places b
  rw [he, Option.map_some, Option.map_eq_some_iff] at hplace
  rcases hplace with ⟨e', he', heq⟩
  have hrange : e'.blockrange = e.blockrange := congrArg Prod.fst heq
  exact ⟨e', he', by rw [hrange]; exact hstart, by rw [hrange]; exact hstop⟩

theorem writeBlockEnd_spec {b start stop newendaddr : Paddr} (h : s.HasBounds b start stop)
    (hle : newendaddr ≤ stop)
    : Ensures (writeBlockEndFromBlockEntryAddr b newendaddr) s fun _ s' =>
      s'.currentPartition = s.currentPartition ∧ s'.pdt = s.pdt ∧ s'.HasBounds b start newendaddr := by
  refine (writeBE_spec _ _).mono ?_
  rintro _ s' ⟨hcurrent, hpdt, e, he, hbe⟩
  rcases h with ⟨e', he', rfl, rfl⟩
  rw [he] at he'
  cases he'
  refine ⟨hcurrent, hpdt, _, by rw [hbe, Function.update_self], ?_⟩
  have hsize : newendaddr - e.blockrange.startAddr ≤ c.maxIdx :=
    Nat.le_trans (Nat.sub_le_sub_right hle _) e.blockrange.Hsize
  unfold CBlockEntry CBlock
  rw [dif_pos e.Hidx, dif_pos hsize]
  exact ⟨rfl, rfl⟩

/--
The index with which a block that is not mapped is found.
-/
def defaultIdx (c : Constants) : Index := c.kernelStructureEntriesNb + 1

/--
The region in which the block is enabled again after the cut.
-/
def State.foundIdx (s : State c) (pd b : Paddr) : Index :=
  CIndex c (CoqMPU.indexOf b 0 (s.mpu pd) (defaultIdx c))

/--
What the cut does: the first free slot holds the new subblock, the block ends at the cut address, and the
MPU of the caller is written in two regions.
-/
structure CutEffect (s s' : State c) (pd b start cutAddr : Paddr) (n : Index) (new : Paddr) : Prop where
  slot : ∃ t, s.pdt pd = some t ∧ new = t.firstfreeslot
  bounds : b ≠ new → s'.HasBounds b start cutAddr
  region : ∀ i, s'.region pd i =
    if i = n ∧ n < c.MPURegionsNb then
      new
    else if i = s.foundIdx pd b ∧ s.foundIdx pd b < c.MPURegionsNb then
      b
    else
      s.region pd i

theorem cutBlock_spec {pd b start stop cutAddr : Paddr} (nbFreeSlots n : Index)
    (htree : ¬Relation.TransGen s.ParentOf pd pd) (hb : s.HasBounds b start stop) (hcut : cutAddr ≤ stop)
    : Ensures (cutBlock pd b cutAddr nbFreeSlots n) s fun new s' => CutEffect s s' pd b start cutAddr n new := by
  refine .bind _ (writeAccessibleToAncestors_ancestorWrites _ _ htree) fun _ s₁ h₁ => ?_
  have hb₁ := h₁.hasBounds hb
  have hmpu₁ : s₁.mpu pd = s.mpu pd := mpu_eq (by rw [h₁.own])
  refine .bind _ (reads_readBlockEnd _ _) fun blockEndAddr s₁ h => ?_
  subst h
  refine .bind _ (reads_readSCOrigin _ _) fun blockOrigin s₁ h => ?_
  subst h
  refine .bind _ (reads_readEntry _ _ _ _ _) fun blockR s₁ h => ?_
  subst h
  refine .bind _ (reads_readEntry _ _ _ _ _) fun blockW s₁ h => ?_
  subst h
  refine .bind _ (reads_readEntry _ _ _ _ _) fun blockX s₁ h => ?_
  subst h
  refine .bind _ (insertNewEntry_spec _ _ _ _ _ _ _ _) fun new s₃ h₃ => ?_
  rcases h₃ with ⟨⟨t, ht, hnew⟩, h₃⟩
  have hmpu₃ : s₃.mpu pd = s.mpu pd := (mpu_eq h₃.mpu).trans hmpu₁
  have hslot : ∃ t, s.pdt pd = some t ∧ new = t.firstfreeslot := ⟨t, by rw [← h₁.own, ht], hnew⟩
  -- the new entry is another one unless the first free slot is the block itself
  refine .bind (fun _ s' => s'.pdt = s₃.pdt ∧ (b ≠ new → s'.HasBounds b start cutAddr)) ?_ fun _ s₄ h₄ => ?_
  . by_cases hne : b = new
    . refine (writeBE_spec _ _).mono ?_
      rintro _ s' ⟨-, hpdt, -⟩
      exact ⟨hpdt, fun h => absurd hne h⟩
    . have hb₃ : s₃.HasBounds b start stop := by
        unfold State.HasBounds
        rw [h₃.others b hne]
        exact hb₁
      refine (writeBlockEnd_spec hb₃ hcut).mono ?_
      rintro _ s' ⟨-, hpdt, hbounds⟩
      exact ⟨hpdt, fun _ => hbounds⟩
  have hmpu₄ : s₄.mpu pd = s.mpu pd := (mpu_eq (by rw [h₄.1])).trans hmpu₃
  refine .bind (fun a s' => a = c.kernelStructureEntriesNb ∧ s' = s₄)
    (.pure ⟨CIndex_of_le (Nat.le_of_lt c.maxIdxBiggerThanNbOfKernels), rfl⟩) fun _ s₄ h => ?_
  rcases h with ⟨rfl, rfl⟩
  refine .bind (fun a s' => a = defaultIdx c ∧ s' = s₄) ?_ fun _ s₄ h => ?_
  . have hle : c.kernelStructureEntriesNb + 1 ≤ c.maxIdx := c.maxIdxBiggerThanNbOfKernels
    refine .cond (fun _ => .pure ⟨rfl, rfl⟩) fun h => absurd hle h
  rcases h with ⟨rfl, rfl⟩
  refine .bind _ (findBlockIdx_spec _ _ _) fun _ s₄ h => ?_
  rcases h with ⟨rfl, rfl⟩
  rw [hmpu₄]
  refine .bind _ (enableBlockInMPU_spec _ _ _) fun _ s₅ h₅ => ?_
  refine .bind _ (reads_readSCNext _ _) fun originalNextSubblock s₅ h => ?_
  subst h
  refine .bind _ (writeSCNext_spec _ _) fun _ s₆ h₆ => ?_
  refine .bind _ (writeSCNext_spec _ _) fun _ s₇ h₇ => ?_
  refine .bind _ (enableBlockInMPU_spec _ _ _) fun _ s₈ h₈ => ?_
  refine .pure ⟨hslot, fun hne => ?_, fun i => ?_⟩
  . exact hasBounds_congr (h₄.2 hne) (h₈.2.1.trans (h₇.2.2.trans (h₆.2.2.trans h₅.2.1)))
  . have hregion₇ : s₇.region pd i = s₅.region pd i := by
      unfold State.region
      have hmpu₇ : s₇.mpu pd = s₅.mpu pd := mpu_eq (by rw [h₇.2.1, h₆.2.1])
      rw [hmpu₇]
    have hregion₄ : s₄.region pd i = s.region pd i := by
      unfold State.region
      rw [hmpu₄]
    rw [h₈.2.2, hregion₇, h₅.2.2, hregion₄]
    rfl

/--
A call that succeeds has found the block present, with the cut address inside its bounds.
-/
theorem cutMemoryBlock_spec {idBlockToCut cutAddr : Paddr} (n : Index)
    (htree : ¬Relation.TransGen s.ParentOf s.currentPartition s.currentPartition)
    : Ensures (cutMemoryBlock idBlockToCut cutAddr n) s fun new s' =>
      new ≠ nullAddr → idBlockToCut ≠ nullAddr ∧ ∃ e, s.be idBlockToCut = some e ∧ e.present = true
        ∧ CutEffect s s' s.currentPartition idBlockToCut e.blockrange.startAddr cutAddr n new := by
  have hnull : ∀ s' : State c, Ensures (pure nullAddr : LLI c Paddr) s' fun new s'' =>
      new ≠ nullAddr → idBlockToCut ≠ nullAddr ∧ ∃ e, s.be idBlockToCut = some e ∧ e.present = true
        ∧ CutEffect s s'' s.currentPartition idBlockToCut e.blockrange.startAddr cutAddr n new :=
    fun s' => .pure fun h => absurd rfl h
  refine .bind (fun a s' => a = s.currentPartition ∧ s' = s) ?_ fun currentPart s₁ h => ?_
  . rintro _ _ ⟨⟩
    exact ⟨rfl, rfl⟩
  rcases h with ⟨rfl, rfl⟩
  refine .bind _ (reads_readEntry _ _ _ _ _) fun nbFreeSlots s₁ h => ?_
  subst h
  refine .bind (fun _ s' => s' = s₁) (.pure rfl) fun zeroIdx s₁ h => ?_
  subst h
  refine .cond (fun _ => hnull _) fun _ => ?_
  refine .bind _ (findBlockInKSWithAddr_finds _ _) fun b s₁ h => ?_
  rcases h with ⟨rfl, hfinds⟩
  refine .bind (fun a s' => a = beqAddr nullAddr b ∧ s' = s₁) (.pure ⟨rfl, rfl⟩) fun addrIsNull s₁ h => ?_
  rcases h with ⟨rfl, rfl⟩
  refine .cond (fun _ => hnull _) fun hne => ?_
  have hne : b ≠ nullAddr := by
    rintro rfl
    exact hne (by simp [beqAddr])
  rcases hfinds hne with ⟨rfl, e, he, hpresent⟩
  refine .bind _ (reads_readEntry _ _ _ _ _) fun _ s₁ h => ?_
  subst h
  refine .cond (fun _ => hnull _) fun _ => ?_
  refine .bind _ (reads_readSh1PDChild _ _) fun _ s₁ h => ?_
  subst h
  refine .bind _ (reads_compareAddrToNull _ _) fun _ s₁ h => ?_
  subst h
  refine .cond (fun _ => hnull _) fun _ => ?_
  refine .bind _ (reads_readBlockStart _ _) fun _ s₁ h => ?_
  subst h
  refine .cond (fun _ => hnull _) fun _ => ?_
  refine .bind (fun a s' => a = e.blockrange.endAddr ∧ s' = s₁) ?_ fun _ s₁ h => ?_
  . refine .bind _ (readEntry_spec _ _ _ _) fun blockrange s₁ h => ?_
    rcases h with ⟨rfl, e', he', rfl⟩
    have he' : s₁.be b = some e' := he'
    rw [he] at he'
    cases he'
    exact .pure ⟨rfl, rfl⟩
  rcases h with ⟨rfl, rfl⟩
  refine .cond (fun _ => hnull _) fun hbelow => ?_
  have hcut : cutAddr ≤ e.blockrange.endAddr := by
    simp only [decide_eq_true_eq] at hbelow
    exact Nat.le_of_lt (Nat.lt_of_not_le hbelow)
  refine .bind _ (reads_bounded _ _ _ _) fun _ s₁ h => ?_
  subst h
  refine .bind _ (reads_bounded _ _ _ _) fun _ s₁ h => ?_
  subst h
  refine .bind (fun _ s' => s' = s₁) (.pure rfl) fun _ s₁ h => ?_
  subst h
  refine .cond (fun _ => hnull _) fun _ => ?_
  refine .bind (fun _ s' => s' = s₁) (.pure rfl) fun _ s₁ h => ?_
  subst h
  refine .cond (fun _ => hnull _) fun _ => ?_
  refine (cutBlock_spec _ _ htree ⟨e, he, rfl, rfl⟩ hcut).mono fun new s' h _ => ?_
  exact ⟨hne, e, he, hpresent, h⟩

/-
The law
-/

/--
The properties of `Consistency.v` that the cut relies on.
-/
structure State.WellFormed (s : State c) : Prop where
  partitionTreeIsTree : ¬Relation.TransGen s.ParentOf s.currentPartition s.currentPartition
  MPUsizeIsBelowMax : ∀ pd t, s.pdt pd = some t → t.MPU.length ≤ c.MPURegionsNb
  -- the blocks in the MPU and the entry of the first free slot
  MPUFromPresentBlocks : ∀ pd t, s.pdt pd = some t → ∀ b ∈ t.MPU, b ≠ nullAddr →
    ∃ e, s.be b = some e ∧ e.present = true
  FirstFreeSlotIsFree : ∀ pd t, s.pdt pd = some t → t.firstfreeslot ≠ nullAddr →
    ∃ e, s.be t.firstfreeslot = some e ∧ e.present = false

/--
The block with its new bounds stays in its region unless this is the requested one, a block that is not
mapped stays so, the new subblock is in the requested region only, and all other regions stay as they are.
-/
structure PreciseCut (s s' : State c) (b start cutAddr : Paddr) (n : Index) (new : Paddr) : Prop where
  bounds : s'.HasBounds b start cutAddr
  mapped : ∀ i, s.region s.currentPartition i = b → ¬(i = n ∧ n < c.MPURegionsNb) →
    s'.region s.currentPartition i = b
  unmapped : (∀ i, s.region s.currentPartition i ≠ b) → ∀ i, s'.region s.currentPartition i ≠ b
  newSubblock : ∀ i, s'.region s.currentPartition i = new ↔ i = n ∧ n < c.MPURegionsNb
  others : ∀ i, s.region s.currentPartition i ≠ b → ¬(i = n ∧ n < c.MPURegionsNb) →
    s'.region s.currentPartition i = s.region s.currentPartition i

/--
The block is mapped, or the default index is not a region, or it is the one that the new subblock goes to.
-/
def State.DefaultIdxHarmless (s : State c) (b : Paddr) (n : Index) : Prop :=
  b ∈ s.mpu s.currentPartition ∨ c.MPURegionsNb ≤ defaultIdx c ∨ n = defaultIdx c

section Law

variable {pd b start cutAddr new : Paddr} {n : Index}

theorem region_ne_of_notMem (h : b ∉ s.mpu pd) (hne : b ≠ nullAddr) (i : Nat) : s.region pd i ≠ b := by
  unfold State.region
  rw [List.getD_eq_getElem?_getD]
  cases hi : (s.mpu pd)[i]? with
  | none => exact Ne.symm hne
  | some a =>
    rintro rfl
    exact h (List.mem_of_getElem? hi)

/--
A block that is mapped is enabled again in a region that holds it.
-/
theorem region_foundIdx (hlen : (s.mpu pd).length ≤ c.MPURegionsNb) (h : b ∈ s.mpu pd)
    : s.region pd (s.foundIdx pd b) = b := by
  classical
  have hex : ∃ i, (s.mpu pd)[i]? = some b := List.mem_iff_getElem?.mp h
  have hfind : s.foundIdx pd b = Nat.find hex := by
    unfold State.foundIdx
    rw [CoqMPU.indexOf_eq (Nat.find_spec hex) fun i hi => Nat.find_min hex hi, Nat.zero_add]
    have hlt : Nat.find hex < (s.mpu pd).length := (List.getElem?_eq_some_iff.mp (Nat.find_spec hex)).1
    exact CIndex_of_le (Nat.le_trans (Nat.le_of_lt hlt) (Nat.le_trans hlen c.MPURegionsNbBelowMaxIdx))
  unfold State.region
  rw [hfind, List.getD_eq_getElem?_getD, Nat.find_spec hex]
  rfl

theorem foundIdx_of_notMem (h : b ∉ s.mpu pd) : s.foundIdx pd b = defaultIdx c := by
  unfold State.foundIdx
  rw [CoqMPU.indexOf_of_notMem h]
  have hle : defaultIdx c ≤ c.maxIdx := c.maxIdxBiggerThanNbOfKernels
  exact CIndex_of_le hle

theorem length_mpu_le (hwf : s.WellFormed) (pd : Paddr) : (s.mpu pd).length ≤ c.MPURegionsNb := by
  unfold State.mpu
  cases h : s.pdt pd with
  | none => exact Nat.zero_le _
  | some t => exact hwf.MPUsizeIsBelowMax pd t h

/--
Without the write at the default index the two writes do what the law says.
-/
theorem precise_of_harmless {e : BlockEntry c.toSizes} (hwf : s.WellFormed) (hnew : new ≠ nullAddr)
    (hb : s.be b = some e) (hpresent : e.present = true)
    (hcut : CutEffect s s' s.currentPartition b start cutAddr n new) (h : s.DefaultIdxHarmless b n)
    : PreciseCut s s' b start cutAddr n new := by
  rcases hcut.slot with ⟨t, ht, rfl⟩
  rcases hwf.FirstFreeSlotIsFree _ t ht hnew with ⟨e', he', hfree⟩
  have hne : b ≠ t.firstfreeslot := by
    rintro rfl
    rw [hb] at he'
    cases he'
    exact Bool.false_ne_true (hfree.symm.trans hpresent)
  have hnotMem : t.firstfreeslot ∉ s.mpu s.currentPartition := by
    rw [mpu_of_pdt ht]
    intro hmem
    rcases hwf.MPUFromPresentBlocks _ t ht _ hmem hnew with ⟨e'', he'', hpresent''⟩
    rw [he'] at he''
    cases he''
    exact Bool.false_ne_true (hfree.symm.trans hpresent'')
  have hslot := region_ne_of_notMem hnotMem hnew
  -- outside the requested region nothing changes
  have hkept : ∀ i, ¬(i = n ∧ n < c.MPURegionsNb) →
      s'.region s.currentPartition i = s.region s.currentPartition i := by
    intro i hi
    rw [hcut.region, if_neg hi]
    split
    . next hfound =>
      by_cases hmem : b ∈ s.mpu s.currentPartition
      . rw [hfound.1, region_foundIdx (length_mpu_le hwf _) hmem]
      . rw [foundIdx_of_notMem hmem] at hfound
        rcases h with h | h | h
        . exact absurd h hmem
        . exact absurd hfound.2 (Nat.not_lt.mpr h)
        . exact absurd ⟨hfound.1.trans h.symm, by rw [h]; exact hfound.2⟩ hi
    . rfl
  have hrequested : ∀ i, i = n ∧ n < c.MPURegionsNb → s'.region s.currentPartition i = t.firstfreeslot := by
    intro i hi
    rw [hcut.region, if_pos hi]
  constructor
  . exact hcut.bounds hne
  . intro i hi hother
    rw [hkept i hother, hi]
  . intro hunmapped i
    by_cases hi : i = n ∧ n < c.MPURegionsNb
    . rw [hrequested i hi]
      exact Ne.symm hne
    . rw [hkept i hi]
      exact hunmapped i
  . intro i
    refine ⟨fun hi => ?_, hrequested i⟩
    by_contra hother
    rw [hkept i hother] at hi
    exact hslot i hi
  . intro i _ hother
    exact hkept i hother

/--
The default index is the only way in which the cut can miss.
-/
theorem harmless_of_precise (hne : b ≠ nullAddr)
    (hcut : CutEffect s s' s.currentPartition b start cutAddr n new)
    (h : PreciseCut s s' b start cutAddr n new) : s.DefaultIdxHarmless b n := by
  by_cases hmem : b ∈ s.mpu s.currentPartition
  . exact .inl hmem
  refine .inr ?_
  by_contra hharm
  rw [not_or, Nat.not_le] at hharm
  apply h.unmapped (region_ne_of_notMem hmem hne) (defaultIdx c)
  rw [hcut.region, if_neg fun hi => hharm.2 hi.1.symm, foundIdx_of_notMem hmem]
  exact if_pos ⟨rfl, hharm.1⟩

/--
A cut that succeeds is precise exactly if the default index does no harm.
-/
theorem cutMemoryBlock_precise_iff (hwf : s.WellFormed)
    (hrun : cutMemoryBlock b cutAddr n s = .val new s') (hnew : new ≠ nullAddr)
    : (∃ start, (∃ stop, s.HasBounds b start stop) ∧ PreciseCut s s' b start cutAddr n new)
        ↔
      s.DefaultIdxHarmless b n := by
  rcases cutMemoryBlock_spec n hwf.partitionTreeIsTree _ _ hrun hnew with ⟨hne, e, he, hpresent, hcut⟩
  constructor
  . rintro ⟨start, ⟨stop, e', he', hstart, -⟩, hprecise⟩
    rw [he] at he'
    cases he'
    subst hstart
    exact harmless_of_precise hne hcut hprecise
  . intro h
    exact ⟨_, ⟨_, e, he, rfl, rfl⟩, precise_of_harmless hwf hnew he hpresent hcut h⟩

end Law

/-
A partition with more regions than a kernel structure has entries
-/

def sixteenRegions : Constants where
  maxAddr := 4096
  maxIdx := 4096
  kernelStructureEntriesNb := 8
  maxNbPrepare := 9
  MPURegionsNb := 16
  maxAddrNotZero := by decide
  maxIdxNotZero := by decide
  maxIdxBigEnough := by decide
  maxIdxBiggerThanNbOfKernels := by decide
  maxIdxEqualMaxAddr := rfl
  MPURegionsNbNotZero := by decide
  MPURegionsNbBelowMaxIdx := by decide
  KSEntriesNbNotZero := by decide
  KSEntriesNbLessThanMaxIdx := by decide
  maxNbPrepareNotZero := by decide
  maxNbPrepareNbLessThanMaxIdx := by decide
  constantRootPartM := 100
  index_d := 0
  block_d := { startAddr := 0, endAddr := 0, Hsize := by decide }
  blockentry_d :=
    {
        read := false
        write := false
        exec := false
        present := false
        accessible := false
        blockindex := 0
        blockrange := { startAddr := 0, endAddr := 0, Hsize := by decide }
        Hidx := by decide
    }

def entryOf (blockindex startAddr endAddr : Nat) (used : Bool) : BlockEntry sixteenRegions.toSizes :=
  CBlockEntry sixteenRegions used used used used used blockindex (CBlock sixteenRegions startAddr endAddr)

/--
The descriptor of the root.
-/
def rootTable (firstfreeslot nbfreeslots : Nat) (MPU : List Paddr) : PDTable :=
  {
      structurePtr := 200
      firstfreeslot
      nbfreeslots
      nbprepare := 1
      parent := 0
      MPU
      vidtAddr := 0
  }

/--
The root with its kernel structure at 200: a block from 1024 to 2048, and a free slot. The MPU is empty.
-/
def unmappedBlock : State sixteenRegions where
  currentPartition := 100
  memory :=
    [
      (100, .PDT (rootTable 201 7 [])),
      (200, .BE (entryOf 0 1024 2048 true)),
      (201, .BE (entryOf 1 0 202 false)),
      (208, .SHE default),
      (216, .SCE { origin := 1024, next := 0 }),
      (217, .SCE default)
    ]

/--
The block is cut at 1536 and the new subblock requested in region 0. Region 9 holds the block as well.
-/
def mappedAfterCut : State sixteenRegions where
  currentPartition := 100
  memory :=
    [
      (100, .PDT (rootTable 202 6 [201, 0, 0, 0, 0, 0, 0, 0, 0, 200])),
      (216, .SCE { origin := 1024, next := 201 }),
      (217, .SCE { origin := 1024, next := 0 }),
      (200, .BE (entryOf 0 1024 1536 true)),
      (201, .BE (entryOf 1 1536 2048 true)),
      (208, .SHE default)
    ]

theorem unmappedBlock_pdt {pd : Paddr} {t : PDTable} (h : unmappedBlock.pdt pd = some t)
    : t.MPU = [] ∧ t.firstfreeslot = 201 := by
  unfold State.pdt unmappedBlock at h
  simp only [lookup] at h
  split at h
  . cases h
    exact ⟨rfl, rfl⟩
  . repeat' split at h
    all_goals cases h

theorem unmappedBlock_wellFormed : unmappedBlock.WellFormed where
  partitionTreeIsTree h := by
    rcases Relation.TransGen.head'_iff.mp h with ⟨_, hparent, -⟩
    exact hparent.1 rfl
  MPUsizeIsBelowMax pd t h := by
    rw [(unmappedBlock_pdt h).1]
    exact Nat.zero_le _
  MPUFromPresentBlocks pd t h b hb := by
    rw [(unmappedBlock_pdt h).1] at hb
    cases hb
  FirstFreeSlotIsFree pd t h _ := by
    rw [(unmappedBlock_pdt h).2]
    exact ⟨entryOf 1 0 202 false, by decide, by decide⟩

theorem cutMemoryBlock_precise_iff_unmapped
    : (∃ start, (∃ stop, unmappedBlock.HasBounds 200 start stop)
          ∧ PreciseCut unmappedBlock mappedAfterCut 200 start 1536 0 201)
        ↔
      unmappedBlock.DefaultIdxHarmless 200 0 :=
  cutMemoryBlock_precise_iff unmappedBlock_wellFormed (by decide +kernel) (by decide)

/--
The cut of a block that is not mapped maps it in region 9.
-/
theorem cutMemoryBlock_maps_unmapped
    : cutMemoryBlock 200 1536 0 unmappedBlock = .val 201 mappedAfterCut
        ∧ unmappedBlock.mpu unmappedBlock.currentPartition = []
        ∧ mappedAfterCut.region unmappedBlock.currentPartition 9 = 200 := by
  decide +kernel

end CoqMAL
