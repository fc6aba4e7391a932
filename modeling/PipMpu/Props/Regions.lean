import PipMpu.Props.AncestorAccess
import PipMpu.Props.MapMPU

/-!
This module contains the relation between the regions of the partitions and their blocks, which also holds in the
middle of a service: a region is empty or holds an accessible block of the partition, no block is in two regions, and
the LUT holds the registers that belong to the blocks.
-/

namespace BlockEntry

/--
The fields that the registers of a region are computed from are the same.
-/
structure SameRegion (entry entry' : BlockEntry) : Prop where
  startAddr : entry'.startAddr = entry.startAddr
  endAddr : entry'.endAddr = entry.endAddr
  write : entry'.write = entry.write
  exec : entry'.exec = entry.exec

/--
The block is still there and accessible, if it was.
-/
structure Offers (entry entry' : BlockEntry) : Prop where
  present : entry.present = true → entry'.present = true
  accessible : entry.accessible = true → entry'.accessible = true

theorem SameRegion.refl (entry : BlockEntry) : entry.SameRegion entry := ⟨rfl, rfl, rfl, rfl⟩

theorem Offers.refl (entry : BlockEntry) : entry.Offers entry := ⟨id, id⟩

theorem SameRegion.coveringLUTEntry_eq {entry entry' : BlockEntry} (h : entry.SameRegion entry') (i addrtocover : Nat)
    : coveringLUTEntry i entry' addrtocover = coveringLUTEntry i entry addrtocover := by
  unfold coveringLUTEntry largestCoveringMPURegion
  rw [h.startAddr, h.endAddr, h.write, h.exec]

end BlockEntry

namespace PDTable

/--
The pair of registers for the region `i`.
-/
def registers (pdt : PDTable) (i : Index) : Word × Word := (pdt.LUT.getD (i * 2) 0, pdt.LUT.getD (i * 2 + 1) 0)

/--
The regions are those of before but for some that were emptied.
-/
structure Shrinks (pdt pdt' : PDTable) : Prop where
  mpu_length : pdt'.mpu.length = pdt.mpu.length
  LUT_length : pdt'.LUT.length = pdt.LUT.length
  region : ∀ i < mpuRegionsNb,
    (pdt'.mpu.getD i nullAddr = pdt.mpu.getD i nullAddr ∧ pdt'.registers i = pdt.registers i)
      ∨ (pdt'.mpu.getD i nullAddr = nullAddr ∧ pdt'.registers i = clearedLUTEntry i)

theorem Shrinks.refl (pdt : PDTable) : pdt.Shrinks pdt := ⟨rfl, rfl, fun _ _ => .inl ⟨rfl, rfl⟩⟩

theorem Shrinks.of_eq {pdt pdt' : PDTable} (hmpu : pdt'.mpu = pdt.mpu) (hLUT : pdt'.LUT = pdt.LUT)
    : pdt.Shrinks pdt' := by
  refine ⟨by rw [hmpu], by rw [hLUT], fun i _ => .inl ⟨by rw [hmpu], ?_⟩⟩
  unfold registers
  rw [hLUT]

theorem shrinks_unmapBlock (b : Nat) {pdt : PDTable} (hLUT : pdt.LUT.length = mpuRegionsNb * 2)
    : pdt.Shrinks ((List.range mpuRegionsNb).foldl (PDTable.unmapBlock b) pdt) := by
  have hwithout := PDTable.without_unmapBlock b pdt
  have hmpu := (foldl_unmapBlock_mpu b mpuRegionsNb pdt).1
  have hlength := (PDTable.without_of_foldl b mpuRegionsNb (Nat.le_refl _) pdt).1
  generalize (List.range mpuRegionsNb).foldl (PDTable.unmapBlock b) pdt = pdt' at *
  refine ⟨hmpu, hlength, fun i hi => ?_⟩
  unfold registers
  by_cases hb : pdt.mpu.getD i nullAddr = b
  . exact .inr ⟨by rw [hwithout.mpu, if_pos ⟨hi, hb⟩], hwithout.cleared i hi hb (by omega)⟩
  . have hnot : ¬(i < mpuRegionsNb ∧ pdt.mpu.getD i nullAddr = b) := fun h => hb h.2
    have hkept := hwithout.kept i hnot
    exact .inl ⟨by rw [hwithout.mpu, if_neg hnot], Prod.ext hkept.1 hkept.2⟩

theorem registers_configureLUTEntry {pdt : PDTable} {i n : Nat} (hLUT : pdt.LUT.length = mpuRegionsNb * 2)
    (hn : n < mpuRegionsNb) (block : Option BlockEntry) (addrtocover : Nat)
    : ({ pdt with LUT := configureLUTEntry pdt.LUT n block addrtocover } : PDTable).registers i
        =
      if i = n then
        match block with
        | none => clearedLUTEntry n
        | some entry => coveringLUTEntry n entry addrtocover
      else
        pdt.registers i := by
  have hset : ∀ pair, ({ pdt with LUT := setLUTEntry pdt.LUT n pair } : PDTable).registers i =
      if i = n then pair else pdt.registers i := by
    intro pair
    unfold registers
    split
    . next heq =>
      subst heq
      have hself := setLUTEntry_getD pair (show i * 2 + 1 < pdt.LUT.length by omega)
      exact Prod.ext hself.1 hself.2
    . next hne =>
      have hother := setLUTEntry_getD_of_ne pdt.LUT pair hne
      exact Prod.ext hother.1 hother.2
  cases block <;> exact hset _

end PDTable

namespace State

/--
The pair of registers with which the region `i` maps the block `b`.
-/
def registersFor (s : State) (i b : Nat) : Word × Word :=
  if b = nullAddr then
    clearedLUTEntry i
  else
    coveringLUTEntry i (s.blockEntries.get b) (s.blockEntries.get b).startAddr

/--
The block is in no region of a partition of the view.
-/
def Unmapped (s : State) (C : Conf) (b : Nat) : Prop := ∀ p i, C.Live p → s.region p i ≠ b

/--
The block is there and accessible.
-/
def Offered (s : State) (b : Nat) : Prop :=
  (s.blockEntries.get b).present = true ∧ (s.blockEntries.get b).accessible = true

end State

/--
The regions of the partitions of the view hold their accessible blocks, and the LUTs the registers for these. The
registers of the blocks in `stale` may be out of date.
-/
structure Mapping (C : Conf) (stale : Nat → Prop) (s : State) : Prop where
  mpu_length : ∀ p, C.Live p → (s.pdtables.get p).mpu.length = mpuRegionsNb
  LUT_length : ∀ p, C.Live p → (s.pdtables.get p).LUT.length = mpuRegionsNb * 2
  owns : ∀ p i, C.Live p → s.region p i ≠ nullAddr → C.Owns p (s.region p i)
  offered : ∀ p i, C.Live p → s.region p i ≠ nullAddr → s.Offered (s.region p i)
  once : ∀ p, C.Live p → s.OneRegionEach p
  programmed : ∀ p i, C.Live p → i < mpuRegionsNb → ¬stale (s.region p i) →
    (s.pdtables.get p).registers i = s.registersFor i (s.region p i)

namespace Mapping

variable {C : Conf} {stale : Nat → Prop} {s s' : State} {pd b n : Nat}

theorem lt (h : Mapping C stale s) {p i : Nat} (hp : C.Live p) (hi : s.region p i ≠ nullAddr) : i < mpuRegionsNb :=
  lt_of_region (h.mpu_length p hp) hi

theorem mono {stale' : Nat → Prop} (h : Mapping C stale s)
    (hstale : ∀ p i, C.Live p → stale (s.region p i) → stale' (s.region p i)) : Mapping C stale' s where
  mpu_length := h.mpu_length
  LUT_length := h.LUT_length
  owns := h.owns
  offered := h.offered
  once := h.once
  programmed p i hp hi hnot := h.programmed p i hp hi fun hmem => hnot (hstale p i hp hmem)

/--
A step that at most empties regions, and after which the blocks that are still in regions are accessible.
-/
theorem step (h : Mapping C stale s) (hpd : ∀ p, C.Live p → (s.pdtables.get p).Shrinks (s'.pdtables.get p))
    (hentry : ∀ p i, C.Live p → s'.region p i ≠ nullAddr →
      (s.blockEntries.get (s'.region p i)).Offers (s'.blockEntries.get (s'.region p i))
        ∧ (stale (s'.region p i) ∨ (s.blockEntries.get (s'.region p i)).SameRegion
          (s'.blockEntries.get (s'.region p i))))
    : Mapping C stale s' := by
  have hlength : ∀ p, C.Live p → (s'.pdtables.get p).mpu.length = mpuRegionsNb :=
    fun p hp => (hpd p hp).mpu_length.trans (h.mpu_length p hp)
  have hkept : ∀ p i, C.Live p → s'.region p i ≠ nullAddr → s'.region p i = s.region p i := by
    intro p i hp hi
    rcases (hpd p hp).region i (lt_of_region (hlength p hp) hi) with ⟨heq, -⟩ | ⟨hnull, -⟩
    . exact heq
    . exact absurd hnull hi
  constructor
  case mpu_length => exact hlength
  case LUT_length => exact fun p hp => (hpd p hp).LUT_length.trans (h.LUT_length p hp)
  case owns =>
    intro p i hp hi
    have heq := hkept p i hp hi
    rw [heq] at hi ⊢
    exact h.owns p i hp hi
  case offered =>
    intro p i hp hi
    have hoffers := (hentry p i hp hi).1
    have hold : s.Offered (s'.region p i) := by
      have heq := hkept p i hp hi
      rw [heq] at hi ⊢
      exact h.offered p i hp hi
    exact ⟨hoffers.present hold.1, hoffers.accessible hold.2⟩
  case once =>
    intro p hp i j hi hij
    have hj : s'.region p j ≠ nullAddr := hij ▸ hi
    apply h.once p hp i j
    . rw [← hkept p i hp hi]
      exact hi
    . rw [← hkept p i hp hi, ← hkept p j hp hj]
      exact hij
  case programmed =>
    intro p i hp hi hstale
    by_cases hnull : s'.region p i = nullAddr
    . rw [hnull, State.registersFor, if_pos rfl]
      rcases (hpd p hp).region i hi with ⟨heq, hregisters⟩ | ⟨-, hcleared⟩
      . have hold : s.region p i = nullAddr := heq.symm.trans hnull
        rw [hnull] at hstale
        rw [hregisters, h.programmed p i hp hi (by rw [hold]; exact hstale), hold, State.registersFor, if_pos rfl]
      . exact hcleared
    . have heq := hkept p i hp hnull
      have hsame := (hentry p i hp hnull).2.resolve_left hstale
      rcases (hpd p hp).region i hi with ⟨-, hregisters⟩ | ⟨hempty, -⟩
      . rw [hregisters, h.programmed p i hp hi (heq ▸ hstale), ← heq, State.registersFor, State.registersFor,
          if_neg hnull, if_neg hnull, hsame.coveringLUTEntry_eq, hsame.startAddr]
      . exact absurd hempty hnull

/--
The step does not touch the entries of the blocks in the regions.
-/
theorem shrink (h : Mapping C stale s) (hpd : ∀ p, C.Live p → (s.pdtables.get p).Shrinks (s'.pdtables.get p))
    (hentry : ∀ p a, C.Owns p a → s'.blockEntries.get a = s.blockEntries.get a) : Mapping C stale s' := by
  refine h.step hpd fun p i hp hi => ?_
  have hlength := (hpd p hp).mpu_length.trans (h.mpu_length p hp)
  have heq : s'.region p i = s.region p i := by
    rcases (hpd p hp).region i (lt_of_region hlength hi) with ⟨heq, -⟩ | ⟨hnull, -⟩
    . exact heq
    . exact absurd hnull hi
  rw [heq] at hi ⊢
  rw [hentry p _ (h.owns p i hp hi)]
  exact ⟨.refl _, .inr (.refl _)⟩

/-
The writes
-/

theorem table (h : Mapping C stale s) {f : PDTable → PDTable}
    (hmpu : (f (s.pdtables.get pd)).mpu = (s.pdtables.get pd).mpu)
    (hLUT : (f (s.pdtables.get pd)).LUT = (s.pdtables.get pd).LUT) : Mapping C stale (modifyPDTable pd f s).2 := by
  refine h.shrink (fun p _ => ?_) fun _ _ _ => rfl
  rw [modifyPDTable_run]
  dsimp only
  rw [Mem.get_set]
  split
  . next heq =>
    subst heq
    exact .of_eq hmpu hLUT
  . exact .refl _

theorem entry (h : Mapping C stale s) {f : BlockEntry → BlockEntry}
    (hf : ∀ p i, C.Live p → s.region p i = b → (s.blockEntries.get b).Offers (f (s.blockEntries.get b))
      ∧ (stale b ∨ (s.blockEntries.get b).SameRegion (f (s.blockEntries.get b))))
    : Mapping C stale (modifyBlockEntry b f s).2 := by
  rw [modifyBlockEntry_run]
  refine h.step (fun p _ => .refl _) fun p i hp hi => ?_
  have hregion : State.region { s with blockEntries := s.blockEntries.set b (f (s.blockEntries.get b)) } p i =
      s.region p i := rfl
  rw [hregion] at hi ⊢
  dsimp only
  rw [Mem.get_set]
  split
  . next heq =>
    subst heq
    exact hf p i hp rfl
  . exact ⟨.refl _, .inr (.refl _)⟩

theorem entry_unmapped (h : Mapping C stale s) (hb : s.Unmapped C b) (f : BlockEntry → BlockEntry)
    : Mapping C stale (modifyBlockEntry b f s).2 :=
  h.entry fun p i hp heq => absurd heq (hb p i hp)

theorem sh1 (h : Mapping C stale s) (f : Sh1Entry → Sh1Entry) : Mapping C stale (modifySh1Entry b f s).2 :=
  h.shrink (fun _ _ => .refl _) fun _ _ _ => rfl

theorem sc (h : Mapping C stale s) (f : SCEntry → SCEntry) : Mapping C stale (modifySCEntry b f s).2 :=
  h.shrink (fun _ _ => .refl _) fun _ _ _ => rfl

theorem unmap (h : Mapping C stale s) (pd b : Nat) : Mapping C stale (removeBlockFromPhysicalMPU pd b s).2 := by
  refine h.shrink (fun p hp => ?_) fun _ _ _ => rfl
  unfold removeBlockFromPhysicalMPU
  rw [modifyPDTable_run]
  dsimp only
  rw [Mem.get_set]
  split
  . next heq =>
    subst heq
    exact PDTable.shrinks_unmapBlock b (h.LUT_length pd hp)
  . exact .refl _

/--
A block that its partition has unmapped is in no region at all.
-/
theorem unmapped (h : Mapping C stale s) (hC : C.Apart) (hb : C.Owns pd b)
    : (removeBlockFromPhysicalMPU pd b s).2.Unmapped C b := by
  intro p i hp heq
  have hne : b ≠ nullAddr := hC.owns_ne_zero hb
  by_cases hpd : p = pd
  . subst hpd
    have hregion := (mpu_removeBlock p b s (h.mpu_length p hp)).2 i
    unfold State.region at heq
    rw [hregion] at heq
    split at heq
    . exact hne heq.symm
    . next hnot => exact hnot heq
  . have hregion : (removeBlockFromPhysicalMPU pd b s).2.region p i = s.region p i := by
      unfold removeBlockFromPhysicalMPU State.region
      rw [modifyPDTable_run]
      dsimp only
      rw [Mem.get_set_of_ne _ _ (Ne.symm hpd)]
    rw [hregion] at heq
    have howns := h.owns p i hp (heq ▸ hne)
    rw [heq] at howns
    exact hpd (hC.owns_unique howns hb)

theorem narrow (h : Mapping C (· = b) s) (hb : s.Unmapped C b) : Mapping C (fun _ => False) s :=
  h.mono fun p i hp heq => hb p i hp heq

theorem replaceBlock_run (pd b n : Nat) (s : State)
    : ∃ regs, (replaceBlockInPhysicalMPU pd b n s).2 = { s with
        pdtables := s.pdtables.set pd { s.pdtables.get pd with
          mpu := (s.pdtables.get pd).mpu.set n b
          LUT := configureLUTEntry (s.pdtables.get pd).LUT n (blockEntryAt b s) (s.blockEntries.get b).startAddr }
        mpuRegs := regs } := by
  unfold replaceBlockInPhysicalMPU
  simp only [LLI.bind_run, LLI.get_run, modifyPDTable_run, getCurPartition, LLI.gets_run, LLI.ite_run]
  split
  . exact ⟨_, rfl⟩
  . exact ⟨_, rfl⟩

theorem replaceBlock_entries (pd b n : Nat) (s : State)
    : (replaceBlockInPhysicalMPU pd b n s).2.blockEntries = s.blockEntries := by
  rcases replaceBlock_run pd b n s with ⟨regs, hrun⟩
  rw [hrun]

theorem replaceBlock_table (pd b n : Nat) (s : State) (p : Nat)
    : (replaceBlockInPhysicalMPU pd b n s).2.pdtables.get p
        =
      if p = pd then
        { s.pdtables.get pd with
          mpu := (s.pdtables.get pd).mpu.set n b
          LUT := configureLUTEntry (s.pdtables.get pd).LUT n (blockEntryAt b s) (s.blockEntries.get b).startAddr }
      else
        s.pdtables.get p := by
  rcases replaceBlock_run pd b n s with ⟨regs, hrun⟩
  rw [hrun]
  dsimp only
  split
  . next heq =>
    subst heq
    exact Mem.get_set_self _ _ _
  . next hne => exact Mem.get_set_of_ne _ _ (Ne.symm hne)

theorem replaceBlock_region (hlen : (s.pdtables.get pd).mpu.length = mpuRegionsNb) (hn : n < mpuRegionsNb) (p i : Nat)
    : (replaceBlockInPhysicalMPU pd b n s).2.region p i = if p = pd ∧ i = n then b else s.region p i := by
  by_cases hp : p = pd
  . subst hp
    rw [region_replaceBlock hlen hn]
    simp
  . rw [if_neg fun hboth => hp hboth.1]
    unfold State.region
    rw [replaceBlock_table, if_neg hp]

/--
The registers of the region are those for the block that is now in it.
-/
theorem replaceBlock_registers (hLUT : (s.pdtables.get pd).LUT.length = mpuRegionsNb * 2) (hn : n < mpuRegionsNb)
    (p i : Nat)
    : ((replaceBlockInPhysicalMPU pd b n s).2.pdtables.get p).registers i
        =
      if p = pd ∧ i = n then
        s.registersFor n b
      else
        (s.pdtables.get p).registers i := by
  rw [replaceBlock_table]
  by_cases hp : p = pd
  . subst hp
    have hregisters := PDTable.registers_configureLUTEntry (i := i) hLUT hn (blockEntryAt b s)
      (s.blockEntries.get b).startAddr
    unfold PDTable.registers at hregisters ⊢
    rw [if_pos rfl]
    dsimp only at hregisters ⊢
    rw [hregisters]
    by_cases hin : i = n
    . subst hin
      simp only [if_true, true_and]
      unfold State.registersFor blockEntryAt
      by_cases hnull : b = nullAddr
      . simp only [hnull, if_true]
      . simp only [hnull, if_false]
    . simp only [hin, if_false, and_false]
  . rw [if_neg hp, if_neg fun hboth => hp hboth.1]

theorem replaceBlock_registersFor (pd b n : Nat) (s : State) (i x : Nat)
    : (replaceBlockInPhysicalMPU pd b n s).2.registersFor i x = s.registersFor i x := by
  unfold State.registersFor
  rw [replaceBlock_entries]

/--
A block is put in a region, it is accessible and in no other one.
-/
theorem replace {stale' : Nat → Prop} (h : Mapping C stale s) (hpd : C.Live pd) (hn : n < mpuRegionsNb)
    (hb : b ≠ nullAddr → C.Owns pd b ∧ s.Offered b ∧ ∀ i, i ≠ n → s.region pd i ≠ b)
    (hstale : ∀ x, stale x → x = b ∧ b ≠ nullAddr ∨ stale' x) (hapart : C.Apart)
    : Mapping C stale' (replaceBlockInPhysicalMPU pd b n s).2 := by
  have hregion := replaceBlock_region (b := b) (h.mpu_length pd hpd) hn
  constructor
  case mpu_length =>
    intro p hp
    rw [replaceBlock_table]
    split
    . rw [List.length_set]
      exact h.mpu_length pd hpd
    . exact h.mpu_length p hp
  case LUT_length =>
    intro p hp
    rw [replaceBlock_table]
    split
    . dsimp only
      unfold configureLUTEntry setLUTEntry
      split <;> simpa using h.LUT_length pd hpd
    . exact h.LUT_length p hp
  case owns =>
    intro p i hp hi
    rw [hregion] at hi ⊢
    split at hi
    . next hin =>
      rw [if_pos hin, hin.1]
      exact (hb hi).1
    . next hin =>
      rw [if_neg hin]
      exact h.owns p i hp hi
  case offered =>
    intro p i hp hi
    unfold State.Offered
    rw [replaceBlock_entries]
    rw [hregion] at hi ⊢
    split at hi
    . next hin =>
      rw [if_pos hin]
      exact (hb hi).2.1
    . next hin =>
      rw [if_neg hin]
      exact h.offered p i hp hi
  case once =>
    intro p hp i j hi hij
    rw [hregion] at hi
    rw [hregion, hregion] at hij
    by_cases hin : p = pd ∧ i = n <;> by_cases hjn : p = pd ∧ j = n
    . exact hin.2.trans hjn.2.symm
    . rw [if_pos hin] at hi
      rw [if_pos hin, if_neg hjn, hin.1] at hij
      exact absurd hij.symm ((hb hi).2.2 j fun hj => hjn ⟨hin.1, hj⟩)
    . rw [if_neg hin, if_pos hjn] at hij
      rw [if_neg hin, hij] at hi
      rw [hjn.1] at hij
      exact absurd hij ((hb hi).2.2 i fun hi => hin ⟨hjn.1, hi⟩)
    . rw [if_neg hin] at hi hij
      rw [if_neg hjn] at hij
      exact h.once p hp i j hi hij
  case programmed =>
    intro p i hp hi hnot
    rw [replaceBlock_registersFor, replaceBlock_registers (h.LUT_length pd hpd) hn]
    rw [hregion] at hnot ⊢
    by_cases hin : p = pd ∧ i = n
    . rw [if_pos hin, if_pos hin, hin.2]
    . rw [if_neg hin] at hnot
      rw [if_neg hin, if_neg hin]
      refine h.programmed p i hp hi fun hmem => ?_
      rcases hstale _ hmem with ⟨hxb, hne⟩ | hmem
      . -- the block belongs to one partition only, and there it is in no other region
        have howns := h.owns p i hp (hxb ▸ hne)
        rw [hxb] at howns
        have hsame := hapart.owns_unique howns (hb hne).1
        rw [hsame] at hxb
        exact (hb hne).2.2 i (fun hi => hin ⟨hsame, hi⟩) hxb
      . exact hnot hmem

/--
A region number that does not exist changes nothing.
-/
theorem enable (h : Mapping C stale s) (hapart : C.Apart) (hpd : C.Live pd)
    (hb : b ≠ nullAddr → C.Owns pd b ∧ s.Offered b ∧ ∀ i, i ≠ n → s.region pd i ≠ b)
    : Mapping C stale (enableBlockInMPU pd b n s).2 := by
  by_cases hn : n < mpuRegionsNb
  . rw [enableBlockInMPU_run hn]
    exact h.replace hpd hn hb (fun x hx => .inr hx) hapart
  . rw [enableBlockInMPU_invalid (Nat.le_of_not_lt hn)]
    exact h

end Mapping
