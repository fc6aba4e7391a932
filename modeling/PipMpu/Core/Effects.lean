import PipMpu.Core.ReadOnly

/-!
This module contains which writes the functions of `Internal.v` are made of: a relation that the writes
establish between the state before and after them is established by the function.
-/

section

variable {R : State → State → Prop} [Std.Refl R] [IsTrans State R]

/--
A step that only reads the state.
-/
theorem LLI.keeps_read {α β : Type} {op : LLI α} {f : α → LLI β} (hop : ∀ s, (op s).2 = s)
    (hf : ∀ a, Keeps R (f a)) : Keeps R (op >>= f) :=
  LLI.keeps_bind (Keeps.of_eq hop) hf

/-
The accessible bits of the ancestors
-/

section Accessible

variable {accessiblebit : Bool}
  (haccessible : ∀ entry, Keeps R (writeBlockAccessibleFromBlockEntryAddr entry accessiblebit))

include haccessible

/--
Only blocks that become inaccessible are taken out of the MPU.
-/
theorem writeAccessibleRecAux_keeps (timeout : Nat) (pdbasepartition idblock endblock : Paddr)
    (hunmap : accessiblebit = false → ∀ pd entry, Keeps R (removeBlockFromPhysicalMPU pd entry))
    : Keeps R (writeAccessibleRecAux timeout pdbasepartition idblock endblock accessiblebit) := by
  induction timeout generalizing pdbasepartition with
  | zero => exact LLI.keeps_pure false
  | succ timeout ih =>
    refine LLI.keeps_read (fun _ => rfl) fun rootPart => ?_
    apply Keeps.ite
    . intro _
      exact LLI.keeps_pure true
    . intro _
      refine LLI.keeps_read (fun _ => rfl) fun pdparent => ?_
      refine LLI.keeps_read (findExactBlockInKS_state pdparent idblock endblock) fun blockInParentPartitionAddr => ?_
      refine LLI.keeps_read (fun _ => rfl) fun addrIsNull => ?_
      apply Keeps.ite
      . intro _
        exact LLI.keeps_pure false
      . intro _
        refine LLI.keeps_bind (haccessible _) fun _ => ?_
        refine LLI.keeps_bind ?_ fun _ => ih pdparent
        unfold removeBlockFromPhysicalMPUIfNotAccessible
        apply Keeps.ite
        . intro hnot
          exact hunmap (by simpa using hnot) _ _
        . intro _
          exact LLI.keeps_pure ()

variable (hunmap : ∀ pd entry, Keeps R (removeBlockFromPhysicalMPU pd entry))

include hunmap

theorem writeAccessibleToAncestorsIfNotCutRec_keeps (pdbasepartition blockentryaddr : Paddr)
    : Keeps R (writeAccessibleToAncestorsIfNotCutRec pdbasepartition blockentryaddr accessiblebit) := by
  refine LLI.keeps_read (fun _ => rfl) fun blockOrigin => ?_
  refine LLI.keeps_read (fun _ => rfl) fun blockStart => ?_
  refine LLI.keeps_read (fun _ => rfl) fun blockNext => ?_
  refine LLI.keeps_read (fun _ => rfl) fun globalIdBlock => ?_
  refine LLI.keeps_read (fun _ => rfl) fun globalEndBlock => ?_
  apply Keeps.ite
  . intro _
    refine LLI.keeps_bind (writeAccessibleRecAux_keeps haccessible _ _ _ _ fun _ => hunmap) fun _ => ?_
    apply Keeps.ite <;> exact fun _ => LLI.keeps_pure _
  . intro _
    exact LLI.keeps_pure true

end Accessible

end
