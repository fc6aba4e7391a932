import Mathlib.Algebra.Group.Nat.Defs
import Mathlib.Data.List.Basic

/-!
This module contains the memories the models are built on: finite maps from addresses to values
which read as `default` everywhere nothing was written, so that zeroed memory needs no entry.
-/

/--
A memory holding values of type `α`, the entry written last for an address comes first.
-/
structure Mem (α : Type) where
  entries : List (Nat × α)
  deriving DecidableEq, Repr

namespace Mem

variable {α : Type}

/--
The memory in which every address reads as `default`.
-/
def empty : Mem α := ⟨[]⟩

def get [Inhabited α] (mem : Mem α) (addr : Nat) : α :=
  go mem.entries
where
  go : List (Nat × α) → α
    | [] => default
    | (key, value) :: rest => if key = addr then value else go rest

def set (mem : Mem α) (addr : Nat) (value : α) : Mem α :=
  ⟨(addr, value) :: mem.entries.filter (fun entry => entry.1 ≠ addr)⟩

def keys (mem : Mem α) : List Nat := mem.entries.map Prod.fst

/--
Zero the addresses from `lo` up to, but not including, `hi`.
-/
def eraseRange (mem : Mem α) (lo hi : Nat) : Mem α :=
  ⟨mem.entries.filter (fun entry => ¬(lo ≤ entry.1 ∧ entry.1 < hi))⟩

@[simp]
theorem set_set (mem : Mem α) (addr : Nat) (value value' : α)
    : (mem.set addr value).set addr value' = mem.set addr value' := by
  unfold set
  simp

variable [Inhabited α]

@[simp]
theorem get_empty (addr : Nat) : (empty : Mem α).get addr = default := by
  rfl

theorem get_go_filter (p : Nat → Bool) (entries : List (Nat × α)) (addr : Nat)
    : get.go addr (entries.filter (fun entry => p entry.1))
        =
      if p addr then get.go addr entries else default := by
  induction entries with
  | nil => simp [get.go]
  | cons entry rest ih =>
    rcases entry with ⟨key, value⟩
    by_cases hkey : key = addr
    . subst hkey
      by_cases hp : p key
      . simp [hp, get.go]
      . simp [hp, ih]
    . by_cases hp : p key
      . simp [hp, get.go, hkey, ih]
      . simp [hp, get.go, hkey, ih]

theorem get_set (mem : Mem α) (addr : Nat) (value : α) (other : Nat)
    : (mem.set addr value).get other = if addr = other then value else mem.get other := by
  unfold get set
  by_cases h : addr = other
  . simp [get.go, h]
  . have := get_go_filter (fun key => decide (key ≠ addr)) mem.entries other
    simp only [get.go, h, if_false]
    rw [this]
    simp [Ne.symm h]

@[simp]
theorem get_set_self (mem : Mem α) (addr : Nat) (value : α)
    : (mem.set addr value).get addr = value := by
  simp [get_set]

theorem get_set_of_ne (mem : Mem α) {addr other : Nat} (value : α) (h : addr ≠ other)
    : (mem.set addr value).get other = mem.get other := by
  simp [get_set, h]

theorem get_eraseRange (mem : Mem α) (lo hi other : Nat)
    : (mem.eraseRange lo hi).get other
        =
      if lo ≤ other ∧ other < hi then default else mem.get other := by
  unfold get eraseRange
  have := get_go_filter (fun key => decide ¬(lo ≤ key ∧ key < hi)) mem.entries other
  rw [this]
  by_cases h : lo ≤ other ∧ other < hi
  . simp [h]
  . simp only [h, not_false_eq_true, decide_true, if_true, if_false]

theorem get_eraseRange_of_notMem (mem : Mem α) {lo hi other : Nat} (h : ¬(lo ≤ other ∧ other < hi))
    : (mem.eraseRange lo hi).get other = mem.get other := by
  rw [get_eraseRange]
  simp only [h, if_false]

/--
Write the values to consecutive addresses from `addr` on.
-/
def setList (mem : Mem α) (addr : Nat) : List α → Mem α
  | [] => mem
  | value :: values => (mem.set addr value).setList (addr + 1) values

theorem get_setList (mem : Mem α) (addr : Nat) (values : List α) (other : Nat)
    : (mem.setList addr values).get other
        =
      if addr ≤ other ∧ other < addr + values.length then
        values.getD (other - addr) default
      else
        mem.get other := by
  induction values generalizing mem addr with
  | nil =>
    rw [if_neg (by simp only [List.length_nil]; omega)]
    rfl
  | cons value values ih =>
    unfold setList
    rw [ih, get_set, List.length_cons]
    by_cases hfirst : addr = other
    . subst hfirst
      rw [if_neg (by omega), if_pos rfl, if_pos (by omega), Nat.sub_self]
      rfl
    . rw [if_neg hfirst]
      by_cases hrest : addr + 1 ≤ other ∧ other < addr + 1 + values.length
      . rw [if_pos hrest, if_pos (by omega), show other - addr = other - (addr + 1) + 1 by omega]
        rfl
      . rw [if_neg hrest, if_neg (by omega)]

/--
Put an entry in front of the others, which reads as before. What is written from now on comes before it.
-/
def mark (mem : Mem α) (key : Nat) : Mem α := mem.set key (mem.get key)

/--
The addresses that were written since the memory was marked.
-/
def since (mem : Mem α) (key : Nat) : List Nat := mem.keys.takeWhile (· ≠ key)

theorem get_mark (mem : Mem α) (key addr : Nat) : (mem.mark key).get addr = mem.get addr := by
  unfold mark
  rw [get_set]
  split
  . next heq => rw [heq]
  . rfl

omit [Inhabited α] in
theorem keys_set (mem : Mem α) (addr : Nat) (value : α)
    : (mem.set addr value).keys = addr :: mem.keys.filter (· ≠ addr) := by
  unfold keys set
  rw [List.map_cons, List.filter_map]
  rfl

/--
Elements that the prefix does not end at may be taken out before.
-/
theorem mem_takeWhile_of_filter {p q : Nat → Bool} {keys : List Nat} {x : Nat} (hpq : ∀ y, q y = false → p y = true)
    (hx : x ∈ (keys.filter q).takeWhile p) : x ∈ keys.takeWhile p := by
  induction keys with
  | nil => exact hx
  | cons key keys ih =>
    rw [List.takeWhile_cons]
    cases hq : q key with
    | false =>
      rw [List.filter_cons, hq] at hx
      rw [hpq key hq]
      exact List.mem_cons_of_mem _ (ih hx)
    | true =>
      rw [List.filter_cons, hq, if_pos rfl, List.takeWhile_cons] at hx
      split at hx
      . next hp =>
        rw [if_pos hp]
        rcases List.mem_cons.mp hx with rfl | hmem
        . exact List.mem_cons_self ..
        . exact List.mem_cons_of_mem _ (ih hmem)
      . exact absurd hx List.not_mem_nil

omit [Inhabited α] in
theorem mem_since_set {mem : Mem α} {addr key x : Nat} {value : α} (h : x ∈ (mem.set addr value).since key)
    : x = addr ∨ x ∈ mem.since key := by
  unfold since at *
  rw [keys_set, List.takeWhile_cons] at h
  split at h
  . next hne =>
    rcases List.mem_cons.mp h with heq | hmem
    . exact .inl heq
    . refine .inr (mem_takeWhile_of_filter (fun y hy => ?_) hmem)
      rw [not_not.mp (of_decide_eq_false hy)]
      exact hne
  . exact absurd h List.not_mem_nil

@[simp]
theorem since_mark (mem : Mem α) (key : Nat) : (mem.mark key).since key = [] := by
  unfold mark since
  rw [keys_set, List.takeWhile_cons]
  simp

/-
Updates of several values
-/

/--
Update the values at the addresses.
-/
def updateAt (mem : Mem α) (f : Nat → α → α) : List Nat → Mem α
  | [] => mem
  | addr :: addrs => (mem.set addr (f addr (mem.get addr))).updateAt f addrs

theorem get_updateAt_of_notMem (mem : Mem α) (f : Nat → α → α) {addrs : List Nat} {addr : Nat} (h : addr ∉ addrs)
    : (mem.updateAt f addrs).get addr = mem.get addr := by
  induction addrs generalizing mem with
  | nil => rfl
  | cons first addrs ih =>
    rw [List.mem_cons, not_or] at h
    rw [updateAt, ih _ h.2, get_set_of_ne _ _ (Ne.symm h.1)]

end Mem
