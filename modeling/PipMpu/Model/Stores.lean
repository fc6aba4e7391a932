import PipMpu.Model.Machine

/-!
This module contains what the stores of a handler do to the kernel objects. The objects lie in memories of their own,
and the handlers write to the memory of the partitions: the addresses they write to are recorded, and when a handler
has run the bytes there are laid over the objects that they belong to.
-/

/-
The fields of the objects
-/

section Overlay

variable (bytes : Mem Nat) (stores : List Nat)

/--
The word at `addr` after the bytes at the addresses in `stores` were written.
-/
def overlayWord (addr : Paddr) (value : Word) : Word :=
  let byte (i : Nat) : Nat := if addr + i ∈ stores then bytes.get (addr + i) % 256 else value / 256 ^ i % 256
  byte 0 + byte 1 * 256 + byte 2 * 65536 + byte 3 * 16777216

/--
Any byte but 0 reads as `true`.
-/
def overlayFlag (addr : Paddr) (value : Bool) : Bool :=
  if addr ∈ stores then bytes.get addr % 256 != 0 else value

def overlayPDTable (pd : Paddr) (pdt : PDTable) : PDTable :=
  {
      structurePtr := overlayWord bytes stores pd pdt.structurePtr
      firstfreeslot := overlayWord bytes stores (pd + 4) pdt.firstfreeslot
      nbfreeslots := overlayWord bytes stores (pd + 8) pdt.nbfreeslots
      nbprepare := overlayWord bytes stores (pd + 12) pdt.nbprepare
      parent := overlayWord bytes stores (pd + 16) pdt.parent
      mpu := pdt.mpu.mapIdx fun i value => overlayWord bytes stores (pd + 20 + 4 * i) value
      LUT := pdt.LUT.mapIdx fun i value => overlayWord bytes stores (pd + 52 + 4 * i) value
      vidtAddr := overlayWord bytes stores (pd + 116) pdt.vidtAddr
      interruptState := overlayWord bytes stores (pd + 120) pdt.interruptState
  }

def overlayBlockEntry (addr : Paddr) (entry : BlockEntry) : BlockEntry :=
  {
      startAddr := overlayWord bytes stores addr entry.startAddr
      endAddr := overlayWord bytes stores (addr + 4) entry.endAddr
      blockindex := overlayWord bytes stores (addr + 8) entry.blockindex
      read := overlayFlag bytes stores (addr + 12) entry.read
      write := overlayFlag bytes stores (addr + 13) entry.write
      exec := overlayFlag bytes stores (addr + 14) entry.exec
      present := overlayFlag bytes stores (addr + 15) entry.present
      accessible := overlayFlag bytes stores (addr + 16) entry.accessible
  }

def overlaySh1Entry (addr : Paddr) (entry : Sh1Entry) : Sh1Entry :=
  {
      PDchild := overlayWord bytes stores addr entry.PDchild
      inChildLocation := overlayWord bytes stores (addr + 4) entry.inChildLocation
      PDflag := overlayFlag bytes stores (addr + 8) entry.PDflag
  }

def overlaySCEntry (addr : Paddr) (entry : SCEntry) : SCEntry :=
  {
      origin := overlayWord bytes stores addr entry.origin
      next := overlayWord bytes stores (addr + 4) entry.next
  }

end Overlay

/--
The address is that of a byte of the word.
-/
def InWord (word x : Nat) : Prop := word ≤ x ∧ x < word + 4

theorem not_inWord {word x : Nat} : ¬InWord word x ↔ x < word ∨ word + 4 ≤ x := by
  unfold InWord
  omega

/--
The objects of this size that one of the bytes belongs to.
-/
def touched (stores : List Nat) (size : Nat) (addrs : List Paddr) : List Paddr :=
  addrs.filter fun addr => stores.any fun x => addr ≤ x && x < addr + size

theorem notMem_touched {stores : List Nat} {size : Nat} {addrs : List Paddr} {addr : Paddr}
    (h : ∀ x ∈ stores, ¬(addr ≤ x ∧ x < addr + size)) : addr ∉ touched stores size addrs := by
  intro hmem
  rcases List.any_eq_true.mp (List.mem_filter.mp hmem).2 with ⟨x, hx, hrange⟩
  simp only [Bool.and_eq_true, decide_eq_true_eq] at hrange
  exact h x hx hrange

/--
An entry at this key, beyond all addresses, marks what was in the memory before the handler ran.
-/
def storeMark : Nat := 2 ^ 64

namespace State

/--
The addresses that were written since the memory was marked.
-/
def stores (s : State) : List Nat := s.bytes.since storeMark

def marked (s : State) : State := { s with bytes := s.bytes.mark storeMark }

/--
The kernel objects after the bytes were written. The pointer to the next structure is behind the entries of a
structure, which are in the memory of the block entries.
-/
def overlay (s : State) : State :=
  { s with
    pdtables := s.pdtables.updateAt (overlayPDTable s.bytes s.stores) (touched s.stores sizeofPDTable s.pdtables.keys)
    blockEntries := s.blockEntries.updateAt (overlayBlockEntry s.bytes s.stores)
      (touched s.stores sizeofBlockEntry s.blockEntries.keys)
    sh1Entries := s.sh1Entries.updateAt (overlaySh1Entry s.bytes s.stores)
      (touched s.stores sizeofSh1Entry s.sh1Entries.keys)
    scEntries := s.scEntries.updateAt (overlaySCEntry s.bytes s.stores)
      (touched s.stores sizeofSCEntry s.scEntries.keys)
    nextPointers := s.nextPointers.updateAt (overlayWord s.bytes s.stores)
      (touched s.stores 4 (s.blockEntries.keys.map fun k => k + nextOffset)) }

variable (s : State)

theorem stores_marked : s.marked.stores = [] :=
  Mem.since_mark s.bytes storeMark

theorem stores_overlay : s.overlay.stores = s.stores := by
  rfl

theorem mem_stores_of_writeWord {addr x : Nat} {value : Word}
    (hx : x ∈ State.stores { s with bytes := writeWord s.bytes addr value }) : InWord addr x ∨ x ∈ s.stores := by
  unfold InWord
  unfold stores writeWord at hx
  rcases Mem.mem_since_set hx with rfl | hx
  . omega
  rcases Mem.mem_since_set hx with rfl | hx
  . omega
  rcases Mem.mem_since_set hx with rfl | hx
  . omega
  rcases Mem.mem_since_set hx with rfl | hx
  . omega
  exact .inr hx

theorem get_marked (addr : Nat) : s.marked.bytes.get addr = s.bytes.get addr :=
  Mem.get_mark s.bytes storeMark addr

theorem readWord_marked (addr : Nat) : readWord s.marked.bytes addr = readWord s.bytes addr :=
  readWord_mark s.bytes storeMark addr

end State

namespace Machine

def marked (m : Machine) : Machine := { m with state := m.state.marked }

def overlay (m : Machine) : Machine := { m with state := m.state.overlay }

theorem state_marked (m : Machine) : m.marked.state = m.state.marked := by
  rfl

theorem state_overlay (m : Machine) : m.overlay.state = m.state.overlay := by
  rfl

end Machine

namespace Handler

variable {α : Type} (h : Handler α) (m : Machine)

/--
Run a handler that writes to the memory, its stores reach the kernel objects when it has run.
-/
def stored : Handler α := fun m => ((h m.marked).1, (h m.marked).2.overlay)

theorem stored_snd : (h.stored m).2 = (h m.marked).2.overlay := by
  rfl

end Handler

/--
Store the bytes one after the other.
-/
def writeBytes (stores : List (Paddr × Nat)) : LLI Unit :=
  LLI.modify fun s =>
    { s with bytes := stores.foldl (fun bytes store => bytes.set store.1 (store.2 % 256)) s.bytes }

theorem stores_writeBytes {stores : List (Paddr × Nat)} {s : State} {x : Nat} (hx : x ∈ (writeBytes stores s).2.stores)
    : x ∈ stores.map Prod.fst ∨ x ∈ s.stores := by
  induction stores generalizing s with
  | nil => exact .inr hx
  | cons store stores ih =>
    rcases ih (s := { s with bytes := s.bytes.set store.1 (store.2 % 256) }) hx with hmem | hmem
    . exact .inl (List.mem_cons_of_mem _ hmem)
    . rcases Mem.mem_since_set hmem with rfl | hmem
      . exact .inl (List.mem_cons_self ..)
      . exact .inr hmem

/--
The bytes of the words.
-/
def wordStores (words : List (Paddr × Word)) : List (Paddr × Nat) :=
  words.flatMap fun word => (List.range 4).map fun i => (word.1 + i, word.2 / 256 ^ i)

theorem wordStores_addrs (words : List (Paddr × Word))
    : (wordStores words).map Prod.fst = (words.map Prod.fst).flatMap fun addr => (List.range 4).map (addr + ·) := by
  simp [wordStores, List.map_flatMap, List.flatMap_map, Function.comp_def]
