import PipMpu.Model.CoveringLoop
import PipMpu.Props.CoveringRegion

/-!
This module contains why the search for the covering MPU region ends, and why no larger region would do. The search
holds an aligned interval around the address that fits in the block. Each turn of the loop finds a larger one, or the
alignment of an end leaves only intervals that share this end, and the largest of them is taken.
-/

theorem maxPowlog2AlignmentLoop_eq {r v fuel : Nat} (h : OddMultiple r v) (hle : 5 ≤ r) (hlt : r < 32)
    (hfuel : 32 ≤ fuel) : maxPowlog2AlignmentLoop fuel v = some r := by
  unfold maxPowlog2AlignmentLoop
  rw [if_neg h.ne_zero]
  rcases h with ⟨q, rfl⟩
  have hshift : (2 ^ r * (2 * q + 1)) >>> 4 = 2 ^ (r - 4) * (2 * q + 1) := by
    rw [Nat.shiftRight_eq_div_pow, show 2 ^ r = 2 ^ (r - 4) * 2 ^ 4 by rw [← Nat.pow_add]; congr 1; omega,
      Nat.mul_right_comm]
    exact Nat.mul_div_cancel _ (Nat.two_pow_pos 4)
  have hhalf : ∀ n, (2 ^ (n + 1) * (2 * q + 1)) >>> 1 = 2 ^ n * (2 * q + 1) := by
    intro n
    rw [Nat.shiftRight_eq_div_pow, Nat.pow_succ, Nat.mul_right_comm, Nat.pow_one]
    exact Nat.mul_div_cancel _ Nat.two_pos
  have hbit : ∀ n, (2 ^ n * (2 * q + 1)) % 2 = 1 ↔ n = 0 := by
    intro n
    cases n with
    | zero => simp
    | succ n => rw [Nat.pow_succ, Nat.mul_right_comm, Nat.mul_mod_left]; simp
  -- the zeroes that are left before the first bit
  let inv : Nat × Nat → Prop := fun s => s.2 < r ∧ s.1 = 2 ^ (r - s.2) * (2 * q + 1)
  have hpass : ∀ s, inv s → s.1 >>> 1 = 2 ^ (r - (s.2 + 1)) * (2 * q + 1) := by
    intro s hinv
    have hlt := hinv.1
    rw [hinv.2, show r - s.2 = r - (s.2 + 1) + 1 by omega, hhalf]
  refine doWhile_map_eq inv (fun s => r - s.2) ?_ ?_ ⟨by omega, hshift⟩ (by omega)
  . intro s hinv hagain
    have hlt := hinv.1
    have hne : r - (s.2 + 1) ≠ 0 := by
      intro hzero
      have hodd := (hbit _).mpr hzero
      rw [← hpass _ hinv] at hodd
      simp [hodd] at hagain
    exact ⟨⟨Nat.lt_of_sub_ne_zero hne, hpass _ hinv⟩, Nat.sub_lt_sub_left hlt (Nat.lt_succ_self _)⟩
  . intro s hinv hstop
    have hlt := hinv.1
    have hodd : (s.1 >>> 1) % 2 = 1 := by simpa using hstop
    rw [hpass _ hinv, hbit] at hodd
    exact Nat.le_antisymm hlt (Nat.sub_eq_zero_iff_le.mp hodd)

namespace largestCoveringMPURegion

variable {S E a j b : Nat}

theorem sub32_one {k : Nat} (hpos : 0 < k) (hk : k < 32) : sub32 k 1 = k - 1 := by
  unfold sub32
  rw [wordSize_eq]
  omega

/--
A loop over decreasing powers of two stops at the first one that is not outside of the block.
-/
theorem shrinkLoop_eq (f : Nat → Nat) (outside : Nat → Bool) (x : Nat) {fuel n k : Nat} (hn : n < 32)
    (hfuel : 32 ≤ fuel) (hk : k < n) (hin : outside (f k) = false)
    (hout : ∀ i, k < i → i < n → outside (f i) = true)
    : (doWhile (fun s : Nat × Nat => (sub32 s.1 1, f (sub32 s.1 1))) (fun s => outside s.2) fuel (n, x)).map Prod.snd
        =
      some (f k) := by
  have hpred : ∀ s : Nat × Nat, k < s.1 ∧ s.1 ≤ n → sub32 s.1 1 = s.1 - 1 :=
    fun s hs => sub32_one (by omega) (by omega)
  refine doWhile_map_eq (fun s => k < s.1 ∧ s.1 ≤ n) Prod.fst ?_ ?_ ⟨hk, Nat.le_refl n⟩ (by omega)
  . intro s hs hagain
    dsimp only at hagain ⊢
    rw [hpred s hs] at hagain ⊢
    have hne : s.1 - 1 ≠ k := by
      intro heq
      rw [heq, hin] at hagain
      exact absurd hagain (by simp)
    omega
  . intro s hs hstop
    dsimp only at hstop ⊢
    rw [hpred s hs] at hstop ⊢
    have heq : s.1 - 1 = k := by
      by_contra hne
      rw [hout _ (by omega) (by omega)] at hstop
      exact absurd hstop (by simp)
    rw [heq]

theorem raiseBottomLoop_eq {fuel n t k : Nat} (ht : t < wordSize) (hn : n < 32) (hfuel : 32 ≤ fuel)
    (hfit : ∀ i < n, 2 ^ i ≤ t) (hk : k < n) (hS : S ≤ t - 2 ^ k) (hmax : ∀ i, k < i → i < n → t - 2 ^ i < S)
    : raiseBottomLoop fuel S t n = some (t - 2 ^ k) := by
  have hsub : ∀ i < n, sub32 t (pow32 i) = t - 2 ^ i := by
    intro i hi
    have := sub32_pow32 (Nat.le_of_lt ht) (hi.trans hn) (hfit i hi)
    rw [Nat.mod_eq_of_lt ht] at this
    exact this
  rw [← hsub k hk]
  refine shrinkLoop_eq (fun i => sub32 t (pow32 i)) (fun bottom => decide (bottom < S)) t hn hfuel hk ?_ ?_
  . rw [hsub k hk]
    exact decide_eq_false (Nat.not_lt.mpr hS)
  . intro i hi hin
    rw [hsub i hin]
    exact decide_eq_true (hmax i hi hin)

theorem lowerTopLoop_eq {fuel n k : Nat} (hn : n < 32) (hfuel : 32 ≤ fuel) (hfit : ∀ i < n, b + 2 ^ i < wordSize)
    (hk : k < n) (hE : b + 2 ^ k ≤ E) (hmax : ∀ i, k < i → i < n → E < b + 2 ^ i)
    : lowerTopLoop fuel E b n = some (b + 2 ^ k) := by
  have hadd : ∀ i < n, add32 b (pow32 i) = b + 2 ^ i := by
    intro i hi
    rw [add32_pow32 b (hi.trans hn), Nat.mod_eq_of_lt (hfit i hi)]
  rw [← hadd k hk]
  refine shrinkLoop_eq (fun i => add32 b (pow32 i)) (fun top => decide (top > E)) b hn hfuel hk ?_ ?_
  . rw [hadd k hk]
    exact decide_eq_false (Nat.not_lt.mpr hE)
  . intro i hi hin
    rw [hadd i hin]
    exact decide_eq_true (hmax i hi hin)

/--
The interval fits in the block.
-/
structure Fits (S E a j b : Nat) : Prop where
  size_le : 5 ≤ j
  around : DyadicAround a j b
  start_le : S ≤ b
  le_end : b + 2 ^ j ≤ E

/--
The region is a power of two long and aligned to it, it contains `a` and lies within `[S, E)`, and no larger aligned
region around `a` does.
-/
structure LargestAround (S E a k : Nat) (region : Nat × Nat) : Prop where
  fits : Fits S E a k region.1
  top_eq : region.2 = region.1 + 2 ^ k
  largest : ∀ k' b', k < k' → DyadicAround a k' b' → ¬(S ≤ b' ∧ b' + 2 ^ k' ≤ E)

/--
If the top is the better aligned end and does not allow for a larger interval, the largest one ends at it.
-/
theorem Fits.largest_below {k r : Nat} (h : Fits S E a j b) (hr : OddMultiple r (b + 2 ^ j)) (hjk : j ≤ k) (hkr : k < r)
    (hS : S ≤ b + 2 ^ j - 2 ^ k) (hmax : ∀ i, k < i → i < r → b + 2 ^ j - 2 ^ i < S) (hlow : b + 2 ^ j - 2 ^ r < S)
    : LargestAround S E a k (b + 2 ^ j - 2 ^ k, b + 2 ^ j) := by
  have hdvd : ∀ i ≤ r, 2 ^ i ∣ b + 2 ^ j := fun i hi => (Nat.pow_dvd_pow 2 hi).trans hr.dvd
  have hle : 2 ^ k ≤ b + 2 ^ j := (Nat.pow_le_pow_right (by decide) (Nat.le_of_lt hkr)).trans hr.pow_le
  have hpow : 2 ^ j ≤ 2 ^ k := Nat.pow_le_pow_right (by decide) hjk
  have hab := h.around.le
  have hat := h.around.lt
  have hend := h.le_end
  constructor
  case fits =>
    refine ⟨h.size_le.trans hjk, ⟨Nat.dvd_sub (hdvd k (Nat.le_of_lt hkr)) (Nat.dvd_refl _), ?_, ?_⟩, hS, ?_⟩
    all_goals
      dsimp only
      omega
  case top_eq =>
    dsimp only
    omega
  case largest =>
    rintro k' c hk' hc ⟨hSc, -⟩
    have hjk' : j ≤ k' := by omega
    rcases Nat.lt_trichotomy k' r with hlt | rfl | hgt
    . have htop := h.around.top_eq hc hjk' (hdvd k' (Nat.le_of_lt hlt))
      have := hmax k' hk' hlt
      omega
    . have htop := h.around.top_eq hc hjk' hr.dvd
      omega
    . have := h.around.le_of_odd_top hc hjk' hr hgt
      omega

/--
If the bottom is, the largest one starts there.
-/
theorem Fits.largest_above {k n : Nat} (h : Fits S E a j b) (hn : Alignment n b) (hjk : j ≤ k) (hkn : k < n)
    (hE : b + 2 ^ k ≤ E) (hmax : ∀ i, k < i → i < n → E < b + 2 ^ i) (hhigh : E < b + 2 ^ n)
    : LargestAround S E a k (b, b + 2 ^ k) := by
  have hdvd : ∀ i ≤ n, 2 ^ i ∣ b := fun i hi => (Nat.pow_dvd_pow 2 hi).trans hn.dvd
  have hpow : 2 ^ j ≤ 2 ^ k := Nat.pow_le_pow_right (by decide) hjk
  have hat := h.around.lt
  constructor
  case fits =>
    refine ⟨h.size_le.trans hjk, ⟨hdvd k (Nat.le_of_lt hkn), h.around.le, ?_⟩, h.start_le, hE⟩
    dsimp only
    omega
  case top_eq => rfl
  case largest =>
    rintro k' c hk' hc ⟨-, hcE⟩
    have hjk' : j ≤ k' := by omega
    rcases Nat.lt_trichotomy k' n with hlt | rfl | hgt
    . rw [h.around.bottom_eq hc hjk' (hdvd k' (Nat.le_of_lt hlt))] at hcE
      have := hmax k' hk' hlt
      omega
    . rw [h.around.bottom_eq hc hjk' (hdvd k' (Nat.le_refl k'))] at hcE
      omega
    . rcases hn with ⟨rfl, rfl⟩ | ⟨hodd, -⟩
      . have : 2 ^ 31 ≤ 2 ^ k' := Nat.pow_le_pow_right (by decide) (Nat.le_of_lt hgt)
        omega
      . have := h.around.le_of_odd_bottom hc hodd hgt
        omega

theorem Alignment.loop_eq {fuel n v : Nat} (h : Alignment n v) (hfuel : 32 ≤ fuel)
    : maxPowlog2AlignmentLoop fuel v = some n := by
  rcases h with ⟨rfl, rfl⟩ | ⟨h, hle, hlt⟩
  . rfl
  . exact maxPowlog2AlignmentLoop_eq h hle hlt hfuel

theorem goLoop_down {fuel r i : Nat} (hj : 5 ≤ j) (hb : OddMultiple j b) (ht : OddMultiple r (b + 2 ^ j))
    (hlt : b + 2 ^ j < wordSize) (hfuel : 32 ≤ fuel)
    : goLoop fuel S E (i + 1) b (b + 2 ^ j)
        =
      if b + 2 ^ j - 2 ^ r < S then
        (raiseBottomLoop fuel S (b + 2 ^ j) r).bind fun bottom => some (bottom, b + 2 ^ j)
      else
        goLoop fuel S E i (b + 2 ^ j - 2 ^ r) (b + 2 ^ j) := by
  have hjr : j < r := ht.le_of_dvd hb.dvd_add
  have hr : r < 32 := ht.lt_of_lt hlt
  have hsub := sub32_pow32 (Nat.le_of_lt hlt) hr ht.pow_le
  rw [Nat.mod_eq_of_lt hlt] at hsub
  rw [goLoop, maxPowlog2AlignmentLoop_eq ht (by omega) hr hfuel, maxPowlog2AlignmentLoop_eq hb hj (by omega) hfuel]
  simp only [Option.bind_eq_bind, Option.bind_some, gt_iff_lt, hjr, if_true, hsub]

theorem goLoop_up {fuel n i : Nat} (hj : 5 ≤ j) (hj32 : j < 32) (hb : 2 ^ (j + 1) ∣ b) (hn : Alignment n b)
    (hfuel : 32 ≤ fuel)
    : goLoop fuel S E (i + 1) b (b + 2 ^ j)
        =
      if (b + 2 ^ n) % wordSize > E then
        (lowerTopLoop fuel E b n).bind fun top => some (b, top)
      else
        goLoop fuel S E i b ((b + 2 ^ n) % wordSize) := by
  have htop : OddMultiple j (b + 2 ^ j) := OddMultiple.add_of_dvd hb
  have hle : j ≤ n := by
    rcases hn with ⟨_, rfl⟩ | ⟨h, _⟩
    . omega
    . exact Nat.le_of_succ_le (h.le_of_dvd hb)
  rw [goLoop, maxPowlog2AlignmentLoop_eq htop hj hj32 hfuel, hn.loop_eq hfuel]
  simp only [Option.bind_eq_bind, Option.bind_some, gt_iff_lt, Nat.not_lt.mpr hle, if_false, add32_pow32 b hn.lt]

/--
The loop without fuel and the one with fuel both end with the region.
-/
structure Finds (fuel S E i b t : Nat) (region : Nat × Nat) : Prop where
  loop : goLoop fuel S E i b t = some region
  run : go S E i b t = region

/--
One turn of the loop: it goes on with a larger interval that fits, or it ends with the largest one.
-/
theorem Fits.turn {fuel : Nat} (h : Fits S E a j b) (hE : E ≤ 2 ^ 31) (hzero : S = 0 → E < 2 ^ 31)
    (hfuel : 32 ≤ fuel)
    : (∃ j' b', j < j' ∧ Fits S E a j' b' ∧ ∀ i region, Finds fuel S E i b' (b' + 2 ^ j') region →
          Finds fuel S E (i + 1) b (b + 2 ^ j) region)
        ∨ ∃ k region, LargestAround S E a k region ∧ ∀ i, Finds fuel S E (i + 1) b (b + 2 ^ j) region := by
  have hj5 := h.size_le
  have hend := h.le_end
  have hstart := h.start_le
  have hab := h.around.le
  have hat := h.around.lt
  have hword : b + 2 ^ j < wordSize := by
    rw [wordSize_eq]
    omega
  have hj31 : j < 31 := by
    by_contra hge
    have hpow : 2 ^ 31 ≤ 2 ^ j := Nat.pow_le_pow_right (by decide) (Nat.le_of_not_lt hge)
    have := hzero (by omega)
    omega
  rcases oddMultiple_or_dvd h.around.aligned with hodd | heven
  . -- the top is the better aligned end
    obtain ⟨r, hr⟩ := OddMultiple.exists_of_ne_zero (v := b + 2 ^ j) (by omega)
    have hjr : j < r := hr.le_of_dvd hodd.dvd_add
    have hr32 : r < 32 := hr.lt_of_lt (n := 32) hword
    have hrle := hr.pow_le
    by_cases hlow : b + 2 ^ j - 2 ^ r < S
    . right
      have hfit : ∀ k < r, 2 ^ k ≤ b + 2 ^ j := fun k hk =>
        (Nat.pow_le_pow_right (by decide) (Nat.le_of_lt hk)).trans hrle
      rcases raiseBottom_spec (S := S) 32 (Nat.le_of_lt hword) (by omega) (by omega) hfit hjr (by omega) with
        ⟨k, hjk, hkr, hS, hmax, hrun⟩
      rw [Nat.mod_eq_of_lt hword] at hrun
      have hloop := raiseBottomLoop_eq hword hr32 hfuel hfit hkr hS hmax
      refine ⟨k, _, h.largest_below hr hjk hkr hS hmax hlow, fun i => ⟨?_, ?_⟩⟩
      . rw [goLoop_down hj5 hodd hr hword hfuel, if_pos hlow, hloop]
        rfl
      . rw [go_down hj5 hodd hr hword, if_pos hlow, hrun]
    . left
      have hpow : 2 ^ j ≤ 2 ^ r := Nat.pow_le_pow_right (by decide) (Nat.le_of_lt hjr)
      have hnext : Fits S E a r (b + 2 ^ j - 2 ^ r) :=
        ⟨by omega, ⟨Nat.dvd_sub hr.dvd (Nat.dvd_refl _), by omega, by omega⟩, by omega, by omega⟩
      refine ⟨r, _, hjr, hnext, fun i region hfinds => ?_⟩
      rw [Nat.sub_add_cancel hrle] at hfinds
      constructor
      . rw [goLoop_down hj5 hodd hr hword hfuel, if_neg hlow]
        exact hfinds.loop
      . rw [go_down hj5 hodd hr hword, if_neg hlow]
        exact hfinds.run
  . -- the bottom is
    obtain ⟨n, hn, hjn⟩ := Alignment.exists hj5 h.around.aligned (by omega)
    have hjn : j < n := by
      rcases hn with ⟨-, rfl⟩ | ⟨hodd, -⟩
      . exact hj31
      . exact hodd.le_of_dvd heven
    have hnowrap : b + 2 ^ n < wordSize := by
      rw [wordSize_eq]
      have hle : 2 ^ n ≤ 2 ^ 31 := Nat.pow_le_pow_right (by decide) (Nat.le_of_lt_succ hn.lt)
      omega
    by_cases hhigh : b + 2 ^ n > E
    . right
      have hfit : ∀ k < n, b + 2 ^ k < wordSize := by
        intro k hk
        have : 2 ^ k ≤ 2 ^ n := Nat.pow_le_pow_right (by decide) (Nat.le_of_lt hk)
        omega
      rcases lowerTop_spec (L := E) 32 (Nat.le_of_lt hn.lt) (Nat.le_of_lt hn.lt) hfit hjn hend with
        ⟨k, hjk, hkn, hkE, hmax, hrun⟩
      have hloop := lowerTopLoop_eq hn.lt hfuel hfit hkn hkE hmax
      refine ⟨k, _, h.largest_above hn hjk hkn hkE hmax hhigh, fun i => ⟨?_, ?_⟩⟩
      . rw [goLoop_up hj5 (by omega) heven hn hfuel, Nat.mod_eq_of_lt hnowrap, if_pos hhigh, hloop]
        rfl
      . rw [go_up hj5 (by omega) heven hn, Nat.mod_eq_of_lt hnowrap, if_pos hhigh, hrun]
    . left
      have hpow : 2 ^ j ≤ 2 ^ n := Nat.pow_le_pow_right (by decide) (Nat.le_of_lt hjn)
      have hnext : Fits S E a n b := ⟨by omega, ⟨hn.dvd, hab, by omega⟩, hstart, by omega⟩
      refine ⟨n, b, hjn, hnext, fun i region hfinds => ?_⟩
      constructor
      . rw [goLoop_up hj5 (by omega) heven hn hfuel, Nat.mod_eq_of_lt hnowrap, if_neg hhigh]
        exact hfinds.loop
      . rw [go_up hj5 (by omega) heven hn, Nat.mod_eq_of_lt hnowrap, if_neg hhigh]
        exact hfinds.run

/--
The interval grows with each turn, so that the loop ends before its counter does.
-/
theorem Fits.finds {fuel i : Nat} (h : Fits S E a j b) (hE : E ≤ 2 ^ 31) (hzero : S = 0 → E < 2 ^ 31)
    (hfuel : 32 ≤ fuel) (hi : 32 ≤ i + j)
    : ∃ k region, LargestAround S E a k region ∧ Finds fuel S E i b (b + 2 ^ j) region := by
  induction i generalizing j b with
  | zero =>
    have hpow : 2 ^ 32 ≤ 2 ^ j := Nat.pow_le_pow_right (by decide) (by omega)
    have hend := h.le_end
    omega
  | succ i ih =>
    rcases h.turn hE hzero hfuel with ⟨j', b', hj', hnext, hgoes⟩ | ⟨k, region, hlargest, hends⟩
    . rcases ih hnext (by omega) with ⟨k, region, hlargest, hfinds⟩
      exact ⟨k, region, hlargest, hgoes i region hfinds⟩
    . exact ⟨k, region, hlargest, hends i⟩

end largestCoveringMPURegion

section

open largestCoveringMPURegion

variable {block : BlockEntry} {addr : Nat}

theorem largestCoveringMPURegion_start {fuel : Nat} {region : Nat × Nat} (hword : block.endAddr + 1 ≤ 2 ^ 31)
    (haddr : addr ≤ block.endAddr)
    (h : Finds fuel block.startAddr (block.endAddr + 1) 32 (addr / 32 * 32) (addr / 32 * 32 + 2 ^ 5) region)
    : largestCoveringMPURegionLoop fuel block addr = some region ∧ largestCoveringMPURegion block addr = region := by
  have htop : add32 (addr / 32 * 32) 32 = addr / 32 * 32 + 2 ^ 5 := Nat.mod_eq_of_lt (by
    rw [wordSize_eq]
    omega)
  have hlimit : add32 block.endAddr 1 = block.endAddr + 1 := Nat.mod_eq_of_lt (by
    rw [wordSize_eq]
    omega)
  unfold largestCoveringMPURegionLoop largestCoveringMPURegion
  simp only [htop, hlimit]
  exact ⟨h.loop, h.run⟩

/--
The search ends with a region around the address that lies within the block and is the largest one.
-/
theorem largestCoveringMPURegion_finds {fuel : Nat} (hstart : 32 ∣ block.startAddr) (hend : 32 ∣ block.endAddr + 1)
    (hword : block.endAddr + 1 ≤ 2 ^ 31) (hzero : block.startAddr = 0 → block.endAddr + 1 < 2 ^ 31)
    (hle : block.startAddr ≤ addr) (haddr : addr ≤ block.endAddr) (hfuel : 32 ≤ fuel)
    : ∃ k, LargestAround block.startAddr (block.endAddr + 1) addr k (largestCoveringMPURegion block addr)
        ∧ largestCoveringMPURegionLoop fuel block addr = some (largestCoveringMPURegion block addr) := by
  have hfits : Fits block.startAddr (block.endAddr + 1) addr 5 (addr / 32 * 32) :=
    ⟨Nat.le_refl 5, ⟨Nat.dvd_mul_left _ _, Nat.div_mul_le_self _ _, by omega⟩, by omega, by omega⟩
  rcases hfits.finds hword hzero hfuel (i := 32) (by decide) with ⟨k, region, hlargest, hfinds⟩
  rcases largestCoveringMPURegion_start hword haddr hfinds with ⟨hloop, hrun⟩
  rw [hrun]
  exact ⟨k, hlargest, hloop⟩

/--
Unless the block starts at zero it may go up to the end of the lower half of the address space.
-/
theorem largestCoveringMPURegion_largest {fuel : Nat} (hstart : 32 ∣ block.startAddr) (hend : 32 ∣ block.endAddr + 1)
    (hpos : 0 < block.startAddr) (hword : block.endAddr + 1 ≤ 2 ^ 31) (hle : block.startAddr ≤ addr)
    (haddr : addr ≤ block.endAddr) (hfuel : 32 ≤ fuel)
    : ∃ k, largestCoveringMPURegionLoop fuel block addr = some (largestCoveringMPURegion block addr)
        ∧ LargestAround block.startAddr (block.endAddr + 1) addr k (largestCoveringMPURegion block addr) := by
  have hzero : block.startAddr = 0 → block.endAddr + 1 < 2 ^ 31 := by omega
  rcases largestCoveringMPURegion_finds hstart hend hword hzero hle haddr hfuel with ⟨k, hlargest, hloop⟩
  exact ⟨k, hloop, hlargest⟩

end

theorem largestCoveringMPURegion_largest_ram
    : ∃ k, largestCoveringMPURegionLoop 32 (ramBlock 0x20001000 0x20006FFF 0 true) 0x20003010
          = some (largestCoveringMPURegion (ramBlock 0x20001000 0x20006FFF 0 true) 0x20003010)
        ∧ largestCoveringMPURegion.LargestAround 0x20001000 0x20007000 0x20003010 k
          (largestCoveringMPURegion (ramBlock 0x20001000 0x20006FFF 0 true) 0x20003010) :=
  largestCoveringMPURegion_largest
    (show 32 ∣ (ramBlock 0x20001000 0x20006FFF 0 true).startAddr by decide) (by decide) (by decide)
    (by decide) (by decide) (by decide) (by decide)
