import PipMpu.Model.MALInternal
import PipMpu.Util.Dyadic

/-!
This module contains what `largest_covering_MPU_region` computes for every block and every address
that is not below its start nor above its end, and the region that the LUT entry encodes.
-/

theorem maxPowlog2Alignment_go (fuel d q r : Nat) (h : d < fuel)
    : maxPowlog2Alignment.go fuel (2 ^ (d + 1) * (2 * q + 1)) r = r + d + 1 := by
  induction fuel generalizing d r with
  | zero => omega
  | succ fuel ih =>
    unfold maxPowlog2Alignment.go
    have hshift : (2 ^ (d + 1) * (2 * q + 1)) >>> 1 = 2 ^ d * (2 * q + 1) := by
      rw [Nat.shiftRight_eq_div_pow, Nat.pow_succ, Nat.mul_right_comm, Nat.pow_one]
      exact Nat.mul_div_cancel _ Nat.two_pos
    rw [hshift]
    cases d with
    | zero =>
      have hodd : (2 * q + 1) % 2 = 1 := by omega
      rw [Nat.pow_zero, Nat.one_mul, if_pos hodd]
    | succ d =>
      rw [if_neg]
      . rw [ih d (r + 1) (by omega)]
        have harith : r + 1 + d + 1 = r + (d + 1) + 1 := by omega
        exact harith
      . rw [Nat.pow_succ, Nat.mul_right_comm, Nat.mul_mod_left]
        decide

theorem maxPowlog2Alignment_eq {r v : Nat} (h : OddMultiple r v) (hle : 5 ≤ r) (hlt : r < 32)
    : maxPowlog2Alignment v = r := by
  unfold maxPowlog2Alignment
  rw [if_neg h.ne_zero]
  rcases h with ⟨q, rfl⟩
  obtain ⟨d, rfl⟩ : ∃ d, r = d + 5 := ⟨r - 5, by omega⟩
  have hshift : (2 ^ (d + 5) * (2 * q + 1)) >>> 4 = 2 ^ (d + 1) * (2 * q + 1) := by
    rw [Nat.shiftRight_eq_div_pow, show 2 ^ (d + 5) = 2 ^ (d + 1) * 2 ^ 4 by ring, Nat.mul_right_comm]
    exact Nat.mul_div_cancel _ (Nat.two_pow_pos 4)
  rw [hshift, maxPowlog2Alignment_go _ _ _ _ (by omega)]
  have harith : 4 + d + 1 = d + 5 := by omega
  exact harith

theorem maxPowlog2Alignment_zero : maxPowlog2Alignment 0 = 31 := by
  rfl

theorem pow32_eq {k : Nat} (h : k < 32) : pow32 k = 2 ^ k := by
  unfold pow32
  exact Nat.mod_eq_of_lt (Nat.pow_lt_pow_right (by decide) h)

/--
Going down from `t`, where zero stands for the end of the address space.
-/
theorem sub32_pow32 {t k : Nat} (ht : t ≤ wordSize) (hk : k < 32) (hle : 2 ^ k ≤ t)
    : sub32 (t % wordSize) (pow32 k) = t - 2 ^ k := by
  rw [pow32_eq hk]
  have hpos : 0 < 2 ^ k := Nat.pow_pos (by decide)
  have hlt : 2 ^ k < wordSize := Nat.pow_lt_pow_right (by decide) hk
  unfold sub32
  rw [Nat.mod_eq_of_lt hlt]
  rcases Nat.lt_or_ge t wordSize with h | h
  . rw [Nat.mod_eq_of_lt h, show t + wordSize - 2 ^ k = (t - 2 ^ k) + wordSize by omega,
      Nat.add_mod_right]
    exact Nat.mod_eq_of_lt (by omega)
  . rw [show t = wordSize by omega, Nat.mod_self, Nat.zero_add]
    exact Nat.mod_eq_of_lt (by omega)

theorem add32_pow32 (b : Nat) {k : Nat} (hk : k < 32) : add32 b (pow32 k) = (b + 2 ^ k) % wordSize := by
  rw [pow32_eq hk]
  rfl

namespace largestCoveringMPURegion

variable {S L a j b : Nat}

/--
The largest power of two below `2 ^ n` that keeps `bottom` inside of the block.
-/
theorem raiseBottom_spec (fuel : Nat) {n t k₀ : Nat} (ht : t ≤ wordSize) (hn : n ≤ 32) (hfuel : n ≤ fuel)
    (hfit : ∀ k < n, 2 ^ k ≤ t) (hk₀ : k₀ < n) (hS : S ≤ t - 2 ^ k₀)
    : ∃ k, k₀ ≤ k ∧ k < n ∧ S ≤ t - 2 ^ k ∧ (∀ i, k < i → i < n → t - 2 ^ i < S)
        ∧ raiseBottom S (t % wordSize) fuel n = t - 2 ^ k := by
  induction n generalizing fuel with
  | zero => omega
  | succ n ih =>
    cases fuel with
    | zero => omega
    | succ fuel =>
      unfold raiseBottom
      simp only [Nat.add_sub_cancel]
      rw [sub32_pow32 ht (by omega) (hfit n (by omega))]
      split
      . next hlt =>
        have hne : k₀ ≠ n := by
          rintro rfl
          omega
        rcases ih fuel (by omega) (by omega) (fun k hk => hfit k (by omega)) (by omega)
          with ⟨k, hle, hlt', hk, hmax, heq⟩
        refine ⟨k, hle, by omega, hk, ?_, heq⟩
        intro i hi hin
        rcases Nat.lt_or_ge i n with h | h
        . exact hmax i hi h
        . rw [show i = n by omega]
          exact hlt
      . next hge =>
        exact ⟨n, by omega, by omega, by omega, fun i hi hin => by omega, rfl⟩

theorem lowerTop_spec (fuel : Nat) {n k₀ : Nat} (hn : n ≤ 32) (hfuel : n ≤ fuel)
    (hfit : ∀ k < n, b + 2 ^ k < wordSize) (hk₀ : k₀ < n) (hL : b + 2 ^ k₀ ≤ L)
    : ∃ k, k₀ ≤ k ∧ k < n ∧ b + 2 ^ k ≤ L ∧ (∀ i, k < i → i < n → L < b + 2 ^ i)
        ∧ lowerTop L b fuel n = b + 2 ^ k := by
  induction n generalizing fuel with
  | zero => omega
  | succ n ih =>
    cases fuel with
    | zero => omega
    | succ fuel =>
      unfold lowerTop
      simp only [Nat.add_sub_cancel]
      rw [add32_pow32 b (by omega), Nat.mod_eq_of_lt (hfit n (by omega))]
      split
      . next hlt =>
        have hne : k₀ ≠ n := by
          rintro rfl
          omega
        rcases ih fuel (by omega) (by omega) (fun k hk => hfit k (by omega)) (by omega)
          with ⟨k, hle, hlt', hk, hmax, heq⟩
        refine ⟨k, hle, by omega, hk, ?_, heq⟩
        intro i hi hin
        rcases Nat.lt_or_ge i n with h | h
        . exact hmax i hi h
        . rw [show i = n by omega]
          exact hlt
      . next hge =>
        exact ⟨n, by omega, by omega, by omega, fun i hi hin => by omega, rfl⟩

/--
The search goes down if the top of the interval is the better aligned end.
-/
theorem go_down {r i : Nat} (hj : 5 ≤ j) (hb : OddMultiple j b) (ht : OddMultiple r (b + 2 ^ j))
    (hlt : b + 2 ^ j < wordSize)
    : go S L (i + 1) b (b + 2 ^ j)
        =
      if b + 2 ^ j - 2 ^ r < S then
        (raiseBottom S (b + 2 ^ j) 32 r, b + 2 ^ j)
      else
        go S L i (b + 2 ^ j - 2 ^ r) (b + 2 ^ j) := by
  have hjr : j < r := ht.le_of_dvd hb.dvd_add
  have hr : r < 32 := ht.lt_of_lt hlt
  rw [go]
  simp only [maxPowlog2Alignment_eq ht (by omega) hr, maxPowlog2Alignment_eq hb hj (by omega)]
  rw [if_pos hjr]
  have hsub := sub32_pow32 (Nat.le_of_lt hlt) hr ht.pow_le
  rw [Nat.mod_eq_of_lt hlt] at hsub
  rw [hsub]

/--
The alignment of `v` as the code computes it, which takes zero as a multiple of `2 ^ 31` only.
-/
def Alignment (n v : Nat) : Prop := v = 0 ∧ n = 31 ∨ OddMultiple n v ∧ 5 ≤ n ∧ n < 32

theorem Alignment.eq {n v : Nat} (h : Alignment n v) : maxPowlog2Alignment v = n := by
  rcases h with ⟨rfl, rfl⟩ | ⟨h, hle, hlt⟩
  . rfl
  . exact maxPowlog2Alignment_eq h hle hlt

theorem Alignment.lt {n v : Nat} (h : Alignment n v) : n < 32 := by
  rcases h with ⟨_, rfl⟩ | ⟨_, _, hlt⟩
  . decide
  . exact hlt

theorem Alignment.dvd {n v : Nat} (h : Alignment n v) : 2 ^ n ∣ v := by
  rcases h with ⟨rfl, _⟩ | ⟨h, _⟩
  . exact Nat.dvd_zero _
  . exact h.dvd

theorem Alignment.exists (hj : 5 ≤ j) (hb : 2 ^ j ∣ b) (hlt : b < wordSize)
    : ∃ n, Alignment n b ∧ (b ≠ 0 → j ≤ n) := by
  by_cases hzero : b = 0
  . exact ⟨31, Or.inl ⟨hzero, rfl⟩, fun hne => absurd hzero hne⟩
  . rcases OddMultiple.exists_of_ne_zero hzero with ⟨r, hr⟩
    have hle := hr.le_of_dvd hb
    exact ⟨r, Or.inr ⟨hr, by omega, hr.lt_of_lt hlt⟩, fun _ => hle⟩

/--
Else the search goes up, the sum wraps around at the end of the address space.
-/
theorem go_up {n i : Nat} (hj : 5 ≤ j) (hj32 : j < 32) (hb : 2 ^ (j + 1) ∣ b) (hn : Alignment n b)
    : go S L (i + 1) b (b + 2 ^ j)
        =
      if (b + 2 ^ n) % wordSize > L then
        (b, lowerTop L b 32 n)
      else
        go S L i b ((b + 2 ^ n) % wordSize) := by
  have htop : OddMultiple j (b + 2 ^ j) := OddMultiple.add_of_dvd hb
  have hle : j ≤ n := by
    rcases hn with ⟨_, rfl⟩ | ⟨h, _⟩
    . omega
    . exact Nat.le_of_succ_le (h.le_of_dvd hb)
  rw [go]
  simp only [maxPowlog2Alignment_eq htop hj hj32, hn.eq]
  rw [if_neg (Nat.not_lt.mpr hle), add32_pow32 b hn.lt]

/--
The region has a legal size and alignment, it is within `[S, E)` and contains `a`.
-/
def Covers (S E a : Nat) (region : Nat × Nat) : Prop :=
  ∃ k, 5 ≤ k ∧ k < 32 ∧ DyadicAround a k region.1 ∧ region.2 = region.1 + 2 ^ k ∧ S ≤ region.1
    ∧ region.1 + 2 ^ k ≤ E

/--
The region goes up to the end of the address space.
-/
def Overflows (region : Nat × Nat) : Prop :=
  ∃ k, 5 ≤ k ∧ k < 32 ∧ region = (wordSize - 2 ^ k, 0)

/--
The block contains an aligned region around `a` that starts a power of two before the end of the
address space.
-/
def ReachesEnd (S E a : Nat) : Prop :=
  ∃ k j, k < 32 ∧ S ≤ wordSize - 2 ^ k ∧ wordSize - 2 ^ k ≤ a ∧ a < wordSize - 2 ^ k + 2 ^ j
    ∧ wordSize - 2 ^ k + 2 ^ j ≤ E

theorem Covers.not_overflows {E : Nat} {region : Nat × Nat} (h : Covers S E a region)
    : ¬Overflows region := by
  rcases h with ⟨k, _, _, _, htop, _⟩
  rintro ⟨k', _, _, rfl⟩
  have hpos : 0 < 2 ^ k := Nat.pow_pos (by decide)
  have htop : 0 = wordSize - 2 ^ k' + 2 ^ k := htop
  omega

theorem pow_le_wordSize {k : Nat} (h : k < 32) : 2 ^ k < wordSize :=
  Nat.pow_lt_pow_right (by decide) h

theorem oddMultiple_end {k : Nat} (h : k < 32) : OddMultiple k (wordSize - 2 ^ k) :=
  OddMultiple.sub_of_dvd (Nat.pow_dvd_pow 2 h) (by decide)

/--
Once the top has wrapped around it stays zero.
-/
theorem go_overflowed (i : Nat) {k : Nat} (hk : 5 ≤ k) (hk32 : k < 32) (hS : S ≤ wordSize - 2 ^ k)
    : Overflows (go S L i (wordSize - 2 ^ k) 0) := by
  induction i generalizing k with
  | zero => exact ⟨k, hk, hk32, rfl⟩
  | succ i ih =>
    rw [go]
    simp only [maxPowlog2Alignment_eq (oddMultiple_end hk32) hk hk32, maxPowlog2Alignment_zero]
    have hhalf : wordSize - 2 ^ 31 = 2 ^ 31 := by decide
    split
    . next hlt =>
      rw [show sub32 0 (pow32 31) = wordSize - 2 ^ 31 by decide]
      split
      . next hraise =>
        have hfit : ∀ n < 31, 2 ^ n ≤ wordSize := fun n hn => Nat.le_of_lt (pow_le_wordSize (by omega))
        rcases raiseBottom_spec 32 (Nat.le_refl wordSize) (by decide) (by decide) hfit hlt hS
          with ⟨n, hle, hn, _, _, heq⟩
        rw [Nat.mod_self] at heq
        exact ⟨n, by omega, by omega, by rw [heq]⟩
      . next hge => exact ih (by decide) (by decide) (Nat.le_of_not_lt hge)
    . next hge =>
      have hk31 : k = 31 := Nat.le_antisymm (Nat.le_of_lt_succ hk32) (Nat.le_of_not_lt hge)
      subst hk31
      rw [show add32 (wordSize - 2 ^ 31) (pow32 31) = 0 by decide, if_neg (Nat.not_lt_zero L)]
      exact ih hk hk32 hS

variable {E : Nat}

/--
Unless the top wraps around, the search stays within the block and around the address.
-/
theorem go_covers (hE : 32 ∣ E) (hword : E < wordSize) (i : Nat) (hj : 5 ≤ j)
    (h : DyadicAround a j b) (hS : S ≤ b) (hle : b + 2 ^ j ≤ E)
    : Covers S E a (go S (E + 1) i b (b + 2 ^ j))
        ∨ Overflows (go S (E + 1) i b (b + 2 ^ j)) ∧ ReachesEnd S E a := by
  have hj32 : j < 32 := by
    by_contra hge
    have : wordSize ≤ 2 ^ j := Nat.pow_le_pow_right (by decide) (Nat.le_of_not_lt hge)
    omega
  have hlt := h.lt
  have hba := h.le
  induction i generalizing j b with
  | zero => exact Or.inl ⟨j, hj, hj32, h, rfl, hS, hle⟩
  | succ i ih =>
    rcases oddMultiple_or_dvd h.aligned with hodd | heven
    . -- the top is the better aligned end
      obtain ⟨r, hr⟩ := OddMultiple.exists_of_ne_zero (v := b + 2 ^ j) (by omega)
      have hjr : j < r := hr.le_of_dvd hodd.dvd_add
      have hr32 : r < 32 := hr.lt_of_lt (n := 32) (show b + 2 ^ j < wordSize by omega)
      have hrle := hr.pow_le
      rw [go_down hj hodd hr (by omega)]
      split
      . next hraise =>
        have hfit : ∀ k < r, 2 ^ k ≤ b + 2 ^ j := fun k hk =>
          (Nat.pow_le_pow_right (by decide) (Nat.le_of_lt hk)).trans hrle
        rcases raiseBottom_spec (S := S) 32 (t := b + 2 ^ j) (by omega) (by omega) (by omega) hfit hjr
            (by omega) with ⟨k, hjk, hkr, hSk, _, heq⟩
        rw [Nat.mod_eq_of_lt (by omega)] at heq
        rw [heq]
        have hpow : 2 ^ j ≤ 2 ^ k := Nat.pow_le_pow_right (by decide) hjk
        have hkle := hfit k hkr
        have hdvd : 2 ^ k ∣ b + 2 ^ j := (Nat.pow_dvd_pow 2 (Nat.le_of_lt hkr)).trans hr.dvd
        refine Or.inl ⟨k, by omega, by omega, ?_, ?_, hSk, ?_⟩
        . exact ⟨Nat.dvd_sub hdvd (Nat.dvd_refl _), by dsimp only; omega, by dsimp only; omega⟩
        . dsimp only
          omega
        . dsimp only
          omega
      . next hge =>
        have hpow : 2 ^ j ≤ 2 ^ r := Nat.pow_le_pow_right (by decide) (Nat.le_of_lt hjr)
        have hrec : DyadicAround a r (b + 2 ^ j - 2 ^ r) :=
          ⟨Nat.dvd_sub hr.dvd (Nat.dvd_refl _), by omega, by omega⟩
        have := ih (j := r) (b := b + 2 ^ j - 2 ^ r) (by omega) hrec (by omega) (by omega) hr32
          (by omega) (by omega)
        rw [Nat.sub_add_cancel hrle] at this
        exact this
    . -- the bottom is
      obtain ⟨n, hn, hjn⟩ := Alignment.exists hj h.aligned (by omega)
      have hup : b + 2 ^ n ≤ wordSize :=
        add_le_of_dvd_of_lt hn.dvd (Nat.pow_dvd_pow 2 (Nat.le_of_lt hn.lt)) (by omega)
      have h5 : 5 ≤ n := by
        rcases hn with ⟨_, rfl⟩ | ⟨_, h5, _⟩
        . decide
        . exact h5
      rw [go_up hj hj32 heven hn]
      rcases Nat.lt_or_ge (b + 2 ^ n) wordSize with hnowrap | hwrap
      . rw [Nat.mod_eq_of_lt hnowrap]
        split
        . next hlower =>
          have hjn : j < n := by
            by_contra hge
            have : 2 ^ n ≤ 2 ^ j := Nat.pow_le_pow_right (by decide) (Nat.le_of_not_lt hge)
            omega
          have hfit : ∀ k < n, b + 2 ^ k < wordSize := by
            intro k hk
            have : 2 ^ k ≤ 2 ^ n := Nat.pow_le_pow_right (by decide) (Nat.le_of_lt hk)
            omega
          rcases lowerTop_spec 32 (Nat.le_of_lt hn.lt) (Nat.le_of_lt hn.lt) hfit hjn
              (show b + 2 ^ j ≤ E + 1 by omega) with ⟨k, hjk, hkn, hkL, _, heq⟩
          rw [heq]
          have hpow : 2 ^ j ≤ 2 ^ k := Nat.pow_le_pow_right (by decide) hjk
          have hdvd : 2 ^ k ∣ b := (Nat.pow_dvd_pow 2 (Nat.le_of_lt hkn)).trans hn.dvd
          have h32 : 32 ∣ b + 2 ^ k := by
            have : 2 ^ 5 ∣ 2 ^ k := Nat.pow_dvd_pow 2 (by omega)
            exact Nat.dvd_add (this.trans hdvd) this
          refine Or.inl ⟨k, by omega, hkn.trans hn.lt, ⟨hdvd, hba, by dsimp only; omega⟩, rfl, hS, ?_⟩
          dsimp only
          omega
        . next hge =>
          have h32 : 32 ∣ b + 2 ^ n := by
            have : 2 ^ 5 ∣ 2 ^ n := Nat.pow_dvd_pow 2 h5
            exact Nat.dvd_add (this.trans hn.dvd) this
          have hpow : 2 ^ j ≤ 2 ^ n := by
            by_cases hzero : b = 0
            . subst hzero
              rcases hn with ⟨_, rfl⟩ | ⟨hodd, _⟩
              . exact Nat.pow_le_pow_right (by decide) (by omega)
              . exact absurd rfl hodd.ne_zero
            . exact Nat.pow_le_pow_right (by decide) (hjn hzero)
          exact ih h5 ⟨hn.dvd, hba, by omega⟩ hS (by omega) hn.lt (by omega) hba
      . have hend : b = wordSize - 2 ^ n := by omega
        rw [show b + 2 ^ n = wordSize by omega, Nat.mod_self, if_neg (Nat.not_lt_zero _), hend]
        refine Or.inr ⟨go_overflowed i h5 hn.lt (by omega), n, j, hn.lt, ?_, ?_, ?_, ?_⟩
        all_goals omega

/--
If the block contains an aligned region that starts a power of two before the end of the address
space, the search finds its start and wraps around.
-/
theorem go_reachesEnd {k j' : Nat} (hk : k < 32) (hSW : S ≤ wordSize - 2 ^ k)
    (hWa : wordSize - 2 ^ k ≤ a) (haW : a < wordSize - 2 ^ k + 2 ^ j')
    (hWE : wordSize - 2 ^ k + 2 ^ j' ≤ E) (hword : E < wordSize) (i : Nat) (hj : 5 ≤ j) (hjj : j ≤ j')
    (hi : 32 ≤ i + j) (h : DyadicAround a j b)
    : Overflows (go S (E + 1) i b (b + 2 ^ j)) := by
  have hpowk := pow_le_wordSize hk
  have hj'k : j' < k := by
    by_contra hge
    have : 2 ^ k ≤ 2 ^ j' := Nat.pow_le_pow_right (by decide) (Nat.le_of_not_lt hge)
    omega
  have hW : OddMultiple k (wordSize - 2 ^ k) := oddMultiple_end hk
  generalize hWdef : wordSize - 2 ^ k = W at *
  have haround : DyadicAround a j' W :=
    ⟨(Nat.pow_dvd_pow 2 (Nat.le_of_lt hj'k)).trans hW.dvd, hWa, haW⟩
  have hWtop := haround.aligned_top
  induction i generalizing j b with
  | zero => omega
  | succ i ih =>
    have hlt := h.lt
    have hba := h.le
    obtain ⟨hWb, hbtop⟩ := h.nested haround hjj
    rcases Nat.eq_or_lt_of_le hWb with heq | hWb
    . -- the search is at the start of the aligned region
      subst heq
      have heven : 2 ^ (j + 1) ∣ W := (Nat.pow_dvd_pow 2 (by omega)).trans hW.dvd
      rw [go_up hj (by omega) heven (Or.inr ⟨hW, by omega, hk⟩), show W + 2 ^ k = wordSize by omega,
        Nat.mod_self, if_neg (Nat.not_lt_zero _), ← hWdef]
      exact go_overflowed i (by omega) hk (by omega)
    . -- behind it, the next interval is within the aligned region as well
      rcases oddMultiple_or_dvd h.aligned with hodd | heven
      . obtain ⟨r, hr⟩ := OddMultiple.exists_of_ne_zero (v := b + 2 ^ j) (by omega)
        have hjr : j < r := hr.le_of_dvd hodd.dvd_add
        have hrle := hr.pow_le
        have hrj' : r ≤ j' := by
          by_contra hge
          have hdvd : 2 ^ (j' + 1) ∣ b + 2 ^ j := (Nat.pow_dvd_pow 2 (by omega)).trans hr.dvd
          have hdvdW : 2 ^ (j' + 1) ∣ W := (Nat.pow_dvd_pow 2 hj'k).trans hW.dvd
          have := add_le_of_dvd_of_lt hdvdW hdvd (by omega)
          rw [Nat.pow_succ] at this
          omega
        have hrW : W + 2 ^ r ≤ b + 2 ^ j :=
          add_le_of_dvd_of_lt ((Nat.pow_dvd_pow 2 (by omega)).trans hW.dvd) hr.dvd (by omega)
        have hpow : 2 ^ j ≤ 2 ^ r := Nat.pow_le_pow_right (by decide) (Nat.le_of_lt hjr)
        rw [go_down hj hodd hr (by omega), if_neg (by omega)]
        have := ih (j := r) (b := b + 2 ^ j - 2 ^ r) (by omega) hrj' (by omega)
          ⟨Nat.dvd_sub hr.dvd (Nat.dvd_refl _), by omega, by omega⟩
        rw [Nat.sub_add_cancel hrle] at this
        exact this
      . obtain ⟨n, hn⟩ := OddMultiple.exists_of_ne_zero (v := b) (by omega)
        have hjn : j < n := hn.le_of_dvd heven
        have hnj' : n ≤ j' := by
          by_contra hge
          have hdvd : 2 ^ j' ∣ b := (Nat.pow_dvd_pow 2 (by omega)).trans hn.dvd
          have := add_le_of_dvd_of_lt haround.aligned hdvd hWb
          have : 0 < 2 ^ j := Nat.pow_pos (by decide)
          omega
        have hup : b + 2 ^ n ≤ W + 2 ^ j' :=
          add_le_of_dvd_of_lt hn.dvd ((Nat.pow_dvd_pow 2 hnj').trans hWtop)
            (by have : 0 < 2 ^ j := Nat.pow_pos (by decide); omega)
        have hpow : 2 ^ j ≤ 2 ^ n := Nat.pow_le_pow_right (by decide) (Nat.le_of_lt hjn)
        rw [go_up hj (by omega) heven (Or.inr ⟨hn, by omega, by omega⟩),
          Nat.mod_eq_of_lt (show b + 2 ^ n < wordSize by omega), if_neg (by omega)]
        exact ih (by omega) hnj' (by omega) ⟨hn.dvd, hba, by omega⟩

/--
The largest aligned region around the end `E` of the block that does not start before the block. It
goes 32 bytes beyond the end.
-/
structure FitsAtEnd (S E k : Nat) : Prop where
  size : 5 ≤ k
  aligned : 2 ^ (k + 1) ∣ E + 32
  top_lt : E + 32 < wordSize
  start_le : S ≤ E + 32 - 2 ^ k
  largest : E + 32 - 2 ^ (k + 1) < S

theorem FitsAtEnd.unique {k k' : Nat} (h : FitsAtEnd S E k) (h' : FitsAtEnd S E k') : k = k' := by
  rcases Nat.lt_trichotomy k k' with hlt | heq | hlt
  . have := Nat.pow_le_pow_right (n := 2) (by decide) (show k + 1 ≤ k' by omega)
    have := h.largest
    have := h'.start_le
    omega
  . exact heq
  . have := Nat.pow_le_pow_right (n := 2) (by decide) (show k' + 1 ≤ k by omega)
    have := h'.largest
    have := h.start_le
    omega

theorem lowerTop_atEnd (fuel : Nat) {n : Nat} (hn : n ≤ 32) (hfuel : n ≤ fuel) (hpos : 0 < n)
    (hfit : ∀ k < n, E + 2 ^ k < wordSize) : lowerTop (E + 1) E fuel n = E + 1 := by
  induction n generalizing fuel with
  | zero => omega
  | succ n ih =>
    cases fuel with
    | zero => omega
    | succ fuel =>
      unfold lowerTop
      simp only [Nat.add_sub_cancel]
      rw [add32_pow32 E (by omega), Nat.mod_eq_of_lt (hfit n (by omega))]
      cases n with
      | zero => rw [Nat.pow_zero, if_neg (Nat.lt_irrefl _)]
      | succ n =>
        have : 2 ≤ 2 ^ (n + 1) := Nat.le_self_pow (by omega) 2
        rw [if_pos (by omega)]
        exact ih fuel (by omega) (by omega) (by omega) (fun k hk => hfit k (by omega))

/--
The search for a region around the first address behind the block.
-/
inductive AtEnd (S E : Nat) (region : Nat × Nat) : Prop where
  | fits (k : Nat) (h : FitsAtEnd S E k) (heq : region = (E + 32 - 2 ^ k, E + 32))
  | tooSmall (h : ¬∃ k, FitsAtEnd S E k) (heq : region = (E, E + 1))
  | overflows (h : ¬∃ k, FitsAtEnd S E k) (hover : Overflows region)
  | below (h : ¬∃ k, FitsAtEnd S E k) (k : Nat) (hk : 5 ≤ k) (hk32 : k < 32) (hdvd : 2 ^ k ∣ region.1)
      (htop : region.2 = region.1 + 2 ^ k) (hle : region.1 + 2 ^ k ≤ E)

/--
The interval that ends 32 bytes beyond the block is cut, and the address is no longer inside.
-/
theorem go_beyond {r B : Nat} (hE : 32 ∣ E) (hr6 : 6 ≤ r) (hB : 2 ^ (r + 1) ∣ B)
    (htop : B + 2 ^ r = E + 32) (hlt : E + 32 < wordSize) (hS : S ≤ B)
    : Overflows (go S (E + 1) 31 B (E + 32))
        ∨ ∃ k, 5 ≤ k ∧ k < 32 ∧ 2 ^ k ∣ (go S (E + 1) 31 B (E + 32)).1
          ∧ (go S (E + 1) 31 B (E + 32)).2 = (go S (E + 1) 31 B (E + 32)).1 + 2 ^ k
          ∧ (go S (E + 1) 31 B (E + 32)).1 + 2 ^ k ≤ E := by
  have hr : 5 ≤ r := Nat.le_of_succ_le hr6
  have hBr : 2 ^ r ∣ B := (Nat.pow_dvd_pow 2 (Nat.le_succ r)).trans hB
  have hpos : 0 < 2 ^ r := Nat.pow_pos (by decide)
  have hr32 : r < 32 := by
    by_contra hge
    have : wordSize ≤ 2 ^ r := Nat.pow_le_pow_right (by decide) (Nat.le_of_not_lt hge)
    omega
  obtain ⟨n, hn, hrn⟩ := Alignment.exists hr hBr (by omega)
  have hrn : r ≤ n := by
    by_cases hzero : B = 0
    . subst hzero
      rcases hn with ⟨_, rfl⟩ | ⟨h, _⟩
      . omega
      . exact absurd rfl h.ne_zero
    . exact hrn hzero
  have hup : B + 2 ^ n ≤ wordSize :=
    add_le_of_dvd_of_lt hn.dvd (Nat.pow_dvd_pow 2 (Nat.le_of_lt hn.lt)) (by omega)
  have hpowrn : 2 ^ r ≤ 2 ^ n := Nat.pow_le_pow_right (by decide) hrn
  rw [← htop, go_up hr hr32 hB hn]
  rcases Nat.eq_or_lt_of_le hup with hwrap | hnowrap
  . left
    rw [hwrap, Nat.mod_self, if_neg (Nat.not_lt_zero _), show B = wordSize - 2 ^ n by omega]
    exact go_overflowed 30 (by omega) hn.lt (by omega)
  . right
    rw [Nat.mod_eq_of_lt hnowrap, if_pos (by omega)]
    have hfit : ∀ k < n, B + 2 ^ k < wordSize := by
      intro k hk
      have : 2 ^ k ≤ 2 ^ n := Nat.pow_le_pow_right (by decide) (Nat.le_of_lt hk)
      omega
    have hhalf : 2 ^ (r - 1) + 2 ^ (r - 1) = 2 ^ r := by
      rw [← Nat.two_mul, ← Nat.pow_succ', Nat.succ_eq_add_one, Nat.sub_add_cancel (by omega)]
    have h32 : 2 ^ 5 ≤ 2 ^ (r - 1) := Nat.pow_le_pow_right (by decide) (by omega)
    rcases lowerTop_spec 32 (Nat.le_of_lt hn.lt) (Nat.le_of_lt hn.lt) hfit (show r - 1 < n by omega)
        (show B + 2 ^ (r - 1) ≤ E + 1 by omega) with ⟨k, hrk, hkn, hkL, _, heq⟩
    rw [heq]
    have hdvd : 2 ^ k ∣ B := (Nat.pow_dvd_pow 2 (Nat.le_of_lt hkn)).trans hn.dvd
    have h32 : 32 ∣ B + 2 ^ k := by
      have : 2 ^ 5 ∣ 2 ^ k := Nat.pow_dvd_pow 2 (by omega)
      exact Nat.dvd_add (this.trans hdvd) this
    refine ⟨k, by omega, hkn.trans hn.lt, hdvd, rfl, ?_⟩
    dsimp only
    omega

theorem go_atEnd (hE : 32 ∣ E) (hword : E < wordSize) (hS : S ≤ E)
    : AtEnd S E (go S (E + 1) 32 E ((E + 32) % wordSize)) := by
  have htop : E + 32 ≤ wordSize := add_le_of_dvd_of_lt hE (by decide) hword
  rcases oddMultiple_or_dvd (j := 5) hE with hodd | heven
  . rcases Nat.eq_or_lt_of_le htop with hwrap | hlt
    . have hend : E = wordSize - 2 ^ 5 := by omega
      refine .overflows (fun ⟨k, hk⟩ => absurd hk.top_lt (by omega)) ?_
      rw [hwrap, Nat.mod_self]
      nth_rewrite 2 [hend]
      exact go_overflowed 32 (by decide) (by decide) (by omega)
    . rw [Nat.mod_eq_of_lt hlt]
      obtain ⟨r, hr⟩ := OddMultiple.exists_of_ne_zero (v := E + 2 ^ 5) (by omega)
      have hjr : 5 < r := hr.le_of_dvd hodd.dvd_add
      have hr32 : r < 32 := hr.lt_of_lt (n := 32) hlt
      have hrle : 2 ^ r ≤ E + 32 := hr.pow_le
      rw [show E + 32 = E + 2 ^ 5 by rfl, go_down (Nat.le_refl 5) hodd hr hlt]
      split
      . next hraise =>
        have hfit : ∀ k < r, 2 ^ k ≤ E + 32 := fun k hk =>
          (Nat.pow_le_pow_right (by decide) (Nat.le_of_lt hk)).trans hrle
        rcases raiseBottom_spec (S := S) 32 (t := E + 32) htop (by omega) (by omega) hfit hjr (by omega)
          with ⟨k, hk5, hkr, hSk, hmax, heq⟩
        rw [Nat.mod_eq_of_lt hlt] at heq
        refine .fits k ⟨hk5, (Nat.pow_dvd_pow 2 hkr).trans hr.dvd, hlt, hSk, ?_⟩ ?_
        . rcases Nat.lt_or_ge (k + 1) r with hlt' | hge
          . exact hmax (k + 1) (by omega) hlt'
          . rw [show k + 1 = r by omega]
            exact hraise
        . exact congrArg (fun bottom => (bottom, E + 32)) heq
      . next hge =>
        have hnone : ¬∃ k, FitsAtEnd S E k := by
          rintro ⟨k, hk⟩
          have hkr : k + 1 ≤ r := hr.le_of_dvd hk.aligned
          have := Nat.pow_le_pow_right (n := 2) (by decide) hkr
          have := hk.largest
          omega
        have hrec := go_beyond hE hjr hr.dvd_sub
          (Nat.sub_add_cancel hrle : E + 32 - 2 ^ r + 2 ^ r = E + 32) hlt (Nat.le_of_not_lt hge)
        rcases hrec with hover | ⟨k, hk, hk32, hdvd, htop, hle⟩
        . exact .overflows hnone hover
        . exact .below hnone k hk hk32 hdvd htop hle
  . have hnone : ¬∃ k, FitsAtEnd S E k := by
      rintro ⟨k, hk⟩
      have h64 : 2 ^ 6 ∣ E + 32 := (Nat.pow_dvd_pow 2 (by have := hk.size; omega)).trans hk.aligned
      omega
    have hlt : E + 32 < wordSize := by
      have : E + 64 ≤ wordSize := add_le_of_dvd_of_lt heven (by decide) hword
      omega
    obtain ⟨n, hn, _⟩ := Alignment.exists (Nat.le_refl 5) hE hword
    have h5 : 5 ≤ n := by
      rcases hn with ⟨_, rfl⟩ | ⟨_, h5, _⟩
      . decide
      . exact h5
    have hup : E + 2 ^ n ≤ wordSize :=
      add_le_of_dvd_of_lt hn.dvd (Nat.pow_dvd_pow 2 (Nat.le_of_lt hn.lt)) hword
    rw [Nat.mod_eq_of_lt hlt, show E + 32 = E + 2 ^ 5 by rfl, go_up (Nat.le_refl 5) (by decide) heven hn]
    rcases Nat.eq_or_lt_of_le hup with hwrap | hnowrap
    . refine .overflows hnone ?_
      have hend : E = wordSize - 2 ^ n := by omega
      rw [hwrap, Nat.mod_self, if_neg (Nat.not_lt_zero _)]
      nth_rewrite 2 [hend]
      exact go_overflowed 31 h5 hn.lt (by omega)
    . have hpow : 2 ^ 5 ≤ 2 ^ n := Nat.pow_le_pow_right (by decide) h5
      rw [Nat.mod_eq_of_lt hnowrap, if_pos (by omega)]
      refine .tooSmall hnone ?_
      rw [lowerTop_atEnd 32 (Nat.le_of_lt hn.lt) (Nat.le_of_lt hn.lt) (by omega)]
      intro k hk
      have : 2 ^ k ≤ 2 ^ n := Nat.pow_le_pow_right (by decide) (Nat.le_of_lt hk)
      omega

end largestCoveringMPURegion

open largestCoveringMPURegion

section

variable {block : BlockEntry} {addr : Nat}

theorem largestCoveringMPURegion_run (hstart : 32 ∣ block.startAddr) (hend : 32 ∣ block.endAddr)
    (hword : block.endAddr < wordSize) (hle : block.startAddr ≤ addr) (hlt : addr < block.endAddr)
    : ∃ b, DyadicAround addr 5 b ∧ block.startAddr ≤ b ∧ b + 2 ^ 5 ≤ block.endAddr
        ∧ largestCoveringMPURegion block addr
            =
          go block.startAddr (block.endAddr + 1) 32 b (b + 2 ^ 5) := by
  have haround : DyadicAround addr 5 (addr / 32 * 32) :=
    ⟨Nat.dvd_mul_left _ _, Nat.div_mul_le_self _ _, by omega⟩
  refine ⟨addr / 32 * 32, haround, by omega, by omega, ?_⟩
  unfold largestCoveringMPURegion
  have htop : add32 (addr / 32 * 32) 32 = addr / 32 * 32 + 2 ^ 5 :=
    Nat.mod_eq_of_lt (show addr / 32 * 32 + 32 < wordSize by omega)
  have hlimit : add32 block.endAddr 1 = block.endAddr + 1 :=
    Nat.mod_eq_of_lt (show block.endAddr + 1 < 4294967296 by
      have : block.endAddr < 4294967296 := hword
      omega)
  simp only [htop, hlimit]

/--
Inside of the block the region is as it should be, or it goes beyond the block up to the end of the
address space.
-/
theorem largestCoveringMPURegion_inside (hstart : 32 ∣ block.startAddr) (hend : 32 ∣ block.endAddr)
    (hword : block.endAddr < wordSize) (hle : block.startAddr ≤ addr) (hlt : addr < block.endAddr)
    : Covers block.startAddr block.endAddr addr (largestCoveringMPURegion block addr)
          ∧ ¬ReachesEnd block.startAddr block.endAddr addr
        ∨ Overflows (largestCoveringMPURegion block addr)
          ∧ ReachesEnd block.startAddr block.endAddr addr := by
  rcases largestCoveringMPURegion_run hstart hend hword hle hlt with ⟨b, haround, hS, hE, hrun⟩
  rw [hrun]
  rcases go_covers hend hword 32 (Nat.le_refl 5) haround hS hE with hcovers | hover
  . by_cases hreach : ReachesEnd block.startAddr block.endAddr addr
    . rcases hreach with ⟨k, j, hk, hSW, hWa, haW, hWE⟩
      refine absurd ?_ hcovers.not_overflows
      rcases Nat.le_total 5 j with h5 | h5
      . exact go_reachesEnd hk hSW hWa haW hWE hword 32 (Nat.le_refl 5) h5 (by decide) haround
      . -- the start of the region is 32 bytes before the end of the block at least
        have hk5 : 5 ≤ k := by
          by_contra hlt
          have : 2 ^ k ≤ 2 ^ 4 := Nat.pow_le_pow_right (by decide) (by omega)
          have : block.endAddr < 4294967296 := hword
          have := wordSize_eq
          have : 0 < 2 ^ j := Nat.pow_pos (by decide)
          omega
        have hdvd : 32 ∣ wordSize - 2 ^ k :=
          (Nat.pow_dvd_pow 2 hk5 : 2 ^ 5 ∣ 2 ^ k).trans (oddMultiple_end hk).dvd
        have hpos : 0 < 2 ^ j := Nat.pow_pos (by decide)
        have hj32 : 2 ^ j ≤ 2 ^ 5 := Nat.pow_le_pow_right (by decide) h5
        have hWE' : wordSize - 2 ^ k + 32 ≤ block.endAddr :=
          add_le_of_dvd_of_lt hdvd hend (by omega)
        exact go_reachesEnd hk hSW hWa (by omega) hWE' hword 32 (Nat.le_refl 5) (Nat.le_refl 5)
          (by decide) haround
    . exact Or.inl ⟨hcovers, hreach⟩
  . exact Or.inr hover

theorem largestCoveringMPURegion_atEnd (hend : 32 ∣ block.endAddr) (hword : block.endAddr < wordSize)
    (hle : block.startAddr ≤ block.endAddr)
    : AtEnd block.startAddr block.endAddr (largestCoveringMPURegion block block.endAddr) := by
  have hbottom : block.endAddr / 32 * 32 = block.endAddr := Nat.div_mul_cancel hend
  have hlimit : add32 block.endAddr 1 = block.endAddr + 1 :=
    Nat.mod_eq_of_lt (show block.endAddr + 1 < 4294967296 by
      have : block.endAddr < 4294967296 := hword
      omega)
  unfold largestCoveringMPURegion
  simp only [hbottom, hlimit]
  exact go_atEnd hend hword hle

end

/-
The region that a pair of the LUT stands for
-/

/--
The fields of a region as the MPU reads them from RBAR and RASR.
-/
structure Region where
  base : Nat
  number : Nat
  enable : Nat
  sizeField : Nat
  subregionDisable : Nat
  AP : Nat
  XN : Nat
  deriving DecidableEq, Repr

namespace Region

def decode (rbar rasr : Nat) : Region :=
  {
      base := rbar / 32 * 32
      number := rbar % 16
      enable := rasr % 2
      sizeField := rasr / 2 % 32
      subregionDisable := rasr / 2 ^ 8 % 256
      AP := rasr / 2 ^ 24 % 8
      XN := rasr / 2 ^ 28 % 2
  }

def size (region : Region) : Nat := 2 ^ (region.sizeField + 1)

/--
An ARMv7-M region has a size of 32 bytes or more and a base that is aligned on its size.
-/
structure Legal (region : Region) : Prop where
  enabled : region.enable = 1
  whole : region.subregionDisable = 0
  size_ge : 32 ≤ region.size
  aligned : region.size ∣ region.base

/--
The access permissions for unprivileged code follow the rights of the block.
-/
def HasRightsOf (region : Region) (block : BlockEntry) : Prop :=
  region.AP = (if block.write then 3 else 2) ∧ region.XN = (if block.exec then 0 else 1)

end Region

theorem powlog2_go (fuel k r : Nat) (h : k < fuel) : powlog2.go fuel (2 ^ k) r = r + k := by
  induction k generalizing fuel r with
  | zero =>
    cases fuel with
    | zero => omega
    | succ fuel => rfl
  | succ k ih =>
    cases fuel with
    | zero => omega
    | succ fuel =>
      have hshift : 2 ^ (k + 1) >>> 1 = 2 ^ k := by
        rw [Nat.shiftRight_eq_div_pow, Nat.pow_succ, Nat.pow_one]
        exact Nat.mul_div_cancel _ Nat.two_pos
      have hpos : 2 ^ k ≠ 0 := (Nat.pow_pos (by decide)).ne'
      rw [powlog2.go, hshift, if_neg hpos, ih fuel (r + 1) (by omega)]
      have harith : r + 1 + k = r + (k + 1) := by omega
      exact harith

theorem powlog2_pow {k : Nat} (h : k < 32) : powlog2 (2 ^ k) = k := by
  unfold powlog2
  rw [powlog2_go 32 k 0 h]
  exact Nat.zero_add k

theorem or_shiftLeft {x i : Nat} (a : Nat) (h : x < 2 ^ i) : x ||| a <<< i = a * 2 ^ i + x := by
  rw [Nat.or_comm, Nat.shiftLeft_eq, Nat.mul_comm, Nat.two_pow_add_eq_or_of_lt h]

theorem Region.decode_fields {base number rs AP XN : Nat} (hbase : 32 ∣ base) (hnumber : number < 16)
    (hrs : rs < 256) (hAP : AP < 8) (hXN : XN < 2)
    : Region.decode (base + 16 + number) (XN * 2 ^ 28 + (AP * 2 ^ 24 + (rs * 2 + 1)))
        =
      {
          base
          number
          enable := 1
          sizeField := rs % 32
          subregionDisable := rs / 128
          AP
          XN
      } := by
  have h1 : (base + 16 + number) / 32 * 32 = base := by omega
  have h2 : (base + 16 + number) % 16 = number := by omega
  have h3 : (XN * 2 ^ 28 + (AP * 2 ^ 24 + (rs * 2 + 1))) % 2 = 1 := by omega
  have h4 : (XN * 2 ^ 28 + (AP * 2 ^ 24 + (rs * 2 + 1))) / 2 % 32 = rs % 32 := by omega
  have h5 : (XN * 2 ^ 28 + (AP * 2 ^ 24 + (rs * 2 + 1))) / 2 ^ 8 % 256 = rs / 128 := by omega
  have h6 : (XN * 2 ^ 28 + (AP * 2 ^ 24 + (rs * 2 + 1))) / 2 ^ 24 % 8 = AP := by omega
  have h7 : (XN * 2 ^ 28 + (AP * 2 ^ 24 + (rs * 2 + 1))) / 2 ^ 28 % 2 = XN := by omega
  unfold Region.decode
  rw [h1, h2, h3, h4, h5, h6, h7]

/--
The LUT entry of an interval, `rs` is its region size as computed in a `uint8_t`.
-/
theorem coveringLUTEntry_eq {block : BlockEntry} {addr base top rs entryindex : Nat}
    (hregion : largestCoveringMPURegion block addr = (base, top)) (hbase : 32 ∣ base)
    (hrs : (powlog2 (sub32 top base) % 256 + 255) % 256 = rs) (hindex : entryindex < 16)
    : coveringLUTEntry entryindex block addr
        =
      (
        base + 16 + entryindex,
        (if block.exec then 0 else 1) * 2 ^ 28 + ((if block.write then 3 else 2) * 2 ^ 24 + (rs * 2 + 1))
      ) := by
  have hrs256 : rs < 256 := hrs ▸ Nat.mod_lt _ (by decide)
  have hAP : (if block.write then 3 else 2) < 8 := by split <;> decide
  have hrbar : base ||| mpuRbarValidMsk ||| entryindex = base + 16 + entryindex := by
    obtain ⟨q, rfl⟩ := hbase
    have h1 : 32 * q ||| 16 = 32 * q + 16 := (Nat.two_pow_add_eq_or_of_lt (i := 5) (by decide) q).symm
    have h2 : 16 * (2 * q + 1) ||| entryindex = 16 * (2 * q + 1) + entryindex :=
      (Nat.two_pow_add_eq_or_of_lt (i := 4) hindex (2 * q + 1)).symm
    have h3 : 32 * q + 16 = 16 * (2 * q + 1) := by omega
    rw [show mpuRbarValidMsk = 16 by rfl, h1, h3, h2]
  have hrasr : ∀ AP XN : Nat, AP < 8 →
      mpuRasrEnableMsk ||| rs <<< mpuRasrSizePos ||| AP <<< mpuRasrAPPos ||| XN <<< mpuRasrXNPos
        =
      XN * 2 ^ 28 + (AP * 2 ^ 24 + (rs * 2 + 1)) := by
    intro AP XN hAP
    have h1 : mpuRasrEnableMsk ||| rs <<< 1 = rs * 2 + 1 := or_shiftLeft rs (by decide)
    have h2 : rs * 2 + 1 ||| AP <<< 24 = AP * 2 ^ 24 + (rs * 2 + 1) := or_shiftLeft AP (by omega)
    have h3 : AP * 2 ^ 24 + (rs * 2 + 1) ||| XN <<< 28 = XN * 2 ^ 28 + (AP * 2 ^ 24 + (rs * 2 + 1)) :=
      or_shiftLeft XN (by omega)
    rw [mpuRasrSizePos, mpuRasrAPPos, mpuRasrXNPos, h1, h2, h3]
  unfold coveringLUTEntry
  simp only [hregion, hrs, hrbar, hrasr _ _ hAP]

theorem decode_coveringLUTEntry {block : BlockEntry} {addr base top rs entryindex : Nat}
    (hregion : largestCoveringMPURegion block addr = (base, top)) (hbase : 32 ∣ base)
    (hrs : (powlog2 (sub32 top base) % 256 + 255) % 256 = rs) (hindex : entryindex < 16)
    : Region.decode (coveringLUTEntry entryindex block addr).1 (coveringLUTEntry entryindex block addr).2
        =
      {
          base
          number := entryindex
          enable := 1
          sizeField := rs % 32
          subregionDisable := rs / 128
          AP := if block.write then 3 else 2
          XN := if block.exec then 0 else 1
      } := by
  have hrs256 : rs < 256 := hrs ▸ Nat.mod_lt _ (by decide)
  have hAP : (if block.write then 3 else 2) < 8 := by split <;> decide
  have hXN : (if block.exec then 0 else 1) < 2 := by split <;> decide
  rw [coveringLUTEntry_eq hregion hbase hrs hindex]
  exact Region.decode_fields hbase hindex hrs256 hAP hXN

theorem regionsize_eq {base top k : Nat} (hk : 5 ≤ k) (hk32 : k < 32) (hsize : sub32 top base = 2 ^ k)
    : (powlog2 (sub32 top base) % 256 + 255) % 256 = k - 1 := by
  rw [hsize, powlog2_pow hk32]
  have hmod : (k % 256 + 255) % 256 = k - 1 := by omega
  exact hmod

theorem decode_of_size {block : BlockEntry} {addr base top k entryindex : Nat}
    (hregion : largestCoveringMPURegion block addr = (base, top)) (hk : 5 ≤ k) (hk32 : k < 32)
    (hbase : 2 ^ k ∣ base) (hsize : sub32 top base = 2 ^ k) (hindex : entryindex < 16)
    : Region.decode (coveringLUTEntry entryindex block addr).1 (coveringLUTEntry entryindex block addr).2
        =
      {
          base
          number := entryindex
          enable := 1
          sizeField := k - 1
          subregionDisable := 0
          AP := if block.write then 3 else 2
          XN := if block.exec then 0 else 1
      } := by
  have hbase32 : 32 ∣ base := (Nat.pow_dvd_pow 2 hk : 2 ^ 5 ∣ 2 ^ k).trans hbase
  rw [decode_coveringLUTEntry hregion hbase32 (regionsize_eq hk hk32 hsize) hindex, Nat.mod_eq_of_lt (by omega),
    Nat.div_eq_of_lt (by omega)]

theorem sub32_top (base : Nat) {size : Nat} (hsize : size < wordSize) (hpos : 0 < size)
    (htop : base + size ≤ wordSize) : sub32 ((base + size) % wordSize) base = size := by
  unfold sub32
  rw [Nat.mod_eq_of_lt (show base < wordSize by omega)]
  rcases Nat.eq_or_lt_of_le htop with heq | hlt
  . rw [heq, Nat.mod_self, show 0 + wordSize - base = size by omega]
    exact Nat.mod_eq_of_lt hsize
  . rw [Nat.mod_eq_of_lt hlt, show base + size + wordSize - base = size + wordSize by omega,
      Nat.add_mod_right]
    exact Nat.mod_eq_of_lt hsize
