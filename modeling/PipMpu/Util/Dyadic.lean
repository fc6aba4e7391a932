import Mathlib.Data.Nat.Factorization.Basic
import Mathlib.Tactic.Ring

/-!
This module contains facts about the powers of two that divide a number, and about the aligned
intervals whose size is a power of two.
-/

/--
The highest power of two that divides `v` is `2 ^ r`.
-/
def OddMultiple (r v : Nat) : Prop := ∃ q, v = 2 ^ r * (2 * q + 1)

namespace OddMultiple

variable {r v : Nat}

theorem exists_of_ne_zero (h : v ≠ 0) : ∃ r, OddMultiple r v := by
  rcases Nat.exists_eq_two_pow_mul_odd h with ⟨r, m, ⟨q, hq⟩, hv⟩
  exact ⟨r, q, by rw [hv, hq]⟩

theorem dvd (h : OddMultiple r v) : 2 ^ r ∣ v := by
  rcases h with ⟨q, rfl⟩
  exact Nat.dvd_mul_right _ _

theorem ne_zero (h : OddMultiple r v) : v ≠ 0 := by
  rcases h with ⟨q, rfl⟩
  exact Nat.mul_ne_zero (Nat.pow_pos (by decide)).ne' (by omega)

theorem pow_le (h : OddMultiple r v) : 2 ^ r ≤ v := Nat.le_of_dvd (Nat.pos_of_ne_zero h.ne_zero) h.dvd

theorem le_of_dvd (h : OddMultiple r v) {k : Nat} (hk : 2 ^ k ∣ v) : k ≤ r := by
  rcases h with ⟨q, rfl⟩
  by_contra hlt
  have hdvd : 2 ^ (r + 1) ∣ 2 ^ r * (2 * q + 1) := (Nat.pow_dvd_pow 2 (by omega)).trans hk
  rw [Nat.pow_succ] at hdvd
  have := Nat.dvd_of_mul_dvd_mul_left (Nat.pow_pos (by decide)) hdvd
  omega

theorem lt_of_lt (h : OddMultiple r v) {n : Nat} (hv : v < 2 ^ n) : r < n := by
  by_contra hle
  have := Nat.pow_le_pow_right (n := 2) (by decide) (Nat.le_of_not_lt hle)
  have := h.pow_le
  omega

/--
Adding the highest power of two that divides a number gives a multiple of a higher one.
-/
theorem dvd_add (h : OddMultiple r v) : 2 ^ (r + 1) ∣ v + 2 ^ r := by
  rcases h with ⟨q, rfl⟩
  exact ⟨q + 1, by ring⟩

theorem dvd_sub (h : OddMultiple r v) : 2 ^ (r + 1) ∣ v - 2 ^ r := by
  rcases h with ⟨q, rfl⟩
  refine ⟨q, ?_⟩
  rw [show 2 ^ r * (2 * q + 1) = 2 ^ (r + 1) * q + 2 ^ r by ring]
  exact Nat.add_sub_cancel _ _

theorem add_of_dvd {k : Nat} (h : 2 ^ (k + 1) ∣ v) : OddMultiple k (v + 2 ^ k) := by
  rcases h with ⟨q, rfl⟩
  exact ⟨q, by ring⟩

theorem sub_of_dvd {k : Nat} (h : 2 ^ (k + 1) ∣ v) (hv : v ≠ 0) : OddMultiple k (v - 2 ^ k) := by
  rcases h with ⟨m, rfl⟩
  cases m with
  | zero => exact absurd (Nat.mul_zero _) hv
  | succ q =>
    refine ⟨q, ?_⟩
    rw [show 2 ^ (k + 1) * (q + 1) = 2 ^ k * (2 * q + 1) + 2 ^ k by ring]
    exact Nat.add_sub_cancel _ _

end OddMultiple

/--
A multiple of `2 ^ j` is an odd one or a multiple of the next power of two.
-/
theorem oddMultiple_or_dvd {j v : Nat} (h : 2 ^ j ∣ v) : OddMultiple j v ∨ 2 ^ (j + 1) ∣ v := by
  rcases h with ⟨m, rfl⟩
  rcases Nat.even_or_odd' m with ⟨q, rfl | rfl⟩
  . exact Or.inr ⟨q, by ring⟩
  . exact Or.inl ⟨q, rfl⟩

/--
Two multiples of `g` are at least `g` apart.
-/
theorem add_le_of_dvd_of_lt {g x y : Nat} (hx : g ∣ x) (hy : g ∣ y) (h : x < y) : x + g ≤ y := by
  have := Nat.le_of_dvd (by omega) (Nat.dvd_sub hy hx)
  omega

/--
The interval of size `2 ^ j` that starts at `b` is aligned and contains `a`.
-/
structure DyadicAround (a j b : Nat) : Prop where
  aligned : 2 ^ j ∣ b
  le : b ≤ a
  lt : a < b + 2 ^ j

namespace DyadicAround

variable {a j b : Nat}

theorem aligned_top (h : DyadicAround a j b) : 2 ^ j ∣ b + 2 ^ j := Nat.dvd_add h.aligned (Nat.dvd_refl _)

/--
An aligned interval around the same number that is not smaller contains the first one.
-/
theorem nested (h : DyadicAround a j b) {k c : Nat} (hc : DyadicAround a k c) (hk : j ≤ k)
    : c ≤ b ∧ b + 2 ^ j ≤ c + 2 ^ k := by
  have hdvd : 2 ^ j ∣ 2 ^ k := Nat.pow_dvd_pow 2 hk
  have hc1 : 2 ^ j ∣ c := hdvd.trans hc.aligned
  have hc2 : 2 ^ j ∣ c + 2 ^ k := Nat.dvd_add hc1 hdvd
  have hlt := h.lt
  have hle := h.le
  have hclt := hc.lt
  have hcle := hc.le
  constructor
  . by_contra hbc
    have := add_le_of_dvd_of_lt h.aligned hc1 (by omega)
    omega
  . exact add_le_of_dvd_of_lt h.aligned hc2 (by omega)

/--
If an end of an interval is aligned well enough, a larger interval around the same number has the same end.
-/
theorem top_eq (h : DyadicAround a j b) {k c : Nat} (hc : DyadicAround a k c) (hk : j ≤ k) (hdvd : 2 ^ k ∣ b + 2 ^ j)
    : c + 2 ^ k = b + 2 ^ j := by
  have hnested := h.nested hc hk
  have hle := h.le
  have hpos := h.lt
  have hend := add_le_of_dvd_of_lt hc.aligned hdvd (by omega)
  omega

theorem bottom_eq (h : DyadicAround a j b) {k c : Nat} (hc : DyadicAround a k c) (hk : j ≤ k) (hdvd : 2 ^ k ∣ b)
    : c = b := by
  have hnested := h.nested hc hk
  by_contra hne
  have hend := add_le_of_dvd_of_lt hc.aligned hdvd (by omega)
  have := hc.lt
  have := h.le
  omega

/--
An interval that is larger than the alignment of an end of the first one goes beyond this end.
-/
theorem le_of_odd_top (h : DyadicAround a j b) {k c r : Nat} (hc : DyadicAround a k c) (hk : j ≤ k)
    (hr : OddMultiple r (b + 2 ^ j)) (hrk : r < k) : c + 2 ^ r ≤ b + 2 ^ j := by
  have hdvd : 2 ^ (r + 1) ∣ c := (Nat.pow_dvd_pow 2 hrk).trans hc.aligned
  have hnested := h.nested hc hk
  have hle := h.le
  have hpos := h.lt
  have hpow := hr.pow_le
  by_contra hlt
  have hend := add_le_of_dvd_of_lt hr.dvd_sub hdvd (by omega)
  rw [Nat.pow_succ] at hend
  omega

theorem le_of_odd_bottom (h : DyadicAround a j b) {k c n : Nat} (hc : DyadicAround a k c) (hn : OddMultiple n b)
    (hnk : n < k) : b + 2 ^ n ≤ c + 2 ^ k := by
  have hdvd : 2 ^ (n + 1) ∣ 2 ^ k := Nat.pow_dvd_pow 2 hnk
  have htop : 2 ^ (n + 1) ∣ c + 2 ^ k := Nat.dvd_add (hdvd.trans hc.aligned) hdvd
  have hclt := hc.lt
  have hle := h.le
  have hpow := hn.pow_le
  have hend := add_le_of_dvd_of_lt hn.dvd_sub htop (by omega)
  rw [Nat.pow_succ] at hend
  omega

end DyadicAround
