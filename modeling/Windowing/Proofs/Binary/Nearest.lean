import Mathlib

/-!
# Nearest numbers with 53 digits

Rounding, without floats: among the numbers with a mantissa of 53 binary digits
(`Representable`; no largest exponent) one that is closest to a real number. Which of two
equally close ones is taken is left open, for nothing here depends on it. `nearest_of_grid`
is how a rounded mantissa is recognised: it is a nearest integer on a grid that is fine
enough for the size of the number. Rounding keeps to the order (`Nearest.mono`), which needs
no more than that nothing representable is closer.
-/

namespace Windowing

namespace Binary

/-- The number with a given mantissa and exponent. -/
noncomputable def scaled (m e : ℤ) : ℝ := m * 2 ^ e

/-- A number with 53 binary digits and an exponent that is not too small. -/
def Representable (q : ℝ) : Prop :=
  ∃ m e, |m| ≤ 2 ^ 53 ∧ -1074 ≤ e ∧ q = scaled m e

/-- `r` is a representable number, and none is closer to `q`. -/
structure Nearest (q r : ℝ) : Prop where
  representable : Representable r
  closest : ∀ {f : ℝ}, Representable f → |q - r| ≤ |q - f|

theorem scaled_neg (m : ℤ) (k : ℕ) : scaled m (-k) = m / 2 ^ k := by
  rw [scaled, zpow_neg, zpow_natCast, div_eq_mul_inv]

/-! ## Representable numbers -/

theorem representable_intCast {n : ℤ} (h : |n| ≤ 2 ^ 53) : Representable n :=
  ⟨n, 0, h, by norm_num, by simp [scaled]⟩

theorem representable_natCast {n : ℕ} (h : n ≤ 2 ^ 53) : Representable n := by
  have := representable_intCast (n := n) (by rw [Nat.abs_cast]; exact_mod_cast h)
  exact_mod_cast this

theorem representable_two_pow (n : ℕ) : Representable (2 ^ n) :=
  ⟨1, n, by norm_num, by omega, by simp [scaled]⟩

theorem representable_intCast_div_two_pow {m : ℤ} {k : ℕ} (hm : |m| ≤ 2 ^ 53) (hk : k ≤ 1074) :
    Representable ((m : ℝ) / 2 ^ k) :=
  ⟨m, -k, hm, by omega, (scaled_neg m k).symm⟩

theorem representable_div_two_pow {m k : ℕ} (hm : m ≤ 2 ^ 53) (hk : k ≤ 1074) :
    Representable ((m : ℝ) / 2 ^ k) := by
  rw [← Int.cast_natCast m]
  exact representable_intCast_div_two_pow (by rw [Nat.abs_cast]; exact_mod_cast hm) hk

/-! ## Nearest numbers -/

theorem nearest_self {q : ℝ} (h : Representable q) : Nearest q q :=
  ⟨h, fun _ => by simp⟩

namespace Nearest

variable {q q' r r' f : ℝ}

theorem eq_of_representable (h : Nearest q r) (hq : Representable q) : r = q := by
  have := h.closest hq
  rw [sub_self, abs_zero] at this
  linarith [abs_nonpos_iff.mp this]

/-- Rounding does not pass a representable number. -/
theorem le_of_le (h : Nearest q r) (hf : Representable f) (hq : q ≤ f) : r ≤ f := by
  by_contra hr
  push Not at hr
  have := h.closest hf
  rw [abs_of_nonpos (by linarith), abs_of_nonpos (by linarith)] at this
  linarith

theorem ge_of_ge (h : Nearest q r) (hf : Representable f) (hq : f ≤ q) : f ≤ r := by
  by_contra hr
  push Not at hr
  have := h.closest hf
  rw [abs_of_nonneg (by linarith), abs_of_nonneg (by linarith)] at this
  linarith

/-- What is rounded is at least halfway from any number below to the one it is rounded to. -/
theorem two_mul_sub_le (h : Nearest q r) (hf : Representable f) (hfr : f < r) :
    2 * (r - q) ≤ r - f := by
  have hsq := sq_le_sq.mpr (h.closest hf)
  have hprod : (r - f) * (2 * (r - q) - (r - f)) ≤ 0 := by linarith
  linarith [nonpos_of_mul_nonpos_right hprod (sub_pos.mpr hfr)]

theorem two_mul_sub_le_of_gt (h : Nearest q r) (hf : Representable f) (hfr : r < f) :
    2 * (q - r) ≤ f - r := by
  have hsq := sq_le_sq.mpr (h.closest hf)
  have hprod : (f - r) * (2 * (q - r) - (f - r)) ≤ 0 := by linarith
  linarith [nonpos_of_mul_nonpos_right hprod (sub_pos.mpr hfr)]

/-- The order is kept. Of one number that is rounded twice this could not be said: either of
two equally close ones may be taken. -/
theorem mono (h : Nearest q r) (h' : Nearest q' r') (hlt : q < q') : r ≤ r' := by
  by_contra hr
  push Not at hr
  have hlow := h.two_mul_sub_le h'.representable hr
  have hhigh := h'.two_mul_sub_le_of_gt h.representable hr
  linarith

end Nearest

/-! ## Rounding on a grid -/

/-- An integer within one half of `x` is as close to `x` as any other. -/
theorem abs_sub_le_of_half {x : ℝ} {R : ℤ} (hx : |x - R| ≤ 1 / 2) (N : ℤ) :
    |x - R| ≤ |x - N| := by
  rcases eq_or_ne N R with rfl | hne
  · exact le_rfl
  · have hint : (1 : ℝ) ≤ |((N - R : ℤ) : ℝ)| := by
      exact_mod_cast Int.one_le_abs (sub_ne_zero.mpr hne)
    have htri : |((N - R : ℤ) : ℝ)| ≤ |x - R| + |x - N| := by
      have := abs_sub_le (N : ℝ) x R
      push_cast
      rw [abs_sub_comm (N : ℝ) x] at this
      linarith
    linarith

/-- Between the representable numbers of size `2 ^ (t + 52)` and more, and at the smallest
exponent between any two, the distance is a multiple of `2 ^ t`. So rounding to a multiple
of `2 ^ t` is enough there: a representable number off that grid is smaller than
`2 ^ (t + 52)`, and thus farther away than that number of the grid. -/
theorem nearest_of_grid {x : ℝ} {t R : ℤ} (ht : -1074 ≤ t) (hx : |x - R| ≤ 1 / 2)
    (hR : |R| ≤ 2 ^ 53) (hn : t = -1074 ∨ 2 ^ 52 ≤ |x|) :
    Nearest (x * 2 ^ t) (R * 2 ^ t) := by
  have hpos : (0 : ℝ) < 2 ^ t := by positivity
  refine ⟨⟨R, t, hR, ht, rfl⟩, ?_⟩
  rintro f ⟨M, E, hM, hE, rfl⟩
  suffices h : |x - R| ≤ |x - M * 2 ^ (E - t)| by
    have hf : scaled M E = M * 2 ^ (E - t) * 2 ^ t := by
      rw [scaled, mul_assoc, ← zpow_add₀ (by norm_num), sub_add_cancel]
    rw [hf, ← sub_mul, ← sub_mul, abs_mul, abs_mul, abs_of_pos hpos]
    gcongr
  rcases le_or_gt t E with hle | hlt
  · obtain ⟨k, hk⟩ := Int.eq_ofNat_of_zero_le (sub_nonneg.mpr hle)
    have := abs_sub_le_of_half hx (M * 2 ^ k)
    rw [hk, zpow_natCast]
    exact_mod_cast this
  · -- A number off the grid is at most `2 ^ 52` in size, and that one is on the grid.
    have hbig : (2 : ℝ) ^ 52 ≤ |x| := hn.resolve_left (by omega)
    have hM' : |(M : ℝ)| ≤ 2 ^ 53 := by exact_mod_cast hM
    have hsmall : |M * (2 : ℝ) ^ (E - t)| ≤ 2 ^ 52 := by
      calc |M * (2 : ℝ) ^ (E - t)| = |(M : ℝ)| * 2 ^ (E - t) := by
            rw [abs_mul, abs_of_pos (a := (2 : ℝ) ^ (E - t)) (by positivity)]
        _ ≤ 2 ^ 53 * 2 ^ (-1 : ℤ) := by gcongr <;> [norm_num; omega]
        _ = 2 ^ 52 := by norm_num
    obtain ⟨hlo, hhi⟩ := abs_le.mp hsmall
    rcases le_total 0 x with hx0 | hx0
    · have hgrid := abs_sub_le_of_half hx (2 ^ 52)
      rw [Int.cast_pow, Int.cast_ofNat] at hgrid
      rw [abs_of_nonneg hx0] at hbig
      rw [abs_of_nonneg (a := x - 2 ^ 52) (by linarith)] at hgrid
      rw [abs_of_nonneg (a := x - M * 2 ^ (E - t)) (by linarith)]
      linarith
    · have hgrid := abs_sub_le_of_half hx (-2 ^ 52)
      rw [Int.cast_neg, Int.cast_pow, Int.cast_ofNat] at hgrid
      rw [abs_of_nonpos hx0] at hbig
      rw [abs_of_nonpos (a := x - -2 ^ 52) (by linarith)] at hgrid
      rw [abs_of_nonpos (a := x - M * 2 ^ (E - t)) (by linarith)]
      linarith

end Binary

end Windowing
