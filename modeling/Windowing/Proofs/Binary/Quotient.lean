import Windowing.Proofs.Binary.Nearest

/-!
# Rounded quotients of whole numbers

The quotient `s / e` of whole numbers up to `2 ^ 53` keeps its place between whole numbers
when it is rounded: it misses a whole number `k` by a multiple of `1 / e`, and since
`k * e` is about `s` and thus not much above `2 ^ 53`, that is more than half of what
separates `k` from the representable number next to it (`Nearest.lt_natCast`,
`Nearest.natCast_lt`). So floor and ceiling of the rounded quotient are those of the exact
one (`Nearest.floor_quotient`, `Nearest.ceil_quotient`).
-/

namespace Windowing

namespace Binary

/-! ## Digits behind the point -/

/-- How many digits behind the point fit after the whole number `k`. -/
theorem exists_digits {k M : ℕ} (hk : 0 < k) (h : k ≤ M) :
    ∃ t, k * 2 ^ t ≤ M ∧ M < k * 2 ^ (t + 1) := by
  have hq : M / k ≠ 0 := (Nat.div_pos h hk).ne'
  refine ⟨Nat.log 2 (M / k), ?_, ?_⟩
  · rw [mul_comm]
    exact (Nat.le_div_iff_mul_le hk).mp (Nat.pow_log_le_self 2 hq)
  · rw [mul_comm]
    exact (Nat.div_lt_iff_lt_mul hk).mp (Nat.lt_pow_succ_log_self one_lt_two _)

theorem digits_le {k t : ℕ} (hk : 0 < k) (h : k * 2 ^ t ≤ 2 ^ 53) : t ≤ 53 := by
  refine (Nat.pow_le_pow_iff_right one_lt_two).mp ?_
  calc 2 ^ t ≤ k * 2 ^ t := Nat.le_mul_of_pos_left _ hk
    _ ≤ 2 ^ 53 := h

/-! ## Whole numbers are not reached -/

namespace Nearest

variable {q r : ℝ} {s e k : ℕ}

/-- Half a step behind the point, in units of `1 / e`. -/
theorem mul_two_pow_le {x : ℝ} {t : ℕ} (h : 2 * x ≤ 1 / 2 ^ t) :
    x * e * 2 ^ (t + 1) ≤ e := by
  rw [le_div_iff₀ (by positivity)] at h
  calc x * e * 2 ^ (t + 1) = 2 * x * 2 ^ t * e := by ring
    _ ≤ 1 * e := by gcongr
    _ = e := one_mul _

theorem lt_natCast (h : Nearest ((s : ℝ) / e) r) (hs : s ≤ 2 ^ 53) (hk : s < k * e) :
    r < k := by
  have he : 0 < e := Nat.pos_of_mul_pos_left (Nat.zero_lt_of_lt hk)
  have hk0 : 0 < k := Nat.pos_of_mul_pos_right (Nat.zero_lt_of_lt hk)
  have he' : (0 : ℝ) < e := by exact_mod_cast he
  rcases lt_or_ge (2 ^ 53) k with hbig | hsmall
  · have hq : (s : ℝ) / e ≤ (2 ^ 53 : ℕ) := by
      rw [div_le_iff₀ he']
      exact_mod_cast hs.trans (Nat.le_mul_of_pos_right _ he)
    have hr := h.le_of_le (representable_natCast le_rfl) hq
    exact hr.trans_lt (by exact_mod_cast hbig)
  · have hq : (s : ℝ) / e < k := by
      rw [div_lt_iff₀ he']
      exact_mod_cast hk
    refine lt_of_le_of_ne (h.le_of_le (representable_natCast hsmall) hq.le) ?_
    rintro rfl
    obtain ⟨t, hlo, hhi⟩ := exists_digits hk0 hsmall
    obtain ⟨d, hd⟩ := Nat.exists_eq_add_of_lt hk
    have hpos : 0 < k * 2 ^ t := by positivity
    have hf : Representable (((k * 2 ^ t - 1 : ℕ) : ℝ) / 2 ^ t) :=
      representable_div_two_pow (by omega) ((digits_le hk0 hlo).trans (by norm_num))
    have hgap : (k : ℝ) - ((k * 2 ^ t - 1 : ℕ) : ℝ) / 2 ^ t = 1 / 2 ^ t := by
      rw [Nat.cast_pred hpos]
      push_cast
      field_simp
      ring
    have hhalf := h.two_mul_sub_le hf (by rw [← sub_pos, hgap]; positivity)
    rw [hgap] at hhalf
    have hdist : ((k : ℝ) - s / e) * e = d + 1 := by
      have hd' : (k : ℝ) * e = s + d + 1 := by exact_mod_cast hd
      rw [sub_mul, div_mul_cancel₀ _ he'.ne', hd']
      ring
    have hmiss : (d + 1) * 2 ^ (t + 1) ≤ e := by
      have hreal := mul_two_pow_le (e := e) hhalf
      rw [hdist] at hreal
      exact_mod_cast hreal
    -- Both are even, so the next even number is passed too.
    have hlong : 2 ^ 53 + 2 ≤ k * 2 ^ (t + 1) := by
      have heven : k * 2 ^ (t + 1) = k * 2 ^ t * 2 := by rw [pow_succ, mul_assoc]
      rw [heven] at hhi ⊢
      omega
    have hcontra : (d + 1) * (2 ^ 53 + 2) ≤ s + d + 1 := by
      calc (d + 1) * (2 ^ 53 + 2) ≤ (d + 1) * (k * 2 ^ (t + 1)) := by gcongr
        _ = k * ((d + 1) * 2 ^ (t + 1)) := by ring
        _ ≤ k * e := by gcongr
        _ = s + d + 1 := hd
    omega

theorem natCast_lt (h : Nearest ((s : ℝ) / e) r) (hs : s ≤ 2 ^ 53) (he : 0 < e)
    (he53 : e ≤ 2 ^ 53) (hk : k * e < s) : k < r := by
  have he' : (0 : ℝ) < e := by exact_mod_cast he
  have hq : (k : ℝ) < s / e := by
    rw [lt_div_iff₀ he']
    exact_mod_cast hk
  rcases Nat.eq_zero_or_pos k with rfl | hk0
  · -- No quotient but zero is smaller than the last digit here.
    have hunit : Representable ((1 : ℕ) / 2 ^ 53) :=
      representable_div_two_pow (by norm_num) (by norm_num)
    have hle : ((1 : ℕ) : ℝ) / 2 ^ 53 ≤ s / e := by
      have hs1 : ((1 : ℕ) : ℝ) ≤ s := by exact_mod_cast (by omega : 1 ≤ s)
      have he53' : (e : ℝ) ≤ 2 ^ 53 := by exact_mod_cast he53
      gcongr
    have hr := h.ge_of_ge hunit hle
    rw [Nat.cast_zero]
    exact lt_of_lt_of_le (by positivity) hr
  · have hks : k ≤ s := (Nat.le_mul_of_pos_right _ he).trans hk.le
    refine lt_of_le_of_ne (h.ge_of_ge (representable_natCast (hks.trans hs)) hq.le) ?_
    rintro rfl
    have hsmall : k ≤ 2 ^ 53 - 1 := by
      have := (Nat.le_mul_of_pos_right k he).trans_lt hk
      omega
    obtain ⟨t, hlo, hhi⟩ := exists_digits hk0 hsmall
    obtain ⟨d, hd⟩ := Nat.exists_eq_add_of_lt hk
    have hf : Representable (((k * 2 ^ t + 1 : ℕ) : ℝ) / 2 ^ t) :=
      representable_div_two_pow (by omega)
        ((digits_le hk0 (hlo.trans (Nat.sub_le ..))).trans (by norm_num))
    have hgap : ((k * 2 ^ t + 1 : ℕ) : ℝ) / 2 ^ t - (k : ℝ) = 1 / 2 ^ t := by
      push_cast
      field_simp
      ring
    have hhalf := h.two_mul_sub_le_of_gt hf (by rw [← sub_pos, hgap]; positivity)
    rw [hgap] at hhalf
    have hdist : ((s : ℝ) / e - k) * e = d + 1 := by
      have hd' : (s : ℝ) = k * e + d + 1 := by exact_mod_cast hd
      rw [sub_mul, div_mul_cancel₀ _ he'.ne', hd']
      ring
    have hmiss : (d + 1) * 2 ^ (t + 1) ≤ e := by
      have hreal := mul_two_pow_le (e := e) hhalf
      rw [hdist] at hreal
      exact_mod_cast hreal
    have hcontra : (d + 1) * 2 ^ 53 ≤ k * e := by
      calc (d + 1) * 2 ^ 53 ≤ (d + 1) * (k * 2 ^ (t + 1)) := by gcongr; omega
        _ = k * ((d + 1) * 2 ^ (t + 1)) := by ring
        _ ≤ k * e := by gcongr
    omega

/-! ## Floor and ceiling -/

theorem floor_quotient (h : Nearest ((s : ℝ) / e) r) (hs : s ≤ 2 ^ 53) (he : 0 < e) :
    ⌊r⌋₊ = s / e := by
  have he' : (0 : ℝ) < e := by exact_mod_cast he
  have hle : ((s / e : ℕ) : ℝ) ≤ r := by
    refine h.ge_of_ge (representable_natCast ((Nat.div_le_self s e).trans hs)) ?_
    exact Nat.cast_div_le
  have hlt : r < (s / e + 1 : ℕ) := by
    refine h.lt_natCast hs ?_
    rw [mul_comm]
    exact Nat.lt_mul_div_succ s he
  rw [Nat.floor_eq_iff ((Nat.cast_nonneg _).trans hle)]
  exact ⟨hle, by exact_mod_cast hlt⟩

theorem ceil_quotient (h : Nearest ((s : ℝ) / e) r) (hs : s ≤ 2 ^ 53) (he : 0 < e)
    (he53 : e ≤ 2 ^ 53) : ⌈r⌉₊ = (s + e - 1) / e := by
  have he' : (0 : ℝ) < e := by exact_mod_cast he
  obtain ⟨c, hc⟩ : ∃ c, c = (s + e - 1) / e := ⟨_, rfl⟩
  have hlo : s ≤ c * e := by
    have := Nat.lt_div_mul_add (a := s + e - 1) he
    rw [← hc] at this
    omega
  have hhi : c * e < s + e := by
    have := Nat.div_mul_le_self (s + e - 1) e
    rw [← hc] at this
    omega
  have hcs : c ≤ s := by
    rcases Nat.eq_zero_or_pos c with h0 | hc0
    · omega
    · have hpred := Nat.le_mul_of_pos_right (c - 1) he
      have hone := Nat.le_mul_of_pos_left e hc0
      rw [Nat.sub_mul, one_mul] at hpred
      omega
  have hle : r ≤ c := by
    refine h.le_of_le (representable_natCast (hcs.trans hs)) ?_
    rw [div_le_iff₀ he']
    exact_mod_cast hlo
  rw [← hc]
  rcases Nat.eq_zero_or_pos c with h0 | hc0
  · rw [h0] at hle ⊢
    exact Nat.ceil_eq_zero.mpr (by exact_mod_cast hle)
  · rw [Nat.ceil_eq_iff hc0.ne']
    refine ⟨h.natCast_lt hs he he53 ?_, hle⟩
    rw [Nat.sub_mul, one_mul]
    have := Nat.le_mul_of_pos_left e hc0
    omega

end Nearest

end Binary

end Windowing
