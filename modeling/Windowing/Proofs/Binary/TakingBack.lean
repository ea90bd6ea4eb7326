import Windowing.Proofs.Binary.Nearest

/-!
# Rounded products taken back by a division

A whole number times a size, divided by the size again, is the whole number, but not if both results
are rounded (`TakenBack`). The first rounding moves the product by at most one part in `2 ^ 53`
(`Nearest.abs_sub_le`), which may be more than the second one makes good for: the quotient is the
whole number again exactly if what the first rounding adds or takes away is not more than half the
distance to the next representable number (`TakenBack.eq_iff`). Exactly half of it cannot be: a
number halfway between two neighbours has more than 53 digits, and so has any multiple of it
(`not_representable_of_odd`). So here too it does not matter to which of two equally close numbers
is rounded.
-/

namespace Windowing

namespace Binary

variable {i : ℕ} {f q v x : ℝ}

/-! ## Mantissas -/

theorem scaled_add_natCast (m e : ℤ) (a : ℕ) : scaled m (e + a) = scaled (m * 2 ^ a) e := by
  rw [scaled, scaled, zpow_add₀ (by norm_num), zpow_natCast]
  push_cast
  ring

theorem scaled_inj {m n e : ℤ} : scaled m e = scaled n e ↔ m = n := by
  rw [scaled, scaled, mul_left_inj' (by positivity), Int.cast_inj]

theorem scaled_mul (m n e t : ℤ) : scaled m e * scaled n t = scaled (m * n) (e + t) := by
  rw [scaled, scaled, scaled, zpow_add₀ (by norm_num)]
  push_cast
  ring

/-- An odd factor with more than 53 digits stays in the mantissa whatever the exponent. -/
theorem not_representable_of_odd {J m e : ℤ} (hJ : Odd J) (hlong : 2 ^ 53 < J) (hm : m ≠ 0) :
    ¬ Representable (scaled (m * J) e) := by
  rintro ⟨n, t, hn, -, heq⟩
  have hJ0 : J ≠ 0 := by omega
  obtain ⟨hdvd, hn0⟩ : J ∣ n ∧ n ≠ 0 := by
    rcases le_total e t with hle | hle
    · obtain ⟨a, rfl⟩ := Int.le.dest hle
      rw [scaled_add_natCast, scaled_inj] at heq
      have hcoprime : IsCoprime J (2 ^ a) := (Int.isCoprime_two_right.mpr hJ).pow_right
      refine ⟨hcoprime.dvd_of_dvd_mul_right (Dvd.intro_left m heq), ?_⟩
      rintro rfl
      simp [hm, hJ0] at heq
    · obtain ⟨a, rfl⟩ := Int.le.dest hle
      rw [scaled_add_natCast, scaled_inj] at heq
      rw [← heq]
      exact ⟨(Dvd.intro_left m rfl).mul_right _, by positivity⟩
  have hle := Int.le_of_dvd (abs_pos.mpr hn0) ((dvd_abs J n).mpr hdvd)
  omega

/-! ## How far rounding goes -/

/-- The first 53 digits of a number are off by less than one part in `2 ^ 53`. -/
theorem exists_mantissa_near (N : ℕ) :
    ∃ (R : ℤ) (s : ℕ), |R| ≤ 2 ^ 53 ∧ |(N : ℝ) - R * 2 ^ s| ≤ N / 2 ^ 53 := by
  rcases le_or_gt N (2 ^ 53) with hshort | hlong
  · refine ⟨N, 0, by rw [Nat.abs_cast]; exact_mod_cast hshort, ?_⟩
    rw [Int.cast_natCast, pow_zero, mul_one, sub_self, abs_zero]
    positivity
  · have hN : N ≠ 0 := by omega
    obtain ⟨s, hs⟩ : ∃ s, N.log2 = 52 + s :=
      Nat.exists_eq_add_of_le ((Nat.le_log2 hN).mpr (by omega))
    have hlo : (2 : ℝ) ^ (52 + s) ≤ N := by exact_mod_cast hs ▸ Nat.log2_self_le hN
    have hhi : (N : ℝ) < 2 ^ (53 + s) := by
      have hlt := Nat.lt_log2_self (n := N)
      rw [hs, show 52 + s + 1 = 53 + s by omega] at hlt
      exact_mod_cast hlt
    have hpow : (0 : ℝ) < 2 ^ s := by positivity
    have htop : (N : ℝ) / 2 ^ s < 2 ^ 53 := by rwa [div_lt_iff₀ hpow, ← pow_add]
    have hround := abs_sub_round ((N : ℝ) / 2 ^ s)
    refine ⟨round ((N : ℝ) / 2 ^ s), s, ?_, ?_⟩
    · generalize round ((N : ℝ) / 2 ^ s) = R at hround
      obtain ⟨hleft, hright⟩ := abs_le.mp hround
      have hpos : (0 : ℝ) ≤ N / 2 ^ s := by positivity
      have h0 : -1 < R := by exact_mod_cast (by linarith : (-1 : ℝ) < R)
      have h53 : R < 2 ^ 53 + 1 := by exact_mod_cast (by linarith : (R : ℝ) < 2 ^ 53 + 1)
      exact abs_le.mpr ⟨by omega, by omega⟩
    · have hdist : (N : ℝ) - round ((N : ℝ) / 2 ^ s) * 2 ^ s
          = (N / 2 ^ s - round ((N : ℝ) / 2 ^ s)) * 2 ^ s := by
        rw [sub_mul, div_mul_cancel₀ _ hpow.ne']
      rw [hdist, abs_mul, abs_of_pos hpow]
      calc |(N : ℝ) / 2 ^ s - round ((N : ℝ) / 2 ^ s)| * 2 ^ s ≤ 1 / 2 * 2 ^ s := by gcongr
        _ = 2 ^ (52 + s) / 2 ^ 53 := by rw [pow_add]; ring
        _ ≤ N / 2 ^ 53 := by gcongr

/-- A mantissa of any length is rounded by one part in `2 ^ 53` at most. -/
theorem Nearest.abs_sub_le {N : ℕ} {t : ℤ} (h : Nearest (scaled N t) f) (ht : -1074 ≤ t) :
    |scaled N t - f| ≤ scaled N t / 2 ^ 53 := by
  obtain ⟨R, s, hR, hnear⟩ := exists_mantissa_near N
  have hdist : scaled N t - scaled R (t + s) = (N - R * 2 ^ s) * 2 ^ t := by
    rw [scaled_add_natCast, scaled, scaled]
    push_cast
    ring
  calc |scaled N t - f| ≤ |scaled N t - scaled R (t + s)| :=
        h.closest ⟨R, t + s, hR, by omega, rfl⟩
    _ = |(N : ℝ) - R * 2 ^ s| * 2 ^ t := by
      rw [hdist, abs_mul, abs_of_pos (a := (2 : ℝ) ^ t) (by positivity)]
    _ ≤ N / 2 ^ 53 * 2 ^ t := by gcongr
    _ = scaled N t / 2 ^ 53 := by
      rw [scaled]
      push_cast
      ring

/-! ## Neighbours of a whole number -/

/-- Half of the distance between a whole number and its representable neighbours. For a power of two
the one below it is closer, but it takes no rounding to multiply by a power of two. -/
noncomputable def halfGap (i : ℕ) : ℝ := scaled 1 (i.log2 - 53)

theorem halfGap_eq (i : ℕ) : halfGap i = 2 ^ i.log2 / 2 ^ 53 := by
  rw [halfGap, scaled, Int.cast_one, one_mul, zpow_sub₀ two_ne_zero, zpow_natCast]
  rfl

theorem halfGap_pos (i : ℕ) : 0 < halfGap i := by
  rw [halfGap_eq]
  positivity

/-- A whole number with at most 53 digits has room for `d` more behind the point. -/
theorem exists_halfGap_eq (hpos : 0 < i) (hi : i < 2 ^ 53) :
    ∃ d, i.log2 + d = 52 ∧ halfGap i = 1 / 2 ^ (d + 1) ∧ i * 2 ^ d < 2 ^ 53 := by
  have hlog : i.log2 < 53 := (Nat.log2_lt hpos.ne').mpr hi
  obtain ⟨d, hd⟩ := Nat.exists_eq_add_of_le (Nat.le_of_lt_succ hlog)
  refine ⟨d, hd.symm, ?_, ?_⟩
  · rw [halfGap_eq, show 53 = i.log2 + (d + 1) by omega, pow_add]
    field_simp
  · calc i * 2 ^ d < 2 ^ (i.log2 + 1) * 2 ^ d := by gcongr; exact Nat.lt_log2_self
      _ = 2 ^ 53 := by rw [← pow_add]; congr 1; omega

theorem representable_neighbour (hpos : 0 < i) (hi : i < 2 ^ 53) {n : ℤ} (hn : |n| ≤ 1) :
    Representable (i + n * (2 * halfGap i)) := by
  obtain ⟨d, hd, hgap, hlt⟩ := exists_halfGap_eq hpos hi
  have heq : (i : ℝ) + n * (2 * halfGap i) = ((i * 2 ^ d + n : ℤ) : ℝ) / 2 ^ d := by
    rw [hgap, pow_succ]
    push_cast
    field_simp
  rw [heq]
  refine representable_intCast_div_two_pow ?_ (by omega)
  have hlt' : (i : ℤ) * 2 ^ d < 2 ^ 53 := by exact_mod_cast hlt
  have hnonneg : (0 : ℤ) ≤ i * 2 ^ d := by positivity
  obtain ⟨hlo, hhi⟩ := abs_le.mp hn
  exact abs_le.mpr ⟨by omega, by omega⟩

/-- Numbers above a power of two have no digits that are too far behind its own. -/
theorem neg_le_exponent {k d : ℕ} {m t : ℤ} (hkd : k + d = 52) (hm : |m| ≤ 2 ^ 53)
    (hlarge : 2 ^ k < scaled m t) : -(d : ℤ) ≤ t := by
  by_contra ht
  have hm' : (m : ℝ) ≤ 2 ^ 53 := by exact_mod_cast (abs_le.mp hm).2
  refine absurd hlarge (not_lt.mpr ?_)
  calc scaled m t ≤ 2 ^ 53 * (2 : ℝ) ^ (-(d : ℤ) - 1) := by
        rw [scaled]
        gcongr
        exacts [one_le_two, by omega]
    _ = (2 : ℝ) ^ (k : ℤ) := by
        rw [← zpow_natCast, ← zpow_add₀ (by norm_num)]
        congr 1
        push_cast
        omega
    _ = 2 ^ k := zpow_natCast ..

/-- No representable number is closer than that. -/
theorem two_mul_halfGap_le (hlo : 2 ^ i.log2 < i) (hi : i < 2 ^ 53) (hf : Representable f)
    (hne : f ≠ i) : 2 * halfGap i ≤ |f - i| := by
  obtain ⟨d, hd, hgap, -⟩ := exists_halfGap_eq (Nat.zero_lt_of_lt hlo) hi
  have hgap' : 2 * halfGap i = 1 / 2 ^ d := by
    rw [hgap, pow_succ]
    field_simp
  rw [hgap']
  rcases le_or_gt f (2 ^ i.log2) with hsmall | hlarge
  · have hone : (2 : ℝ) ^ i.log2 + 1 ≤ i := by exact_mod_cast hlo
    calc 1 / (2 : ℝ) ^ d ≤ 1 := by
          rw [div_le_one (by positivity)]
          exact one_le_pow₀ one_le_two
      _ ≤ -(f - i) := by linarith
      _ ≤ |f - i| := neg_le_abs _
  · obtain ⟨m, t, hm, -, rfl⟩ := hf
    obtain ⟨a, rfl⟩ := Int.le.dest (neg_le_exponent hd hm hlarge)
    -- Both are multiples of the last digit that fits.
    have hdiff : scaled m (-d + a) - i = ((m * 2 ^ a - i * 2 ^ d : ℤ) : ℝ) / 2 ^ d := by
      rw [scaled_add_natCast, scaled_neg]
      push_cast
      field_simp
    have hone : (1 : ℝ) ≤ |((m * 2 ^ a - i * 2 ^ d : ℤ) : ℝ)| := by
      refine (Int.cast_one (R := ℝ)).symm.le.trans ?_
      rw [← Int.cast_abs, Int.cast_le]
      refine Int.one_le_abs fun hzero => hne ?_
      rw [← sub_eq_zero, hdiff, hzero, Int.cast_zero, zero_div]
    rw [hdiff, abs_div, abs_of_pos (a := (2 : ℝ) ^ d) (by positivity)]
    gcongr

/-- What lies halfway is not a rounded product. -/
theorem not_representable_halfway (hlo : 2 ^ i.log2 < i) (hi : i < 2 ^ 53) (hv : Representable v)
    (hpos : 0 < v) {n : ℤ} (hn : |n| = 1) : ¬ Representable (v * (i + n * halfGap i)) := by
  obtain ⟨d, hd, hgap, -⟩ := exists_halfGap_eq (Nat.zero_lt_of_lt hlo) hi
  obtain ⟨m, e, -, -, rfl⟩ := hv
  have hm : m ≠ 0 := by
    rintro rfl
    simp [scaled] at hpos
  have heq : (i : ℝ) + n * halfGap i = scaled (i * 2 ^ (d + 1) + n) (-(d + 1 : ℕ)) := by
    rw [scaled_neg, hgap]
    push_cast
    field_simp
  have hfull : 2 ^ 52 < i * 2 ^ d := by
    calc 2 ^ 52 = 2 ^ i.log2 * 2 ^ d := by rw [← hd, pow_add]
      _ < i * 2 ^ d := by gcongr
  have hfull' : (2 : ℤ) ^ 52 < i * 2 ^ d := by exact_mod_cast hfull
  have hdouble : (i : ℤ) * 2 ^ (d + 1) = 2 * (i * 2 ^ d) := by ring
  rw [heq, scaled_mul]
  refine not_representable_of_odd ?_ ?_ hm
  · rw [hdouble]
    rcases (abs_eq zero_le_one).mp hn with rfl | rfl
    · exact odd_two_mul_add_one _
    · exact (even_two_mul _).add_odd (by decide)
  · rw [hdouble]
    have := (abs_le.mp hn.le).1
    omega

/-! ## There and back -/

/-- `x` is the product of a whole number and a size, rounded. -/
structure RoundedProduct (i : ℕ) (v x : ℝ) : Prop where
  small : i < 2 ^ 53
  representable : Representable v
  pos : 0 < v
  product : Nearest (i * v) x

namespace RoundedProduct

theorem representable_whole (h : RoundedProduct i v x) : Representable i :=
  representable_natCast h.small.le

/-- Multiplying by zero or by a power of two takes no rounding. -/
theorem representable_product (h : RoundedProduct i v x) (hlo : ¬ 2 ^ i.log2 < i) :
    Representable (i * v) := by
  obtain ⟨m, e, hm, he, heq⟩ := h.representable
  rcases Nat.eq_zero_or_pos i with rfl | hpos
  · rw [Nat.cast_zero, zero_mul]
    exact_mod_cast representable_natCast (n := 0) (by norm_num)
  · have hpow : i = 2 ^ i.log2 :=
      le_antisymm (not_lt.mp hlo) (Nat.log2_self_le hpos.ne')
    refine ⟨m, e + i.log2, hm, by omega, ?_⟩
    rw [scaled_add_natCast, mul_comm m, heq, scaled, scaled]
    nth_rewrite 1 [hpow]
    push_cast
    ring

theorem abs_product_sub_le (h : RoundedProduct i v x) : |i * v - x| ≤ i * v / 2 ^ 53 := by
  obtain ⟨m, e, hm, he, heq⟩ := h.representable
  have hm0 : 0 ≤ m := by
    by_contra hneg
    have hm' : (m : ℝ) ≤ 0 := by exact_mod_cast (not_le.mp hneg).le
    have hle : scaled m e ≤ 0 := mul_nonpos_of_nonpos_of_nonneg hm' (by positivity)
    linarith [h.pos]
  have hproduct : (i : ℝ) * v = scaled (i * m.toNat : ℕ) e := by
    rw [heq, Nat.cast_mul, Int.toNat_of_nonneg hm0, scaled, scaled]
    push_cast
    ring
  have hnear := h.product
  rw [hproduct] at hnear ⊢
  exact hnear.abs_sub_le he

/-- How far the quotient is off before it is rounded. -/
theorem abs_quotient_sub_le (h : RoundedProduct i v x) : |x / v - i| ≤ i / 2 ^ 53 := by
  have hdist : x / v - i = (x - i * v) / v := by
    rw [sub_div, mul_div_cancel_right₀ _ h.pos.ne']
  rw [hdist, abs_div, abs_of_pos h.pos, div_le_iff₀ h.pos, abs_sub_comm]
  calc |i * v - x| ≤ i * v / 2 ^ 53 := h.abs_product_sub_le
    _ = i / 2 ^ 53 * v := by ring

theorem abs_sub_lt_one (h : RoundedProduct i v x) : |x / v - i| < 1 := by
  refine h.abs_quotient_sub_le.trans_lt ?_
  rw [div_lt_one (by positivity)]
  exact_mod_cast h.small

theorem abs_quotient_le (h : RoundedProduct i v x) : |x / v| ≤ i + 1 := by
  obtain ⟨hlo, hhi⟩ := abs_lt.mp h.abs_sub_lt_one
  have hi : (0 : ℝ) ≤ i := Nat.cast_nonneg i
  exact abs_le.mpr ⟨by linarith, by linarith⟩

theorem abs_sub_ne (h : RoundedProduct i v x) (hlo : 2 ^ i.log2 < i) : |x / v - i| ≠ halfGap i := by
  intro htie
  have hx := h.product.representable
  have hnot (n : ℤ) (hn : |n| = 1) (heq : x / v - i = n * halfGap i) : False := by
    have hhalf : v * (i + n * halfGap i) = x := by
      rw [← heq, add_sub_cancel, mul_div_cancel₀ _ h.pos.ne']
    rw [← hhalf] at hx
    exact not_representable_halfway hlo h.small h.representable h.pos hn hx
  rcases (abs_eq (halfGap_pos i).le).mp htie with heq | heq
  · exact hnot 1 rfl (by rw [heq, Int.cast_one, one_mul])
  · exact hnot (-1) rfl (by rw [heq, Int.cast_neg, Int.cast_one, neg_one_mul])

end RoundedProduct

/-- In addition `q` is the quotient of that by the size, rounded once more. -/
structure TakenBack (i : ℕ) (v x q : ℝ) : Prop extends RoundedProduct i v x where
  quotient : Nearest (x / v) q

namespace TakenBack

/-- What is not rounded the first time is the whole number again. -/
theorem of_representable (h : TakenBack i v x q) (hrep : Representable (i * v)) :
    x = i * v ∧ q = i := by
  have hx := h.product.eq_of_representable hrep
  have hq := h.quotient
  rw [hx, mul_div_cancel_right₀ _ h.pos.ne'] at hq
  exact ⟨hx, hq.eq_of_representable h.representable_whole⟩

theorem sub_one_le (h : TakenBack i v x q) (hpos : 0 < i) : (i : ℝ) - 1 ≤ q := by
  have hpred : Representable ((i - 1 : ℕ) : ℝ) :=
    representable_natCast ((Nat.sub_le i 1).trans h.small.le)
  rw [Nat.cast_pred hpos] at hpred
  exact h.quotient.ge_of_ge hpred (by linarith [(abs_lt.mp h.abs_sub_lt_one).1])

theorem le_add_one (h : TakenBack i v x q) : q ≤ (i : ℝ) + 1 := by
  have hsucc : Representable ((i + 1 : ℕ) : ℝ) := representable_natCast h.small
  rw [Nat.cast_succ] at hsucc
  exact h.quotient.le_of_le hsucc (by linarith [(abs_lt.mp h.abs_sub_lt_one).2])

theorem eq_iff (h : TakenBack i v x q) : q = i ↔ |x / v - i| ≤ halfGap i := by
  by_cases hlo : 2 ^ i.log2 < i
  · have hpos : 0 < i := Nat.zero_lt_of_lt hlo
    constructor
    · intro hq
      have hgap := halfGap_pos i
      have habove := representable_neighbour hpos h.small (n := 1) (by decide)
      have hbelow := representable_neighbour hpos h.small (n := -1) (by decide)
      rw [Int.cast_one, one_mul] at habove
      rw [Int.cast_neg, Int.cast_one, neg_one_mul] at hbelow
      have hup := h.quotient.two_mul_sub_le_of_gt habove (by linarith)
      have hdown := h.quotient.two_mul_sub_le hbelow (by linarith)
      exact abs_le.mpr ⟨by linarith, by linarith⟩
    · intro hle
      have hlt := lt_of_le_of_ne hle (h.abs_sub_ne hlo)
      by_contra hne
      have hgap := two_mul_halfGap_le hlo h.small h.quotient.representable hne
      have hclose := h.quotient.closest h.representable_whole
      have htri := abs_sub_le q (x / v) i
      rw [abs_sub_comm q (x / v)] at htri
      linarith
  · obtain ⟨hx, hq⟩ := h.of_representable (h.representable_product hlo)
    refine iff_of_true hq ?_
    rw [hx, mul_div_cancel_right₀ _ h.pos.ne', sub_self, abs_zero]
    exact (halfGap_pos i).le

/-- The second rounding never passes the whole number to its other side. -/
theorem lt_iff (h : TakenBack i v x q) : q < i ↔ halfGap i < i - x / v := by
  constructor
  · intro hlt
    have hside : x / v < i := by
      by_contra hge
      exact absurd hlt (not_lt.mpr (h.quotient.ge_of_ge h.representable_whole (not_lt.mp hge)))
    have hfar := mt h.eq_iff.mpr hlt.ne
    rw [abs_of_neg (sub_neg.mpr hside), neg_sub] at hfar
    exact not_le.mp hfar
  · intro hfar
    have hside : x / v ≤ i := by linarith [halfGap_pos i]
    refine lt_of_le_of_ne (h.quotient.le_of_le h.representable_whole hside) (mt h.eq_iff.mp ?_)
    rw [abs_of_nonpos (sub_nonpos.mpr hside), neg_sub]
    exact not_le.mpr hfar

theorem gt_iff (h : TakenBack i v x q) : i < q ↔ halfGap i < x / v - i := by
  constructor
  · intro hlt
    have hside : i < x / v := by
      by_contra hle
      exact absurd hlt (not_lt.mpr (h.quotient.le_of_le h.representable_whole (not_lt.mp hle)))
    have hfar := mt h.eq_iff.mpr hlt.ne'
    rw [abs_of_pos (sub_pos.mpr hside)] at hfar
    exact not_le.mp hfar
  · intro hfar
    have hside : (i : ℝ) ≤ x / v := by linarith [halfGap_pos i]
    refine lt_of_le_of_ne (h.quotient.ge_of_ge h.representable_whole hside) ?_
    refine Ne.symm (mt h.eq_iff.mp ?_)
    rw [abs_of_nonneg (sub_nonneg.mpr hside)]
    exact not_le.mpr hfar

/-! ## The whole part -/

theorem pos_of_lt (h : TakenBack i v x q) (hlt : q < i) : 0 < i := by
  rcases Nat.eq_zero_or_pos i with rfl | hpos
  · obtain ⟨-, hq⟩ := h.of_representable (h.representable_product (by decide))
    exact absurd hq hlt.ne
  · exact hpos

theorem floor_of_lt (h : TakenBack i v x q) (hlt : q < i) : ⌊q⌋₊ = i - 1 := by
  have hpos := h.pos_of_lt hlt
  have hlow := h.sub_one_le hpos
  rw [← Nat.cast_pred hpos] at hlow
  rw [Nat.floor_eq_iff ((Nat.cast_nonneg _).trans hlow)]
  refine ⟨hlow, ?_⟩
  rwa [Nat.cast_pred hpos, sub_add_cancel]

/-- Too large a quotient has the right whole part if there are digits behind the point. -/
theorem floor_of_digits (h : TakenBack i v x q) (hi : i < 2 ^ 52) (hge : i ≤ q) : ⌊q⌋₊ = i := by
  have hhalf : Representable (((2 * i + 1 : ℕ) : ℝ) / 2 ^ 1) :=
    representable_div_two_pow (by omega) (by norm_num)
  have hi' : (i : ℝ) < 2 ^ 52 := by exact_mod_cast hi
  have hle : x / v ≤ ((2 * i + 1 : ℕ) : ℝ) / 2 ^ 1 := by
    have hoff := (abs_le.mp h.abs_quotient_sub_le).2
    push_cast
    linarith
  have hq := h.quotient.le_of_le hhalf hle
  push_cast at hq
  rw [Nat.floor_eq_iff ((Nat.cast_nonneg _).trans hge)]
  exact ⟨hge, by linarith⟩

/-- Without digits behind the point it is the next whole number. -/
theorem eq_add_one_of_gt (h : TakenBack i v x q) (hi : 2 ^ 52 ≤ i) (hgt : i < q) : q = i + 1 := by
  have hpos : 0 < i := by omega
  have hlo : 2 ^ i.log2 < i := by
    by_contra hlo
    exact absurd (h.of_representable (h.representable_product hlo)).2 hgt.ne'
  have hlog : 52 ≤ i.log2 := (Nat.le_log2 hpos.ne').mpr hi
  have hgap := two_mul_halfGap_le hlo h.small h.quotient.representable hgt.ne'
  rw [abs_of_pos (sub_pos.mpr hgt)] at hgap
  have hone : (1 : ℝ) ≤ 2 * halfGap i := by
    have hpow : (2 : ℝ) ^ 52 ≤ 2 ^ i.log2 := pow_le_pow_right₀ one_le_two hlog
    rw [halfGap_eq]
    linarith
  exact le_antisymm h.le_add_one (by linarith)

end TakenBack

end Binary

end Windowing
