import Windowing.Proofs.Binary.Value

/-!
# How mantissas are rounded

Float operations compute a mantissa that is long enough, together with two bits that say
where the exact result lies between this mantissa and the next one, and shift both to the
right until the mantissa fits. `Shows` is what such an extended mantissa says about a real
number; a shift halves the number (`Shows.shiftRight`), and the mantissa that is rounded
at the end is a nearest integer (`Shows.abs_sub_roundedMantissa_le`). So the outcome is
nearest to the exact result (`roundWithAccuracy_rounded`).
-/

namespace Windowing

namespace Binary

open Float.Model Float.Model.UnpackedFloat

/-! ## Extended mantissas -/

/-- Where `x` lies, told by a mantissa and two bits: at the mantissa, in the first half
of the step to the next one, halfway, or in the second half. -/
def Shows : ExtendedMantissa → ℝ → Prop
  | ⟨m, false, false⟩, x => x = m
  | ⟨m, false, true⟩, x => (m : ℝ) < x ∧ x + x < m + m + 1
  | ⟨m, true, false⟩, x => x + x = m + m + 1
  | ⟨m, true, true⟩, x => (m : ℝ) + m + 1 < x + x ∧ x < m + 1

namespace Shows

variable {em : ExtendedMantissa} {x : ℝ}

theorem mantissa_le (h : Shows em x) : (em.mantissa : ℝ) ≤ x := by
  obtain ⟨m, r, s⟩ := em
  cases r <;> cases s <;> simp only [Shows] at h <;> linarith

theorem lt_mantissa_add_one (h : Shows em x) : x < em.mantissa + 1 := by
  obtain ⟨m, r, s⟩ := em
  cases r <;> cases s <;> simp only [Shows] at h <;> linarith

theorem abs_sub_roundedMantissa_le (h : Shows em x) : |x - em.roundedMantissa| ≤ 1 / 2 := by
  obtain ⟨m, r, s⟩ := em
  cases r <;> cases s <;> simp only [Shows] at h <;>
    simp only [ExtendedMantissa.roundedMantissa, ExtendedMantissa.accuracy,
      Accuracy.roundToNearestEven]
  case true.false =>
      rw [abs_le]
      rcases Nat.mod_two_eq_zero_or_one m with hm | hm <;> rw [hm] <;> push_cast <;>
        constructor <;> linarith
  all_goals
    rw [abs_le]
    push_cast
    constructor <;> linarith

/-- The digit that is shifted out becomes the first bit, and what was known of the digits
behind it is kept in the second. -/
theorem shiftRightOne (h : Shows em x) : Shows em.shiftRightOne (x / 2) := by
  obtain ⟨m, r, s⟩ := em
  have hm : ((m % 2 : ℕ) : ℝ) + 2 * (m / 2 : ℕ) = m := by exact_mod_cast Nat.mod_add_div m 2
  rcases Nat.mod_two_eq_zero_or_one m with h2 | h2 <;> rw [h2] at hm <;> push_cast at hm <;>
    cases r <;> cases s <;> simp only [Shows] at h <;>
    simp [Shows, ExtendedMantissa.shiftRightOne, h2] <;> first
      | linarith
      | constructor <;> linarith

theorem shiftRight (h : Shows em x) (n : ℕ) : Shows (em >>> n) (x / 2 ^ n) := by
  show Shows (n.repeat ExtendedMantissa.shiftRightOne em) _
  induction n with
  | zero => simpa [Nat.repeat] using h
  | succ n ih =>
      rw [Nat.repeat, pow_succ, ← div_div]
      exact ih.shiftRightOne

end Shows

theorem shows_exact (m : ℕ) : Shows (.ofMantissaAndAccuracy m .exact) m := rfl

theorem mantissa_ofMantissaAndAccuracy (m : ℕ) (acc : Accuracy) :
    (ExtendedMantissa.ofMantissaAndAccuracy m acc).mantissa = m := by
  cases acc with
  | exact => rfl
  | inexact o => cases o <;> rfl

/-- A mantissa that is shifted to `n` digits has at most one digit more when it is rounded, and
only if it is the least mantissa that long. -/
theorem Shows.roundedMantissa_le {m n k : ℕ} {acc : Accuracy} {x : ℝ}
    (hx : Shows (.ofMantissaAndAccuracy m acc) x) (hlog : m.log2 < n + k) :
    (ExtendedMantissa.ofMantissaAndAccuracy m acc >>> k).roundedMantissa ≤ 2 ^ n := by
  have hhi := hx.lt_mantissa_add_one
  rw [mantissa_ofMantissaAndAccuracy] at hhi
  have htop : x / 2 ^ k < 2 ^ n := by
    rw [div_lt_iff₀ (by positivity)]
    calc x < m + 1 := hhi
      _ ≤ 2 ^ (m.log2 + 1) := by exact_mod_cast Nat.lt_log2_self
      _ ≤ 2 ^ (n + k) := pow_le_pow_right₀ one_le_two hlog
      _ = 2 ^ n * 2 ^ k := pow_add ..
  generalize hem : ExtendedMantissa.ofMantissaAndAccuracy m acc >>> k = em
  have hround := (hem ▸ hx.shiftRight k).abs_sub_roundedMantissa_le
  have hlt : (em.roundedMantissa : ℝ) < 2 ^ n + 1 := by linarith [(abs_le.mp hround).1]
  exact Nat.lt_succ_iff.mp (by exact_mod_cast hlt)

/-- The rest of a division says where the quotient lies. -/
theorem shows_quotient {d : ℕ} (hd : 0 < d) (n : ℕ) :
    Shows (.ofMantissaAndAccuracy (n / d) (accuracyOfFraction (n % d) d)) ((n : ℝ) / d) := by
  have hd' : (0 : ℝ) < d := by exact_mod_cast hd
  have hq : (n : ℝ) / d = (n / d : ℕ) + (n % d : ℕ) / d := by
    rw [div_eq_iff hd'.ne', add_mul, div_mul_cancel₀ _ hd'.ne']
    exact_mod_cast (Nat.div_add_mod' n d).symm
  rw [hq]
  have hlt : ((n % d : ℕ) : ℝ) / d < 1 := by
    rw [div_lt_one hd']
    exact_mod_cast Nat.mod_lt n hd
  unfold accuracyOfFraction
  split
  · rename_i hz
    simp [hz, ExtendedMantissa.ofMantissaAndAccuracy, Shows]
  · rename_i hz
    have hpos : (0 : ℝ) < (n % d : ℕ) / d := by
      have : (0 : ℝ) < (n % d : ℕ) := by exact_mod_cast Nat.pos_of_ne_zero hz
      positivity
    rcases lt_trichotomy (2 * (n % d)) d with h | h | h
    · have hhalf : ((n % d : ℕ) : ℝ) / d < 1 / 2 := by
        rw [div_lt_div_iff₀ hd' two_pos]
        exact_mod_cast (by omega : n % d * 2 < 1 * d)
      rw [Nat.compare_eq_lt.mpr h]
      exact ⟨by linarith, by linarith⟩
    · have hhalf : ((n % d : ℕ) : ℝ) / d = 1 / 2 := by
        rw [div_eq_div_iff hd'.ne' two_ne_zero]
        exact_mod_cast (by omega : n % d * 2 = 1 * d)
      rw [Nat.compare_eq_eq.mpr h, hhalf]
      show ((n / d : ℕ) : ℝ) + 1 / 2 + ((n / d : ℕ) + 1 / 2)
        = (n / d : ℕ) + (n / d : ℕ) + 1
      ring
    · have hhalf : 1 / 2 < ((n % d : ℕ) : ℝ) / d := by
        rw [div_lt_div_iff₀ two_pos hd']
        exact_mod_cast (by omega : 1 * d < n % d * 2)
      rw [Nat.compare_eq_gt.mpr h]
      exact ⟨by linarith, by linarith⟩

/-! ## The shift to the target exponent -/

/-- The exponent at which a number fills all digits, or the smallest one. -/
theorem targetExponent_eq_max (fmt : Format) (m : ℕ) (e : ℤ) :
    fmt.targetExponent (totalExponent m e)
      = max (m.log2 + 1 + e - fmt.mantissaBits) fmt.minExponent := rfl

theorem targetExponent_eq (m : ℕ) (e : ℤ) :
    Format.binary64.targetExponent (totalExponent m e) = max (m.log2 + e - 52) (-1074) := by
  show max ((m.log2 : ℤ) + 1 + e - (53 : ℕ)) (-1074) = _
  omega

section

variable {fmt : Format} {R : ℕ} {t : ℤ}

/-- Nothing is shifted out of a mantissa that fits. -/
theorem shift_of_fits (hR : R < 2 ^ fmt.mantissaBits) (ht : fmt.minExponent ≤ t) :
    shiftToTargetExponent fmt R t .exact = (⟨R, false, false⟩, t) := by
  have hlog : R.log2 < fmt.mantissaBits := by
    rcases Nat.eq_zero_or_pos R with rfl | hpos
    · exact Nat.lt_of_lt_of_le Nat.zero_lt_one (Nat.le_add_right ..)
    · exact (Nat.log2_lt hpos.ne').mpr hR
  have hk : (fmt.targetExponent (totalExponent R t) - t).toNat = 0 := by
    rw [targetExponent_eq_max]
    omega
  simp only [shiftToTargetExponent, shiftToExponent, hk]
  rw [Int.natCast_zero, add_zero]
  rfl

/-- A mantissa that was rounded up to one digit more is shifted once. -/
theorem shift_of_carry (ht : fmt.minExponent ≤ t) :
    shiftToTargetExponent fmt (2 ^ fmt.mantissaBits) t .exact
      = (⟨2 ^ fmt.mantissaBitsWithoutImplicit, false, false⟩, t + 1) := by
  have hk : (fmt.targetExponent (totalExponent (2 ^ fmt.mantissaBits) t) - t).toNat = 1 := by
    rw [targetExponent_eq_max, Nat.log2_two_pow]
    omega
  have hhalf : 2 ^ fmt.mantissaBits = 2 * 2 ^ fmt.mantissaBitsWithoutImplicit :=
    (pow_add ..).trans (by rw [pow_one])
  simp only [shiftToTargetExponent, shiftToExponent, hk]
  rw [hhalf]
  show (ExtendedMantissa.shiftRightOne _, _) = _
  simp [ExtendedMantissa.shiftRightOne, ExtendedMantissa.ofMantissaAndAccuracy, Nat.repeat]

end

/-! ## Rounded results -/

/-- A number with the sign applied. -/
def signed (s : Sign) (x : ℝ) : ℝ :=
  match s with
  | .negative => -x
  | .positive => x

theorem realOf_finite (s : Sign) (m : ℕ) (e : ℤ) (h : 0 < m) :
    realOf (.finite s m e h) = signed s m * 2 ^ e := by
  cases s <;> simp [realOf, scaled, signed, Sign.apply]

/-- Parts of a number nearest to `q`. Its exponent may still be too large. -/
structure Rounded (q : ℝ) (u : UnpackedFloat) : Prop where
  canonical : Canonical u
  finite : u.isFinite = true
  nearest : Nearest q (realOf u)

/-- The mantissa `R` is rounded and may have got one digit too many; taking it into
parts loses nothing any more. -/
theorem rounded_of_mantissa {s : Sign} {R : ℕ} {t : ℤ} {q : ℝ} (hR : R ≤ 2 ^ 53)
    (ht : -1074 ≤ t) (hlow : t = -1074 ∨ 2 ^ 52 ≤ R)
    (hq : Nearest q (signed s R * 2 ^ t)) :
    let last := shiftToTargetExponent .binary64 R t .exact
    Rounded q (if h : last.1.mantissa = 0 then .zero s
      else .finite s last.1.mantissa last.2 (Nat.pos_of_ne_zero h)) := by
  intro last
  rcases Nat.lt_or_eq_of_le hR with hlt | rfl
  · have hlast : last = (⟨R, false, false⟩, t) := shift_of_fits hlt ht
    rw [hlast]
    rcases Nat.eq_zero_or_pos R with rfl | hpos
    · rw [dif_pos rfl]
      refine ⟨trivial, rfl, ?_⟩
      cases s <;> simpa [realOf, signed] using hq
    · rw [dif_neg hpos.ne']
      exact ⟨⟨hlt, ht, hlow.symm⟩, rfl, by rwa [realOf_finite]⟩
  · have hlast : last = (⟨2 ^ 52, false, false⟩, t + 1) := shift_of_carry ht
    rw [hlast, dif_neg (by norm_num)]
    refine ⟨⟨by norm_num, by omega, Or.inl le_rfl⟩, rfl, ?_⟩
    have hsame : signed s ((2 ^ 53 : ℕ) : ℝ) * 2 ^ t
        = signed s ((2 ^ 52 : ℕ) : ℝ) * 2 ^ (t + 1) := by
      rw [zpow_add₀ (by norm_num), zpow_one]
      cases s <;> simp only [signed] <;> push_cast <;> ring
    rw [realOf_finite, ← hsame]
    exact hq

theorem nearest_signed {s : Sign} {x : ℝ} {t : ℤ} {R : ℕ} (hx0 : 0 ≤ x) (ht : -1074 ≤ t)
    (hx : |x - R| ≤ 1 / 2) (hR : R ≤ 2 ^ 53) (hn : t = -1074 ∨ 2 ^ 52 ≤ x) :
    Nearest (signed s x * 2 ^ t) (signed s R * 2 ^ t) := by
  have habs : |(R : ℤ)| ≤ 2 ^ 53 := by
    rw [Nat.abs_cast]
    exact_mod_cast hR
  cases s with
  | positive =>
      have := nearest_of_grid (x := x) (R := R) ht (by exact_mod_cast hx) habs
        (by rwa [abs_of_nonneg hx0])
      exact_mod_cast this
  | negative =>
      have hx' : |-x - ((-R : ℤ) : ℝ)| ≤ 1 / 2 := by
        push_cast
        rwa [neg_sub_neg, abs_sub_comm]
      have := nearest_of_grid (x := -x) (R := -R) ht hx' (by rwa [abs_neg])
        (by rwa [abs_neg, abs_of_nonneg hx0])
      push_cast at this
      exact this

/-- **Rounding.** A mantissa and what is known of the digits behind it go to the nearest
number, if the mantissa is long enough for the target exponent. -/
theorem roundWithAccuracy_rounded {s : Sign} {m : ℕ} {e : ℤ} {acc : Accuracy} {x : ℝ}
    (hx : Shows (.ofMantissaAndAccuracy m acc) x)
    (he : e ≤ Format.binary64.targetExponent (totalExponent m e)) :
    Rounded (signed s x * 2 ^ e) (roundWithAccuracy .binary64 s m e acc) := by
  rw [targetExponent_eq] at he
  obtain ⟨k, hk⟩ := Int.eq_ofNat_of_zero_le (sub_nonneg.mpr he)
  -- The number in steps of the target exponent `e + k`.
  have hy := hx.shiftRight k
  have hR := hx.roundedMantissa_le (n := 53) (k := k) (by omega)
  have hlo := hx.mantissa_le
  rw [mantissa_ofMantissaAndAccuracy] at hlo
  have hx0 : 0 ≤ x := (Nat.cast_nonneg m).trans hlo
  have hpow : (0 : ℝ) < 2 ^ k := by positivity
  have hround := hy.abs_sub_roundedMantissa_le
  have hlow : e + k = -1074 ∨ 2 ^ 52 ≤ x / 2 ^ k := by
    rcases le_or_gt ((m.log2 : ℤ) + e - 52) (-1074) with hmin | hmin
    · exact Or.inl (by omega)
    · have hm : m ≠ 0 := by
        rintro rfl
        simp at he hmin
        omega
      refine Or.inr ?_
      rw [le_div_iff₀ hpow, ← pow_add]
      calc (2 : ℝ) ^ (52 + k) = 2 ^ m.log2 := by congr 1; omega
        _ ≤ m := by exact_mod_cast Nat.log2_self_le hm
        _ ≤ x := hlo
  generalize hem : ExtendedMantissa.ofMantissaAndAccuracy m acc >>> k = em at hR hround
  have hRlow : e + k = -1074 ∨ 2 ^ 52 ≤ em.roundedMantissa := by
    refine hlow.imp_right fun h => ?_
    have : (2 : ℝ) ^ 52 < em.roundedMantissa + 1 := by linarith [(abs_le.mp hround).2]
    exact Nat.lt_succ_iff.mp (by exact_mod_cast this)
  have hq : signed s x * 2 ^ e = signed s (x / 2 ^ k) * 2 ^ (e + k) := by
    rw [zpow_add₀ (by norm_num), zpow_natCast]
    cases s <;> simp only [signed] <;> field_simp
  have hfirst : shiftToTargetExponent .binary64 m e acc = (em, e + k) := by
    have hamount : (max ((m.log2 : ℤ) + e - 52) (-1074) - e).toNat = k := by omega
    simp only [shiftToTargetExponent, shiftToExponent, targetExponent_eq, hamount, hem]
  rw [hq]
  have hresult := rounded_of_mantissa (s := s) hR (by omega) hRlow
    (nearest_signed (s := s) (by positivity) (by omega) hround hR hlow)
  simp only [roundWithAccuracy, hfirst]
  exact hresult

theorem log2_shiftLeft {m : ℕ} (hm : m ≠ 0) (k : ℕ) : (m <<< k).log2 = m.log2 + k := by
  induction k with
  | zero => rfl
  | succ k ih =>
      rw [Nat.shiftLeft_succ, Nat.log2_two_mul (by simpa [Nat.shiftLeft_eq] using hm), ih]
      rfl

/-- A mantissa without further digits may also be too short; it is then lengthened. -/
theorem round_eq_roundWithAccuracy {fmt : Format} {m k : ℕ} {e : ℤ} (s : Sign)
    (hk : (e - fmt.targetExponent (totalExponent m e)).toNat = k) :
    UnpackedFloat.round fmt s m e = roundWithAccuracy fmt s (m <<< k) (e - k) .exact := by
  simp only [UnpackedFloat.round, decreaseExponent, hk]

theorem round_rounded (s : Sign) {m : ℕ} (hm : 0 < m) (e : ℤ) :
    Rounded (signed s m * 2 ^ e) (UnpackedFloat.round .binary64 s m e) := by
  generalize hk : (e - Format.binary64.targetExponent (totalExponent m e)).toNat = k
  have hlog : (m <<< k).log2 = m.log2 + k := log2_shiftLeft hm.ne' k
  have hq : signed s m * (2 : ℝ) ^ e = signed s ((m <<< k : ℕ) : ℝ) * 2 ^ (e - k) := by
    rw [zpow_sub₀ (by norm_num), zpow_natCast, Nat.shiftLeft_eq]
    cases s <;> simp only [signed] <;> push_cast <;> field_simp
  rw [round_eq_roundWithAccuracy s hk, hq]
  refine roundWithAccuracy_rounded (shows_exact _) ?_
  rw [targetExponent_eq] at hk ⊢
  rw [hlog]
  omega

theorem normalize_rounded (m e : ℤ) (s : Sign) :
    Rounded (m * 2 ^ e) (UnpackedFloat.normalize .binary64 m e s) := by
  unfold UnpackedFloat.normalize
  rcases lt_trichotomy m 0 with h | rfl | h
  · rw [Int.compare_eq_lt.mpr h]
    have hq : (m : ℝ) = signed .negative ((-m).toNat : ℝ) := by
      have : (((-m).toNat : ℤ) : ℝ) = ((-m : ℤ) : ℝ) := by
        rw [Int.toNat_of_nonneg (by omega)]
      push_cast at this
      simp only [signed]
      linarith
    rw [hq]
    exact round_rounded .negative (by omega) e
  · rw [Int.compare_eq_eq.mpr rfl]
    have hzero := nearest_self (representable_natCast (n := 0) (by norm_num))
    exact ⟨trivial, rfl, by simpa [realOf] using hzero⟩
  · rw [Int.compare_eq_gt.mpr h]
    have hq : (m : ℝ) = signed .positive (m.toNat : ℝ) := by
      have : ((m.toNat : ℤ) : ℝ) = (m : ℝ) := by rw [Int.toNat_of_nonneg h.le]
      push_cast at this
      exact this.symm
    rw [hq]
    exact round_rounded .positive (by omega) e

/-! ## Truncation -/

theorem toNat_roundToInt {m : ℕ} (e : ℤ) :
    (roundToInt .positive m e).toNat = ⌊(m : ℝ) * 2 ^ e⌋₊ := by
  obtain ⟨n, hn⟩ : ∃ n, n = m <<< e.toNat := ⟨_, rfl⟩
  obtain ⟨k, hk⟩ : ∃ k, k = (0 - (e - e.toNat)).toNat := ⟨_, rfl⟩
  have hround : (roundToInt .positive m e).toNat
      = (ExtendedMantissa.ofMantissaAndAccuracy n .exact >>> k).mantissa := by
    simp only [roundToInt, decreaseExponent, shiftToExponent, Sign.apply, sub_zero, hn, hk,
      Int.toNat_natCast]
  have hreal : (m : ℝ) * 2 ^ e = n / 2 ^ k := by
    have he : e + k = e.toNat := by omega
    rw [eq_div_iff (by positivity), hn, Nat.shiftLeft_eq, mul_assoc, ← zpow_natCast,
      ← zpow_add₀ (by norm_num), he, zpow_natCast]
    push_cast
    rfl
  have hshows := (shows_exact n).shiftRight k
  rw [hround, hreal, eq_comm, Nat.floor_eq_iff (by positivity)]
  exact ⟨hshows.mantissa_le, hshows.lt_mantissa_add_one⟩

end Binary

end Windowing
