import Windowing.Count
import Windowing.Proofs.Binary.Rounding

/-!
# Sums, products, quotients and counts as floats

The operations on finite floats give the exact result, rounded (`Rounds`): a nearest
number, or infinity where that number is too large for its exponent. This is proved for
addition (`add_rounds`), for subtraction as addition of the opposite (`sub_rounds`), for
multiplication (`mul_rounds`), for division (`div_rounds`) and for the float of a count
(`toFloat_rounds`). Where the exact result is representable and not too large, the float
stands for it (`Rounds.value_eq`).
-/

namespace Windowing

namespace Binary

open Float.Model Float.Model.UnpackedFloat

/-- The float is `q` rounded, before it is known whether the exponent fits. -/
def Rounds (q : ℝ) (x : Float) : Prop := ∃ u, Rounded q u ∧ x = ofParts u

theorem Rounded.rounds {q : ℝ} {u : UnpackedFloat} (h : Rounded q u) :
    Rounds q (ofParts u) :=
  ⟨u, h, rfl⟩

theorem signed_le_abs (s : Sign) (r : ℝ) : signed s r ≤ |r| := by
  cases s with
  | negative => exact neg_le_abs r
  | positive => exact le_abs_self r

theorem value_ofParts {u : UnpackedFloat} (hc : Canonical u) (hr : InRange u) :
    value (ofParts u) = realOf u := by
  rw [value, parts_ofParts hc hr]

theorem isFinite_ofParts {u : UnpackedFloat} (hc : Canonical u) (hr : InRange u)
    (hf : u.isFinite = true) : (ofParts u).isFinite = true := by
  show (parts (ofParts u)).isFinite = true
  rwa [parts_ofParts hc hr]

namespace Rounds

variable {q : ℝ} {x : Float}

/-- The outcome is a nearest number, or an infinity on the side where that number lies. -/
theorem finite_or_overflow (h : Rounds q x) :
    ∃ r, Nearest q r ∧ ((x.isFinite = true ∧ value x = r)
      ∨ ∃ s, parts x = .infinity s ∧ 2 ^ 1024 ≤ signed s r) := by
  obtain ⟨u, hu, rfl⟩ := h
  refine ⟨realOf u, hu.nearest, ?_⟩
  have hin : InRange u → (ofParts u).isFinite = true ∧ value (ofParts u) = realOf u :=
    fun hr => ⟨isFinite_ofParts hu.canonical hr hu.finite, value_ofParts hu.canonical hr⟩
  cases u with
  | notANumber => exact Or.inl (hin trivial)
  | infinity s => exact Or.inl (hin trivial)
  | zero s => exact Or.inl (hin trivial)
  | finite s m e hm =>
      rcases le_or_gt e 971 with he | he
      · exact Or.inl (hin he)
      · obtain ⟨-, -, hn⟩ := hu.canonical
        have hlo : (2 : ℝ) ^ 52 ≤ m := by exact_mod_cast hn.resolve_right (by omega)
        refine Or.inr ⟨s, parts_ofParts_of_overflow he, ?_⟩
        have hsigned : signed s (realOf (.finite s m e hm)) = m * 2 ^ e := by
          rw [realOf_finite]
          cases s <;> simp [signed]
        rw [hsigned]
        calc (2 : ℝ) ^ 1024 = (2 : ℝ) ^ 52 * (2 : ℝ) ^ ((972 : ℕ) : ℤ) := by
              rw [zpow_natCast, ← pow_add]
          _ ≤ (m : ℝ) * 2 ^ e := by gcongr; exacts [one_le_two, he]

/-- Up to half the largest power of two nothing is out of range. -/
theorem nearest (h : Rounds q x) (hq : |q| ≤ 2 ^ 1023) :
    x.isFinite = true ∧ Nearest q (value x) := by
  obtain ⟨r, hr, ⟨hfin, rfl⟩ | ⟨s, -, hs⟩⟩ := h.finite_or_overflow
  · exact ⟨hfin, hr⟩
  · have htop : Representable (2 ^ 1023) := representable_two_pow 1023
    have hbot : Representable (-2 ^ 1023) :=
      ⟨-1, 1023, by norm_num, by norm_num, by norm_num [scaled]⟩
    have habs : |r| ≤ 2 ^ 1023 :=
      abs_le.mpr ⟨hr.ge_of_ge hbot (abs_le.mp hq).1, hr.le_of_le htop (abs_le.mp hq).2⟩
    have hlt : (2 : ℝ) ^ 1023 < 2 ^ 1024 := pow_lt_pow_right₀ one_lt_two (by norm_num)
    exact absurd (hs.trans ((signed_le_abs s r).trans habs)) (not_le.mpr hlt)

/-- Nor is a finite float, however large. -/
theorem nearest_of_isFinite (h : Rounds q x) (hx : x.isFinite = true) : Nearest q (value x) := by
  obtain ⟨r, hr, ⟨-, rfl⟩ | ⟨s, hs, -⟩⟩ := h.finite_or_overflow
  · exact hr
  · have hparts : (parts x).isFinite = true := hx
    rw [hs] at hparts
    cases hparts

theorem value_eq (h : Rounds q x) (hrep : Representable q) (hq : |q| ≤ 2 ^ 1023) :
    x.isFinite = true ∧ value x = q := by
  obtain ⟨hfin, hr⟩ := h.nearest hq
  exact ⟨hfin, hr.eq_of_representable hrep⟩

end Rounds

/-! ## Exact operands -/

theorem representable_realOf {u : UnpackedFloat} (h : Canonical u) :
    Representable (realOf u) := by
  cases u with
  | finite s m e hm =>
      refine ⟨s.apply m, e, ?_, h.2.1, rfl⟩
      have hlt := h.1
      cases s <;> simp only [Sign.apply, abs_neg, Nat.abs_cast] <;> exact_mod_cast hlt.le
  | _ => exact_mod_cast representable_natCast (n := 0) (by norm_num)

theorem rounded_self {u : UnpackedFloat} (hc : Canonical u) (hf : u.isFinite = true) :
    Rounded (realOf u) u :=
  ⟨hc, hf, nearest_self (representable_realOf hc)⟩

theorem rounded_zero (s : Sign) : Rounded 0 (.zero s) :=
  rounded_self (u := .zero s) trivial rfl

/-! ## Addition -/

/-- Lowering an exponent lengthens the mantissa by as many digits. -/
theorem apply_shiftLeft (s : Sign) (m : ℕ) {e t : ℤ} (h : t ≤ e) :
    ((s.apply (m <<< (e - t).toNat : ℕ) : ℤ) : ℝ) * 2 ^ t = (s.apply m : ℤ) * 2 ^ e := by
  obtain ⟨k, hk⟩ := Int.eq_ofNat_of_zero_le (sub_nonneg.mpr h)
  have he : e = k + t := by omega
  rw [hk, he, zpow_add₀ (by norm_num), zpow_natCast, Int.toNat_natCast, Nat.shiftLeft_eq]
  cases s <;> simp only [Sign.apply] <;> push_cast <;> ring

theorem add_rounded {u v : UnpackedFloat} (hu : Canonical u) (hv : Canonical v)
    (fu : u.isFinite = true) (fv : v.isFinite = true) :
    Rounded (realOf u + realOf v) (UnpackedFloat.add .binary64 u v) := by
  cases u with
  | notANumber => cases fu
  | infinity s => cases fu
  | zero s =>
      cases v with
      | notANumber => cases fv
      | infinity t => cases fv
      | zero t =>
          have hsum : realOf (.zero s) + realOf (.zero t) = 0 := add_zero 0
          rw [hsum]
          cases s <;> cases t <;> exact rounded_zero _
      | finite t n f hn =>
          have hsum : realOf (.zero s) + realOf (.finite t n f hn)
              = realOf (.finite t n f hn) := zero_add _
          rw [hsum]
          exact rounded_self hv fv
  | finite s m e hm =>
      cases v with
      | notANumber => cases fv
      | infinity t => cases fv
      | zero t =>
          have hsum : realOf (.finite s m e hm) + realOf (.zero t)
              = realOf (.finite s m e hm) := add_zero _
          rw [hsum]
          exact rounded_self hu fu
      | finite t n f hn =>
          have hsum : realOf (.finite s m e hm) + realOf (.finite t n f hn)
              = ((s.apply (m <<< (e - min e f).toNat : ℕ)
                  + t.apply (n <<< (f - min e f).toNat : ℕ) : ℤ) : ℝ) * 2 ^ min e f := by
            rw [Int.cast_add, add_mul, apply_shiftLeft s m (min_le_left e f),
              apply_shiftLeft t n (min_le_right e f)]
            rfl
          rw [hsum]
          exact normalize_rounded ..

theorem add_rounds {x y : Float} (hx : x.isFinite = true) (hy : y.isFinite = true) :
    Rounds (value x + value y) (x + y) :=
  (add_rounded (canonical_parts x).1 (canonical_parts y).1 hx hy).rounds

/-! ## Subtraction -/

theorem sub_eq_add (u v : UnpackedFloat) :
    UnpackedFloat.sub .binary64 u v = UnpackedFloat.add .binary64 u v.neg := by
  cases u with
  | notANumber => rfl
  | infinity s =>
      cases v with
      | infinity t => cases s <;> cases t <;> rfl
      | _ => rfl
  | zero s =>
      cases v with
      | zero t => cases s <;> cases t <;> rfl
      | _ => rfl
  | finite s m e hm =>
      cases v with
      | finite t n f hn =>
          have hsum (j k : ℕ) : s.apply j - t.apply k = s.apply j + (-t).apply k := by
            cases t with
            | negative => exact Int.sub_neg ..
            | positive => exact Int.sub_eq_add_neg
          exact congrArg (normalize .binary64 · (min e f) .positive) (hsum _ _)
      | _ => rfl

theorem realOf_neg (u : UnpackedFloat) : realOf u.neg = -realOf u := by
  cases u with
  | finite s m e hm =>
      cases s with
      | negative =>
          show realOf (.finite .positive m e hm) = _
          rw [realOf_positive, realOf_negative, neg_neg]
      | positive =>
          show realOf (.finite .negative m e hm) = _
          rw [realOf_positive, realOf_negative]
  | _ => exact neg_zero.symm

theorem sub_rounds {x y : Float} (hx : x.isFinite = true) (hy : y.isFinite = true) :
    Rounds (value x - value y) (x - y) := by
  have hc : Canonical (parts y).neg := by
    have h := (canonical_parts y).1
    cases hp : parts y with
    | finite s m e hm =>
        rw [hp] at h
        exact h
    | _ => trivial
  have hf : (parts y).neg.isFinite = true := by
    rcases parts_of_isFinite hy with ⟨s, hp⟩ | ⟨s, m, e, hm, hp⟩ <;> rw [hp] <;> rfl
  have h := (add_rounded (canonical_parts x).1 hc hx hf).rounds
  rw [realOf_neg, ← sub_eq_add, ← sub_eq_add_neg] at h
  exact h

/-! ## Multiplication -/

theorem signed_mul (s t : Sign) (x y : ℝ) : signed s x * signed t y = signed (s * t) (x * y) := by
  cases s <;> cases t
  case negative.negative => exact neg_mul_neg x y
  case negative.positive => exact neg_mul x y
  case positive.negative => exact mul_neg x y
  case positive.positive => rfl

/-- One full mantissa is enough for the product to be long enough to be rounded, and without
one the exponent is below the smallest. -/
theorem product_exponent_le {m n : ℕ} {e f : ℤ} {hm : 0 < m} {hn : 0 < n} {s t : Sign}
    (hu : Canonical (.finite s m e hm)) (hv : Canonical (.finite t n f hn)) :
    e + f ≤ Format.binary64.targetExponent (totalExponent (m * n) (e + f)) := by
  rw [targetExponent_eq]
  have hlog : 2 ^ 52 ≤ m * n → 52 ≤ (m * n).log2 := (Nat.le_log2 (Nat.mul_pos hm hn).ne').mpr
  rcases hu.2.2 with hm52 | rfl
  · have := hlog (hm52.trans (Nat.le_mul_of_pos_right m hn))
    omega
  · rcases hv.2.2 with hn52 | rfl
    · have := hlog (hn52.trans (Nat.le_mul_of_pos_left n hm))
      omega
    · omega

theorem mul_rounded {u v : UnpackedFloat} (hu : Canonical u) (hv : Canonical v)
    (fu : u.isFinite = true) (fv : v.isFinite = true) :
    Rounded (realOf u * realOf v) (UnpackedFloat.mul .binary64 u v) := by
  cases u with
  | notANumber => cases fu
  | infinity s => cases fu
  | zero s =>
      have hproduct : realOf (.zero s) * realOf v = 0 := zero_mul _
      rw [hproduct]
      cases v with
      | notANumber => cases fv
      | infinity t => cases fv
      | _ => exact rounded_zero _
  | finite s m e hm =>
      cases v with
      | notANumber => cases fv
      | infinity t => cases fv
      | zero t =>
          have hproduct : realOf (.finite s m e hm) * realOf (.zero t) = 0 := mul_zero _
          rw [hproduct]
          exact rounded_zero _
      | finite t n f hn =>
          have hproduct : realOf (.finite s m e hm) * realOf (.finite t n f hn)
              = signed (s * t) ((m * n : ℕ) : ℝ) * 2 ^ (e + f) := by
            rw [realOf_finite, realOf_finite, zpow_add₀ (by norm_num), Nat.cast_mul, ← signed_mul]
            ring
          rw [hproduct]
          exact roundWithAccuracy_rounded (shows_exact _) (product_exponent_le hu hv)

theorem mul_rounds {x y : Float} (hx : x.isFinite = true) (hy : y.isFinite = true) :
    Rounds (value x * value y) (x * y) :=
  (mul_rounded (canonical_parts x).1 (canonical_parts y).1 hx hy).rounds

/-! ## Division -/

theorem signed_div (s t : Sign) (x y : ℝ) :
    signed s x / signed t y = signed (s / t) (x / y) := by
  cases s <;> cases t <;> simp only [signed]
  case negative.negative => exact neg_div_neg_eq x y
  case negative.positive => exact neg_div y x
  case positive.negative => exact div_neg x
  case positive.positive => rfl

/-- The dividend is lengthened until the quotient fills its digits, or until it has the
smallest exponent. -/
theorem quotient_exponent_le {m n : ℕ} {e f t : ℤ} (hm : 0 < m) (hn : 0 < n)
    (ht : t = min (e - f)
      (Format.binary64.targetExponent (totalExponent m e - totalExponent n f))) :
    t ≤ Format.binary64.targetExponent (totalExponent ((m <<< (e - f - t).toNat) / n) t) := by
  have htarget : Format.binary64.targetExponent (totalExponent m e - totalExponent n f)
      = max ((m.log2 + 1 + e) - (n.log2 + 1 + f) - 53) (-1074) := rfl
  rw [htarget] at ht
  rw [targetExponent_eq]
  rcases le_or_gt t (-1074) with hmin | hmin
  · omega
  · obtain ⟨k, hk⟩ := Int.eq_ofNat_of_zero_le (show 0 ≤ e - f - t by omega)
    have hlong : 2 ^ 52 * n ≤ m <<< k := by
      calc 2 ^ 52 * n ≤ 2 ^ 52 * 2 ^ (n.log2 + 1) := by gcongr; exact Nat.lt_log2_self.le
        _ = 2 ^ (52 + (n.log2 + 1)) := (pow_add ..).symm
        _ ≤ 2 ^ (m.log2 + k) := Nat.pow_le_pow_right two_pos (by omega)
        _ = 2 ^ m.log2 * 2 ^ k := pow_add ..
        _ ≤ m * 2 ^ k := by gcongr; exact Nat.log2_self_le hm.ne'
        _ = m <<< k := (Nat.shiftLeft_eq ..).symm
    have hquot : 2 ^ 52 ≤ (m <<< k) / n := (Nat.le_div_iff_mul_le hn).mpr hlong
    have hlog : 52 ≤ ((m <<< k) / n).log2 := (Nat.le_log2 (by omega)).mpr hquot
    rw [hk, Int.toNat_natCast]
    omega

theorem div_rounded {u v : UnpackedFloat} (fu : u.isFinite = true) (fv : v.isFinite = true)
    (hv : realOf v ≠ 0) : Rounded (realOf u / realOf v) (UnpackedFloat.div .binary64 u v) := by
  cases v with
  | notANumber => cases fv
  | infinity t => cases fv
  | zero t => exact absurd rfl hv
  | finite t n f hn =>
      cases u with
      | notANumber => cases fu
      | infinity s => cases fu
      | zero s =>
          have hquot : realOf (.zero s) / realOf (.finite t n f hn) = 0 := zero_div _
          rw [hquot]
          exact rounded_zero _
      | finite s m e hm =>
          obtain ⟨x, hx⟩ : ∃ x, x = min (e - f)
            (Format.binary64.targetExponent (totalExponent m e - totalExponent n f)) := ⟨_, rfl⟩
          have hle := quotient_exponent_le hm hn hx
          -- The dividend is lengthened by `k` digits.
          obtain ⟨k, hk⟩ := Int.eq_ofNat_of_zero_le (show 0 ≤ e - f - x by omega)
          rw [hk, Int.toNat_natCast] at hle
          have hquot : realOf (.finite s m e hm) / realOf (.finite t n f hn)
              = signed (s / t) (((m <<< k : ℕ) : ℝ) / n) * 2 ^ x := by
            have he : e = k + x + f := by omega
            have hf : (2 : ℝ) ^ f ≠ 0 := by positivity
            rw [realOf_finite, realOf_finite, ← signed_div, he, zpow_add₀ (by norm_num),
              ← mul_assoc, mul_div_mul_right _ _ hf, zpow_add₀ (by norm_num), zpow_natCast,
              Nat.shiftLeft_eq]
            cases s <;> simp only [signed] <;> push_cast <;> ring
          have hcore : UnpackedFloat.div .binary64 (.finite s m e hm) (.finite t n f hn)
              = roundWithAccuracy .binary64 (s / t) ((m <<< k) / n) x
                  (accuracyOfFraction ((m <<< k) % n) n) := by
            simp only [UnpackedFloat.div, divCore, ← hx, hk, Int.toNat_natCast]
          rw [hquot, hcore]
          exact roundWithAccuracy_rounded (shows_quotient hn _) hle

theorem div_rounds {x y : Float} (hx : x.isFinite = true) (hy : y.isFinite = true)
    (h : value y ≠ 0) : Rounds (value x / value y) (x / y) :=
  (div_rounded hx hy h).rounds

/-! ## Counts -/

theorem toFloat_rounds (n : ℕ) : Rounds n (Count.toFloat n) := by
  have h := (normalize_rounded n 0 .positive).rounds
  rw [zpow_zero, mul_one, Int.cast_natCast] at h
  exact h

theorem toFloat_exact {n : ℕ} (h : n ≤ 2 ^ 53) :
    (Count.toFloat n).isFinite = true ∧ value (Count.toFloat n) = n := by
  refine (toFloat_rounds n).value_eq (representable_natCast h) ?_
  have hn : (n : ℝ) ≤ 2 ^ 53 := by exact_mod_cast h
  have hpow : (2 : ℝ) ^ 53 ≤ 2 ^ 1023 := pow_le_pow_right₀ one_le_two (by norm_num)
  rw [Nat.abs_cast]
  exact hn.trans hpow

end Binary

end Windowing
