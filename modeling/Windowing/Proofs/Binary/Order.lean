import Windowing.Proofs.Binary.Arithmetic

/-!
# Floats in order

A float that is a number stands for a real number or for one of the two infinities
(`Binary.extended`), and comparing floats is comparing these (`lt_iff_extended`,
`le_iff_extended`, `beq_iff_extended`). So what a chain of comparisons amounts to can be read off
the linear order of the extended reals. Rounding keeps to the order (`Rounds.extended_le`,
`Rounds.le_extended`, `Rounds.mono`): a result that is too large for a float becomes an infinity
on its side (`bounded`).
-/

namespace Windowing

namespace Binary

open Float.Model Float.Model.UnpackedFloat

/-- The number or the infinity that parts stand for; zero where there is neither. -/
noncomputable def extendedOf : UnpackedFloat → EReal
  | .infinity .positive => ⊤
  | .infinity .negative => ⊥
  | u => (realOf u : ℝ)

noncomputable def extended (x : Float) : EReal := extendedOf (parts x)

variable {x y : Float} {q : ℝ}

theorem extendedOf_of_finite {u : UnpackedFloat} (h : u.isFinite = true) :
    extendedOf u = (realOf u : ℝ) := by
  cases u with
  | notANumber => cases h
  | infinity s => cases h
  | _ => rfl

theorem extended_of_finite (h : x.isFinite = true) : extended x = (value x : ℝ) :=
  extendedOf_of_finite h

/-! ## Comparisons -/

theorem compare_finite_infinity {u : UnpackedFloat} (h : u.isFinite = true) (s : Sign) :
    u.compare (.infinity s) = some (cmp (extendedOf u) (extendedOf (.infinity s)))
      ∧ (UnpackedFloat.infinity s).compare u
        = some (cmp (extendedOf (.infinity s)) (extendedOf u)) := by
  rw [extendedOf_of_finite h]
  cases s with
  | positive =>
      have hlt : ((realOf u : ℝ) : EReal) < extendedOf (.infinity .positive) := EReal.coe_lt_top _
      rw [hlt.cmp_eq_lt, hlt.cmp_eq_gt]
      cases u with
      | notANumber => cases h
      | infinity t => cases h
      | zero t => exact ⟨rfl, rfl⟩
      | finite t m e hm => cases t <;> exact ⟨rfl, rfl⟩
  | negative =>
      have hlt : extendedOf (.infinity .negative) < ((realOf u : ℝ) : EReal) := EReal.bot_lt_coe _
      rw [hlt.cmp_eq_lt, hlt.cmp_eq_gt]
      cases u with
      | notANumber => cases h
      | infinity t => cases h
      | zero t => exact ⟨rfl, rfl⟩
      | finite t m e hm => cases t <;> exact ⟨rfl, rfl⟩

theorem compare_infinity_infinity (s t : Sign) :
    (UnpackedFloat.infinity s).compare (.infinity t)
      = some (cmp (extendedOf (.infinity s)) (extendedOf (.infinity t))) := by
  have hlt : extendedOf (.infinity .negative) < extendedOf (.infinity .positive) := bot_lt_top
  cases s <;> cases t
  case negative.negative => rw [cmp_self_eq_eq]; rfl
  case negative.positive => rw [hlt.cmp_eq_lt]; rfl
  case positive.negative => rw [hlt.cmp_eq_gt]; rfl
  case positive.positive => rw [cmp_self_eq_eq]; rfl

theorem compare_eq_cmp_extended {u v : UnpackedFloat} (hu : Canonical u) (hv : Canonical v)
    (nu : u.isNaN = false) (nv : v.isNaN = false) :
    u.compare v = some (cmp (extendedOf u) (extendedOf v)) := by
  cases hfu : u.isFinite with
  | false =>
      cases u with
      | infinity s =>
          cases hfv : v.isFinite with
          | true => exact (compare_finite_infinity hfv s).2
          | false =>
              cases v with
              | infinity t => exact compare_infinity_infinity s t
              | notANumber => cases nv
              | zero t => cases hfv
              | finite t n f hn => cases hfv
      | notANumber => cases nu
      | zero s => cases hfu
      | finite s m e hm => cases hfu
  | true =>
      cases hfv : v.isFinite with
      | true =>
          rw [compare_eq_cmp hu hv hfu hfv, extendedOf_of_finite hfu, extendedOf_of_finite hfv,
            EReal.coe_strictMono.cmp_map_eq]
      | false =>
          cases v with
          | infinity t => exact (compare_finite_infinity hfu t).1
          | notANumber => cases nv
          | zero t => cases hfv
          | finite t n f hn => cases hfv

theorem lt_iff_extended (hx : x.isNaN = false) (hy : y.isNaN = false) :
    x < y ↔ extended x < extended y := by
  rw [lt_iff_parts, compare_eq_cmp_extended (canonical_parts x).1 (canonical_parts y).1 hx hy,
    Option.some.injEq, cmp_eq_lt_iff]
  rfl

theorem le_iff_extended (hx : x.isNaN = false) (hy : y.isNaN = false) :
    x ≤ y ↔ extended x ≤ extended y := by
  show decide (((parts x).compare (parts y)).any (·.isLE) = true) = true ↔ _
  rw [decide_eq_true_iff,
    compare_eq_cmp_extended (canonical_parts x).1 (canonical_parts y).1 hx hy, Option.any_some,
    Ordering.isLE_iff_ne_gt, cmp_eq_gt_iff, not_lt]
  rfl

theorem beq_iff_extended (hx : x.isNaN = false) (hy : y.isNaN = false) :
    (x == y) = true ↔ extended x = extended y := by
  show ((parts x).compare (parts y) == some .eq) = true ↔ _
  rw [beq_iff_eq,
    compare_eq_cmp_extended (canonical_parts x).1 (canonical_parts y).1 hx hy,
    Option.some.injEq, cmp_eq_eq_iff]
  rfl

theorem not_lt_iff_le (hx : x.isNaN = false) (hy : y.isNaN = false) : ¬ x < y ↔ y ≤ x := by
  rw [lt_iff_extended hx hy, le_iff_extended hy hx, not_lt]

/-- What is no number compares with nothing. -/
theorem isNaN_of_compare (h : (parts x).compare (parts y) ≠ none) :
    x.isNaN = false ∧ y.isNaN = false := by
  constructor
  · show (parts x).isNaN = false
    cases hp : parts x with
    | notANumber => rw [hp] at h; exact absurd rfl h
    | _ => rfl
  · show (parts y).isNaN = false
    cases hp : parts y with
    | notANumber =>
        rw [hp] at h
        cases hq : parts x <;> rw [hq] at h <;> exact absurd rfl h
    | _ => rfl

theorem isNaN_of_lt (h : x < y) : x.isNaN = false ∧ y.isNaN = false := by
  rw [lt_iff_parts] at h
  refine isNaN_of_compare ?_
  rw [h]
  exact Option.some_ne_none _

theorem isNaN_of_le (h : x ≤ y) : x.isNaN = false ∧ y.isNaN = false := by
  change decide (((parts x).compare (parts y)).any (·.isLE) = true) = true at h
  refine isNaN_of_compare fun hnone => ?_
  rw [hnone] at h
  cases h

/-! ## Rounding -/

theorem abs_value_lt (x : Float) : |value x| < 2 ^ 1024 := by
  obtain ⟨hc, hr⟩ := canonical_parts x
  show |realOf (parts x)| < 2 ^ 1024
  cases hp : parts x with
  | finite s m e hm =>
      rw [hp] at hc hr
      have habs : |realOf (.finite s m e hm)| = m * 2 ^ e := by
        have hpos := magnitude_pos hm e
        cases s with
        | negative => rw [realOf_negative, abs_neg, abs_of_pos hpos]
        | positive => rw [realOf_positive, abs_of_pos hpos]
      have hm53 : (m : ℝ) < 2 ^ 53 := by exact_mod_cast hc.1
      rw [habs]
      calc (m : ℝ) * 2 ^ e < 2 ^ 53 * 2 ^ e := by gcongr
        _ ≤ 2 ^ 53 * 2 ^ ((971 : ℕ) : ℤ) := by gcongr; exacts [one_le_two, hr]
        _ = 2 ^ 1024 := by rw [zpow_natCast, ← pow_add]
  | _ =>
      show |(0 : ℝ)| < 2 ^ 1024
      rw [abs_zero]
      positivity

/-- A real number as far as floats reach: what is too large for them is infinite. -/
noncomputable def bounded (r : ℝ) : EReal :=
  if scaled 1 1024 ≤ r then ⊤ else if r ≤ -scaled 1 1024 then ⊥ else r

theorem scaled_one_1024 : scaled 1 1024 = 2 ^ 1024 := by
  rw [scaled, Int.cast_one, one_mul]
  exact zpow_natCast 2 1024

theorem bounded_mono : Monotone bounded := by
  intro r r' hle
  unfold bounded
  rcases le_or_gt (scaled 1 1024) r' with htop | htop
  · rw [if_pos htop]
    exact le_top
  · rw [if_neg (not_le.mpr htop), if_neg (not_le.mpr (hle.trans_lt htop))]
    rcases le_or_gt r (-scaled 1 1024) with hbot | hbot
    · rw [if_pos hbot]
      exact bot_le
    · rw [if_neg (not_le.mpr hbot), if_neg (not_le.mpr (hbot.trans_le hle))]
      exact EReal.coe_le_coe_iff.mpr hle

theorem extended_eq_bounded (h : x.isFinite = true) : extended x = bounded (value x) := by
  obtain ⟨hbot, htop⟩ := abs_lt.mp (abs_value_lt x)
  rw [extended_of_finite h, bounded, scaled_one_1024, if_neg (not_le.mpr htop),
    if_neg (not_le.mpr hbot)]

namespace Rounds

variable {q' : ℝ}

theorem isNaN_eq_false (h : Rounds q x) : x.isNaN = false := by
  obtain ⟨r, -, ⟨hfin, -⟩ | ⟨s, hs, -⟩⟩ := h.finite_or_overflow
  · exact isNaN_of_isFinite hfin
  · show (parts x).isNaN = false
    rw [hs]
    rfl

theorem extended_eq (h : Rounds q x) : ∃ r, Nearest q r ∧ extended x = bounded r := by
  obtain ⟨r, hr, ⟨hfin, rfl⟩ | ⟨s, hs, hfar⟩⟩ := h.finite_or_overflow
  · exact ⟨_, hr, extended_eq_bounded hfin⟩
  · refine ⟨r, hr, ?_⟩
    rw [extended, hs, bounded, scaled_one_1024]
    cases s with
    | positive => exact (if_pos hfar).symm
    | negative =>
        have hbot : r ≤ -2 ^ 1024 := le_neg_of_le_neg hfar
        have htop : r < 2 ^ 1024 := hbot.trans_lt (neg_lt_self (by positivity))
        rw [if_neg (not_le.mpr htop), if_pos hbot]
        rfl

/-- Rounding does not pass a float from below. -/
theorem extended_le (h : Rounds q x) (hy : y.isFinite = true) (hq : q ≤ value y) :
    extended x ≤ extended y := by
  obtain ⟨r, hr, hx⟩ := h.extended_eq
  rw [hx, extended_eq_bounded hy]
  exact bounded_mono (hr.le_of_le (representable_realOf (canonical_parts y).1) hq)

/-- Nor from above. -/
theorem le_extended (h : Rounds q x) (hy : y.isFinite = true) (hq : value y ≤ q) :
    extended y ≤ extended x := by
  obtain ⟨r, hr, hx⟩ := h.extended_eq
  rw [hx, extended_eq_bounded hy]
  exact bounded_mono (hr.ge_of_ge (representable_realOf (canonical_parts y).1) hq)

theorem mono (h : Rounds q x) (h' : Rounds q' y) (hlt : q < q') : extended x ≤ extended y := by
  obtain ⟨r, hr, hx⟩ := h.extended_eq
  obtain ⟨r', hr', hy⟩ := h'.extended_eq
  rw [hx, hy]
  exact bounded_mono (hr.mono hr' hlt)

end Rounds

end Binary

end Windowing
