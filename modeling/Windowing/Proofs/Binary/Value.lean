import Windowing.Proofs.Binary.Layout
import Windowing.Proofs.Binary.Nearest

/-!
# The number behind a float

A finite float stands for a real number, `Binary.value`. Floats are compared part by
part, the exponent first, and on finite floats that is the order of the numbers
(`lt_iff_value_lt`): a canonical mantissa fills its digits, so a larger exponent always
means a larger number. Two floats compare equal when they are the same float, or zeros
that differ in sign (`beq_iff`).
-/

namespace Windowing

namespace Binary

open Float.Model Float.Model.UnpackedFloat

/-- The number that parts stand for; zero where there is none. -/
noncomputable def realOf : UnpackedFloat → ℝ
  | .finite s m e _ => scaled (s.apply m) e
  | _ => 0

noncomputable def value (x : Float) : ℝ := realOf (parts x)

theorem realOf_positive (m : ℕ) (e : ℤ) (h : 0 < m) :
    realOf (.finite .positive m e h) = m * 2 ^ e := by
  simp [realOf, scaled, Sign.apply]

theorem realOf_negative (m : ℕ) (e : ℤ) (h : 0 < m) :
    realOf (.finite .negative m e h) = -(m * 2 ^ e) := by
  simp [realOf, scaled, Sign.apply]

theorem magnitude_pos {m : ℕ} (h : 0 < m) (e : ℤ) : (0 : ℝ) < m * 2 ^ e := by
  have hm : (0 : ℝ) < m := by exact_mod_cast h
  positivity

/-! ## Order -/

theorem magnitude_lt_of_exponent_lt {m n : ℕ} {e f : ℤ} (hm : m < 2 ^ 53)
    (hn : 2 ^ 52 ≤ n) (h : e < f) : (m : ℝ) * 2 ^ e < n * 2 ^ f := by
  have hm' : (m : ℝ) < 2 ^ 53 := by exact_mod_cast hm
  have hn' : (2 : ℝ) ^ 52 ≤ n := by exact_mod_cast hn
  calc (m : ℝ) * 2 ^ e < 2 ^ 53 * 2 ^ e := by gcongr
    _ = 2 ^ 52 * 2 ^ (e + 1) := by rw [zpow_add₀ (by norm_num)]; ring
    _ ≤ n * 2 ^ f := by gcongr; exacts [by norm_num, h]

/-- Exponents decide first; only at equal ones the mantissas are looked at. -/
theorem magnitude_cmp {m n : ℕ} {e f : ℤ} {hm : 0 < m} {hn : 0 < n} {s t : Sign}
    (hu : Canonical (.finite s m e hm)) (hv : Canonical (.finite t n f hn)) :
    (compare e f).then (compare m n) = cmp ((m : ℝ) * 2 ^ e) (n * 2 ^ f) := by
  obtain ⟨hm53, hemin, hmn⟩ := hu
  obtain ⟨hn53, hfmin, hnn⟩ := hv
  rcases lt_trichotomy e f with h | rfl | h
  · have hlt := magnitude_lt_of_exponent_lt hm53 (hnn.resolve_right (by omega)) h
    rw [Int.compare_eq_lt.mpr h, hlt.cmp_eq_lt]
    rfl
  · have hpos : (0 : ℝ) < 2 ^ e := by positivity
    rw [Int.compare_eq_eq.mpr rfl]
    rcases lt_trichotomy m n with h | rfl | h
    · have hlt : (m : ℝ) * 2 ^ e < n * 2 ^ e := by gcongr
      rw [Nat.compare_eq_lt.mpr h, hlt.cmp_eq_lt]
      rfl
    · rw [Nat.compare_eq_eq.mpr rfl, cmp_self_eq_eq]
      rfl
    · have hlt : (n : ℝ) * 2 ^ e < m * 2 ^ e := by gcongr
      rw [Nat.compare_eq_gt.mpr h, hlt.cmp_eq_gt]
      rfl
  · have hlt := magnitude_lt_of_exponent_lt hn53 (hmn.resolve_right (by omega)) h
    rw [Int.compare_eq_gt.mpr h, hlt.cmp_eq_gt]
    rfl

theorem compare_eq_cmp {u v : UnpackedFloat} (hu : Canonical u) (hv : Canonical v)
    (fu : u.isFinite = true) (fv : v.isFinite = true) :
    u.compare v = some (cmp (realOf u) (realOf v)) := by
  cases u with
  | notANumber => cases fu
  | infinity s => cases fu
  | zero s =>
      cases v with
      | notANumber => cases fv
      | infinity t => cases fv
      | zero t => simp [UnpackedFloat.compare, realOf]
      | finite t n f hn =>
          have hpos := magnitude_pos hn f
          cases t with
          | negative =>
              have hlt : realOf (.finite .negative n f hn) < 0 := by
                rw [realOf_negative]
                linarith
              exact congrArg some hlt.cmp_eq_gt.symm
          | positive =>
              have hlt : 0 < realOf (.finite .positive n f hn) := by rwa [realOf_positive]
              exact congrArg some hlt.cmp_eq_lt.symm
  | finite s m e hm =>
      have hmpos := magnitude_pos hm e
      cases v with
      | notANumber => cases fv
      | infinity t => cases fv
      | zero t =>
          cases s with
          | negative =>
              have hlt : realOf (.finite .negative m e hm) < 0 := by
                rw [realOf_negative]
                linarith
              exact congrArg some hlt.cmp_eq_lt.symm
          | positive =>
              have hlt : 0 < realOf (.finite .positive m e hm) := by rwa [realOf_positive]
              exact congrArg some hlt.cmp_eq_gt.symm
      | finite t n f hn =>
          have hnpos := magnitude_pos hn f
          have hcmp := magnitude_cmp hu hv
          cases s <;> cases t
          case negative.negative =>
              have hneg : cmp (-((m : ℝ) * 2 ^ e)) (-(n * 2 ^ f))
                  = (cmp ((m : ℝ) * 2 ^ e) (n * 2 ^ f)).swap := by
                rw [cmp_swap]
                simp [cmp, cmpUsing]
              rw [realOf_negative, realOf_negative, hneg, ← hcmp]
              rfl
          case negative.positive =>
              have hlt : -((m : ℝ) * 2 ^ e) < n * 2 ^ f := by linarith
              rw [realOf_negative, realOf_positive, hlt.cmp_eq_lt]
              rfl
          case positive.negative =>
              have hlt : -((n : ℝ) * 2 ^ f) < m * 2 ^ e := by linarith
              rw [realOf_positive, realOf_negative, hlt.cmp_eq_gt]
              rfl
          case positive.positive =>
              rw [realOf_positive, realOf_positive, ← hcmp]
              rfl

theorem lt_iff_parts {x y : Float} : x < y ↔ (parts x).compare (parts y) = some .lt := by
  show decide (((parts x).compare (parts y) == some .lt) = true) = true ↔ _
  rw [decide_eq_true_iff, beq_iff_eq]

theorem isNaN_of_isFinite {x : Float} (h : x.isFinite = true) : x.isNaN = false := by
  change (parts x).isFinite = true at h
  show (parts x).isNaN = false
  cases hp : parts x with
  | notANumber => rw [hp] at h; cases h
  | _ => rfl

/-- A finite float is a zero, or it has a mantissa. -/
theorem parts_of_isFinite {x : Float} (h : x.isFinite = true) :
    (∃ s, parts x = .zero s) ∨ ∃ s m e hm, parts x = .finite s m e hm := by
  change (parts x).isFinite = true at h
  cases hp : parts x with
  | notANumber => rw [hp] at h; cases h
  | infinity s => rw [hp] at h; cases h
  | zero s => exact Or.inl ⟨s, rfl⟩
  | finite s m e hm => exact Or.inr ⟨s, m, e, hm, rfl⟩

/-- Only a zero may have the sign wrong. -/
theorem parts_of_nonneg {x : Float} (hx : x.isFinite = true) (h : 0 ≤ value x) :
    (∃ s, parts x = .zero s) ∨ ∃ m e hm, parts x = .finite .positive m e hm := by
  rcases parts_of_isFinite hx with hzero | ⟨s, m, e, hm, hp⟩
  · exact Or.inl hzero
  · cases s with
    | negative =>
        rw [value, hp, realOf_negative] at h
        linarith [magnitude_pos hm e]
    | positive => exact Or.inr ⟨m, e, hm, hp⟩

/-- A number is finite or infinite. -/
theorem finite_or_infinity {x : Float} (h : x.isNaN = false) :
    x.isFinite = true ∨ ∃ s, parts x = .infinity s := by
  change (parts x).isNaN = false at h
  show (parts x).isFinite = true ∨ _
  cases hp : parts x with
  | notANumber => rw [hp] at h; cases h
  | infinity s => exact Or.inr ⟨s, rfl⟩
  | _ => exact Or.inl rfl

theorem lt_iff_value_lt {x y : Float} (hx : x.isFinite = true) (hy : y.isFinite = true) :
    x < y ↔ value x < value y := by
  rw [lt_iff_parts, compare_eq_cmp (canonical_parts x).1 (canonical_parts y).1 hx hy,
    Option.some.injEq, cmp_eq_lt_iff]
  rfl

/-! ## Equality -/

def IsZero (x : Float) : Prop := ∃ s, parts x = .zero s

theorem beq_iff {x y : Float} :
    (x == y) = true ↔ (x = y ∧ x.isNaN = false) ∨ (IsZero x ∧ IsZero y) := by
  show (parts x).beq (parts y) = true ↔ (x = y ∧ (parts x).isNaN = false) ∨ _
  rw [beq_iff_ne_notANumber_and_eq, ← Bool.not_eq_true, isNaN_iff]
  constructor
  · rintro ⟨hx, -, h | ⟨hs, ht⟩ | ⟨hs, ht⟩⟩
    · exact Or.inl ⟨parts_injective h, hx⟩
    · exact Or.inr ⟨⟨_, hs⟩, ⟨_, ht⟩⟩
    · exact Or.inr ⟨⟨_, hs⟩, ⟨_, ht⟩⟩
  · rintro (⟨rfl, hx⟩ | ⟨⟨s, hs⟩, ⟨t, ht⟩⟩)
    · exact ⟨hx, hx, Or.inl rfl⟩
    · rw [hs, ht]
      cases s <;> cases t <;> simp

end Binary

end Windowing
