import Windowing.Proofs.Extent.Monotone

/-!
# The index of every position

`floorIndex` and `ceilIndex` are the floor and the ceiling of the exact number that a position
stands for, an infinite one included, held at `Count.limit` (`indexes_exact`). The ceiling is found
by dropping the fraction and turning the whole part back into a float, and that conversion is not
exact for every count. It does not matter at either of the two places where digits get lost. From
`2 ^ 53` on positions have no fraction, so that the whole part is the position itself and comes back
as it was. Past the limit the whole part comes back as `2 ^ 64`, and whatever the comparison then
says, a count that is at the limit does not grow.
-/

namespace Windowing

namespace Extent

open Binary

variable {x : Float}

/-- The exact number or infinity that a position stands for. -/
noncomputable def magnitude (x : Float) : ENNReal := (extended x).toENNReal

/-! ## Finite positions -/

theorem magnitude_of_finite (hx : x.isFinite = true) :
    magnitude x = ENNReal.ofReal (value x) := by
  rw [magnitude, extended_of_finite hx, EReal.real_coe_toENNReal]

theorem magnitude_eq_natCast_iff (hx : x.isFinite = true) (h : 0 ≤ value x) {n : ℕ} :
    magnitude x = n ↔ value x = n := by
  rw [magnitude_of_finite hx, ← ENNReal.ofReal_natCast,
    ENNReal.ofReal_eq_ofReal_iff h (Nat.cast_nonneg n)]

theorem floor_ofReal {r : ℝ} (h : 0 ≤ r) : ⌊ENNReal.ofReal r⌋ₑ = ⌊r⌋₊ := by
  lift r to NNReal using h
  rw [ENNReal.ofReal_coe_nnreal, ENat.floor_coe]
  rfl

theorem ceil_ofReal {r : ℝ} (h : 0 ≤ r) : ⌈ENNReal.ofReal r⌉ₑ = ⌈r⌉₊ := by
  lift r to NNReal using h
  rw [ENNReal.ofReal_coe_nnreal, ENat.ceil_coe]
  rfl

/-- Where there is a fraction, the position is far below the limit, so that one can be added. -/
theorem ceilIndex_of_cut (hx : x.isFinite = true) (h : 0 ≤ value x)
    (hcut : ∀ n : ℕ, value x ≠ n) : ceilIndex x = floorIndex x + 1 := by
  have hsmall : value x < 2 ^ 53 := by
    by_contra hlarge
    obtain ⟨n, hn⟩ := exists_natCast_eq_value hx (not_lt.mp hlarge)
    exact hcut n hn
  have hfloor : ⌊value x⌋₊ < 2 ^ 53 := (Nat.floor_lt h).mpr (by exact_mod_cast hsmall)
  have hceil : ⌈value x⌉₊ = ⌊value x⌋₊ + 1 := by
    refine le_antisymm (Nat.ceil_le_floor_add_one _) (Nat.lt_ceil.mpr ?_)
    exact lt_of_le_of_ne (Nat.floor_le h) (hcut _).symm
  have hlimit : Count.limit = 2 ^ 64 - 1 := rfl
  rw [ceilIndex_eq hx h, floorIndex_eq hx h, hceil, min_eq_left (by omega), min_eq_left (by omega)]

/-! ## Every position -/

/-- What the indexes of a position have to be. -/
structure HasExactIndexes (x : Float) : Prop where
  floor_eq : (floorIndex x : ℕ∞) = min ⌊magnitude x⌋ₑ Count.limit
  ceil_eq : (ceilIndex x : ℕ∞) = min ⌈magnitude x⌉ₑ Count.limit
  /-- Nothing is added to a whole number. -/
  whole : ∀ n : ℕ, magnitude x = n → ceilIndex x = floorIndex x
  /-- One is added to every other one, whatever its size. -/
  cut : magnitude x ≠ ⊤ → (∀ n : ℕ, magnitude x ≠ n) → ceilIndex x = floorIndex x + 1

theorem hasExactIndexes_of_finite (hx : x.isFinite = true) (h : 0 ≤ value x) :
    HasExactIndexes x := by
  have hfloor := floorIndex_eq hx h
  have hceil := ceilIndex_eq hx h
  refine ⟨?_, ?_, ?_, ?_⟩
  · rw [magnitude_of_finite hx, floor_ofReal h, hfloor]
    exact Nat.mono_cast.map_min
  · rw [magnitude_of_finite hx, ceil_ofReal h, hceil]
    exact Nat.mono_cast.map_min
  · intro n hn
    rw [magnitude_eq_natCast_iff hx h] at hn
    rw [hfloor, hceil, hn, Nat.floor_natCast, Nat.ceil_natCast]
  · intro _ hcut
    refine ceilIndex_of_cut hx h fun n hn => hcut n ?_
    rwa [magnitude_eq_natCast_iff hx h]

theorem hasExactIndexes_of_infinity (h : parts x = .infinity .positive) : HasExactIndexes x := by
  have htop : magnitude x = ⊤ := by
    rw [magnitude, extended, h]
    rfl
  refine ⟨?_, ?_, ?_, ?_⟩
  · rw [floorIndex_of_infinity h, htop, ENat.floor_top, min_eq_right le_top]
  · rw [ceilIndex_of_infinity h, htop, ENat.ceil_top, min_eq_right le_top]
  · intro n hn
    rw [htop] at hn
    exact absurd hn (ENNReal.top_ne_natCast n)
  · intro hne
    exact absurd htop hne

/-- For every position that is not below zero, the indexes are its exact floor and ceiling, as far
as counts reach. -/
theorem indexes_exact (hnumber : x.isNaN = false) (hnonneg : ¬ x < 0.0) : HasExactIndexes x := by
  rcases IsClamped.finite_or_infinite ⟨hnumber, hnonneg⟩ with ⟨hfin, hval⟩ | hinf
  · exact hasExactIndexes_of_finite hfin hval
  · exact hasExactIndexes_of_infinity hinf

/-- The largest position with a fraction, and one that the largest count is rounded to. -/
theorem indexes_exact_thresholds :
    (4503599627370495.5 : Float).isNaN = false ∧ ¬ (4503599627370495.5 : Float) < 0.0
      ∧ HasExactIndexes 4503599627370495.5
      ∧ floorIndex 4503599627370495.5 = 2 ^ 52 - 1 ∧ ceilIndex 4503599627370495.5 = 2 ^ 52
      ∧ (Count.toFloat Count.limit).isNaN = false ∧ ¬ Count.toFloat Count.limit < 0.0
      ∧ HasExactIndexes (Count.toFloat Count.limit)
      ∧ ceilIndex (Count.toFloat Count.limit) = Count.limit :=
  ⟨by decide +kernel, by decide +kernel, indexes_exact (by decide +kernel) (by decide +kernel),
    by decide +kernel, by decide +kernel, by decide +kernel, by decide +kernel,
    indexes_exact (by decide +kernel) (by decide +kernel), by decide +kernel⟩

end Extent

end Windowing
