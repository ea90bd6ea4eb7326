import Windowing.Proofs.Extent.Infinite
import Windowing.Proofs.Rect.Overlap
import Windowing.Proofs.Visibility.OneShot
import Windowing.Proofs.Visibility.Single

/-!
# Visible fractions

How much of a region is in view is a quotient of two areas, brought into the range from zero to
one. If it is a number, it is in this range, also in single precision (`fraction_isUnit`). But the
areas of finite rectangles need not be finite, and a quotient of infinite areas is no number; so a
region can be wholly in view while the report on it is one that observers discard
(`measure_overflow`). `Unmeasurable` says when this happens (`ratio_isNaN_iff`). Regions of a
moderate size are always measured, whatever they are compared with (`Moderate.not_unmeasurable`):
the overlap is cut out of the region, so what is infinite about the viewport does not matter.
-/

namespace Windowing

open Binary Extent

variable {x y lo lo' hi hi' : Float}

/-! ## Areas -/

namespace Extent

theorem pos_positivePart_iff : 0.0 < positivePart x ↔ 0.0 < x := by
  unfold positivePart
  split
  · rfl
  · rename_i h
    exact iff_of_false (by decide) h

theorem extended_positivePart_eq_top_iff : extended (positivePart x) = ⊤ ↔ extended x = ⊤ := by
  unfold positivePart
  split
  · rfl
  · rename_i h
    refine iff_of_false (extended_ne_top rfl) fun htop => h ?_
    rw [lt_iff_parts, extended_eq_top_iff.mp htop]
    rfl

theorem undefined_positivePart_iff :
    Undefined (positivePart x) (positivePart y) ↔ Undefined x y := by
  simp only [Undefined, extended_positivePart_eq_top_iff, pos_positivePart_iff]

end Extent

namespace Rect

theorem area_isNaN_iff (r : Rect) : r.area.isNaN = true ↔ Undefined r.width r.height := by
  rw [area, (isClamped_positivePart _).mul_isNaN_iff (isClamped_positivePart _),
    undefined_positivePart_iff]

theorem isClamped_area {r : Rect} (h : r.area.isNaN = false) : IsClamped r.area :=
  (isClamped_positivePart _).mul_of_number (isClamped_positivePart _) h

end Rect

/-! ## Quotients of areas -/

namespace Sighting

variable {region viewport overlap : Rect} {margin : Float}

theorem clampFraction_of_isNaN (h : x.isNaN = true) : clampFraction x = x := by
  have hlow : ¬ x < 0.0 := fun hlt => by
    rw [(isNaN_of_lt hlt).1] at h
    cases h
  have hhigh : ¬ 1.0 < x := fun hlt => by
    rw [(isNaN_of_lt hlt).2] at h
    cases h
  rw [clampFraction, if_neg hlow, if_neg hhigh]

theorem clampFraction_of_number (h : x.isNaN = false) :
    (clampFraction x).isFinite = true ∧ 0 ≤ value (clampFraction x)
      ∧ value (clampFraction x) ≤ 1 := by
  have hone : IsWhole 1.0 1 := isWhole_toFloat (n := 1) (by norm_num)
  have hone' : value 1.0 = 1 := hone.2.trans Nat.cast_one
  unfold clampFraction
  split
  · exact ⟨rfl, value_zero.ge, value_zero.trans_le zero_le_one⟩
  · rename_i hlow
    split
    · exact ⟨hone.1, hone'.ge.trans' zero_le_one, hone'.le⟩
    · rename_i hhigh
      rw [lt_iff_extended h rfl, not_lt, extended_of_finite rfl, value_zero] at hlow
      rw [lt_iff_extended (isNaN_of_isFinite hone.1) h, not_lt, extended_of_finite hone.1,
        hone'] at hhigh
      exact isFinite_of_between h hlow hhigh

/-- The region has an area, but its quotient with that of the overlap is no number. -/
def Unmeasurable (overlap region : Rect) : Prop :=
  0.0 < region.area ∧ (Undefined overlap.width overlap.height
    ∨ (extended overlap.area = ⊤ ∧ extended region.area = ⊤))

theorem quotient_isNaN_iff (h : 0.0 < region.area) :
    (overlap.area / region.area).isNaN = true ↔ Unmeasurable overlap region := by
  rw [Unmeasurable, ← overlap.area_isNaN_iff]
  cases hnumber : overlap.area.isNaN with
  | true => exact iff_of_true (div_of_isNaN hnumber _) ⟨h, Or.inl rfl⟩
  | false =>
      rw [(Rect.isClamped_area hnumber).div_isNaN_iff h]
      simp [h]

theorem fraction_isNaN_iff :
    (fraction overlap region).isNaN = true ↔ Unmeasurable overlap region := by
  unfold fraction
  split
  · rename_i h
    rw [← quotient_isNaN_iff h]
    cases hnumber : (overlap.area / region.area).isNaN with
    | true =>
        rw [clampFraction_of_isNaN hnumber]
        exact iff_of_true hnumber rfl
    | false =>
        rw [isNaN_of_isFinite (clampFraction_of_number hnumber).1]
  · rename_i h
    exact iff_of_false (by decide) fun hu => h hu.1

theorem fraction_isUnit (h : ¬ Unmeasurable overlap region) :
    IsUnit (roundToSingle (fraction overlap region)) := by
  unfold fraction
  split
  · rename_i harea
    rw [← quotient_isNaN_iff harea, Bool.not_eq_true] at h
    obtain ⟨hfin, hlow, hhigh⟩ := clampFraction_of_number h
    exact isUnit_roundToSingle hfin hlow hhigh
  · exact ⟨by decide +kernel, by decide +kernel, by decide +kernel⟩

theorem ratio_isNaN_iff (overlap region : Rect) :
    (roundToSingle (fraction overlap region)).isNaN = true ↔ Unmeasurable overlap region := by
  constructor
  · intro hnan
    by_contra h
    rw [(fraction_isUnit h).1] at hnan
    cases hnan
  · intro h
    exact isNaN_roundToSingle (fraction_isNaN_iff.mpr h)

/-! ## Regions of a moderate size -/

/-- No coordinate is larger than `2 ^ 511`, about `6.7e153`, on either side of zero. -/
structure Moderate (r : Rect) : Prop where
  x : |value r.x| ≤ 2 ^ 511
  y : |value r.y| ≤ 2 ^ 511
  width : |value r.width| ≤ 2 ^ 511
  height : |value r.height| ≤ 2 ^ 511

theorem isFinite_sub_edges (hlo : lo.isFinite = true) (hhi : hi.isFinite = true)
    (hlength : value hi - value lo ≤ 2 ^ 1023)
    (h : ¬ Rect.minEdge hi hi' < Rect.maxEdge lo lo') :
    (Rect.minEdge hi hi' - Rect.maxEdge lo lo').isFinite = true := by
  have hmax : (Rect.maxEdge lo lo').isNaN = false := Rect.isNaN_maxEdge (isNaN_of_isFinite hlo)
  have hmin : (Rect.minEdge hi hi').isNaN = false := Rect.isNaN_minEdge (isNaN_of_isFinite hhi)
  have hleft : extended lo ≤ extended (Rect.maxEdge lo lo') :=
    Rect.extended_le_maxEdge (isNaN_of_isFinite hlo)
  have hright : extended (Rect.minEdge hi hi') ≤ extended hi :=
    Rect.extended_minEdge_le (isNaN_of_isFinite hhi)
  rw [lt_iff_extended hmin hmax, not_lt] at h
  rw [extended_of_finite hlo] at hleft
  rw [extended_of_finite hhi] at hright
  obtain ⟨hmaxfin, hlow, -⟩ := isFinite_of_between hmax hleft (h.trans hright)
  obtain ⟨hminfin, -, hhigh⟩ := isFinite_of_between hmin (hleft.trans h) hright
  rw [extended_of_finite hmaxfin, extended_of_finite hminfin, EReal.coe_le_coe_iff] at h
  refine ((sub_rounds hminfin hmaxfin).nearest ?_).1
  rw [abs_of_nonneg (sub_nonneg.mpr h)]
  exact (sub_le_sub hhigh hlow).trans hlength

/-- A side of moderate length at a moderate position ends at a finite edge, which is not far from
where it begins. -/
theorem isFinite_add_of_moderate (hx : x.isFinite = true) (hy : y.isFinite = true)
    (hx' : |value x| ≤ 2 ^ 511) (hy' : |value y| ≤ 2 ^ 511) :
    (x + y).isFinite = true ∧ value (x + y) - value x ≤ 2 ^ 1023 := by
  have hdouble : (2 : ℝ) ^ 511 + 2 ^ 511 = 2 ^ 512 := by rw [← two_mul, ← pow_succ']
  have hsum : |value x + value y| ≤ 2 ^ 512 :=
    (abs_add_le _ _).trans ((add_le_add hx' hy').trans hdouble.le)
  have hpow {k n : ℕ} (h : k ≤ n) : (2 : ℝ) ^ k ≤ 2 ^ n := pow_le_pow_right₀ one_le_two h
  obtain ⟨hfin, hnear⟩ := (add_rounds hx hy).nearest (hsum.trans (hpow (by norm_num)))
  have htop := hnear.le_of_le (representable_two_pow 512) (abs_le.mp hsum).2
  refine ⟨hfin, ?_⟩
  calc value (x + y) - value x ≤ 2 ^ 512 - -2 ^ 511 := sub_le_sub htop (abs_le.mp hx').1
    _ = 2 ^ 512 + 2 ^ 511 := sub_neg_eq_add ..
    _ ≤ 2 ^ 1022 + 2 ^ 1022 := add_le_add (hpow (by norm_num)) (hpow (by norm_num))
    _ = 2 ^ 1023 := by rw [← two_mul, ← pow_succ']

theorem isFinite_positivePart (hx : x.isFinite = true) :
    (positivePart x).isFinite = true ∧ |value (positivePart x)| ≤ |value x| := by
  unfold positivePart
  split
  · exact ⟨hx, le_rfl⟩
  · refine ⟨rfl, ?_⟩
    rw [value_zero, abs_zero]
    exact abs_nonneg _

theorem Moderate.isFinite_area {r : Rect} (h : Moderate r) (hw : r.width.isFinite = true)
    (hh : r.height.isFinite = true) : r.area.isFinite = true := by
  obtain ⟨hwfin, hwle⟩ := isFinite_positivePart hw
  obtain ⟨hhfin, hhle⟩ := isFinite_positivePart hh
  refine ((mul_rounds hwfin hhfin).nearest ?_).1
  calc |value (positivePart r.width) * value (positivePart r.height)|
      = |value (positivePart r.width)| * |value (positivePart r.height)| := abs_mul _ _
    _ ≤ 2 ^ 511 * 2 ^ 511 := by
        gcongr
        · exact hwle.trans h.width
        · exact hhle.trans h.height
    _ = 2 ^ 1022 := (pow_add ..).symm
    _ ≤ 2 ^ 1023 := pow_le_pow_right₀ one_le_two (by norm_num)

/-- An overlap with such a region has finite sides, and the region a finite area. -/
theorem Moderate.not_unmeasurable (h : Moderate region) (hfin : region.isFinite = true)
    {root : Rect} (hsome : region.intersection? root = some overlap) :
    ¬ Unmeasurable overlap region := by
  obtain ⟨hmeets, rfl⟩ := Rect.intersection?_eq_some_iff.mp hsome
  simp only [Rect.isFinite, Bool.and_eq_true] at hfin
  obtain ⟨⟨⟨hx, hy⟩, hwidth⟩, hheight⟩ := hfin
  obtain ⟨hright, hright'⟩ := isFinite_add_of_moderate hx hwidth h.x h.width
  obtain ⟨hbottom, hbottom'⟩ := isFinite_add_of_moderate hy hheight h.y h.height
  rintro ⟨-, (⟨htop, -⟩ | ⟨-, htop⟩) | ⟨-, htop⟩⟩
  · exact extended_ne_top (isFinite_sub_edges hx hright hright' hmeets.1) htop
  · exact extended_ne_top (isFinite_sub_edges hy hbottom hbottom' hmeets.2) htop
  · exact extended_ne_top (h.isFinite_area hwidth hheight) htop

/-! ## Every measurement -/

theorem measure_cases (region viewport : Rect) (margin : Float) :
    measure region viewport margin = absent
      ∨ ∃ overlap, region.isFinite = true
        ∧ region.intersection? (viewport.expand margin) = some overlap
        ∧ measure region viewport margin = ⟨true, roundToSingle (fraction overlap region)⟩ := by
  unfold measure
  split
  · rename_i hfin
    simp only [Bool.and_eq_true] at hfin
    cases hoverlap : region.intersection? (viewport.expand margin) with
    | none => exact Or.inl rfl
    | some overlap => exact Or.inr ⟨overlap, hfin.1.1, rfl, rfl⟩
  · exact Or.inl rfl

/-- What there is to say about the report on a region. -/
structure Measured (region viewport : Rect) (margin : Float) (report : Sighting) : Prop where
  /-- The ratio is no number exactly if the region is in view and the areas are no use. -/
  isNaN_iff : report.ratio.isNaN = true ↔ report.intersecting = true
    ∧ ∃ overlap, region.intersection? (viewport.expand margin) = some overlap
      ∧ Unmeasurable overlap region
  fraction : report.ratio.isNaN = false → 0.0 ≤ report.ratio ∧ report.ratio ≤ 1.0
  shown : 0.0 < report.ratio → report.intersecting = true
  /-- For this the region alone matters, not the viewport. -/
  moderate : Moderate region → report.ratio.isNaN = false
  /-- Nobody takes notice of a report without a number. -/
  discarded : report.ratio.isNaN = true → ∀ {ι : Type} (o : Observer ι),
    o.apply (.sight report) = .quiet o false

/-- A ratio that is a number is a fraction, and one that is none comes from areas that
overflow. -/
theorem measure_fraction (region viewport : Rect) (margin : Float) :
    Measured region viewport margin (measure region viewport margin) := by
  rcases measure_cases region viewport margin with habsent | ⟨overlap, hfin, hsome, hmeasure⟩
  · rw [habsent]
    refine ⟨?_, fun _ => ⟨by decide, by decide⟩, fun h => ?_, fun _ => rfl, fun h => ?_⟩
    · exact iff_of_false (by decide) fun h => Bool.false_ne_true h.1
    · exact absurd h (by decide)
    · exact absurd h (by decide)
  · rw [hmeasure]
    have hiff := ratio_isNaN_iff overlap region
    refine ⟨?_, fun hnumber => ?_, fun _ => rfl, fun hmoderate => ?_, fun hnan _ o => ?_⟩
    · refine hiff.trans ⟨fun h => ⟨rfl, overlap, hsome, h⟩, ?_⟩
      rintro ⟨-, overlap', hsome', h⟩
      rw [hsome, Option.some.injEq] at hsome'
      rwa [hsome']
    · refine (fraction_isUnit fun h => ?_).2
      rw [hiff.mpr h] at hnumber
      cases hnumber
    · exact (fraction_isUnit (hmoderate.not_unmeasurable hfin hsome)).1
    · exact Observer.Malformed.apply hnan

/-- A region of `1e300` by `1e300` in a viewport of this size is wholly in view. The area of both
is infinite. -/
theorem measure_overflow :
    ¬ ∀ (region viewport : Rect) (margin : Float),
      0.0 ≤ (measure region viewport margin).ratio
        ∧ (measure region viewport margin).ratio ≤ 1.0 := by
  intro h
  exact absurd (h ⟨0.0, 0.0, 1e300, 1e300⟩ ⟨0.0, 0.0, 1e300, 1e300⟩ 0.0).1 (by decide +kernel)

/-- Only touching the viewport, along an edge without end: no width times an infinite height. -/
example : (measure ⟨0.0, 1e308, 1.0, 1e308⟩ ⟨1.0, 1e308, 1.0, 1e308⟩ 0.0).ratio.isNaN = true := by
  decide +kernel

end Sighting

end Windowing
