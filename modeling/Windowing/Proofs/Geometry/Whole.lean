import Windowing.Geometry
import Windowing.Proofs.Extent.Grid

/-!
# Windows of whole numbers

For offsets and sizes on a common grid, up to `2 ^ 53` units in all, the window computed with
floats is the one computed with whole numbers, from the numbers of units
(`window_eq_wholeWindow_of_grid`). The sum is exact, and the rounded quotients have the floor and
the ceiling of the exact ones. For offsets and sizes that are whole numbers the unit is one. What
is then left to say of the window is arithmetic: without overscan it holds the items whose span
meets the viewport (`contains_wholeWindow`), and it is never much longer than the viewport
(`length_wholeWindow_le`).
-/

namespace Windowing

open Binary Extent

/-- The window for sizes and positions that are whole numbers, computed with whole
numbers alone. -/
def wholeWindow (scroll viewport item count overscan : Nat) : Window :=
  if count = 0 then
    .empty
  else
    let first := scroll / item
    let last := max ((scroll + viewport + item - 1) / item) (first + 1)
    let stop := min (last + overscan) count
    ⟨min (first - overscan) stop, stop⟩

/-! ## The window -/

section

variable {s v e n o k : ℕ}

theorem window_eq_wholeWindow_of_grid {g : Geometry} (hk : k ≤ 1074)
    (hs : OnGrid k g.scrollOffset s) (hitem : OnGrid k g.itemExtent e)
    (hv : OnGrid k g.viewportExtent v) (he : 0 < e) (he53 : e ≤ 2 ^ 53) (hsv : s + v ≤ 2 ^ 53)
    (hn : g.itemCount < 2 ^ 64) :
    g.window = wholeWindow s v e g.itemCount g.overscan := by
  have hsclamp := (hs.isClamped_iff.mpr (Int.natCast_nonneg s)).clamp_eq
  have hvclamp := (hv.isClamped_iff.mpr (Int.natCast_nonneg v)).clamp_eq
  have hsum : OnGrid k (g.scrollOffset + g.viewportExtent) (s + v : ℕ) := by
    rw [Nat.cast_add]
    refine hs.add hv hk ?_
    rw [← Nat.cast_add, Nat.abs_cast]
    exact_mod_cast hsv
  have hsize : isItemSize g.itemExtent = true := by
    rw [isItemSize_iff hitem.1, hitem.value_eq, Int.cast_natCast]
    positivity
  have hfirst : g.firstVisible = s / e := by
    rw [Geometry.firstVisible, hsclamp]
    exact hs.floorIndex_div hitem (by omega) he
  have hceil : ceilIndex ((clamp g.scrollOffset + clamp g.viewportExtent) / g.itemExtent)
      = (s + v + e - 1) / e := by
    rw [hsclamp, hvclamp]
    exact hsum.ceilIndex_div hitem hsv he he53
  have hlimit : Count.limit = 2 ^ 64 - 1 := rfl
  have hone : s / e + 1 ≤ Count.limit := by
    have hle := Nat.div_le_self s e
    omega
  unfold Geometry.window wholeWindow
  rcases Nat.eq_zero_or_pos g.itemCount with hn0 | hn0
  · rw [if_pos (Or.inl hn0), if_pos hn0]
  · have hnot : ¬ (g.itemCount = 0 ∨ isItemSize g.itemExtent = false) := by
      rw [hsize]
      rintro (h | h)
      · omega
      · cases h
    rw [if_neg hnot, if_neg (by omega)]
    simp only [Geometry.visibleStop, hfirst, hceil, Count.add]
    -- Neither sum passes the limit before it passes the number of items.
    rw [Nat.min_eq_left hone]
    have hstop : min (min (max ((s + v + e - 1) / e) (s / e + 1) + g.overscan) Count.limit)
          g.itemCount
        = min (max ((s + v + e - 1) / e) (s / e + 1) + g.overscan) g.itemCount := by omega
    rw [hstop]

theorem window_eq_wholeWindow (he : 0 < e) (he53 : e ≤ 2 ^ 53) (hsv : s + v ≤ 2 ^ 53)
    (hn : n < 2 ^ 64) :
    (Geometry.mk (Count.toFloat s) (Count.toFloat e) (Count.toFloat v) n o).window
      = wholeWindow s v e n o :=
  window_eq_wholeWindow_of_grid (g := ⟨_, _, _, n, o⟩) (Nat.zero_le _)
    (isWhole_toFloat (by omega)).onGrid (isWhole_toFloat he53).onGrid
    (isWhole_toFloat (by omega)).onGrid he he53 hsv hn

/-! ## What the whole window holds -/

theorem lt_ceil_iff {m i : ℕ} (he : 0 < e) : i < (m + e - 1) / e ↔ i * e < m := by
  rw [Nat.lt_iff_add_one_le, Nat.le_div_iff_mul_le he, Nat.add_mul, one_mul]
  omega

theorem div_le_iff_lt_mul {i : ℕ} (he : 0 < e) : s / e ≤ i ↔ s < (i + 1) * e := by
  rw [← Nat.lt_add_one_iff, Nat.div_lt_iff_lt_mul he]

theorem span_meets_iff {i : ℕ} (he : 0 < e) (hv : 0 < v) :
    (Set.Ico ((i : ℝ) * e) ((i + 1) * e) ∩ Set.Ico (s : ℝ) (s + v)).Nonempty
      ↔ s < (i + 1) * e ∧ i * e < s + v := by
  have hspan : (i : ℝ) * e < (i + 1) * e := by
    have he' : (0 : ℝ) < e := by exact_mod_cast he
    linarith
  have hview : (s : ℝ) < s + v := by
    have hv' : (0 : ℝ) < v := by exact_mod_cast hv
    linarith
  rw [Set.Ico_inter_Ico, Set.nonempty_Ico, sup_lt_iff, lt_inf_iff, lt_inf_iff]
  constructor
  · rintro ⟨⟨-, hlo⟩, hhi, -⟩
    exact ⟨by exact_mod_cast hhi, by exact_mod_cast hlo⟩
  · rintro ⟨hhi, hlo⟩
    exact ⟨⟨hspan, by exact_mod_cast hlo⟩, by exact_mod_cast hhi, hview⟩

theorem contains_wholeWindow_iff {i : ℕ} :
    (wholeWindow s v e n o).contains i = true
      ↔ i < n ∧ s / e ≤ i + o ∧ i < max ((s + v + e - 1) / e) (s / e + 1) + o := by
  unfold wholeWindow
  rw [Window.contains_iff]
  rcases Nat.eq_zero_or_pos n with rfl | hn
  · simp [Window.empty]
  · rw [if_neg hn.ne']
    simp only
    omega

theorem contains_wholeWindow {i : ℕ} (he : 0 < e) (hv : 0 < v) :
    (wholeWindow s v e n 0).contains i = true
      ↔ i < n ∧ s / e ≤ i ∧ i < (s + v + e - 1) / e := by
  have hlast : s / e < (s + v + e - 1) / e := by
    rw [lt_ceil_iff he]
    exact (Nat.div_mul_le_self s e).trans_lt (Nat.lt_add_of_pos_right hv)
  rw [contains_wholeWindow_iff, Nat.add_zero, Nat.add_zero, Nat.max_eq_left hlast]

/-- The viewport is cut by at most one item more than it could hold. -/
theorem ceil_add_le (he : 0 < e) : (s + v + e - 1) / e ≤ s / e + (v + e - 1) / e + 1 := by
  have hs := Nat.lt_div_mul_add (a := s) he
  have hv : v ≤ (v + e - 1) / e * e := by
    rw [← not_lt, ← lt_ceil_iff he]
    exact lt_irrefl _
  rw [← not_lt, lt_ceil_iff he, add_mul, add_mul, one_mul]
  omega

theorem length_wholeWindow_le (he : 0 < e) :
    (wholeWindow s v e n o).length ≤ (v + e - 1) / e + 1 + 2 * o := by
  have hlast := ceil_add_le (s := s) (v := v) he
  unfold wholeWindow Window.length
  generalize (s + v + e - 1) / e = last at hlast ⊢
  generalize (v + e - 1) / e = cells at hlast ⊢
  generalize s / e = first at hlast ⊢
  split
  · exact Nat.zero_le _
  · simp only
    omega

/-- With offsets and sizes that are whole numbers, floats compute the window that whole
numbers would give. It holds the items that meet the viewport, and more only as overscan. -/
theorem window_exact_of_whole (he : 1 ≤ e) (he53 : e ≤ 2 ^ 53) (hsv : s + v ≤ 2 ^ 53)
    (hn : n < 2 ^ 64) :
    (Geometry.mk (Count.toFloat s) (Count.toFloat e) (Count.toFloat v) n o).window
        = wholeWindow s v e n o
      ∧ (o = 0 → 0 < v → ∀ i,
        (Geometry.mk (Count.toFloat s) (Count.toFloat e) (Count.toFloat v) n o).window.contains i
            = true
          ↔ i < n ∧
            (Set.Ico ((i : ℝ) * e) ((i + 1) * e) ∩ Set.Ico (s : ℝ) (s + v)).Nonempty)
      ∧ (Geometry.mk (Count.toFloat s) (Count.toFloat e) (Count.toFloat v) n o).window.length
          ≤ (v + e - 1) / e + 1 + 2 * o := by
  rw [window_eq_wholeWindow he he53 hsv hn]
  refine ⟨rfl, ?_, length_wholeWindow_le he⟩
  rintro rfl hv i
  rw [contains_wholeWindow he hv, span_meets_iff he hv, div_le_iff_lt_mul he, lt_ceil_iff he]

theorem window_exact_of_whole_thirds :
    1 ≤ 3 ∧ 3 ≤ 2 ^ 53 ∧ 9007199254740990 + 2 ≤ 2 ^ 53 ∧ 3002399751580335 < 2 ^ 64
      ∧ (Geometry.mk (Count.toFloat 9007199254740990) (Count.toFloat 3) (Count.toFloat 2)
          3002399751580335 0).window = wholeWindow 9007199254740990 2 3 3002399751580335 0
      ∧ (0 = 0 → 0 < 2 → ∀ i,
        (Geometry.mk (Count.toFloat 9007199254740990) (Count.toFloat 3) (Count.toFloat 2)
            3002399751580335 0).window.contains i = true
          ↔ i < 3002399751580335 ∧ (Set.Ico ((i : ℝ) * (3 : ℕ)) ((i + 1) * (3 : ℕ))
            ∩ Set.Ico ((9007199254740990 : ℕ) : ℝ) ((9007199254740990 : ℕ) + (2 : ℕ))).Nonempty)
      ∧ (Geometry.mk (Count.toFloat 9007199254740990) (Count.toFloat 3) (Count.toFloat 2)
          3002399751580335 0).window.length ≤ (2 + 3 - 1) / 3 + 1 + 2 * 0 :=
  ⟨by decide, by decide, by decide, by decide,
    window_exact_of_whole (by decide) (by decide) (by decide) (by decide)⟩

end

end Windowing
