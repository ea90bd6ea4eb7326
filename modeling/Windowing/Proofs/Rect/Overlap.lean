import Windowing.Rect
import Windowing.Proofs.Extent.Order

/-!
# What two rectangles share

A rectangle holds the points on its edges, too. Two rectangles overlap exactly when a point is in
both, and the corner of the overlap is such a point (`Meets.of_covers`, `Meets.covers`). Neither
direction computes anything: along each axis the larger of the lower edges is compared with the
smaller of the upper ones, and that these are in order says in the extended reals that every lower
edge is below every upper one (`not_lt_edges_iff`). For this the edges have to be numbers, not
finite ones: a sum of finite numbers may overflow, but it is a number (`HasEdges.of_isFinite`).
-/

namespace Windowing

namespace Rect

open Binary Extent

variable {r s overlap : Rect} {lo lo' hi hi' x y : Float} {p q : EReal}

/-! ## Edges along one axis -/

theorem maxEdge_of_number (h : lo.isNaN = false) :
    maxEdge lo lo' = if lo < lo' then lo' else lo :=
  if_neg (ne_true_of_eq_false h)

theorem minEdge_of_number (h : hi.isNaN = false) :
    minEdge hi hi' = if hi' < hi then hi' else hi :=
  if_neg (ne_true_of_eq_false h)

theorem isNaN_maxEdge (h : lo.isNaN = false) : (maxEdge lo lo').isNaN = false := by
  rw [maxEdge_of_number h]
  split
  · rename_i hlt
    exact (isNaN_of_lt hlt).2
  · exact h

theorem isNaN_minEdge (h : hi.isNaN = false) : (minEdge hi hi').isNaN = false := by
  rw [minEdge_of_number h]
  split
  · rename_i hlt
    exact (isNaN_of_lt hlt).1
  · exact h

theorem isFinite_maxEdge (h : lo.isFinite = true) (h' : lo'.isFinite = true) :
    (maxEdge lo lo').isFinite = true := by
  rw [maxEdge_of_number (isNaN_of_isFinite h)]
  split
  · exact h'
  · exact h

theorem extended_maxEdge (h : lo.isNaN = false) (h' : lo'.isNaN = false) :
    extended (maxEdge lo lo') = max (extended lo) (extended lo') := by
  rw [maxEdge_of_number h]
  split
  · rename_i hlt
    rw [lt_iff_extended h h'] at hlt
    rw [max_eq_right hlt.le]
  · rename_i hlt
    rw [lt_iff_extended h h', not_lt] at hlt
    rw [max_eq_left hlt]

theorem extended_minEdge (h : hi.isNaN = false) (h' : hi'.isNaN = false) :
    extended (minEdge hi hi') = min (extended hi) (extended hi') := by
  rw [minEdge_of_number h]
  split
  · rename_i hlt
    rw [lt_iff_extended h' h] at hlt
    rw [min_eq_right hlt.le]
  · rename_i hlt
    rw [lt_iff_extended h' h, not_lt] at hlt
    rw [min_eq_left hlt]

/-- An edge that is no number does not count. -/
theorem extended_le_maxEdge (h : lo.isNaN = false) :
    extended lo ≤ extended (maxEdge lo lo') := by
  rw [maxEdge_of_number h]
  split
  · rename_i hlt
    exact ((lt_iff_extended h (isNaN_of_lt hlt).2).mp hlt).le
  · exact le_rfl

theorem extended_minEdge_le (h : hi.isNaN = false) :
    extended (minEdge hi hi') ≤ extended hi := by
  rw [minEdge_of_number h]
  split
  · rename_i hlt
    exact ((lt_iff_extended (isNaN_of_lt hlt).1 h).mp hlt).le
  · exact le_rfl

theorem not_lt_edges_iff (hlo : lo.isNaN = false) (hlo' : lo'.isNaN = false)
    (hhi : hi.isNaN = false) (hhi' : hi'.isNaN = false) :
    ¬ minEdge hi hi' < maxEdge lo lo'
      ↔ max (extended lo) (extended lo') ≤ min (extended hi) (extended hi') := by
  rw [lt_iff_extended (isNaN_minEdge hhi) (isNaN_maxEdge hlo), extended_minEdge hhi hhi',
    extended_maxEdge hlo hlo', not_lt]

/-- A length between edges in order is not below zero, and may be infinite. -/
theorem isClamped_sub (hlo : lo.isFinite = true) (hhi : hi.isNaN = false) (h : ¬ hi < lo) :
    IsClamped (hi - lo) := by
  rw [lt_iff_extended hhi (isNaN_of_isFinite hlo), not_lt, extended_of_finite hlo] at h
  rcases finite_or_infinity hhi with hfin | ⟨t, ht⟩
  · rw [extended_of_finite hfin, EReal.coe_le_coe_iff] at h
    exact isClamped_of_rounds (sub_rounds hfin hlo) (sub_nonneg.mpr h)
  · cases t with
    | positive => exact isClamped_of_infinity (infinity_sub hlo ht)
    | negative =>
        rw [extended, ht] at h
        exact absurd h (not_le.mpr (EReal.bot_lt_coe _))

theorem maxEdge_comm (hlo : lo.isNaN = false) (hlo' : lo'.isNaN = false) :
    (maxEdge lo lo' == maxEdge lo' lo) = true := by
  rw [beq_iff_extended (isNaN_maxEdge hlo) (isNaN_maxEdge hlo'), extended_maxEdge hlo hlo',
    extended_maxEdge hlo' hlo, max_comm]

theorem minEdge_comm (hhi : hi.isNaN = false) (hhi' : hi'.isNaN = false) :
    (minEdge hi hi' == minEdge hi' hi) = true := by
  rw [beq_iff_extended (isNaN_minEdge hhi) (isNaN_minEdge hhi'), extended_minEdge hhi hhi',
    extended_minEdge hhi' hhi, min_comm]

theorem length_comm (hlo : lo.isFinite = true) (hlo' : lo'.isFinite = true)
    (hhi : hi.isNaN = false) (hhi' : hi'.isNaN = false) (h : ¬ minEdge hi hi' < maxEdge lo lo') :
    (minEdge hi hi' - maxEdge lo lo' == minEdge hi' hi - maxEdge lo' lo) = true := by
  have hlow := maxEdge_comm (isNaN_of_isFinite hlo) (isNaN_of_isFinite hlo')
  have hhigh := minEdge_comm hhi hhi'
  refine beq_iff_same.mpr ⟨(beq_iff_same.mp hhigh).1.sub (beq_iff_same.mp hlow).1, ?_⟩
  exact (isClamped_sub (isFinite_maxEdge hlo hlo') (isNaN_minEdge hhi) h).1

/-! ## Points -/

/-- The point with the coordinates `p` and `q` is in the rectangle or on an edge of it. -/
def Covers (r : Rect) (p q : EReal) : Prop :=
  (extended r.x ≤ p ∧ p ≤ extended r.right) ∧ extended r.y ≤ q ∧ q ≤ extended r.bottom

/-- The same for coordinates that are floats. -/
def Holds (r : Rect) (x y : Float) : Prop :=
  (r.x ≤ x ∧ x ≤ r.right) ∧ r.y ≤ y ∧ y ≤ r.bottom

/-- One edge is past the opposite one. -/
def Inverted (r : Rect) : Prop := r.right < r.x ∨ r.bottom < r.y

/-- The corner is finite, and the opposite edges are numbers. -/
structure HasEdges (r : Rect) : Prop where
  x : r.x.isFinite = true
  y : r.y.isFinite = true
  right : r.right.isNaN = false
  bottom : r.bottom.isNaN = false

theorem HasEdges.of_isFinite (h : r.isFinite = true) : HasEdges r := by
  simp only [isFinite, Bool.and_eq_true] at h
  obtain ⟨⟨⟨hx, hy⟩, hwidth⟩, hheight⟩ := h
  exact ⟨hx, hy, (add_rounds hx hwidth).isNaN_eq_false, (add_rounds hy hheight).isNaN_eq_false⟩

theorem HasEdges.holds_iff (hr : HasEdges r) (hx : x.isNaN = false) (hy : y.isNaN = false) :
    r.Holds x y ↔ r.Covers (extended x) (extended y) := by
  rw [Holds, le_iff_extended (isNaN_of_isFinite hr.x) hx, le_iff_extended hx hr.right,
    le_iff_extended (isNaN_of_isFinite hr.y) hy, le_iff_extended hy hr.bottom]
  rfl

theorem Holds.isNaN_eq_false (h : r.Holds x y) : x.isNaN = false ∧ y.isNaN = false :=
  ⟨(isNaN_of_le h.1.1).2, (isNaN_of_le h.2.1).2⟩

theorem HasEdges.not_covers_of_inverted (hr : HasEdges r) (h : r.Inverted) : ¬ r.Covers p q := by
  rintro ⟨⟨hleft, hright⟩, htop, hbottom⟩
  rcases h with h | h
  · rw [lt_iff_extended hr.right (isNaN_of_isFinite hr.x)] at h
    exact absurd (hleft.trans hright) (not_le.mpr h)
  · rw [lt_iff_extended hr.bottom (isNaN_of_isFinite hr.y)] at h
    exact absurd (htop.trans hbottom) (not_le.mpr h)

/-! ## Rectangles that meet -/

/-- Along neither axis the first upper edge is before the last lower one. -/
def Meets (r s : Rect) : Prop :=
  ¬ minEdge r.right s.right < maxEdge r.x s.x ∧ ¬ minEdge r.bottom s.bottom < maxEdge r.y s.y

/-- The rectangle between these edges. -/
def overlapOf (r s : Rect) : Rect where
  x := maxEdge r.x s.x
  y := maxEdge r.y s.y
  width := minEdge r.right s.right - maxEdge r.x s.x
  height := minEdge r.bottom s.bottom - maxEdge r.y s.y

theorem intersection?_of_meets (h : Meets r s) : r.intersection? s = some (overlapOf r s) :=
  if_neg (not_or.mpr h)

theorem intersection?_of_not_meets (h : ¬ Meets r s) : r.intersection? s = none :=
  if_pos (by rwa [Meets, ← not_or, not_not] at h)

theorem intersection?_eq_some_iff :
    r.intersection? s = some overlap ↔ Meets r s ∧ overlapOf r s = overlap := by
  by_cases h : Meets r s
  · simp [intersection?_of_meets h, h]
  · simp [intersection?_of_not_meets h, h]

theorem intersection?_isSome_iff : (r.intersection? s).isSome = true ↔ Meets r s := by
  by_cases h : Meets r s
  · simp [intersection?_of_meets h, h]
  · simp [intersection?_of_not_meets h, h]

theorem HasEdges.meets_iff (hr : HasEdges r) (hs : HasEdges s) :
    Meets r s
      ↔ max (extended r.x) (extended s.x) ≤ min (extended r.right) (extended s.right)
        ∧ max (extended r.y) (extended s.y) ≤ min (extended r.bottom) (extended s.bottom) := by
  rw [Meets, not_lt_edges_iff (isNaN_of_isFinite hr.x) (isNaN_of_isFinite hs.x) hr.right hs.right,
    not_lt_edges_iff (isNaN_of_isFinite hr.y) (isNaN_of_isFinite hs.y) hr.bottom hs.bottom]

theorem Meets.of_covers (hr : HasEdges r) (hs : HasEdges s) (h : r.Covers p q)
    (h' : s.Covers p q) : Meets r s := by
  obtain ⟨⟨hleft, hright⟩, htop, hbottom⟩ := h
  obtain ⟨⟨hleft', hright'⟩, htop', hbottom'⟩ := h'
  rw [hr.meets_iff hs]
  constructor
  · exact (max_le hleft hleft').trans (le_min hright hright')
  · exact (max_le htop htop').trans (le_min hbottom hbottom')

theorem Meets.covers (h : Meets r s) (hr : HasEdges r) (hs : HasEdges s) :
    r.Covers (extended (maxEdge r.x s.x)) (extended (maxEdge r.y s.y))
      ∧ s.Covers (extended (maxEdge r.x s.x)) (extended (maxEdge r.y s.y)) := by
  rw [hr.meets_iff hs] at h
  rw [extended_maxEdge (isNaN_of_isFinite hr.x) (isNaN_of_isFinite hs.x),
    extended_maxEdge (isNaN_of_isFinite hr.y) (isNaN_of_isFinite hs.y)]
  obtain ⟨hx, hy⟩ := h
  constructor
  · exact ⟨⟨le_max_left .., hx.trans (min_le_left ..)⟩, le_max_left .., hy.trans (min_le_left ..)⟩
  · exact ⟨⟨le_max_right .., hx.trans (min_le_right ..)⟩, le_max_right ..,
      hy.trans (min_le_right ..)⟩

theorem Meets.holds (h : Meets r s) (hr : HasEdges r) (hs : HasEdges s) :
    r.Holds (maxEdge r.x s.x) (maxEdge r.y s.y) ∧ s.Holds (maxEdge r.x s.x) (maxEdge r.y s.y) := by
  have hx : (maxEdge r.x s.x).isNaN = false := isNaN_maxEdge (isNaN_of_isFinite hr.x)
  have hy : (maxEdge r.y s.y).isNaN = false := isNaN_maxEdge (isNaN_of_isFinite hr.y)
  rw [hr.holds_iff hx hy, hs.holds_iff hx hy]
  exact h.covers hr hs

theorem HasEdges.meets_comm (hr : HasEdges r) (hs : HasEdges s) : Meets r s ↔ Meets s r := by
  rw [hr.meets_iff hs, hs.meets_iff hr, max_comm, min_comm, max_comm (extended r.y),
    min_comm (extended r.bottom)]

theorem Meets.overlapOf_comm (h : Meets r s) (hr : HasEdges r) (hs : HasEdges s) :
    (overlapOf r s == overlapOf s r) = true := by
  show (_ == _ && _ == _ && _ == _ && _ == _) = true
  simp only [Bool.and_eq_true]
  refine ⟨⟨⟨?_, ?_⟩, ?_⟩, ?_⟩
  · exact maxEdge_comm (isNaN_of_isFinite hr.x) (isNaN_of_isFinite hs.x)
  · exact maxEdge_comm (isNaN_of_isFinite hr.y) (isNaN_of_isFinite hs.y)
  · exact length_comm hr.x hs.x hr.right hs.right h.1
  · exact length_comm hr.y hs.y hr.bottom hs.bottom h.2

theorem HasEdges.intersection?_comm (hr : HasEdges r) (hs : HasEdges s) :
    (r.intersection? s == s.intersection? r) = true := by
  by_cases h : Meets r s
  · rw [intersection?_of_meets h, intersection?_of_meets ((hr.meets_comm hs).mp h)]
    exact h.overlapOf_comm hr hs
  · rw [intersection?_of_not_meets h, intersection?_of_not_meets (mt (hr.meets_comm hs).mpr h)]
    rfl

/-! ## Every two rectangles -/

/-- That `intersection?` finds what two rectangles share. -/
structure Shares (r s : Rect) : Prop where
  /-- Something is found exactly when a point is in both. -/
  some_iff_point : (r.intersection? s).isSome = true ↔ ∃ p q : ℝ, r.Covers p q ∧ s.Covers p q
  /-- There is then a point whose coordinates are floats. -/
  some_iff_holds : (r.intersection? s).isSome = true ↔ ∃ x y, r.Holds x y ∧ s.Holds x y
  /-- A rectangle with an edge past the opposite one shares nothing, not even with itself. -/
  inverted : r.Inverted ∨ s.Inverted → r.intersection? s = none
  size : ∀ overlap, r.intersection? s = some overlap →
    IsClamped overlap.width ∧ IsClamped overlap.height
  corner : ∀ overlap, r.intersection? s = some overlap →
    r.Holds overlap.x overlap.y ∧ s.Holds overlap.x overlap.y
  comm : (r.intersection? s == s.intersection? r) = true

/-- Whatever the rectangles are, as long as their corners and sizes are finite: sizes may be
negative, and edges may be infinite. -/
theorem intersection_exact (hr : r.isFinite = true) (hs : s.isFinite = true) : Shares r s := by
  have hr := HasEdges.of_isFinite hr
  have hs := HasEdges.of_isFinite hs
  refine ⟨?_, ?_, ?_, ?_, ?_, hr.intersection?_comm hs⟩
  · rw [intersection?_isSome_iff]
    constructor
    · intro h
      have hcovers := h.covers hr hs
      rw [extended_of_finite (isFinite_maxEdge hr.x hs.x),
        extended_of_finite (isFinite_maxEdge hr.y hs.y)] at hcovers
      exact ⟨_, _, hcovers⟩
    · rintro ⟨p, q, h, h'⟩
      exact Meets.of_covers hr hs h h'
  · rw [intersection?_isSome_iff]
    constructor
    · intro h
      exact ⟨_, _, h.holds hr hs⟩
    · rintro ⟨x, y, h, h'⟩
      obtain ⟨hx, hy⟩ := h.isNaN_eq_false
      exact Meets.of_covers hr hs ((hr.holds_iff hx hy).mp h) ((hs.holds_iff hx hy).mp h')
  · intro h
    refine intersection?_of_not_meets fun hmeets => ?_
    obtain ⟨hcovers, hcovers'⟩ := hmeets.covers hr hs
    rcases h with h | h
    · exact hr.not_covers_of_inverted h hcovers
    · exact hs.not_covers_of_inverted h hcovers'
  · intro overlap h
    obtain ⟨hmeets, rfl⟩ := intersection?_eq_some_iff.mp h
    constructor
    · exact isClamped_sub (isFinite_maxEdge hr.x hs.x) (isNaN_minEdge hr.right) hmeets.1
    · exact isClamped_sub (isFinite_maxEdge hr.y hs.y) (isNaN_minEdge hr.bottom) hmeets.2
  · intro overlap h
    obtain ⟨hmeets, rfl⟩ := intersection?_eq_some_iff.mp h
    exact hmeets.holds hr hs

/-- A wide rectangle and one that only touches it, with a right edge that overflows. -/
theorem intersection_exact_touching :
    ∃ r s : Rect, r.isFinite = true ∧ s.isFinite = true ∧ s.right.isFinite = false
      ∧ (r.right == s.x) = true ∧ (r.intersection? s).isSome = true ∧ Shares r s := by
  refine ⟨⟨0.0, 0.0, .ofBits 0x7fe0000000000000, 10.0⟩,
    ⟨.ofBits 0x7fe0000000000000, 10.0, .ofBits 0x7fe0000000000000, 10.0⟩, ?_⟩
  refine ⟨by decide +kernel, by decide +kernel, by decide +kernel, by decide +kernel,
    by decide +kernel, ?_⟩
  exact intersection_exact (by decide +kernel) (by decide +kernel)

end Rect

end Windowing
