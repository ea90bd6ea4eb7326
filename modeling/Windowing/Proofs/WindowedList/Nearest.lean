import Windowing.Proofs.WindowedList.Track

/-!
# Scrolling no more than needed

`Alignment.nearest` leaves an item in view where it is. One would expect it to be at rest after
one call, and it is, as long as the item fits the viewport. An item that is larger than the
viewport is never in view as a whole: once its start is aligned, the end is, and then the start
again (`swings_past_large_item`). `nearest_repeats_iff` says exactly when a second call changes
nothing, in terms of the floats that the list computes; for whole numbers it is when the viewport
is as large as an item.
-/

namespace Windowing

open Binary

namespace WindowedList

variable {ι α : Type} {l m : WindowedList ι α} {index : ℕ} {p : Float}

/-! ## Where it scrolls to -/

/-- Where `Alignment.nearest` scrolls to from an offset. -/
def nearestFrom (l : WindowedList ι α) (index : ℕ) (p : Float) : Float :=
  l.clampScrollOffset
    (if p ≤ l.itemStart index ∧ l.itemStop index ≤ p + l.viewport.extent then p
      else if l.itemStart index < p then l.itemStart index
      else l.itemStop index - l.viewport.extent)

theorem scrollTarget_nearest (hn : 0 < l.items.size) (index : ℕ) :
    l.scrollTarget index .nearest = l.nearestFrom index l.viewport.scrollOffset :=
  if_neg hn.ne'

/-- From one offset it scrolls to the same place, wherever the list is at present. -/
theorem nearestFrom_congr (hitems : l.items = m.items) (hsettings : l.settings = m.settings)
    (hextent : l.viewport.extent = m.viewport.extent) (index : ℕ) (p : Float) :
    l.nearestFrom index p = m.nearestFrom index p := by
  obtain ⟨items, settings, ⟨s, v⟩, w, d, b⟩ := l
  obtain ⟨items', settings', ⟨s', v'⟩, w', d', b'⟩ := m
  cases hitems
  cases hsettings
  cases hextent
  rfl

theorem isClamped_nearestFrom (l : WindowedList ι α) (index : ℕ) (p : Float) :
    Extent.IsClamped (l.nearestFrom index p) :=
  l.isClamped_clampScrollOffset _

theorem nearestFrom_le_limit (l : WindowedList ι α) (index : ℕ) (p : Float) :
    extended (l.nearestFrom index p) ≤ extended l.maxScrollOffset :=
  l.clampScrollOffset_le_limit _

/-- A whole item in view stays where it is. -/
theorem nearestFrom_of_inside
    (h : p ≤ l.itemStart index ∧ l.itemStop index ≤ p + l.viewport.extent) :
    l.nearestFrom index p = l.clampScrollOffset p := by
  rw [nearestFrom, if_pos h]

theorem nearestFrom_of_before (h : ¬ p ≤ l.itemStart index) (hlt : l.itemStart index < p) :
    l.nearestFrom index p = l.clampScrollOffset (l.itemStart index) := by
  rw [nearestFrom, if_neg (fun hin => h hin.1), if_pos hlt]

/-- The end of a later item is aligned, and for that nothing has to be scrolled back. -/
theorem Coherent.nearestFrom_of_cut (h : l.Coherent) (hp : Extent.IsClamped p)
    (hle : p ≤ l.itemStart index) (hcut : p + l.viewport.extent < l.itemStop index) :
    p ≤ l.itemStop index - l.viewport.extent
      ∧ (l.itemStop index - l.viewport.extent).isNaN = false
      ∧ extended (l.nearestFrom index p)
        = min (extended (l.itemStop index - l.viewport.extent)) (extended l.maxScrollOffset) := by
  obtain ⟨hnumber, hfar⟩ := Extent.le_sub_of_add_lt hp h.viewport.2 hcut
  have hstart := (h.itemStart_isClamped index).1
  have hsum := (hp.add h.viewport.2).1
  have hstop := (h.itemStop_isClamped index).1
  have hnot : ¬ (p ≤ l.itemStart index ∧ l.itemStop index ≤ p + l.viewport.extent) := by
    rintro ⟨-, hin⟩
    exact (not_lt_iff_le hsum hstop).mpr hin hcut
  have hclamped : Extent.IsClamped (l.itemStop index - l.viewport.extent) := by
    rw [Extent.isClamped_iff_extended hnumber]
    exact ((Extent.isClamped_iff_extended hp.1).mp hp).trans
      ((le_iff_extended hp.1 hnumber).mp hfar)
  refine ⟨hfar, hnumber, ?_⟩
  rw [nearestFrom, if_neg hnot, if_neg ((not_lt_iff_le hstart hp.1).mpr hle),
    extended_clampScrollOffset, hclamped.clamp_eq]

/-! ## Where it comes to rest -/

/-- An offset that is on the track, with the item not before it, is kept if aligning the end of
the item would not scroll on from there. -/
theorem Coherent.nearestFrom_rest (h : l.Coherent) (hp : Extent.IsClamped p)
    (hlimit : extended p ≤ extended l.maxScrollOffset) (hle : p ≤ l.itemStart index)
    (hrest : p + l.viewport.extent < l.itemStop index →
      min (extended (l.itemStop index - l.viewport.extent)) (extended l.maxScrollOffset)
        ≤ extended p) :
    extended (l.nearestFrom index p) = extended p := by
  have hsum := (hp.add h.viewport.2).1
  have hstop := (h.itemStop_isClamped index).1
  by_cases hcut : p + l.viewport.extent < l.itemStop index
  · obtain ⟨hfar, hnumber, hnext⟩ := h.nearestFrom_of_cut hp hle hcut
    rw [hnext]
    exact le_antisymm (hrest hcut) (le_min ((le_iff_extended hp.1 hnumber).mp hfar) hlimit)
  · rw [nearestFrom_of_inside ⟨hle, (not_lt_iff_le hsum hstop).mp hcut⟩,
      extended_clampScrollOffset, hp.clamp_eq, min_eq_left hlimit]

/-- Aligning the end of the item scrolls past its start, and there is track enough for it, while
the end is not in view from its start, or from the present offset if that comes before. -/
structure Swings (l : WindowedList ι α) (index : ℕ) : Prop where
  nonempty : 0 < l.items.size
  start_lt_limit : l.itemStart index < l.maxScrollOffset
  start_lt_aligned : l.itemStart index < l.itemStop index - l.viewport.extent
  stop_cut : (if l.viewport.scrollOffset ≤ l.itemStart index then l.viewport.scrollOffset
    else l.itemStart index) + l.viewport.extent < l.itemStop index

theorem Coherent.nearestFrom_limit (h : l.Coherent)
    (hle : l.maxScrollOffset ≤ l.itemStart index) :
    extended (l.nearestFrom index l.maxScrollOffset) = extended l.maxScrollOffset :=
  h.nearestFrom_rest l.isClamped_maxScrollOffset le_rfl hle fun _ => min_le_right _ _

theorem Coherent.nearestFrom_twice_of_inside (h : l.Coherent) (hp : Extent.IsClamped p)
    (hin : p ≤ l.itemStart index ∧ l.itemStop index ≤ p + l.viewport.extent) :
    extended (l.nearestFrom index (l.nearestFrom index p)) = extended (l.nearestFrom index p) := by
  have hstart := (h.itemStart_isClamped index).1
  have hlimit := l.isClamped_maxScrollOffset.1
  rw [nearestFrom_of_inside hin]
  by_cases hlt : p < l.maxScrollOffset
  · rw [clampScrollOffset_eq_self hp hlt, nearestFrom_of_inside hin,
      clampScrollOffset_eq_self hp hlt]
  · rw [clampScrollOffset_eq_limit hp hlt]
    refine h.nearestFrom_limit ?_
    rw [not_lt_iff_le hp.1 hlimit, le_iff_extended hlimit hp.1] at hlt
    rw [le_iff_extended hlimit hstart]
    exact hlt.trans ((le_iff_extended hp.1 hstart).mp hin.1)

theorem Coherent.nearestFrom_twice_of_before (h : l.Coherent) (hle : ¬ p ≤ l.itemStart index)
    (hlt : l.itemStart index < p)
    (hs : l.itemStart index < l.maxScrollOffset →
      l.itemStart index + l.viewport.extent < l.itemStop index →
        ¬ l.itemStart index < l.itemStop index - l.viewport.extent) :
    extended (l.nearestFrom index (l.nearestFrom index p)) = extended (l.nearestFrom index p) := by
  have hstart := h.itemStart_isClamped index
  have hlimit := l.isClamped_maxScrollOffset.1
  rw [nearestFrom_of_before hle hlt]
  by_cases htrack : l.itemStart index < l.maxScrollOffset
  · rw [clampScrollOffset_eq_self hstart htrack]
    refine h.nearestFrom_rest hstart ((lt_iff_extended hstart.1 hlimit).mp htrack).le
      hstart.le_refl fun hcut => (min_le_left _ _).trans ?_
    obtain ⟨hnumber, -⟩ := Extent.le_sub_of_add_lt hstart h.viewport.2 hcut
    exact not_lt.mp (mt (lt_iff_extended hstart.1 hnumber).mpr (hs htrack hcut))
  · rw [clampScrollOffset_eq_limit hstart htrack]
    exact h.nearestFrom_limit ((not_lt_iff_le hstart.1 hlimit).mp htrack)

theorem Coherent.nearestFrom_twice_of_cut (h : l.Coherent) (hp : Extent.IsClamped p)
    (hle : p ≤ l.itemStart index) (hcut : p + l.viewport.extent < l.itemStop index)
    (hs : l.itemStart index < l.maxScrollOffset →
      ¬ l.itemStart index < l.itemStop index - l.viewport.extent) :
    extended (l.nearestFrom index (l.nearestFrom index p)) = extended (l.nearestFrom index p) := by
  have hstart := (h.itemStart_isClamped index).1
  have hlimit := l.isClamped_maxScrollOffset.1
  have hq := l.isClamped_nearestFrom index p
  obtain ⟨-, hnumber, hnext⟩ := h.nearestFrom_of_cut hp hle hcut
  -- The end is aligned now. If that has scrolled past the start, the list swings.
  refine h.nearestFrom_rest hq (l.nearestFrom_le_limit index p) ?_ fun _ => hnext.ge
  rw [← not_lt_iff_le hstart hq.1, lt_iff_extended hstart hq.1, hnext, lt_min_iff]
  rintro ⟨haligned, htrack⟩
  exact hs ((lt_iff_extended hstart hlimit).mpr htrack)
    ((lt_iff_extended hstart hnumber).mpr haligned)

/-- Where it does not swing, the first call ends at rest. -/
theorem Coherent.nearestFrom_twice (h : l.Coherent) (hn : 0 < l.items.size)
    (hs : ¬ l.Swings index) :
    extended (l.nearestFrom index (l.nearestFrom index l.viewport.scrollOffset))
      = extended (l.nearestFrom index l.viewport.scrollOffset) := by
  have hp := h.viewport.1
  have hstart := (h.itemStart_isClamped index).1
  by_cases hle : l.viewport.scrollOffset ≤ l.itemStart index
  · by_cases hcut : l.viewport.scrollOffset + l.viewport.extent < l.itemStop index
    · refine h.nearestFrom_twice_of_cut hp hle hcut fun htrack haligned => ?_
      exact hs ⟨hn, htrack, haligned, by rwa [if_pos hle]⟩
    · refine h.nearestFrom_twice_of_inside hp ⟨hle, ?_⟩
      exact (not_lt_iff_le (hp.add h.viewport.2).1 (h.itemStop_isClamped index).1).mp hcut
  · have hlt : l.itemStart index < l.viewport.scrollOffset := by
      rwa [lt_iff_extended hstart hp.1, ← not_le, ← le_iff_extended hp.1 hstart]
    refine h.nearestFrom_twice_of_before hle hlt fun htrack hcut haligned => ?_
    exact hs ⟨hn, htrack, haligned, by rwa [if_neg hle]⟩

/-- Where it swings, neither the first call nor the second is at rest. -/
theorem Swings.nearestFrom_ne (hs : l.Swings index) (h : l.Coherent) :
    extended (l.nearestFrom index l.viewport.scrollOffset) ≠ extended l.viewport.scrollOffset
      ∧ extended (l.nearestFrom index (l.nearestFrom index l.viewport.scrollOffset))
        ≠ extended (l.nearestFrom index l.viewport.scrollOffset) := by
  obtain ⟨p, hpresent⟩ : ∃ p, p = l.viewport.scrollOffset := ⟨_, rfl⟩
  have hp : Extent.IsClamped p := hpresent ▸ h.viewport.1
  have hstart := h.itemStart_isClamped index
  have hlimit := l.isClamped_maxScrollOffset
  obtain ⟨-, htrack, haligned, hcut⟩ := hs
  have hnumber := (isNaN_of_lt haligned).2
  have htrack' := (lt_iff_extended hstart.1 hlimit.1).mp htrack
  have hpast := lt_min ((lt_iff_extended hstart.1 hnumber).mp haligned) htrack'
  have halign := clampScrollOffset_eq_self hstart htrack
  rw [← hpresent] at hcut ⊢
  by_cases hle : p ≤ l.itemStart index
  · rw [if_pos hle] at hcut
    obtain ⟨-, -, hnext⟩ := h.nearestFrom_of_cut hp hle hcut
    have hq := l.isClamped_nearestFrom index p
    rw [← hnext] at hpast
    have hback : ¬ l.nearestFrom index p ≤ l.itemStart index := by
      rwa [le_iff_extended hq.1 hstart.1, not_le]
    refine ⟨(((le_iff_extended hp.1 hstart.1).mp hle).trans_lt hpast).ne', ?_⟩
    rw [nearestFrom_of_before hback ((lt_iff_extended hstart.1 hq.1).mpr hpast), halign]
    exact hpast.ne
  · have hbefore : extended (l.itemStart index) < extended p := by
      rwa [← not_le, ← le_iff_extended hp.1 hstart.1]
    rw [if_neg hle] at hcut
    rw [nearestFrom_of_before hle ((lt_iff_extended hstart.1 hp.1).mpr hbefore), halign]
    obtain ⟨-, -, hnext⟩ := h.nearestFrom_of_cut hstart hstart.le_refl hcut
    rw [hnext]
    exact ⟨hbefore.ne, hpast.ne'⟩

/-! ## Two calls -/

/-- A second call answers the same, changes nothing and tells nobody. -/
structure Repeats (l : WindowedList ι α) (index : ℕ) (a : Alignment) : Prop where
  result_beq : (((l.scrollToIndex index a).state.scrollToIndex index a).result
    == (l.scrollToIndex index a).result) = true
  state_eq : ((l.scrollToIndex index a).state.scrollToIndex index a).state
    = (l.scrollToIndex index a).state
  events_eq : ((l.scrollToIndex index a).state.scrollToIndex index a).events = []

/-- It is enough that the second call has the same target. -/
theorem Coherent.repeats_of_target (h : l.Coherent) {a : Alignment}
    (htarget : ((l.scrollToIndex index a).state.scrollTarget index a
      == l.scrollTarget index a) = true) : l.Repeats index a := by
  have hmoved := h.scrollToIndex_scrollOffset index a
  have hnext := h.scrollToIndex index a
  generalize hm : (l.scrollToIndex index a).state = m at htarget hmoved hnext
  have hfirst := (l.isClamped_scrollTarget index a).1
  have hsecond := (m.isClamped_scrollTarget index a).1
  have hsame : (m.viewport == ⟨m.scrollTarget index a, m.viewport.extent⟩) = true := by
    rw [beq_iff_extended hsecond hfirst] at htarget
    rw [beq_iff_extended hnext.scroll_number hfirst] at hmoved
    exact Viewport.beq_iff_same.mpr ⟨(beq_iff_extended hnext.scroll_number hsecond).mpr
      (hmoved.trans htarget.symm), Binary.beq_self hnext.extent_number⟩
  have hquiet : m.scrollToIndex index a = .quiet m (m.scrollTarget index a) := by
    rw [hnext.scrollToIndex_eq, moveTo, hsame]
    rfl
  refine ⟨?_, ?_, ?_⟩ <;> rw [hm, hquiet]
  · exact htarget
  · rfl
  · rfl

/-- The second call starts where the first one ended. If that was no move, it starts where the
first one did. -/
theorem Coherent.second_target (h : l.Coherent) (hn : 0 < l.items.size) (index : ℕ) :
    (l.scrollToIndex index .nearest).state.scrollTarget index .nearest
      = l.nearestFrom index
        (if l.viewport.scrollOffset == l.nearestFrom index l.viewport.scrollOffset then
          l.viewport.scrollOffset
        else l.nearestFrom index l.viewport.scrollOffset) := by
  have hitems := l.scrollToIndex_items index .nearest
  have hviewport : (l.scrollToIndex index .nearest).state.viewport.scrollOffset
      = if l.viewport.scrollOffset == l.nearestFrom index l.viewport.scrollOffset then
          l.viewport.scrollOffset
        else l.nearestFrom index l.viewport.scrollOffset := by
    have hbeq (x : Float) : (l.viewport == ⟨x, l.viewport.extent⟩)
        = (l.viewport.scrollOffset == x) := by
      show (_ && _) = _
      rw [Binary.beq_self h.extent_number, Bool.and_true]
    rw [h.scrollToIndex_eq, Step.map_state, moveTo_viewport, scrollTarget_nearest hn, hbeq]
    split <;> rfl
  rw [scrollTarget_nearest (by rwa [hitems]), hviewport]
  exact nearestFrom_congr hitems (l.scrollToIndex_settings ..) (h.scrollToIndex_extent ..) _ _

theorem Coherent.repeats_iff (h : l.Coherent) (index : ℕ) :
    l.Repeats index .nearest ↔ ¬ l.Swings index := by
  rcases Nat.eq_zero_or_pos l.items.size with hn | hn
  · have hzero (m : WindowedList ι α) (hm : m.items = l.items) :
        m.scrollTarget index .nearest = 0.0 := if_pos (hm ▸ hn)
    have htarget := hzero _ (l.scrollToIndex_items index .nearest)
    refine iff_of_true (h.repeats_of_target ?_) fun hs => hs.nonempty.ne' hn
    rw [htarget, hzero l rfl]
    exact Binary.beq_self Extent.isClamped_zero.1
  · have hfirst := l.isClamped_nearestFrom index l.viewport.scrollOffset
    have hsecond := h.second_target hn index
    by_cases hrest : (l.viewport.scrollOffset
        == l.nearestFrom index l.viewport.scrollOffset) = true
    · rw [if_pos hrest] at hsecond
      refine iff_of_true (h.repeats_of_target ?_) fun hs => ?_
      · rw [hsecond, scrollTarget_nearest hn]
        exact Binary.beq_self hfirst.1
      · exact (hs.nearestFrom_ne h).1 ((beq_iff_extended h.scroll_number hfirst.1).mp hrest).symm
    · rw [if_neg hrest] at hsecond
      have hnext := l.isClamped_nearestFrom index (l.nearestFrom index l.viewport.scrollOffset)
      constructor
      · intro hr hs
        have hresult := hr.result_beq
        rw [scrollToIndex_result, scrollToIndex_result, hsecond, scrollTarget_nearest hn,
          beq_iff_extended hnext.1 hfirst.1] at hresult
        exact (hs.nearestFrom_ne h).2 hresult
      · intro hs
        refine h.repeats_of_target ?_
        rw [hsecond, scrollTarget_nearest hn, beq_iff_extended hnext.1 hfirst.1]
        exact h.nearestFrom_twice hn hs

/-! ## Whole numbers -/

section

variable {e v : ℕ} (h : l.Coherent) (hn : 0 < l.items.size)
  (hitem : Extent.IsWhole l.settings.itemExtent e)
  (hview : Extent.IsWhole l.viewport.extent v) (htrack : l.items.size * e ≤ 2 ^ 53)
include h hn hitem hview htrack

theorem Coherent.swings_of_lt (hlt : v < e) : l.Swings index := by
  obtain ⟨i, hi⟩ : ∃ i, i = min index (l.items.size - 1) := ⟨_, rfl⟩
  have hstart := h.offsetOf_onGrid hitem htrack (i := i) (by omega)
  have hstop := h.itemStop_onGrid hn hitem htrack index
  have hlast : i * e + e ≤ l.items.size * e := by
    rw [← Nat.succ_mul]
    exact Nat.mul_le_mul_right e (by omega)
  have hlimit := h.maxScrollOffset_onGrid hitem htrack hview (by omega)
  rw [← hi, Nat.succ_mul] at hstop
  have hself : l.itemStart index = l.offsetOf i := by rw [itemStart, hi]
  rw [← hself] at hstart
  have haligned := hstop.sub hview.onGrid (Nat.zero_le _) (by rw [abs_le]; omega)
  have hsum := hstart.add hview.onGrid (Nat.zero_le _) (by rw [abs_le]; omega)
  have hend : l.itemStart index + l.viewport.extent < l.itemStop index :=
    (hsum.lt_iff hstop).mpr (by omega)
  refine ⟨hn, (hstart.lt_iff hlimit).mpr (by omega), (hstart.lt_iff haligned).mpr (by omega), ?_⟩
  -- Farther from the end, less of the item is in view; the sum is rounded, but not past this one.
  split
  · rename_i hbefore
    obtain ⟨hfin, hval⟩ := h.viewport.1.finite_of_le hstart.1 hbefore
    have hround := (add_rounds hfin hview.1).extended_le hsum.1
      (by
        rw [hsum.value_eq, Int.cast_add, add_div, ← hstart.value_eq, ← hview.onGrid.value_eq]
        gcongr)
    obtain ⟨hsumnum, hstopnum⟩ := isNaN_of_lt hend
    rw [lt_iff_extended hsumnum hstopnum] at hend
    rw [lt_iff_extended (h.viewport.1.add h.viewport.2).1 hstopnum]
    exact hround.trans_lt hend
  · exact hend

theorem Coherent.not_swings_of_le (hle : e ≤ v) : ¬ l.Swings index := by
  intro hs
  have hstart := h.offsetOf_onGrid hitem htrack (i := min index (l.items.size - 1)) (by omega)
  have hstop := h.itemStop_onGrid hn hitem htrack index
  have hround := (sub_rounds hstop.1 hview.1).extended_le hstart.1
    (by
      rw [hstop.value_eq, hstart.value_eq, hview.2, Nat.succ_mul]
      have hle' : (e : ℝ) ≤ v := by exact_mod_cast hle
      push_cast
      linarith)
  obtain ⟨hstartnum, hnumber⟩ := isNaN_of_lt hs.start_lt_aligned
  exact absurd ((lt_iff_extended hstartnum hnumber).mp hs.start_lt_aligned) (not_lt.mpr hround)

end

/-- To repeat `Alignment.nearest` changes nothing, unless the list swings. With whole sizes it
does so exactly when an item is larger than the viewport. -/
theorem nearest_repeats_iff (h : Reachable l) (index : ℕ) :
    (l.Repeats index .nearest ↔ ¬ l.Swings index)
      ∧ ∀ e v : ℕ, 0 < l.items.size → Extent.IsWhole l.settings.itemExtent e →
        Extent.IsWhole l.viewport.extent v → l.items.size * e ≤ 2 ^ 53 →
        (l.Repeats index .nearest ↔ e ≤ v) := by
  have hiff := h.coherent.repeats_iff index
  refine ⟨hiff, fun e v hn hitem hview htrack => hiff.trans ⟨fun hs => ?_, fun hle => ?_⟩⟩
  · by_contra hlt
    exact hs (h.coherent.swings_of_lt hn hitem hview htrack (not_le.mp hlt))
  · exact h.coherent.not_swings_of_le hn hitem hview htrack hle

theorem nearest_repeats_iff_fitting :
    ∃ l : WindowedList Nat Nat,
      create #[0, 1, 2]
          { itemExtent := Count.toFloat 24, viewportExtent := Count.toFloat 30,
            initialOffset := 48.0 } = .ok l
      ∧ (l.Repeats 1 .nearest ↔ ¬ l.Swings 1)
      ∧ 0 < l.items.size ∧ Extent.IsWhole l.settings.itemExtent 24
      ∧ Extent.IsWhole l.viewport.extent 30 ∧ l.items.size * 24 ≤ 2 ^ 53
      ∧ (l.Repeats 1 .nearest ↔ 24 ≤ 30) := by
  have h : create #[0, 1, 2]
      { itemExtent := Count.toFloat 24, viewportExtent := Count.toFloat 30,
        initialOffset := 48.0 } = .ok (_ : WindowedList Nat Nat) := rfl
  have hitem : Extent.IsWhole (Count.toFloat 24) 24 := Extent.isWhole_toFloat (by decide)
  have hview : Extent.IsWhole (Count.toFloat 30) 30 := Extent.isWhole_toFloat (by decide)
  have hiff := nearest_repeats_iff (.create h) 1
  exact ⟨_, h, hiff.1, by decide, hitem, hview, by decide,
    hiff.2 24 30 (by decide) hitem hview (by decide)⟩

/-- Three items of 24 in a viewport of 10, scrolled to the last one: the first call aligns the
start of the item before, at 24, and the second call its end, at 38. -/
theorem swings_past_large_item :
    ¬ ∀ l : WindowedList Nat Nat, Reachable l → ∀ index, l.Repeats index .nearest := by
  intro hrepeats
  have h : create (ι := Nat) #[0, 1, 2]
      { itemExtent := 24.0, viewportExtent := 10.0, overscan := 0, initialOffset := 48.0,
        listener := some 7 } = .ok _ := rfl
  have hresult := (hrepeats _ (.create h) 1).result_beq
  exact absurd hresult (by decide +kernel)

end WindowedList

end Windowing
