import Windowing.Proofs.WindowedList.Coherence
import Windowing.WindowedList.Scrolling

/-!
# Overscan at both ends

Whatever numbers a window is computed from, it lies among the items (`window_start_le_stop`,
`window_stop_le_itemCount`), and another overscan moves each end by at most the
difference, outwards for a larger one (`window_start_withOverscan`,
`window_stop_withOverscan`). So the windows are nested, and a larger overscan adds at most
the difference at either end.

The item under the scroll offset, or the last one where the list is scrolled past it, is in
the window exactly as long as overscan reaches back to it (`contains_reported_iff`). Sums
held at `Count.limit` do no harm here: a count of items is never above it.
-/

namespace Windowing

namespace Geometry

variable {g : Geometry} {o o' : Nat}

/-- The same geometry with another overscan. -/
def withOverscan (g : Geometry) (overscan : Nat) : Geometry := { g with overscan }

/-! ## The two ends -/

theorem firstVisible_le_limit (g : Geometry) : g.firstVisible ≤ Count.limit :=
  Extent.floorIndex_le_limit _

theorem add_firstVisible_le_visibleStop (g : Geometry) :
    Count.add g.firstVisible 1 ≤ g.visibleStop :=
  Nat.le_max_right ..

theorem window_of_isItemSize (he : Extent.isItemSize g.itemExtent = true) :
    g.window =
      ⟨min (g.firstVisible - g.overscan) (min (Count.add g.visibleStop g.overscan) g.itemCount),
        min (Count.add g.visibleStop g.overscan) g.itemCount⟩ := by
  rcases Nat.eq_zero_or_pos g.itemCount with hn | hn
  · simp [window, Window.empty, hn]
  · simp [window, he, hn.ne']

theorem window_stop_eq (he : Extent.isItemSize g.itemExtent = true) :
    g.window.stop = min (Count.add g.visibleStop g.overscan) g.itemCount := by
  rw [window_of_isItemSize he]

/-- The stop that the start is cut to plays no part: the item under the scroll offset comes before
it, unless it is cut to the number of items itself. -/
theorem window_start_eq (he : Extent.isItemSize g.itemExtent = true) :
    g.window.start = min (g.firstVisible - g.overscan) g.itemCount := by
  have hfirst := firstVisible_le_limit g
  have hlast := add_firstVisible_le_visibleStop g
  rw [window_of_isItemSize he]
  simp only [Count.add] at hlast ⊢
  omega

/-! ## Another overscan -/

theorem window_start_withOverscan_eq (he : Extent.isItemSize g.itemExtent = true) (o : Nat) :
    (g.withOverscan o).window.start = min (g.firstVisible - o) g.itemCount :=
  window_start_eq (g := g.withOverscan o) he

theorem window_stop_withOverscan_eq (he : Extent.isItemSize g.itemExtent = true) (o : Nat) :
    (g.withOverscan o).window.stop = min (Count.add g.visibleStop o) g.itemCount :=
  window_stop_eq (g := g.withOverscan o) he

theorem window_withOverscan_of_not_isItemSize (he : Extent.isItemSize g.itemExtent = false)
    (o : Nat) : (g.withOverscan o).window = .empty :=
  if_pos (Or.inr he)

/-- A larger overscan moves the start back, by the difference at most. -/
theorem window_start_withOverscan (h : o ≤ o') :
    (g.withOverscan o').window.start ≤ (g.withOverscan o).window.start
      ∧ (g.withOverscan o).window.start ≤ (g.withOverscan o').window.start + (o' - o) := by
  cases he : Extent.isItemSize g.itemExtent with
  | false =>
      rw [window_withOverscan_of_not_isItemSize he, window_withOverscan_of_not_isItemSize he]
      exact ⟨Nat.le_refl _, Nat.le_add_right ..⟩
  | true =>
      rw [window_start_withOverscan_eq he, window_start_withOverscan_eq he]
      omega

/-- A larger overscan moves the stop on, by the difference at most. -/
theorem window_stop_withOverscan (h : o ≤ o') :
    (g.withOverscan o).window.stop ≤ (g.withOverscan o').window.stop
      ∧ (g.withOverscan o').window.stop ≤ (g.withOverscan o).window.stop + (o' - o) := by
  cases he : Extent.isItemSize g.itemExtent with
  | false =>
      rw [window_withOverscan_of_not_isItemSize he, window_withOverscan_of_not_isItemSize he]
      exact ⟨Nat.le_refl _, Nat.le_add_right ..⟩
  | true =>
      rw [window_stop_withOverscan_eq he, window_stop_withOverscan_eq he]
      simp only [Count.add]
      omega

theorem contains_withOverscan (h : o ≤ o') {i : Nat}
    (hi : (g.withOverscan o).window.contains i = true) :
    (g.withOverscan o').window.contains i = true := by
  obtain ⟨hstart, -⟩ := window_start_withOverscan (g := g) h
  obtain ⟨hstop, -⟩ := window_stop_withOverscan (g := g) h
  rw [Window.contains_iff] at hi ⊢
  omega

theorem length_withOverscan_le (h : o ≤ o') :
    (g.withOverscan o').window.length ≤ (g.withOverscan o).window.length + 2 * (o' - o) := by
  obtain ⟨-, hstart⟩ := window_start_withOverscan (g := g) h
  obtain ⟨-, hstop⟩ := window_stop_withOverscan (g := g) h
  have hle := window_start_le_stop (g.withOverscan o')
  unfold Window.length
  omega

/-! ## The item under the scroll offset -/

/-- The item at the scroll offset, or the last one if there is none, is rendered as long as
overscan reaches back to it. -/
theorem contains_reported_iff (hn : 0 < g.itemCount) (hlimit : g.itemCount ≤ Count.limit)
    (he : Extent.isItemSize g.itemExtent = true) :
    g.window.contains (min g.firstVisible (g.itemCount - 1)) = true
      ↔ g.firstVisible < g.itemCount + g.overscan := by
  have hlast := add_firstVisible_le_visibleStop g
  rw [Window.contains_iff, window_start_eq he, window_stop_eq he]
  simp only [Count.add] at hlast ⊢
  omega

theorem contains_firstVisible (hlimit : g.itemCount ≤ Count.limit)
    (he : Extent.isItemSize g.itemExtent = true) (hfirst : g.firstVisible < g.itemCount) :
    g.window.contains g.firstVisible = true := by
  have hreported := (contains_reported_iff (Nat.zero_lt_of_lt hfirst) hlimit he).mpr
    (Nat.lt_add_right _ hfirst)
  rwa [Nat.min_eq_left (Nat.le_sub_one_of_lt hfirst)] at hreported

/-- What holds of the window of a geometry, whatever floats it has. -/
structure Lawful (g : Geometry) : Prop where
  start_le_stop : g.window.start ≤ g.window.stop
  stop_le_itemCount : g.window.stop ≤ g.itemCount
  /-- The item under the scroll offset is rendered, however small the viewport is. -/
  first_mem : 0 < g.itemCount → g.itemExtent.isFinite = true → 0.0 < g.itemExtent →
    Extent.floorIndex (Extent.clamp g.scrollOffset / g.itemExtent) < g.itemCount →
    g.window.start ≤ Extent.floorIndex (Extent.clamp g.scrollOffset / g.itemExtent)
      ∧ Extent.floorIndex (Extent.clamp g.scrollOffset / g.itemExtent) < g.window.stop
  nested : ∀ o o' : Nat, o ≤ o' → ∀ i,
    (g.withOverscan o).window.contains i = true → (g.withOverscan o').window.contains i = true
  start_moves : ∀ o o' : Nat, o ≤ o' →
    (g.withOverscan o).window.start - (g.withOverscan o').window.start ≤ o' - o
  stop_moves : ∀ o o' : Nat, o ≤ o' →
    (g.withOverscan o').window.stop - (g.withOverscan o).window.stop ≤ o' - o
  length_le : ∀ o o' : Nat, o ≤ o' →
    (g.withOverscan o').window.length ≤ (g.withOverscan o).window.length + 2 * (o' - o)

theorem lawful (hlimit : g.itemCount ≤ Count.limit) : g.Lawful where
  start_le_stop := window_start_le_stop g
  stop_le_itemCount := window_stop_le_itemCount g
  first_mem := by
    intro _ hfin hpos hfirst
    have he : Extent.isItemSize g.itemExtent = true := Extent.isItemSize_of_pos hfin hpos
    exact Window.contains_iff.mp (contains_firstVisible hlimit he hfirst)
  nested := fun _ _ h _ => contains_withOverscan h
  start_moves := fun _ _ h => Nat.sub_le_iff_le_add'.mpr (window_start_withOverscan h).2
  stop_moves := fun _ _ h => Nat.sub_le_iff_le_add'.mpr (window_stop_withOverscan h).2
  length_le := fun _ _ h => length_withOverscan_le h

end Geometry

namespace WindowedList

variable {ι α : Type} {l : WindowedList ι α}

/-- Hit-testing and windows divide by the same item size. A viewport that is asked about is
clamped twice on the way, which changes nothing. -/
theorem firstVisible_geometry_clamped (l : WindowedList ι α) (s v : Float) :
    (l.geometry (Viewport.clamped s v)).firstVisible
      = Extent.floorIndex (Extent.clamp s / l.settings.itemExtent) := by
  show Extent.floorIndex (Extent.clamp (Extent.clamp s) / l.settings.itemExtent) = _
  rw [(Extent.isClamped_clamp s).clamp_eq]

theorem indexAtOffset?_of_items (hn : 0 < l.items.size) (s : Float) :
    l.indexAtOffset? s
      = some (min (Extent.floorIndex (Extent.clamp s / l.settings.itemExtent))
        (l.items.size - 1)) :=
  if_neg hn.ne'

/-- Windows are lawful for every geometry. The item that a list reports at an offset is in the
window for that offset and any viewport, unless the offset is so far past the last item that
overscan does not reach back to it. -/
theorem window_lawful :
    (∀ g : Geometry, g.itemCount ≤ Count.limit → g.Lawful)
      ∧ ∀ l : WindowedList ι α, Reachable l → 0 < l.items.size → l.items.size ≤ Count.limit →
        ∀ s v, ∃ i, l.indexAtOffset? s = some i
          ∧ (Extent.floorIndex (Extent.clamp s / l.settings.itemExtent) < l.items.size →
            i = Extent.floorIndex (Extent.clamp s / l.settings.itemExtent)
              ∧ (l.windowFor s v).contains i = true)
          ∧ ((l.windowFor s v).contains i = true
            ↔ Extent.floorIndex (Extent.clamp s / l.settings.itemExtent)
              < l.items.size + l.settings.overscan) := by
  refine ⟨fun g hlimit => g.lawful hlimit, fun l hl hn hlimit s v => ?_⟩
  have hreported := Geometry.contains_reported_iff
    (g := l.geometry (Viewport.clamped s v)) hn hlimit hl.coherent.item
  rw [firstVisible_geometry_clamped] at hreported
  refine ⟨_, indexAtOffset?_of_items hn s, fun hfirst => ?_, hreported⟩
  exact ⟨Nat.min_eq_left (Nat.le_sub_one_of_lt hfirst),
    hreported.mpr (Nat.lt_add_right _ hfirst)⟩

/-- A position that is held at the limit of counts, and a list scrolled two items past its
last one. -/
theorem window_lawful_past_end :
    ∃ (g : Geometry) (l : WindowedList Nat Nat),
      g.itemCount = Count.limit ∧ g.firstVisible = Count.limit ∧ g.Lawful
      ∧ create #[0, 1, 2] { itemExtent := 10.0, viewportExtent := 0.0, overscan := 2 } = .ok l
      ∧ Extent.floorIndex (Extent.clamp 45.0 / l.settings.itemExtent) = 4
      ∧ ∃ i, l.indexAtOffset? 45.0 = some i
        ∧ (Extent.floorIndex (Extent.clamp 45.0 / l.settings.itemExtent) < l.items.size →
          i = Extent.floorIndex (Extent.clamp 45.0 / l.settings.itemExtent)
            ∧ (l.windowFor 45.0 0.0).contains i = true)
        ∧ ((l.windowFor 45.0 0.0).contains i = true
          ↔ Extent.floorIndex (Extent.clamp 45.0 / l.settings.itemExtent)
            < l.items.size + l.settings.overscan) := by
  have h : create #[0, 1, 2] { itemExtent := 10.0, viewportExtent := 0.0, overscan := 2 }
      = .ok (_ : WindowedList Nat Nat) := rfl
  exact ⟨⟨1.0 / 0.0, 0.5, 0.0, Count.limit, 3⟩, _, rfl, by decide +kernel,
    (window_lawful (ι := Nat) (α := Nat)).1 _ (Nat.le_refl _), h, by decide +kernel,
    window_lawful.2 _ (.create h) (by decide) (by decide) _ _⟩

end WindowedList

end Windowing
