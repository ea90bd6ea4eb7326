import Windowing.Proofs.Extent.Clamping
import Windowing.Proofs.WindowedList.Changes

/-!
# Windows are never stale

The window of a list is a derived field, which every operation that touches the items, the
item size, the overscan or the viewport has to bring up to date. `Coherent` says that it
is, and that the numbers it is computed from are in shape; `Reachable.coherent` says so of
every list that operations lead to, whether or not a batch is open around it.

The states that a script goes through are listed by `trail`, those between two updates of
a batch included. A listener is handed one of them (`argument_mem_trail`): it is told
after the window was brought up to date, never before.
-/

namespace Windowing

theorem Geometry.window_start_le_stop (g : Geometry) : g.window.start ≤ g.window.stop := by
  unfold window
  split
  · exact Nat.le_refl _
  · exact Nat.min_le_right ..

theorem Geometry.window_stop_le_itemCount (g : Geometry) : g.window.stop ≤ g.itemCount := by
  unfold window
  split
  · exact Nat.zero_le _
  · exact Nat.min_le_right ..

namespace Viewport

def IsClamped (v : Viewport) : Prop :=
  Extent.IsClamped v.scrollOffset ∧ Extent.IsClamped v.extent

theorem isClamped_clamped (s e : Float) : (clamped s e).IsClamped :=
  ⟨Extent.isClamped_clamp s, Extent.isClamped_clamp e⟩

theorem IsClamped.clamped_eq {v : Viewport} (h : v.IsClamped) :
    clamped v.scrollOffset v.extent = v := by
  rw [clamped, h.1.clamp_eq, h.2.clamp_eq]

end Viewport

namespace ListSettings

variable {ι : Type} {s : ListSettings ι}

theorem isItemSize_of_check (h : s.check = .ok ()) : Extent.isItemSize s.itemExtent = true := by
  unfold check at h
  split at h
  · cases h
  · rename_i hsize
    exact (Bool.not_eq_false _).mp hsize

end ListSettings

namespace WindowedList

variable {ι α : Type} {l : WindowedList ι α}

/-! ## The invariant -/

/-- The window belongs to the viewport and lies among the items; offset and extent of the
viewport are numbers not below zero; items have a size. -/
structure Coherent (l : WindowedList ι α) : Prop where
  window_eq : l.window = l.windowFor l.viewport.scrollOffset l.viewport.extent
  start_le_stop : l.window.start ≤ l.window.stop
  stop_le_size : l.window.stop ≤ l.items.size
  scroll_number : l.viewport.scrollOffset.isNaN = false
  scroll_not_neg : ¬ l.viewport.scrollOffset < 0.0
  extent_number : l.viewport.extent.isNaN = false
  extent_not_neg : ¬ l.viewport.extent < 0.0
  item_finite : l.settings.itemExtent.isFinite = true
  item_pos : 0.0 < l.settings.itemExtent

theorem Coherent.viewport (h : l.Coherent) : l.viewport.IsClamped :=
  ⟨⟨h.scroll_number, h.scroll_not_neg⟩, ⟨h.extent_number, h.extent_not_neg⟩⟩

theorem Coherent.item (h : l.Coherent) : Extent.isItemSize l.settings.itemExtent = true :=
  Extent.isItemSize_of_pos h.item_finite h.item_pos

theorem Coherent.window_eq_geometry (h : l.Coherent) :
    l.window = (l.geometry l.viewport).window := by
  rw [h.window_eq, windowFor, h.viewport.clamped_eq]

/-- Whatever was changed, bringing the window up to date restores the invariant. -/
theorem refresh_coherent (hv : l.viewport.IsClamped)
    (hi : Extent.isItemSize l.settings.itemExtent = true) : l.refresh.Coherent := by
  obtain ⟨hfin, hpos⟩ := Bool.and_eq_true_iff.mp hi
  have hwindow : l.refresh.window
      = l.refresh.windowFor l.refresh.viewport.scrollOffset l.refresh.viewport.extent :=
    congrArg (fun v => (l.geometry v).window) hv.clamped_eq.symm
  exact ⟨hwindow, Geometry.window_start_le_stop _, Geometry.window_stop_le_itemCount _,
    hv.1.1, hv.1.2, hv.2.1, hv.2.2, hfin, of_decide_eq_true hpos⟩

/-- The invariant does not speak of batches. -/
theorem Coherent.inBatch (h : l.Coherent) (depth : Nat) (pending : Bool) :
    (l.inBatch depth pending).Coherent :=
  ⟨h.1, h.2, h.3, h.4, h.5, h.6, h.7, h.8, h.9⟩

theorem Coherent.notify (h : l.Coherent) : l.notify.state.Coherent := by
  rw [notify_state]
  exact h.inBatch _ _

/-! ## One operation -/

theorem create_coherent {items : Array α} {settings : ListSettings ι}
    (h : create items settings = .ok l) : l.Coherent := by
  obtain ⟨_, hc, rfl⟩ := SettingError.passed_of_map_eq_ok h
  exact refresh_coherent (Viewport.isClamped_clamped _ _) (ListSettings.isItemSize_of_check hc)

theorem target?_isClamped {u : Update ι α} {v : Viewport} (h : l.target? u = some v) :
    v.IsClamped := by
  cases u <;> cases h <;> exact Viewport.isClamped_clamped _ _

theorem edit_viewport_isClamped (h : l.viewport.IsClamped) (u : Update ι α) :
    (l.edit u).viewport.IsClamped := by
  cases ht : l.target? u with
  | some v =>
      obtain ⟨-, -, -, hedit, -⟩ := apply_of_target ht
      rw [hedit]
      exact target?_isClamped ht
  | none => cases u <;> first | exact h | cases ht

/-- Settings only get into a list through the check. -/
theorem edit_isItemSize (h : Extent.isItemSize l.settings.itemExtent = true) {u : Update ι α}
    (hu : l.isEffective u = true) : Extent.isItemSize (l.edit u).settings.itemExtent = true := by
  cases u with
  | settings settings =>
      cases hc : settings.check with
      | error e => rw [isEffective, hc] at hu; cases hu
      | ok r => exact ListSettings.isItemSize_of_check hc
  | _ => exact h

theorem Coherent.apply (h : l.Coherent) (u : Update ι α) : (l.apply u).state.Coherent := by
  cases hu : l.isEffective u with
  | true =>
      have hedit : (l.edit u).refresh.Coherent :=
        refresh_coherent (edit_viewport_isClamped h.viewport u) (edit_isItemSize h.item hu)
      rw [(apply_of_effective hu).1]
      exact hedit.notify
  | false =>
      rw [(apply_of_ineffective hu).1]
      cases u with
      | listener f => exact ⟨h.1, h.2, h.3, h.4, h.5, h.6, h.7, h.8, h.9⟩
      | _ => exact h

theorem Coherent.closeBatch (h : l.Coherent) : l.closeBatch.state.Coherent := by
  rw [closeBatch_eq]
  split
  · exact h.inBatch _ _
  · exact h.inBatch _ _

/-! ## Reachable lists -/

/-- The lists that operations lead to, also while batches are open. -/
inductive Reachable : WindowedList ι α → Prop where
  | create {items : Array α} {settings : ListSettings ι} {l : WindowedList ι α} :
      create items settings = .ok l → Reachable l
  | apply {l : WindowedList ι α} (u : Update ι α) : Reachable l → Reachable (l.apply u).state
  | openBatch {l : WindowedList ι α} : Reachable l → Reachable l.openBatch
  | closeBatch {l : WindowedList ι α} : Reachable l → Reachable l.closeBatch.state

theorem Reachable.coherent (h : Reachable l) : l.Coherent := by
  induction h with
  | create hc => exact create_coherent hc
  | apply u _ ih => exact ih.apply u
  | openBatch _ ih => exact ih.inBatch _ _
  | closeBatch _ ih => exact ih.closeBatch

/-! ## Whole scripts -/

/-- The states that a script goes through, from the list it starts with to the one it
leaves, with those inside its batches. -/
def trail : Script ι α → WindowedList ι α → List (WindowedList ι α)
  | .nil, l => [l]
  | .update u rest, l => l :: trail rest (l.apply u).state
  | .batch body rest, l =>
    l :: (trail body l.openBatch ++ trail rest (l.batch (perform body)).state)

theorem mem_trail_self (s : Script ι α) (l : WindowedList ι α) : l ∈ trail s l := by
  cases s <;> exact List.mem_cons_self

theorem perform_state_mem_trail :
    ∀ (s : Script ι α) (l : WindowedList ι α), (perform s l).state ∈ trail s l
  | .nil, _ => List.mem_cons_self
  | .update _ rest, _ => List.mem_cons_of_mem _ (perform_state_mem_trail rest _)
  | .batch _ rest, _ =>
      List.mem_cons_of_mem _ (List.mem_append_right _ (perform_state_mem_trail rest _))

theorem Reachable.of_mem_trail :
    ∀ (s : Script ι α) {l : WindowedList ι α},
      Reachable l → ∀ m ∈ trail s l, Reachable m
  | .nil, l, h, m, hm => by
      rw [List.mem_singleton.mp hm]
      exact h
  | .update u rest, l, h, m, hm => by
      rcases List.mem_cons.mp hm with rfl | hm
      · exact h
      · exact of_mem_trail rest (h.apply u) m hm
  | .batch body rest, l, h, m, hm => by
      have hbody := of_mem_trail body h.openBatch
      have hclosed : Reachable (l.batch (perform body)).state :=
        (hbody _ (perform_state_mem_trail body l.openBatch)).closeBatch
      rcases List.mem_cons.mp hm with rfl | hm
      · exact h
      · rcases List.mem_append.mp hm with hm | hm
        · exact hbody m hm
        · exact of_mem_trail rest hclosed m hm

theorem argument_mem_trail :
    ∀ (s : Script ι α) (l : WindowedList ι α), ∀ c ∈ (perform s l).events, c.argument ∈ trail s l
  | .nil, _, _, hc => nomatch hc
  | .update u rest, l, c, hc => by
      refine List.mem_cons_of_mem _ ?_
      rcases List.mem_append.mp hc with hc | hc
      · rw [told_apply l u c hc]
        exact mem_trail_self rest _
      · exact argument_mem_trail rest _ c hc
  | .batch body rest, l, c, hc => by
      refine List.mem_cons_of_mem _ (List.mem_append.mpr ?_)
      rcases List.mem_append.mp hc with hc | hc
      · rcases List.mem_append.mp hc with hc | hc
        · exact Or.inl (argument_mem_trail body l.openBatch c hc)
        · refine Or.inr ?_
          rw [told_closeBatch _ c hc]
          exact mem_trail_self rest _
      · exact Or.inr (argument_mem_trail rest _ c hc)

/-- From its creation on, through every script, a list is coherent: in each state, between
the updates of a batch, at the end, and whenever a listener is told. -/
theorem coherent_throughout {items : Array α} {settings : ListSettings ι}
    (h : create items settings = .ok l) (s : Script ι α) :
    (∀ m ∈ trail s l, m.Coherent) ∧ (perform s l).state.Coherent
      ∧ ∀ c ∈ (perform s l).events, c.argument.Coherent := by
  have htrail : ∀ m ∈ trail s l, m.Coherent := fun m hm =>
    (Reachable.of_mem_trail s (Reachable.create h) m hm).coherent
  exact ⟨htrail, htrail _ (perform_state_mem_trail s l),
    fun c hc => htrail _ (argument_mem_trail s l c hc)⟩

theorem coherent_throughout_nested :
    ∃ (l : WindowedList Nat Nat) (s : Script Nat Nat),
      create #[0, 1, 2] { itemExtent := 10.0, viewportExtent := 15.0, listener := some 7 } = .ok l
      ∧ s = .update (.viewport (0.0 / 0.0) (-1.0))
          (.batch (.update (.scrollOffset 25.0) (.batch (.update (.items #[5]) .nil) .nil)) .nil)
      ∧ (∀ m ∈ trail s l, m.Coherent) ∧ (perform s l).state.Coherent
      ∧ ∀ c ∈ (perform s l).events, c.argument.Coherent := by
  have h : create #[0, 1, 2] { itemExtent := 10.0, viewportExtent := 15.0, listener := some 7 }
      = .ok (refresh
        { items := #[0, 1, 2]
          settings := { itemExtent := 10.0, viewportExtent := 15.0, listener := some 7 }
          viewport := Viewport.clamped 0.0 15.0
          window := .empty, batchDepth := 0, changePending := false }) := rfl
  exact ⟨_, _, h, rfl, coherent_throughout h _⟩

end WindowedList

end Windowing
