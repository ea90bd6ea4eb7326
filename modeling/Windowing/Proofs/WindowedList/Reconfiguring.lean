import Windowing.Proofs.WindowedList.Moving

/-!
# New settings

Settings may be replaced while a list is in use, also inside a batch. They go through the check that
creation puts them through, before anything is written. So a list refuses what could not have
been created, for the same reason, and is then as it was (`setSettings_of_refused`). What it
accepts it takes over without its viewport: the size and the initial offset in the new settings
are for lists to be created. The window is the one of a list that is created with the new settings
and then brought to the old viewport (`setSettings_like_create`), wherever the two lists have been
before.
-/

namespace Windowing

namespace WindowedList

variable {ι α : Type} {l : WindowedList ι α} {s : ListSettings ι} {items : Array α}

/-! ## The check -/

theorem setSettings_result (l : WindowedList ι α) (s : ListSettings ι) :
    (l.setSettings s).result = s.check := by
  cases hc : s.check with
  | error e => rw [setSettings_of_refused hc, Step.quiet_result]
  | ok r => rw [setSettings_of_accepted hc, Step.map_result]

theorem create_eq_error_iff {e : SettingError} :
    create items s = .error e ↔ s.check = .error e := by
  cases hc : s.check <;> simp [create, hc, Except.map]

theorem create_of_accepted (items : Array α) (h : s.check = .ok ()) :
    ∃ fresh : WindowedList ι α, create items s = .ok fresh
      ∧ fresh.items = items ∧ fresh.settings = s := by
  rw [create, h]
  exact ⟨_, rfl, rfl, rfl⟩

/-! ## Accepted settings -/

theorem setSettings_kept (h : s.check = .ok ()) :
    (l.setSettings s).state.settings = s
      ∧ (l.setSettings s).state.items = l.items
      ∧ (l.setSettings s).state.viewport = l.viewport := by
  rw [setSettings_of_accepted h, Step.map_state, notify_state]
  exact ⟨rfl, rfl, rfl⟩

/-- The list `m` is the list `l` under other settings: the settings are exchanged, items and
viewport are as before, and what is shown is what a list shows that is created for the same items
and moved to the same viewport. -/
structure Reconfigured (l m : WindowedList ι α) (s : ListSettings ι) : Prop where
  settings_eq : m.settings = s
  items_eq : m.items = l.items
  viewport_eq : m.viewport = l.viewport
  like_fresh : ∃ fresh : WindowedList ι α, create l.items s = .ok fresh
    ∧ m.window = (fresh.restore l.viewport).state.window
    ∧ m.placementOffset = (fresh.restore l.viewport).state.placementOffset
    ∧ m.totalExtent = (fresh.restore l.viewport).state.totalExtent

theorem Coherent.reconfigured (h : l.Coherent) (hs : s.check = .ok ()) :
    Reconfigured l (l.setSettings s).state s := by
  obtain ⟨hsettings, hitems, hview⟩ := setSettings_kept (l := l) hs
  obtain ⟨fresh, hcreate, hfitems, hfsettings⟩ := create_of_accepted l.items hs
  have hstate : (l.setSettings s).state.Coherent := h.apply (.settings s)
  have hfresh : (fresh.restore l.viewport).state.Coherent :=
    (create_coherent hcreate).apply (.restore l.viewport)
  have hitems' : (fresh.restore l.viewport).state.items = l.items :=
    (moveTo_items fresh _).trans hfitems
  have hsettings' : (fresh.restore l.viewport).state.settings = s :=
    (moveTo_settings fresh _).trans hfsettings
  have hsame : ShowsSame (fresh.restore l.viewport).state (l.setSettings s).state := by
    refine showsSame_of_viewport hfresh hstate ?_ ?_ ?_ ?_
    · rw [hitems', hitems]
    · rw [hsettings', hsettings]
    · rw [hsettings', hsettings]
    · rw [hview]
      exact h.restore_viewport_beq fresh
  refine ⟨hsettings, hitems, hview, fresh, hcreate, hsame.window_eq.symm,
    hsame.placementOffset_eq.symm, ?_⟩
  rw [totalExtent, totalExtent, offsetOf, offsetOf, hsettings, hsettings', hitems, hitems']

/-- Settings are refused where no list could be created with them, with the same error, and then
nothing is written and nobody told. Accepted ones give the list that would have been created with
them, at the viewport that the list already has. -/
theorem setSettings_like_create (h : Reachable l) (s : ListSettings ι) :
    (∀ (items : Array α) (e : SettingError),
        (l.setSettings s).result = .error e ↔ create items s = .error e)
      ∧ (∀ e, (l.setSettings s).result = .error e →
        (l.setSettings s).state = l ∧ (l.setSettings s).events = [])
      ∧ ((l.setSettings s).result = .ok () → Reconfigured l (l.setSettings s).state s) := by
  refine ⟨?_, ?_, ?_⟩
  · intro items e
    rw [setSettings_result, create_eq_error_iff]
  · intro e he
    rw [setSettings_result] at he
    rw [setSettings_of_refused he]
    exact ⟨rfl, rfl⟩
  · intro hok
    rw [setSettings_result] at hok
    exact h.coherent.reconfigured hok

/-- Inside a batch and after scrolling: settings with two faults, and settings whose own viewport
and offset would lead elsewhere. -/
theorem setSettings_like_create_scrolled :
    ∃ l m : WindowedList Nat Nat,
      create #[0, 1, 2] { itemExtent := 10.0, viewportExtent := 15.0, listener := some 7 } = .ok m
      ∧ l = (m.openBatch.apply (.scrollOffset 20.0)).state ∧ Reachable l
      ∧ (∃ faulty : ListSettings Nat,
        faulty = { itemExtent := 0.0 / 0.0, viewportExtent := -1.0, listener := some 8 }
          ∧ (l.setSettings faulty).result = .error (.itemExtent (0.0 / 0.0))
          ∧ (l.setSettings faulty).state = l ∧ (l.setSettings faulty).events = [])
      ∧ ∃ sound : ListSettings Nat,
        sound = { itemExtent := 4.0, viewportExtent := 100.0, overscan := 0, initialOffset := 8.0 }
          ∧ (l.setSettings sound).result = .ok ()
          ∧ (l.setSettings sound).state.viewport.scrollOffset = 20.0
          ∧ Reconfigured l (l.setSettings sound).state sound := by
  have h : create #[0, 1, 2] { itemExtent := 10.0, viewportExtent := 15.0, listener := some 7 }
      = .ok (_ : WindowedList Nat Nat) := rfl
  have hl := (Reachable.create h).openBatch.apply (.scrollOffset 20.0)
  have hrefused := (setSettings_like_create hl
    { itemExtent := 0.0 / 0.0, viewportExtent := -1.0, listener := some 8 }).2.1
  have haccepted := (setSettings_like_create hl
    { itemExtent := 4.0, viewportExtent := 100.0, overscan := 0, initialOffset := 8.0 }).2.2
  exact ⟨_, _, h, rfl, hl, ⟨_, rfl, rfl, hrefused _ rfl⟩, _, rfl, rfl, by decide +kernel,
    haccepted rfl⟩

end WindowedList

end Windowing
