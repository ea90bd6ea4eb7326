import Mathlib
import Windowing.WindowedList.Update

/-!
# What an update does

An update is effective (`isEffective`) or not. An effective one writes something into the
list (`edit`), brings the window up to date and tells the listener, in this order
(`apply_of_effective`); another one leaves the list as it is, but for a new listener, and
tells nobody (`apply_of_ineffective`). What holds of every update is derived from these
two, so that the kinds of updates are told apart once. One example is that a listener is
always handed the list that the update leaves (`told_apply`).
-/

namespace Windowing

namespace WindowedList

variable {ι α ρ : Type} {l : WindowedList ι α} {u : Update ι α} {v : Viewport}

/-! ## Effective updates -/

/-- The viewport that an update moves to, if it is one that moves. -/
def target? (l : WindowedList ι α) : Update ι α → Option Viewport
  | .viewport s e => some (.clamped s e)
  | .scrollOffset s => some (.clamped s l.viewport.extent)
  | .viewportExtent e => some (.clamped l.viewport.scrollOffset e)
  | .restore v => some (.clamped v.scrollOffset v.extent)
  | .scrollTo index alignment => some (.clamped (l.scrollTarget index alignment) l.viewport.extent)
  | _ => none

/-- Whether an update is one to be told of: new items, settings that are accepted, another
overscan, another viewport. -/
def isEffective (l : WindowedList ι α) : Update ι α → Bool
  | .items _ => true
  | .settings settings => settings.check.isOk
  | .overscan count => l.settings.overscan != count
  | u => (l.target? u).any fun v => !(l.viewport == v)

/-- What an effective update writes. -/
def edit (l : WindowedList ι α) (u : Update ι α) : WindowedList ι α :=
  match u with
  | .items items => { l with items }
  | .settings settings => { l with settings }
  | .overscan overscan => { l with settings := { l.settings with overscan } }
  | u => { l with viewport := (l.target? u).getD l.viewport }

/-- What another update writes. -/
def keep (l : WindowedList ι α) : Update ι α → WindowedList ι α
  | .listener listener => l.setListener listener
  | _ => l

/-- All updates that move do so in the same way. -/
theorem apply_of_target (h : l.target? u = some v) :
    (l.apply u).state = (l.moveTo v).state ∧ (l.apply u).events = (l.moveTo v).events
      ∧ l.isEffective u = !(l.viewport == v) ∧ l.edit u = { l with viewport := v }
      ∧ l.keep u = l := by
  cases u <;> cases h <;> exact ⟨rfl, rfl, rfl, rfl, rfl⟩

theorem setSettings_of_refused {s : ListSettings ι} {e : SettingError} (h : s.check = .error e) :
    l.setSettings s = .quiet l (.error e) := by
  rw [setSettings, h]

theorem setSettings_of_accepted {s : ListSettings ι} (h : s.check = .ok ()) :
    l.setSettings s = (refresh { l with settings := s }).notify.map .ok := by
  rw [setSettings, h]

theorem apply_of_effective (h : l.isEffective u = true) :
    (l.apply u).state = (l.edit u).refresh.notify.state
      ∧ (l.apply u).events = (l.edit u).refresh.notify.events := by
  cases ht : l.target? u with
  | some v =>
      obtain ⟨hstate, hevents, heff, hedit, -⟩ := apply_of_target ht
      rw [heff, Bool.not_eq_true'] at h
      rw [hstate, hevents, hedit, moveTo, h]
      exact ⟨rfl, rfl⟩
  | none =>
      cases u with
      | items items => exact ⟨rfl, rfl⟩
      | overscan n =>
          have hne : ¬ l.settings.overscan = n := bne_iff_ne.mp h
          have hset : l.setOverscan n = (l.edit (.overscan n)).refresh.notify := if_neg hne
          exact ⟨congrArg Step.state hset, congrArg Step.events hset⟩
      | settings settings =>
          have hset : l.setSettings settings
              = (l.edit (.settings settings)).refresh.notify.map .ok := by
            cases hc : settings.check with
            | error e => rw [isEffective, hc] at h; cases h
            | ok r => exact setSettings_of_accepted hc
          exact ⟨congrArg Step.state hset, congrArg Step.events hset⟩
      | listener f => cases h
      | _ => cases ht

theorem apply_of_ineffective (h : l.isEffective u = false) :
    (l.apply u).state = l.keep u ∧ (l.apply u).events = [] := by
  cases ht : l.target? u with
  | some v =>
      obtain ⟨hstate, hevents, heff, -, hkeep⟩ := apply_of_target ht
      rw [heff, Bool.not_eq_false'] at h
      rw [hstate, hevents, hkeep, moveTo, h]
      exact ⟨rfl, rfl⟩
  | none =>
      cases u with
      | items items => cases h
      | overscan n =>
          have heq : l.settings.overscan = n := bne_eq_false_iff_eq.mp h
          have hset : l.setOverscan n = .quiet l () := if_pos heq
          exact ⟨congrArg Step.state hset, congrArg Step.events hset⟩
      | settings settings =>
          cases hc : settings.check with
          | error e =>
              have hset := setSettings_of_refused (l := l) hc
              exact ⟨congrArg Step.state hset, congrArg Step.events hset⟩
          | ok r => rw [isEffective, hc] at h; cases h
      | listener f => exact ⟨rfl, rfl⟩
      | _ => cases ht

/-! ## The record of batches -/

/-- The same list with another record of the batches around it. -/
def inBatch (l : WindowedList ι α) (depth : Nat) (pending : Bool) : WindowedList ι α :=
  { l with batchDepth := depth, changePending := pending }

theorem notify_state (l : WindowedList ι α) :
    l.notify.state = l.inBatch l.batchDepth (l.changePending || decide (0 < l.batchDepth)) := by
  unfold notify
  split
  · rename_i h
    rw [decide_eq_true h, Bool.or_true]
    rfl
  · rename_i h
    rw [decide_eq_false h, Bool.or_false]
    rfl

theorem notify_events_of_depth_pos (h : 0 < l.batchDepth) : l.notify.events = [] := by
  rw [notify, if_pos h]
  rfl

theorem closeBatch_eq (l : WindowedList ι α) :
    l.closeBatch =
      if l.batchDepth - 1 = 0 ∧ l.changePending = true then
        ⟨l.inBatch (l.batchDepth - 1) false, (l.inBatch (l.batchDepth - 1) false).announce, ()⟩
      else
        .quiet (l.inBatch (l.batchDepth - 1) l.changePending) () := rfl

/-! ## What a listener is handed -/

/-- Whoever is told during a step is handed the list that the step leaves. -/
def Told (t : ListStep ι α ρ) : Prop := ∀ c ∈ t.events, c.argument = t.state

theorem told_announce (l : WindowedList ι α) (r : ρ) : Told ⟨l, l.announce, r⟩ := by
  intro c hc
  unfold announce Call.deliver at hc
  simp only at hc
  split at hc
  · cases hc
  · rw [List.mem_singleton.mp hc]

theorem told_quiet (l : WindowedList ι α) (r : ρ) : Told (.quiet l r) := by
  intro c hc
  cases hc

theorem told_notify (l : WindowedList ι α) : Told l.notify := by
  unfold notify
  split
  · exact told_quiet _ ()
  · exact told_announce l ()

theorem told_apply (l : WindowedList ι α) (u : Update ι α) : Told (l.apply u) := by
  intro c hc
  cases he : l.isEffective u with
  | true =>
      obtain ⟨hstate, hevents⟩ := apply_of_effective he
      rw [hevents] at hc
      rw [hstate]
      exact told_notify _ c hc
  | false =>
      rw [(apply_of_ineffective he).2] at hc
      cases hc

theorem told_closeBatch (l : WindowedList ι α) : Told l.closeBatch := by
  rw [closeBatch_eq]
  split
  · exact told_announce _ ()
  · exact told_quiet _ ()

end WindowedList

end Windowing
