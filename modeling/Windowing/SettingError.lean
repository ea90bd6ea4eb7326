import Windowing.Decimal.Style

/-!
# Refused settings

Settings are checked where they come in, so that nothing that happens later can fail.
Each constructor holds the value that was refused.
-/

namespace Windowing

inductive SettingError where
  /-- Items need a finite size above zero. -/
  | itemExtent (got : Float)
  /-- A viewport has a finite size, at least zero. -/
  | viewportExtent (got : Float)
  /-- A threshold is a fraction of the region. -/
  | threshold (got : Float32)
  /-- A margin may be negative but not infinite. -/
  | triggerMargin (got : Float)
  /-- A sampling cycle has to last. -/
  | zeroSamplingWindow

namespace SettingError

/-- The sentence shown to whoever supplied the setting. -/
def message : SettingError → String
  | itemExtent got =>
    "item extent must be a finite positive number (got " ++ NumberStyle.prose.write got ++ ")"
  | viewportExtent got =>
    "viewport extent must be a finite non-negative number (got "
      ++ NumberStyle.prose.write got ++ ")"
  | threshold got =>
    "visibility threshold must lie within [0, 1] (got "
      ++ NumberStyle.prose.writeSingle got ++ ")"
  | triggerMargin got =>
    "trigger margin must be finite (got " ++ NumberStyle.prose.write got ++ ")"
  | zeroSamplingWindow => "sampling window must be at least 1 ms"

/-- What is built from checked settings is built only if they pass the check. -/
theorem passed_of_map_eq_ok {α β : Type} {check : Except SettingError α} {build : α → β} {b : β}
    (h : check.map build = .ok b) : ∃ a, check = .ok a ∧ build a = b := by
  cases check with
  | error e => cases h
  | ok a => exact ⟨a, rfl, Except.ok.inj h⟩

end SettingError

end Windowing
