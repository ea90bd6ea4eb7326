/-!
# Counts

Items, overscan, frames and milliseconds are natural numbers with a ceiling,
`Count.limit`: a sum that would pass it stays there, and a difference that would fall
below zero is zero, which is what subtraction on `Nat` already does. Where a count meets
a length it becomes the nearest float (`Count.toFloat`).
-/

namespace Windowing

namespace Count

/-- The largest count that fits a word. Sums stay at it instead of wrapping round. -/
def limit : Nat := UInt64.size - 1

/-- The sum of two counts, held at the limit. -/
def add (a b : Nat) : Nat := min (a + b) limit

/-- The float nearest to a count; of two equally near ones, the one with an
even mantissa. -/
def toFloat (n : Nat) : Float := Float.ofModel (Float.Model.ofNat n)

theorem add_le_limit (a b : Nat) : add a b ≤ limit := Nat.min_le_right ..

theorem add_of_le {a b : Nat} (h : a + b ≤ limit) : add a b = a + b := Nat.min_eq_left h

theorem le_add_left {a b : Nat} (h : a ≤ limit) : a ≤ add a b :=
  Nat.le_min.mpr ⟨Nat.le_add_right a b, h⟩

theorem add_mono_left {a b : Nat} (h : a ≤ b) (c : Nat) : add a c ≤ add b c := by
  simp only [add]
  omega

end Count

end Windowing
