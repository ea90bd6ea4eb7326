/-!
# Windows

A window is the contiguous run of indexes that is rendered: `start` is in it, `stop` is
not. Nothing forces `start ≤ stop`; a window whose ends are crossed is empty.
-/

namespace Windowing

/-- A run of indexes, from `start` up to but not including `stop`. -/
structure Window where
  start : Nat
  stop : Nat
  deriving DecidableEq, Inhabited

namespace Window

/-- The window at the beginning with nothing in it. -/
def empty : Window := ⟨0, 0⟩

def isEmpty (w : Window) : Bool := w.stop ≤ w.start

def length (w : Window) : Nat := w.stop - w.start

def contains (w : Window) (i : Nat) : Bool := w.start ≤ i && i < w.stop

/-- The indexes of the window, in ascending order. -/
def indexes (w : Window) : List Nat := List.range' w.start w.length

theorem contains_iff {w : Window} {i : Nat} :
    w.contains i = true ↔ w.start ≤ i ∧ i < w.stop := by
  simp only [contains, Bool.and_eq_true, decide_eq_true_eq]

theorem length_indexes (w : Window) : w.indexes.length = w.length :=
  List.length_range'

theorem mem_indexes {w : Window} {i : Nat} : i ∈ w.indexes ↔ w.contains i = true := by
  simp only [indexes, length, contains_iff, List.mem_range'_1]
  omega

end Window

end Windowing
