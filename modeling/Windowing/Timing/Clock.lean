import Windowing.Count

/-!
# Clocks

A clock that is set and advanced by hand, in milliseconds. It may be set back; advancing
stops at the largest count.
-/

namespace Windowing

structure Clock where
  now : Nat := 0

namespace Clock

def set (_ : Clock) (now : Nat) : Clock := ⟨now⟩

def advance (c : Clock) (elapsed : Nat) : Clock := ⟨Count.add c.now elapsed⟩

end Clock

end Windowing
