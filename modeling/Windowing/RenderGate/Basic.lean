import Windowing.Count
import Windowing.Step
import Windowing.Text.Record

/-!
# Render gates

A render gate decides whether something has to be rendered again. It keeps the
dependencies of the last rendering and lets a rendering pass when the present ones
differ from those. A query that does not pass leaves no trace, so small differences
cannot add up unnoticed.
-/

namespace Windowing

structure RenderGate (δ : Type) where
  /-- What the last rendering depended on, unless it was invalidated since. -/
  last : Option δ := none
  /-- Tells whether the last dependencies (first) and the present ones (second) are the
  same. Without it they are compared with `==`. -/
  same : Option (δ → δ → Bool) := none
  /-- How many renderings have passed. -/
  renders : Nat := 0

namespace RenderGate

variable {δ : Type}

/-- Whether the gate sees no difference between two dependencies. -/
def agrees [BEq δ] (g : RenderGate δ) (last deps : δ) : Bool :=
  match g.same with
  | some same => same last deps
  | none => last == deps

/-- Whether a query would be turned away. -/
def isCurrent [BEq δ] (g : RenderGate δ) (deps : δ) : Bool := g.last.any (g.agrees · deps)

/-- Asks whether to render, and notes the dependencies if so. Nobody is told. -/
def query [BEq δ] (g : RenderGate δ) (deps : δ) : Step (RenderGate δ) Empty Bool :=
  if g.isCurrent deps then .quiet g false
  else .quiet { g with last := some deps, renders := Count.add g.renders 1 } true

/-- Lets the next query pass, whatever it depends on. -/
def invalidate (g : RenderGate δ) : RenderGate δ := { g with last := none }

/-- What a gate is asked to do. -/
inductive Request (δ : Type) where
  | query (deps : δ)
  | invalidate

/-- Handles a request and answers whether something is to be rendered now. -/
def apply [BEq δ] (g : RenderGate δ) : Request δ → Step (RenderGate δ) Empty Bool
  | .query deps => g.query deps
  | .invalidate => .quiet g.invalidate false

def describe (describeDeps : δ → String) (g : RenderGate δ) : String :=
  Text.record "RenderMemo"
    [("last", Text.option (g.last.map describeDeps)), ("renders", toString g.renders)]
    true

end RenderGate

end Windowing
