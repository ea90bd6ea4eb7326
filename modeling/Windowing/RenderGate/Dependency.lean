import Windowing.Decimal.Style
import Windowing.Text.Record

/-!
# Dependencies

Values that a rendering depends on: numbers and texts, in lists. Numbers are compared as
numbers, so one that is no number differs from itself, and a list that holds it is never
current.
-/

namespace Windowing

inductive Dependency where
  | number (x : Float)
  | text (s : String)

namespace Dependency

/-- A number is never the same as a text. -/
instance : BEq Dependency where
  beq
    | number x, number y => x == y
    | text s, text t => s == t
    | _, _ => false

def describe : Dependency → String
  | number x => Text.tagged "F" (NumberStyle.record.write x)
  | text s => Text.tagged "S" (Text.quoted s)

/-- Ways of comparing lists of dependencies other than item by item. -/
inductive Comparison where
  /-- Only the first items count; two empty lists are the same. -/
  | first
  /-- Only the lengths count. -/
  | length
  /-- The later list is the same when it is not shorter. -/
  | noShorter
  | always
  | never

/-- Whether a list and a later one count as the same. -/
def Comparison.same : Comparison → List Dependency → List Dependency → Bool
  | first, last, deps => last.head? == deps.head?
  | length, last, deps => last.length == deps.length
  | noShorter, last, deps => last.length ≤ deps.length
  | always, _, _ => true
  | never, _, _ => false

end Dependency

end Windowing
