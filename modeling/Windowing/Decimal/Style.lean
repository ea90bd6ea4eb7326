import Windowing.Decimal.Shortest

/-!
# Written numbers

Numbers are written in full, never with an exponent, with the digits of the shortest
decimal that reads back to them. What is left to choose is how a whole number looks, and
that is a `NumberStyle`.
-/

namespace Windowing

/-- How a number is written. -/
structure NumberStyle where
  /-- Whether a whole number keeps a point and one zero. -/
  keepsPoint : Bool

namespace NumberStyle

/-- In sentences a whole number has no point. -/
def prose : NumberStyle := ⟨false⟩

/-- In records a float is told from a count by its point. -/
def record : NumberStyle := ⟨true⟩

/-- The digits after the point of `rest / 10 ^ places`, without zeros at the end. -/
def fractionDigits (rest places : Nat) : List Char :=
  let digits := Nat.toDigits 10 rest
  let padded := List.replicate (places - digits.length) '0' ++ digits
  (padded.reverse.dropWhile (· == '0')).reverse

/-- A decimal that is not negative, in full. -/
def writeDecimal (style : NumberStyle) (d : Decimal) : String :=
  let places := (-d.exponent).toNat
  let scaled := d.digits * Decimal.ten d.exponent.toNat
  let whole := toString (scaled / Decimal.ten places)
  match fractionDigits (scaled % Decimal.ten places) places with
  | [] => if style.keepsPoint then whole ++ ".0" else whole
  | fraction => whole ++ "." ++ String.ofList fraction

def signText : Float.Model.UnpackedFloat.Sign → String
  | .positive => ""
  | .negative => "-"

/-- A float of any format, taken apart. The sign is written also before a zero; a value
that is no number has none. -/
def writeUnpacked (style : NumberStyle) (format : Float.Model.Format) :
    Float.Model.UnpackedFloat → String
  | .notANumber => "NaN"
  | .infinity sign => signText sign ++ "inf"
  | .zero sign => signText sign ++ style.writeDecimal ⟨0, 0⟩
  | .finite sign mantissa exponent _ =>
    signText sign ++ style.writeDecimal (Decimal.shortest format mantissa exponent)

def write (style : NumberStyle) (x : Float) : String :=
  style.writeUnpacked .binary64 x.toModel.unpack

def writeSingle (style : NumberStyle) (x : Float32) : String :=
  style.writeUnpacked .binary32 x.toModel.unpack

end NumberStyle

end Windowing
