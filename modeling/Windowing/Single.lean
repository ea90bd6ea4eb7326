/-!
# Single precision

Visible fractions and thresholds are kept as single-precision numbers.
-/

namespace Windowing

/-- The single-precision number nearest to `x`, ties going to the even mantissa: the
exact value of `x` is rounded once. Values too large become infinite, values too small
become zero, and the sign stays. -/
def roundToSingle (x : Float) : Float32 :=
  Float32.ofModel <| Float32.Model.pack <|
    match x.toModel.unpack with
    | .finite sign mantissa exponent _ =>
      Float.Model.UnpackedFloat.round .binary32 sign mantissa exponent
    | special => special

end Windowing
