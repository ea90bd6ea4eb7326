import Mathlib

/-!
# The layout of a float

A float is a word of 64 bits, and its operations first take the word apart: into a sign,
a mantissa and an exponent, or into one of the special values. `Binary.parts` is that
reading and `Binary.ofParts` writes the word again. The two are inverse to each other on
everything a word can hold (`ofParts_parts`, `parts_ofParts`), so facts about operations
can be proved on the parts. A number whose exponent does not fit is written as infinity
(`parts_ofParts_of_overflow`).

In between stand the three bit fields of a word. `Binary.ofFields` says what they mean,
and both directions are read off it.
-/

namespace Windowing

namespace Binary

open Float.Model Float.Model.UnpackedFloat

/-! ## The fields of a word -/

theorem bias_eq : Format.binary64.exponentBias = 1023 := rfl

theorem mantissaBits_eq : Format.binary64.mantissaBits = 53 := rfl

/-- What a sign, an exponent field and a mantissa field mean together: the largest
exponent is kept for infinities and for what is no number, the smallest for zeros and for
mantissas without the implicit leading bit. -/
def ofFields (s : Sign) (ev : BitVec 11) (mv : BitVec 52) : UnpackedFloat :=
  if ev = -1#11 then
    if mv = 0#52 then .infinity s else .notANumber
  else if ev = 0#11 then
    if h : mv = 0#52 then .zero s
    else .finite s mv.toNat (-1074) (by simpa [BitVec.toNat_pos, BitVec.pos_iff_ne_zero])
  else .finite s (2 ^ 52 + mv.toNat) (ev.toNat - 1075) (by omega)

theorem toNat_implicit_append (mv : BitVec 52) : (1#1 ++ mv).toNat = 2 ^ 52 + mv.toNat := by
  rw [BitVec.toNat_append, ← Nat.shiftLeft_add_eq_or_of_lt mv.isLt]
  rfl

theorem unpack_packComponents (s : Sign) (ev : BitVec 11) (mv : BitVec 52) :
    UnpackedFloat.unpack .binary64 (packComponents .binary64 s ev mv) = ofFields s ev mv := by
  simp only [UnpackedFloat.unpack, ofFields, unpackExponent_packComponents,
    unpackMantissa_packComponents, unpackSign_packComponents, Sign.ofBitVec_toBitVec,
    toNat_implicit_append, bias_eq]
  split
  · rfl
  · split
    · rename_i h
      subst h
      split <;> simp_all
    · simp

/-! ## Writing a number -/

theorem biased_eq (e : Int) :
    (e + Format.binary64.exponentBias + Format.binary64.mantissaBitsWithoutImplicit).toNat
      = (e + 1075).toNat := by
  show (e + (1023 : Nat) + (52 : Nat)).toNat = _
  omega

theorem pack_normal {s : Sign} {m : Nat} {e : Int} {h : 0 < m} (hlo : 2 ^ 52 ≤ m)
    (hhi : m < 2 ^ 53) (heu : e ≤ 971) :
    UnpackedFloat.pack .binary64 (.finite s m e h)
      = packComponents .binary64 s (BitVec.ofNat 11 (e + 1075).toNat) (BitVec.ofNat 52 m) := by
  have hlog : m.log2 = 52 := (Nat.log2_eq_iff (by omega)).mpr ⟨hlo, hhi⟩
  have hb : ¬2 ^ Format.binary64.exponentBits ≤ (e + 1075).toNat + 1 := by
    show ¬2 ^ 11 ≤ (e + 1075).toNat + 1
    omega
  rw [UnpackedFloat.pack, biased_eq, if_neg hb, if_pos (by rw [hlog]; rfl)]

theorem pack_subnormal {s : Sign} {m : Nat} {h : 0 < m} (hm : m < 2 ^ 52) :
    UnpackedFloat.pack .binary64 (.finite s m (-1074) h)
      = packComponents .binary64 s 0#11 (BitVec.ofNat 52 m) := by
  have hlog : m.log2 < 52 := (Nat.log2_lt (by omega)).mpr hm
  rw [UnpackedFloat.pack, biased_eq, if_neg (by decide),
    if_neg (by rw [mantissaBits_eq]; omega)]

theorem pack_overflow {s : Sign} {m : Nat} {e : Int} {h : 0 < m} (he : 971 < e) :
    UnpackedFloat.pack .binary64 (.finite s m e h) = packedInfinity .binary64 s := by
  have hb : 2 ^ Format.binary64.exponentBits ≤ (e + 1075).toNat + 1 := by
    show 2 ^ 11 ≤ (e + 1075).toNat + 1
    omega
  rw [UnpackedFloat.pack, biased_eq, if_pos hb]

/-! ## Canonical parts -/

/-- A mantissa and an exponent as the operations leave them: the mantissa has 53 digits,
or fewer at the smallest exponent. Nothing is said about the largest exponent. -/
def Canonical : UnpackedFloat → Prop
  | .finite _ m e _ => m < 2 ^ 53 ∧ -1074 ≤ e ∧ (2 ^ 52 ≤ m ∨ e = -1074)
  | _ => True

/-- The exponent fits into its field. -/
def InRange : UnpackedFloat → Prop
  | .finite _ _ e _ => e ≤ 971
  | _ => True

theorem canonical_ofFields (s : Sign) (ev : BitVec 11) (mv : BitVec 52) :
    Canonical (ofFields s ev mv) ∧ InRange (ofFields s ev mv) := by
  have hm := mv.isLt
  have he := ev.isLt
  unfold ofFields
  split
  · split <;> exact ⟨trivial, trivial⟩
  · rename_i hi
    have hi' : ev.toNat ≠ 2047 := BitVec.toNat_ne.mp hi
    split
    · split
      · exact ⟨trivial, trivial⟩
      · exact ⟨⟨by omega, by omega, Or.inr rfl⟩, show (-1074 : Int) ≤ 971 by decide⟩
    · rename_i hz
      have hz' : ev.toNat ≠ 0 := BitVec.toNat_ne.mp hz
      refine ⟨⟨by omega, by omega, Or.inl (by omega)⟩, ?_⟩
      simp only [InRange]
      omega

theorem unpack_pack {u : UnpackedFloat} (hc : Canonical u) (hr : InRange u) :
    UnpackedFloat.unpack .binary64 (UnpackedFloat.pack .binary64 u) = u := by
  cases u with
  | notANumber => rfl
  | infinity s => cases s <;> rfl
  | zero s => cases s <;> rfl
  | finite s m e h =>
      obtain ⟨hm, he, hn⟩ := hc
      simp only [InRange] at hr
      by_cases hlo : 2 ^ 52 ≤ m
      · -- The exponent field is neither the largest nor the smallest value.
        have hev : (BitVec.ofNat 11 (e + 1075).toNat).toNat = (e + 1075).toNat := by
          rw [BitVec.toNat_ofNat, Nat.mod_eq_of_lt (by omega)]
        have hi : BitVec.ofNat 11 (e + 1075).toNat ≠ -1#11 := fun hn => by
          have h2047 : (e + 1075).toNat = 2047 := by rw [← hev, hn]; rfl
          omega
        have hz : BitVec.ofNat 11 (e + 1075).toNat ≠ 0#11 := fun hn => by
          have h0 : (e + 1075).toNat = 0 := by rw [← hev, hn]; rfl
          omega
        rw [pack_normal hlo hm hr, unpack_packComponents, ofFields, if_neg hi, if_neg hz]
        congr 1
        · rw [BitVec.toNat_ofNat]
          omega
        · rw [hev]
          omega
      · -- Without an implicit bit, only the smallest exponent is left.
        obtain rfl := hn.resolve_left hlo
        have hmv : (BitVec.ofNat 52 m).toNat = m := by
          rw [BitVec.toNat_ofNat, Nat.mod_eq_of_lt (by omega)]
        have hz : BitVec.ofNat 52 m ≠ 0#52 := fun hn => by
          have h0 : m = 0 := by rw [← hmv, hn]; rfl
          omega
        rw [pack_subnormal (by omega), unpack_packComponents, ofFields, if_neg (by decide),
          if_pos rfl, dif_neg hz]
        congr 1

/-! ## Floats and their parts -/

def parts (x : Float) : UnpackedFloat := x.toModel.unpack

def ofParts (u : UnpackedFloat) : Float := .ofModel (.pack u)

theorem canonical_parts (x : Float) : Canonical (parts x) ∧ InRange (parts x) := by
  rw [parts, Float.Model.unpack,
    ← @packComponents_unpackSign_unpackExponent_unpackMantissa .binary64
      x.toModel.toBits.toBitVec,
    unpack_packComponents]
  exact canonical_ofFields ..

theorem parts_ofParts {u : UnpackedFloat} (hc : Canonical u) (hr : InRange u) :
    parts (ofParts u) = u :=
  unpack_pack hc hr

theorem parts_ofParts_of_overflow {s : Sign} {m : Nat} {e : Int} {h : 0 < m} (he : 971 < e) :
    parts (ofParts (.finite s m e h)) = .infinity s := by
  show UnpackedFloat.unpack .binary64 (UnpackedFloat.pack .binary64 (.finite s m e h)) = _
  rw [pack_overflow he]
  cases s <;> rfl

theorem ofParts_parts (x : Float) : ofParts (parts x) = x := by
  obtain ⟨⟨bits, hv⟩⟩ := x
  simp only [parts, ofParts, Float.Model.pack, Float.Model.unpack, pack_unpack_of_valid hv]

theorem parts_injective {x y : Float} (h : parts x = parts y) : x = y := by
  rw [← ofParts_parts x, ← ofParts_parts y, h]

end Binary

end Windowing
