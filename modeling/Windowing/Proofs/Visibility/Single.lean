import Windowing.Single
import Windowing.Proofs.Extent.Grid
import Windowing.Proofs.Extent.Monotone

/-!
# Fractions in single precision

A number from zero to one stays in this range when it is rounded to single precision
(`isUnit_roundToSingle`), and what is no number stays none (`isNaN_roundToSingle`). One is a
single-precision number itself. Below one a float has no digit before the point, so its 24 digits
begin behind the point and the last of them has an exponent of at most `-24`; rounding can carry
them up to one, but not past it (`round_of_small`). Packing into a word keeps the exponent
(`unpack_pack_of_small`). A number that is not below another one is at least that
(`single_not_lt_iff`); what is no number is neither.
-/

namespace Windowing

namespace Binary

open Float.Model Float.Model.UnpackedFloat

def singleParts (x : Float32) : UnpackedFloat := x.toModel.unpack

/-- Parts of a single-precision number from zero to one, as the operations leave them: all digits
are behind the point, or it is the one. -/
def UnitParts : UnpackedFloat → Prop
  | .zero _ => True
  | .finite .positive m e _ => e ≤ -24 ∨ (m = 2 ^ 23 ∧ e = -23)
  | _ => False

variable {m : ℕ} {e : ℤ} {x : Float} {u : UnpackedFloat}

/-! ## Comparing -/

theorem compare_swap (u v : UnpackedFloat) : v.compare u = (u.compare v).map Ordering.swap := by
  cases u with
  | notANumber => cases v <;> rfl
  | infinity s =>
      cases v with
      | infinity t => cases s <;> cases t <;> rfl
      | _ => cases s <;> rfl
  | zero s =>
      cases v with
      | infinity t => cases t <;> rfl
      | finite t n f hn => cases t <;> rfl
      | _ => rfl
  | finite s m e hm =>
      cases v with
      | infinity t => cases s <;> cases t <;> rfl
      | finite t n f hn =>
          have hmagnitude : (compare f e).then (compare n m)
              = ((compare e f).then (compare m n)).swap := by
            rw [Ordering.swap_then, Int.compare_swap, Nat.compare_swap]
          cases s <;> cases t
          case negative.negative => exact congrArg (fun o => some o.swap) hmagnitude
          case negative.positive => rfl
          case positive.negative => rfl
          case positive.positive => exact congrArg some hmagnitude
      | _ => cases s <;> rfl

theorem exists_compare {u v : UnpackedFloat} (hu : u.isNaN = false) (hv : v.isNaN = false) :
    ∃ o, u.compare v = some o := by
  cases u with
  | notANumber => cases hu
  | infinity s =>
      cases v with
      | notANumber => cases hv
      | infinity t => exact ⟨_, rfl⟩
      | _ => cases s <;> exact ⟨_, rfl⟩
  | zero s =>
      cases v with
      | notANumber => cases hv
      | zero t => exact ⟨_, rfl⟩
      | _ t => cases t <;> exact ⟨_, rfl⟩
  | finite s m e hm =>
      cases v with
      | notANumber => cases hv
      | zero t => cases s <;> exact ⟨_, rfl⟩
      | _ t => cases s <;> cases t <;> exact ⟨_, rfl⟩

theorem single_lt_iff {x y : Float32} :
    x < y ↔ (singleParts x).compare (singleParts y) = some .lt := by
  show decide (((singleParts x).compare (singleParts y) == some .lt) = true) = true ↔ _
  rw [decide_eq_true_iff, beq_iff_eq]

theorem single_le_iff {x y : Float32} :
    x ≤ y ↔ ((singleParts x).compare (singleParts y)).any (·.isLE) = true := by
  show decide (((singleParts x).compare (singleParts y)).any (·.isLE) = true) = true ↔ _
  rw [decide_eq_true_iff]

/-- Of two numbers the one is below the other, or the other reaches up to it. -/
theorem single_not_lt_iff {x y : Float32} (hx : x.isNaN = false) (hy : y.isNaN = false) :
    ¬ x < y ↔ y ≤ x := by
  obtain ⟨o, ho⟩ := exists_compare (u := singleParts x) (v := singleParts y) hx hy
  rw [single_lt_iff, single_le_iff, compare_swap (singleParts x), ho]
  cases o <;> simp

theorem single_isNaN_of_le {x y : Float32} (h : x ≤ y) : x.isNaN = false ∧ y.isNaN = false := by
  rw [single_le_iff] at h
  constructor
  · show (singleParts x).isNaN = false
    cases hx : singleParts x with
    | notANumber => rw [hx] at h; cases h
    | _ => rfl
  · show (singleParts y).isNaN = false
    cases hy : singleParts y with
    | notANumber =>
        rw [hy] at h
        cases hx : singleParts x <;> rw [hx] at h <;> cases h
    | _ => rfl

/-! ## Rounding -/

theorem roundWithAccuracy_of_small
    (he : e ≤ Format.binary32.targetExponent (totalExponent m e)) (hsmall : m.log2 + e < 0) :
    UnitParts (roundWithAccuracy .binary32 .positive m e .exact) := by
  have htarget : Format.binary32.targetExponent (totalExponent m e)
      = max (m.log2 + 1 + e - (24 : ℕ)) (-149) := rfl
  rw [htarget] at he
  obtain ⟨k, hk⟩ := Int.eq_ofNat_of_zero_le (sub_nonneg.mpr he)
  have hlog : m.log2 < 24 + k := by omega
  have hR := (shows_exact m).roundedMantissa_le hlog
  generalize hem : ExtendedMantissa.ofMantissaAndAccuracy m .exact >>> k = em at hR
  have hfirst : shiftToTargetExponent .binary32 m e .exact = (em, e + k) := by
    have hamount : (max ((m.log2 : ℤ) + 1 + e - (24 : ℕ)) (-149) - e).toNat = k := by omega
    simp only [shiftToTargetExponent, shiftToExponent, htarget, hamount, hem]
  have hmin : Format.binary32.minExponent ≤ e + k := by
    show (-149 : ℤ) ≤ e + k
    omega
  simp only [roundWithAccuracy, hfirst]
  rcases Nat.lt_or_eq_of_le hR with hlt | heq
  · have hlast : shiftToTargetExponent .binary32 em.roundedMantissa (e + k) .exact
        = (⟨em.roundedMantissa, false, false⟩, e + k) := shift_of_fits hlt hmin
    simp only [hlast]
    split
    · trivial
    · exact Or.inl (by omega)
  · have hlast : shiftToTargetExponent .binary32 em.roundedMantissa (e + k) .exact
        = (⟨2 ^ 23, false, false⟩, e + k + 1) := heq ▸ shift_of_carry hmin
    simp only [hlast]
    rw [dif_neg (by norm_num)]
    rcases (show e + k ≤ -24 by omega).lt_or_eq with hlt | hmax
    · exact Or.inl (by omega)
    · exact Or.inr ⟨rfl, by omega⟩

theorem round_of_small (hm : 0 < m) (hsmall : m.log2 + e < 0) :
    UnitParts (UnpackedFloat.round .binary32 .positive m e) := by
  generalize hk : (e - Format.binary32.targetExponent (totalExponent m e)).toNat = k
  have hlog : (m <<< k).log2 = m.log2 + k := log2_shiftLeft hm.ne' k
  rw [round_eq_roundWithAccuracy .positive hk]
  refine roundWithAccuracy_of_small ?_ ?_
  · rw [targetExponent_eq_max] at hk ⊢
    omega
  · omega

/-! ## Words -/

theorem unpack_packComponents_of_small {ev : BitVec 8} (mv : BitVec 23) (hev : ev.toNat ≤ 126) :
    UnitParts (UnpackedFloat.unpack .binary32 (packComponents .binary32 .positive ev mv)) := by
  have hinf : ev ≠ -1#8 := by
    rintro rfl
    exact absurd hev (by decide)
  have hbias : (Format.binary32.exponentBias : ℤ) + (23 : ℕ) = 150 := rfl
  simp only [UnpackedFloat.unpack, unpackExponent_packComponents, unpackMantissa_packComponents,
    unpackSign_packComponents, Sign.ofBitVec_toBitVec]
  rw [if_neg hinf]
  split
  · split
    · trivial
    · rename_i hzero _
      subst hzero
      exact Or.inl (by decide)
  · refine Or.inl ?_
    rw [hbias]
    omega

theorem unpack_pack_of_small {h : 0 < m} (he : e ≤ -24) :
    UnitParts (UnpackedFloat.unpack .binary32
      (UnpackedFloat.pack .binary32 (.finite .positive m e h))) := by
  have hbiased : (e + Format.binary32.exponentBias
      + Format.binary32.mantissaBitsWithoutImplicit).toNat = (e + 150).toNat := by
    show (e + (127 : ℕ) + (23 : ℕ)).toNat = _
    omega
  have hfits : ¬ 2 ^ Format.binary32.exponentBits ≤ (e + 150).toNat + 1 := by
    show ¬ 2 ^ 8 ≤ (e + 150).toNat + 1
    omega
  rw [UnpackedFloat.pack, hbiased, if_neg hfits]
  split
  · refine unpack_packComponents_of_small _ ?_
    rw [BitVec.toNat_ofNat]
    omega
  · exact unpack_packComponents_of_small _ (Nat.zero_le _)

theorem UnitParts.unpack_pack (h : UnitParts u) :
    UnitParts (UnpackedFloat.unpack .binary32 (UnpackedFloat.pack .binary32 u)) := by
  cases u with
  | notANumber => exact h.elim
  | infinity s => exact h.elim
  | zero s => cases s <;> trivial
  | finite s m e hm =>
      cases s with
      | negative => exact h.elim
      | positive =>
          rcases h with he | ⟨rfl, rfl⟩
          · exact unpack_pack_of_small he
          · have hone : UnpackedFloat.pack .binary32 (.finite .positive (2 ^ 23) (-23) hm)
                = packComponents .binary32 .positive 127#8 0#23 := by
              rw [UnpackedFloat.pack, Nat.log2_two_pow]
              rfl
            rw [hone]
            exact Or.inr ⟨rfl, rfl⟩

/-! ## Comparing with zero and one -/

/-- A single-precision number from zero to one. -/
def IsUnit (x : Float32) : Prop := x.isNaN = false ∧ 0.0 ≤ x ∧ x ≤ 1.0

theorem isUnit_of_parts {x : Float32} (h : UnitParts (singleParts x)) : IsUnit x := by
  have hone : singleParts 1.0 = .finite .positive (2 ^ 23) (-23) (by norm_num) := rfl
  have hzero : singleParts 0.0 = .zero .positive := rfl
  rw [IsUnit, single_le_iff, single_le_iff, hone, hzero]
  show (singleParts x).isNaN = false ∧ _
  cases hp : singleParts x with
  | notANumber => rw [hp] at h; exact h.elim
  | infinity s => rw [hp] at h; exact h.elim
  | zero s => exact ⟨rfl, rfl, rfl⟩
  | finite s m e hm =>
      rw [hp] at h
      cases s with
      | negative => exact h.elim
      | positive =>
          refine ⟨rfl, rfl, ?_⟩
          simp only [UnpackedFloat.compare, Option.any_some]
          rcases h with he | ⟨rfl, rfl⟩
          · rw [Int.compare_eq_lt.mpr (by omega)]
            rfl
          · rfl

/-! ## Rounding a float -/

/-- What becomes of the parts of a float, before they are packed again. -/
def narrow : UnpackedFloat → UnpackedFloat
  | .finite s m e _ => UnpackedFloat.round .binary32 s m e
  | u => u

theorem singleParts_roundToSingle (x : Float) :
    singleParts (roundToSingle x)
      = UnpackedFloat.unpack .binary32 (UnpackedFloat.pack .binary32 (narrow (parts x))) := rfl

theorem isNaN_roundToSingle (h : x.isNaN = true) : (roundToSingle x).isNaN = true := by
  change (parts x).isNaN = true at h
  show (singleParts (roundToSingle x)).isNaN = true
  rw [singleParts_roundToSingle]
  cases hp : parts x with
  | notANumber => rfl
  | infinity s => rw [hp] at h; cases h
  | zero s => rw [hp] at h; cases h
  | finite s m e hm => rw [hp] at h; cases h

/-- A number below one has no digit before the point. -/
theorem log2_add_neg (hm : 0 < m) (h : (m : ℝ) * 2 ^ e < 1) : m.log2 + e < 0 := by
  have hpow : (2 : ℝ) ^ (m.log2 + e : ℤ) < 2 ^ (0 : ℤ) := by
    calc (2 : ℝ) ^ (m.log2 + e : ℤ) = 2 ^ m.log2 * 2 ^ e := by
          rw [zpow_add₀ (by norm_num), zpow_natCast]
      _ ≤ m * 2 ^ e := by
          gcongr
          exact_mod_cast Nat.log2_self_le hm.ne'
      _ < 1 := h
      _ = 2 ^ (0 : ℤ) := (zpow_zero 2).symm
  exact (zpow_lt_zpow_iff_right₀ one_lt_two).mp hpow

theorem isUnit_roundToSingle_of_lt (hx : x.isFinite = true) (hlo : 0 ≤ value x)
    (hhi : value x < 1) : IsUnit (roundToSingle x) := by
  refine isUnit_of_parts ?_
  rw [singleParts_roundToSingle]
  refine UnitParts.unpack_pack ?_
  rcases parts_of_nonneg hx hlo with ⟨s, hp⟩ | ⟨m, e, hm, hp⟩
  · rw [hp]
    trivial
  · rw [value, hp, realOf_positive] at hhi
    rw [hp]
    exact round_of_small hm (log2_add_neg hm hhi)

theorem isUnit_roundToSingle (hx : x.isFinite = true) (hlo : 0 ≤ value x) (hhi : value x ≤ 1) :
    IsUnit (roundToSingle x) := by
  rcases hhi.lt_or_eq with hlt | heq
  · exact isUnit_roundToSingle_of_lt hx hlo hlt
  · have hone : Extent.IsWhole 1.0 1 := Extent.isWhole_toFloat (n := 1) (by norm_num)
    have hvalue : value x = value 1.0 := by rw [heq, hone.2, Nat.cast_one]
    rcases Extent.same_of_value_eq hx hone.1 hvalue with rfl | ⟨⟨s, hs⟩, -⟩
    · exact ⟨by decide +kernel, by decide +kernel, by decide +kernel⟩
    · rw [value, hs] at heq
      exact absurd heq zero_ne_one

end Binary

end Windowing
