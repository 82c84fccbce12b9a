import Reckoner.Expr.Code
import Reckoner.Operator.Meaning
import Mathlib

/-!
# Two signs

The sign of a float is one bit of its 64, and a sign before the float turns that bit over
(`unpack_packComponents_neg`).  A float that is not a number is an exception, but it has a single
pattern of bits, which no sign changes.  Two signs therefore leave every float as it was
(`float_neg_neg`), and with it every scalar and every vector (`Value.negate_negate`).
-/

set_option autoImplicit false

open Float.Model Float.Model.UnpackedFloat

namespace Reckoner

/-! ## Bits -/

theorem unpacked_neg_neg (u : UnpackedFloat) : u.neg.neg = u := by
  have hsign : ∀ s : Sign, - -s = s := by
    intro s
    cases s <;> rfl
  cases u <;> simp only [UnpackedFloat.neg, hsign]

/-- The other sign bit makes the negative. -/
theorem unpack_packComponents_neg (s : Sign) (exponent : BitVec 11) (mantissa : BitVec 52) :
    UnpackedFloat.unpack .binary64 (packComponents .binary64 (-s) exponent mantissa) =
      (UnpackedFloat.unpack .binary64 (packComponents .binary64 s exponent mantissa)).neg := by
  simp only [UnpackedFloat.unpack, unpackMantissa_packComponents, unpackExponent_packComponents,
    unpackSign_packComponents, Sign.ofBitVec_toBitVec]
  split_ifs <;> rfl

/-- Bits that were packed are unpacked to what they were packed from, if that came from bits. -/
theorem unpack_pack_unpack (b : BitVec Format.binary64.numBits) :
    UnpackedFloat.unpack .binary64
        (UnpackedFloat.pack .binary64 (UnpackedFloat.unpack .binary64 b)) =
      UnpackedFloat.unpack .binary64 b := by
  rw [pack_unpack]
  split_ifs with hnan
  · have hbits : unpackExponent b = -1#_ ∧ unpackMantissa b ≠ 0#_ := of_decide_eq_true hnan
    rw [unpack_packedNaN, UnpackedFloat.unpack, if_pos hbits.1, if_neg hbits.2]
  · rfl

theorem pack_neg_neg {b : BitVec Format.binary64.numBits} (h : Format.binary64.Valid b) :
    UnpackedFloat.pack .binary64 (UnpackedFloat.unpack .binary64
      (UnpackedFloat.pack .binary64 (UnpackedFloat.unpack .binary64 b).neg)).neg = b := by
  have hneg := unpack_packComponents_neg (.ofBitVec (unpackSign b)) (unpackExponent b)
    (unpackMantissa b)
  rw [packComponents_unpackSign_unpackExponent_unpackMantissa] at hneg
  rw [← hneg, unpack_pack_unpack, hneg, unpacked_neg_neg, pack_unpack_of_valid h]

/-! ## Floats and values -/

/-- **Two signs before a float cancel.** -/
theorem float_neg_neg (x : Float) : - -x = x := by
  obtain ⟨⟨bits, hvalid⟩⟩ := x
  show Float.ofModel (Float.Model.mk _ _) = Float.ofModel (Float.Model.mk _ _)
  congr 2
  exact congrArg UInt64.ofBitVec (pack_neg_neg hvalid)

/-- A value with the opposite sign has the value itself for its opposite. -/
theorem Value.opposite_opposite (v : Value) : v.opposite.opposite = v := by
  cases v with
  | scalar x => rw [opposite, opposite, float_neg_neg]
  | vector a => simp only [opposite, Vec3.map, float_neg_neg]
  | text s => rfl

/-- **Two signs before a value cancel, unless there is none to begin with.** -/
theorem Value.negate_negate {v w : Value} (h : v.negate = .ok w) : w.negate = .ok v := by
  cases v with
  | scalar x =>
    cases h
    rw [negate, float_neg_neg]
  | vector a =>
    cases h
    simp only [negate, Vec3.map, float_neg_neg]
  | text s => cases h

end Reckoner
