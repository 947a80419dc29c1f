import Mathlib
import Spreadsheet.Decimal.Numeral
import Spreadsheet.Number

/-!
# Numerals have no sign

A numeral is read by multiplying or dividing numbers without a minus sign, and so the number that
it comes to has none.
-/

namespace Spreadsheet

namespace Number

open Float.Model Float.Model.UnpackedFloat

/-- Whether a number, or infinity, is without a minus sign. -/
def Unsigned : UnpackedFloat → Prop
  | .infinity sign | .zero sign | .finite sign _ _ _ => sign = .positive
  | .notANumber => True

variable {spec : Format} {f g : UnpackedFloat}

theorem unsigned_roundWithAccuracy (mantissa : Nat) (exponent : Int) (accuracy : Accuracy) :
    Unsigned (roundWithAccuracy spec .positive mantissa exponent accuracy) := by
  unfold roundWithAccuracy
  dsimp only
  split <;> rfl

theorem Unsigned.mul (hf : Unsigned f) (hg : Unsigned g) : Unsigned (mul spec f g) := by
  cases f <;> cases g <;> simp only [Unsigned] at hf hg <;> subst_vars <;>
    first | trivial | exact unsigned_roundWithAccuracy _ _ _

theorem Unsigned.div (hf : Unsigned f) (hg : Unsigned g) : Unsigned (div spec f g) := by
  cases f <;> cases g <;> simp only [Unsigned] at hf hg <;> subst_vars <;>
    first | trivial | exact unsigned_roundWithAccuracy _ _ _

theorem unsigned_ofScientific (mantissa : Nat) (exponent : Int) :
    Unsigned (UnpackedFloat.ofScientific spec mantissa exponent) := by
  unfold UnpackedFloat.ofScientific
  split
  · rfl
  split
  · rfl
  split
  · rfl
  split
  · exact Unsigned.mul rfl rfl
  · exact Unsigned.div rfl rfl

theorem unpackSign_pack (h : Unsigned f) : unpackSign (UnpackedFloat.pack spec f) = 0#1 := by
  cases f with
  | notANumber => exact unpackSign_packComponents _ _ _
  | infinity sign =>
      obtain rfl : sign = .positive := h
      exact unpackSign_packComponents _ _ _
  | zero sign =>
      obtain rfl : sign = .positive := h
      exact unpackSign_packComponents _ _ _
  | finite sign mantissa exponent hpos =>
      obtain rfl : sign = .positive := h
      unfold UnpackedFloat.pack
      dsimp only
      split
      · exact unpackSign_packComponents _ _ _
      · split <;> exact unpackSign_packComponents _ _ _

theorem unsigned_unpack {bits : BitVec spec.numBits} (h : unpackSign bits = 0#1) :
    Unsigned (UnpackedFloat.unpack spec bits) := by
  unfold UnpackedFloat.unpack
  rw [h]
  dsimp only
  split
  · split <;> trivial
  · split
    · split <;> rfl
    · rfl

theorem unsigned_ofUInt64 (n : UInt64) : Unsigned (UnpackedFloat.ofUInt64 spec n) := by
  change Unsigned (UnpackedFloat.normalize spec (n.toNat : Int) 0 .positive)
  unfold UnpackedFloat.normalize
  split
  · rename_i hlt
    simp only [Std.compare_eq_lt] at hlt
    omega
  · rfl
  · exact unsigned_roundWithAccuracy _ _ _

/-! ### The sign bit -/

theorem isNegative_eq_false_iff {n : Float} :
    isNegative n = false ↔ n.toBits.toBitVec.extractLsb' 63 1 = 0#1 := by
  unfold isNegative
  rw [decide_eq_false_iff_not, ge_iff_le, UInt64.le_iff_toNat_le]
  have hbound := n.toBits.toNat_lt
  rw [← BitVec.toNat_inj]
  simp [Nat.shiftRight_eq_div_pow]
  omega

theorem unsigned_unpack_toModel {n : Float} (h : isNegative n = false) :
    Unsigned n.toModel.unpack :=
  unsigned_unpack (isNegative_eq_false_iff.mp h)

theorem isNegative_ofModel_pack (h : Unsigned f) :
    isNegative (Float.ofModel (Float.Model.pack f)) = false :=
  isNegative_eq_false_iff.mpr (unpackSign_pack h)

theorem isNegative_powersOfTen :
    ∀ n ∈ Float.exactlyRepresentablePowersOfTen, isNegative n = false := by
  decide +kernel

theorem isNegative_ofScientific (mantissa : Nat) (isDivided : Bool) (exponent : Nat) :
    isNegative (Float.ofScientific mantissa isDivided exponent) = false := by
  unfold Float.ofScientific
  split
  · have hmantissa : Unsigned mantissa.toUInt64.toFloat.toModel.unpack :=
      unsigned_unpack_toModel (isNegative_ofModel_pack (unsigned_ofUInt64 _))
    have hpower : ∀ n ∈ Float.exactlyRepresentablePowersOfTen, Unsigned n.toModel.unpack :=
      fun n hn => unsigned_unpack_toModel (isNegative_powersOfTen n hn)
    dsimp only
    split
    · exact isNegative_ofModel_pack (hmantissa.div (hpower _ (Array.getElem_mem _)))
    · exact isNegative_ofModel_pack (hmantissa.mul (hpower _ (Array.getElem_mem _)))
  · exact isNegative_ofModel_pack (unsigned_ofScientific _ _)

end Number

theorem Numeral.isNegative_value (numeral : Numeral) : Number.isNegative numeral.value = false :=
  Number.isNegative_ofScientific _ _ _

end Spreadsheet
