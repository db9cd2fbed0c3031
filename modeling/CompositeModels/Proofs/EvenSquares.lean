/-
Module: CompositeModels.Proofs.EvenSquares
Purpose: Scalars that have the same square as their difference from zero, so that the norm of a vector
  and that of its difference from the zero vector agree to the last bit. Binary64 numbers are such
  scalars: the difference from zero is the opposite number, which is stored without rounding.
Main exports: Scalar.EvenSquares, Scalar.evenSquares_float, Scalar.evenSquares_real,
  Vec.norm_zeroed_sub
-/
import CompositeModels.Proofs.Order

namespace CompositeModels

/-- A scalar and its difference from zero have the same square. -/
class Scalar.EvenSquares (α : Type) [Scalar α] : Prop where
  square_zero_sub : ∀ a : α, (0 - a) * (0 - a) = a * a

theorem Vec.mul_self_zeroed_sub {α : Type} [Scalar α] [Scalar.EvenSquares α] (v : List α) :
    mul (sub (zeroed v) v) (sub (zeroed v) v) = mul v v := by
  induction v with
  | nil => rfl
  | cons a v ih => exact congrArg₂ List.cons (Scalar.EvenSquares.square_zero_sub a) ih

/-- The distance from the zero vector is the norm. -/
theorem Vec.norm_zeroed_sub {α : Type} [Scalar α] [Scalar.EvenSquares α] (v : List α) :
    norm (sub (zeroed v) v) = norm v := by
  rw [norm, dot, mul_self_zeroed_sub]
  rfl

/-! ### Binary64 numbers -/

namespace Binary64

open Float.Model (UnpackedFloat Format)
open Float.Model.UnpackedFloat

theorem toNat_normal (significand : BitVec 52) :
    (1#1 ++ significand).toNat = 2 ^ 52 + significand.toNat := by
  rw [BitVec.toNat_append, ← Nat.shiftLeft_add_eq_or_of_lt significand.isLt]
  rfl

/-- The number that a sign, a biased exponent and the stored bits of a significand stand for. -/
def number (sign : Sign) (exponent : BitVec 11) (significand : BitVec 52) : UnpackedFloat :=
  if exponent = -1#11 then
    if significand = 0#52 then .infinity sign else .notANumber
  else if exponent = 0#11 then
    if nonzero : significand = 0#52 then .zero sign
    else .finite sign significand.toNat ((exponent.toNat : ℤ) - 1075 + 1)
      (by simpa [BitVec.toNat_pos, BitVec.pos_iff_ne_zero])
  else .finite sign (1#1 ++ significand).toNat ((exponent.toNat : ℤ) - 1075)
    (by rw [toNat_normal]; omega)

theorem unpack_eq_number (bits : BitVec Format.binary64.numBits) :
    ∃ sign exponent significand, unpack .binary64 bits = number sign exponent significand :=
  ⟨.ofBitVec (unpackSign bits), unpackExponent bits, unpackMantissa bits, rfl⟩

theorem unpackSign_packComponents (sign : Sign) (exponent : BitVec 11) (significand : BitVec 52) :
    Sign.ofBitVec (unpackSign (packComponents .binary64 sign exponent significand)) = sign := by
  have bit : unpackSign (packComponents .binary64 sign exponent significand) = sign.toBitVec := by
    change (sign.toBitVec ++ exponent ++ significand).extractLsb' 63 1 = sign.toBitVec
    rw [BitVec.extractLsb'_append_eq_of_le (by decide), BitVec.extractLsb'_append_eq_of_le (by decide)]
    exact BitVec.extractLsb'_eq_self
  rw [bit]
  cases sign <;> rfl

theorem unpack_packComponents (sign : Sign) (exponent : BitVec 11) (significand : BitVec 52) :
    unpack .binary64 (packComponents .binary64 sign exponent significand) =
      number sign exponent significand := by
  change number (.ofBitVec (unpackSign (packComponents .binary64 sign exponent significand)))
    (unpackExponent (packComponents .binary64 sign exponent significand))
    (unpackMantissa (packComponents .binary64 sign exponent significand)) = _
  rw [unpackSign_packComponents, unpackExponent_packComponents, unpackMantissa_packComponents]

theorem pack_finite (sign : Sign) {m : ℕ} {e : ℤ} (positive : 0 < m) :
    pack .binary64 (.finite sign m e positive) =
      if 2 ^ 11 ≤ (e + 1023 + 52).toNat + 1 then packedInfinity .binary64 sign
      else if m.log2 + 1 = 53 then
        packComponents .binary64 sign (BitVec.ofNat 11 (e + 1023 + 52).toNat) (BitVec.ofNat 52 m)
      else packComponents .binary64 sign 0#11 (BitVec.ofNat 52 m) := rfl

theorem pack_number_normal (sign : Sign) {exponent : BitVec 11} (significand : BitVec 52)
    (below : exponent ≠ -1#11) (above : exponent ≠ 0#11) :
    pack .binary64 (number sign exponent significand) =
      packComponents .binary64 sign exponent significand := by
  have inRange : exponent.toNat + 1 < 2 ^ 11 := by
    have distinct : exponent.toNat ≠ 2047 := fun same => below (BitVec.eq_of_toNat_eq same)
    have bounded := exponent.isLt
    omega
  have biased : ((exponent.toNat : ℤ) - 1075 + 1023 + 52).toNat = exponent.toNat := by omega
  have bounded := significand.isLt
  have digits : (1#1 ++ significand).toNat.log2 = 52 := by
    rw [toNat_normal, Nat.log2_eq_iff (by omega)]
    omega
  have stored : BitVec.ofNat 52 (1#1 ++ significand).toNat = significand := by
    apply BitVec.eq_of_toNat_eq
    rw [toNat_normal, BitVec.toNat_ofNat]
    omega
  rw [number, if_neg below, if_neg above, pack_finite, biased, digits,
    if_neg (Nat.not_le.2 inRange), if_pos rfl, stored, BitVec.ofNat_toNat, BitVec.setWidth_eq]

theorem pack_number_subnormal (sign : Sign) {significand : BitVec 52} (nonzero : significand ≠ 0#52) :
    pack .binary64 (number sign 0#11 significand) =
      packComponents .binary64 sign 0#11 significand := by
  have digits : significand.toNat.log2 < 52 :=
    (Nat.log2_lt fun zero => nonzero (BitVec.eq_of_toNat_eq zero)).2 significand.isLt
  rw [number, if_neg (by decide), if_pos rfl, dif_neg nonzero, pack_finite, if_neg (by decide),
    if_neg (by omega), BitVec.ofNat_toNat, BitVec.setWidth_eq]

/-- A number that is stored is read as the same number. -/
theorem unpack_pack_number (sign : Sign) (exponent : BitVec 11) (significand : BitVec 52) :
    unpack .binary64 (pack .binary64 (number sign exponent significand)) =
      number sign exponent significand := by
  by_cases top : exponent = -1#11
  · subst top
    by_cases whole : significand = 0#52
    · subst whole
      exact unpack_packComponents sign (-1#11) 0#52
    · -- The encoding of an undefined value has a sign and a significand of its own.
      have undefined : number sign (-1#11) significand = .notANumber := by
        rw [number, if_pos rfl, if_neg whole]
      rw [undefined]
      exact unpack_packComponents .positive (-1#11) (1#52 <<< 51)
  by_cases bottom : exponent = 0#11
  · subst bottom
    by_cases zero : significand = 0#52
    · subst zero
      exact unpack_packComponents sign 0#11 0#52
    · rw [pack_number_subnormal sign zero, unpack_packComponents]
  · rw [pack_number_normal sign significand top bottom, unpack_packComponents]

theorem neg_number (sign : Sign) (exponent : BitVec 11) (significand : BitVec 52) :
    (number sign exponent significand).neg = number (-sign) exponent significand := by
  by_cases top : exponent = -1#11
  · rw [number, number, if_pos top, if_pos top]
    by_cases whole : significand = 0#52
    · rw [if_pos whole, if_pos whole]
      rfl
    · rw [if_neg whole, if_neg whole]
      rfl
  rw [number, number, if_neg top, if_neg top]
  by_cases bottom : exponent = 0#11
  · rw [if_pos bottom, if_pos bottom]
    by_cases zero : significand = 0#52
    · rw [dif_pos zero, dif_pos zero]
      rfl
    · rw [dif_neg zero, dif_neg zero]
      rfl
  · rw [if_neg bottom, if_neg bottom]
    rfl

theorem mul_neg_neg (a : UnpackedFloat) : mul .binary64 a.neg a.neg = mul .binary64 a a := by
  rcases a with (_ | _) | _ | (_ | _) | ⟨_ | _, m, e, _⟩ <;> rfl

/-- What is read after storing the difference of a number from zero. -/
def storedOpposite (a : UnpackedFloat) : UnpackedFloat :=
  unpack .binary64 (pack .binary64 (sub .binary64 (.zero .positive) a))

/-- Rounding plays no part in the difference from zero. Zeros differ from it in their sign at most. -/
theorem mul_storedOpposite (sign : Sign) (exponent : BitVec 11) (significand : BitVec 52) :
    mul .binary64 (storedOpposite (number sign exponent significand))
        (storedOpposite (number sign exponent significand)) =
      mul .binary64 (number sign exponent significand) (number sign exponent significand) := by
  have opposite : ∀ a : UnpackedFloat, (∀ sign, a ≠ .zero sign) →
      sub .binary64 (.zero .positive) a = a.neg := by
    intro a nonzero
    cases a with
    | zero sign => exact absurd rfl (nonzero sign)
    | infinity | notANumber | finite => rfl
  by_cases zero : ∃ side, number sign exponent significand = .zero side
  · obtain ⟨side, zero⟩ := zero
    rw [zero]
    cases side <;> rfl
  · rw [storedOpposite, opposite _ fun side same => zero ⟨side, same⟩, neg_number,
      unpack_pack_number, ← neg_number, mul_neg_neg]

end Binary64

instance Scalar.evenSquares_float : EvenSquares Float where
  square_zero_sub := by
    intro a
    obtain ⟨sign, exponent, significand, unpacked⟩ :=
      Binary64.unpack_eq_number a.toModel.toBits.toBitVec
    have squares := Binary64.mul_storedOpposite sign exponent significand
    rw [← unpacked] at squares
    exact congrArg (fun number => Float.ofModel (.pack number)) squares

/-! ### Exact numbers -/

instance Scalar.evenSquares_real : EvenSquares ℝ where
  square_zero_sub := fun a => by ring

end CompositeModels
