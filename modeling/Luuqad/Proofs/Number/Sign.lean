import Luuqad.Number.Read
import Luuqad.Proofs.Number.Exact
import Mathlib

/-!
# Doubles without a sign

A decimal that is written without a sign becomes a double whose sign bit is not set
(`signBit_ofDecimal`): the mantissa that it is rounded to has no more than 53 bits
(`roundDiv_unitExponent_le`), so the bits of the double stay below the sign. Zero can be added to
such a double without changing it (`Num.zero_add`). This is not so for all doubles, since zero and
negative zero make zero.

What is known about packing and unpacking doubles is reached only through the whole of Mathlib.
-/

namespace Luuqad

namespace Number

open Float.Model (Format)
open Float.Model.UnpackedFloat (unpack pack packedZero packedNaN)

/-! ## Bits -/

/-- The bits of a double are those that it is made from, or those of what is not a number. -/
theorem toBits_ofBits (b : UInt64) :
    (Float.ofBits b).toBits = b ∨ (Float.ofBits b).toBits = 0x7ff8000000000000 := by
  have hbits : (Float.ofBits b).toBits = ⟨pack .binary64 (unpack .binary64 b.toBitVec)⟩ := rfl
  rw [hbits]
  by_cases hvalid : Format.binary64.Valid b.toBitVec
  · left
    rw [Float.Model.UnpackedFloat.pack_unpack_of_valid hvalid (by decide)]
  · right
    have hnan : unpack .binary64 b.toBitVec = .notANumber := by
      unfold unpack
      by_contra hnot
      refine hvalid ⟨fun hexponent hmantissa => absurd ?_ hnot⟩
      rw [if_pos hexponent, if_neg hmantissa]
    rw [hnan]
    rfl

theorem signBit_ofBits {b : UInt64} (hb : b.toNat < pow2 63) :
    signBit (Float.ofBits b) = false := by
  unfold signBit
  rcases toBits_ofBits b with h | h
  · rw [h, Nat.div_eq_of_lt hb]
    rfl
  · rw [h]
    decide

theorem signBit_infinity : signBit (infinity false) = false := signBit_ofBits (by decide)

theorem signBit_zero : signBit (zero false) = false := signBit_ofBits (by decide)

theorem signBit_nan : signBit nan = false := signBit_ofBits (by decide)

/-! ## The size of a mantissa -/

section Mantissa

variable {num den : Nat}

theorem inUnits_pos (hden : 0 < den) (e : Int) : 0 < (inUnits num den e).2 := by
  unfold inUnits
  split
  · exact Nat.mul_pos hden (Nat.two_pow_pos _)
  · exact hden

theorem inUnits_eq (e : Int) :
    ((inUnits num den e).1 : ℚ) / (inUnits num den e).2 = (num : ℚ) / den / 2 ^ e := by
  unfold inUnits
  split
  · rename_i he
    push_cast
    rw [pow2_toNat he, div_div]
  · rename_i he
    push_cast
    rw [pow2_toNat (by omega), zpow_neg, mul_comm, ← div_eq_inv_mul, div_right_comm]

theorem inUnits_lt_iff (hden : 0 < den) (e : Int) (k : Nat) :
    (inUnits num den e).1 / (inUnits num den e).2 < k ↔ (num : ℚ) / den / 2 ^ e < k := by
  have hpos : (0 : ℚ) < (inUnits num den e).2 := by exact_mod_cast inUnits_pos hden e
  rw [← inUnits_eq, Nat.div_lt_iff_lt_mul (inUnits_pos hden e), div_lt_iff₀ hpos]
  exact_mod_cast Iff.rfl

theorem div_lt_of_log2 (hden : 0 < den) :
    (num : ℚ) / den < 2 ^ ((num.log2 : Int) - den.log2 + 1) := by
  have hnum : (num : ℚ) < 2 ^ (num.log2 + 1) := by exact_mod_cast Nat.lt_log2_self
  have hlow : (2 : ℚ) ^ den.log2 ≤ den := by exact_mod_cast Nat.log2_self_le hden.ne'
  have hsplit : (2 : ℚ) ^ ((num.log2 : Int) - den.log2 + 1) * 2 ^ den.log2 =
      2 ^ (num.log2 + 1) := by
    rw [← zpow_natCast, ← zpow_natCast, ← zpow_add₀ two_ne_zero]
    congr 1
    push_cast
    omega
  rw [div_lt_iff₀ (by exact_mod_cast hden)]
  calc (num : ℚ) < 2 ^ ((num.log2 : Int) - den.log2 + 1) * 2 ^ den.log2 := hsplit ▸ hnum
    _ ≤ 2 ^ ((num.log2 : Int) - den.log2 + 1) * den := by gcongr

theorem inUnits_unitExponent_lt (hden : 0 < den) :
    (inUnits num den (unitExponent num den)).1 / (inUnits num den (unitExponent num den)).2 <
      pow2 53 := by
  let guess : Int := (num.log2 : Int) - den.log2 - 53
  let fitted : Int :=
    if (inUnits num den guess).1 / (inUnits num den guess).2 < pow2 53 then guess else guess + 1
  have hfitted : (num : ℚ) / den / 2 ^ fitted < pow2 53 := by
    by_cases hguess : (inUnits num den guess).1 / (inUnits num den guess).2 < pow2 53
    · rw [show fitted = guess from if_pos hguess]
      exact (inUnits_lt_iff hden guess _).mp hguess
    · have hpow : ((pow2 53 : Nat) : ℚ) * 2 ^ (guess + 1) =
          2 ^ ((num.log2 : Int) - den.log2 + 1) := by
        have hnat : ((pow2 53 : Nat) : ℚ) = 2 ^ (53 : Int) := by norm_num
        rw [hnat, ← zpow_add₀ two_ne_zero]
        congr 1
        omega
      rw [show fitted = guess + 1 from if_neg hguess, div_lt_iff₀ (by positivity), hpow]
      exact div_lt_of_log2 hden
  have hmax : unitExponent num den = max fitted (-1074) := rfl
  rw [inUnits_lt_iff hden, hmax]
  refine lt_of_le_of_lt ?_ hfitted
  gcongr
  · norm_num
  · exact le_max_left _ _

theorem roundDiv_le {n d k : Nat} (h : n / d < k) : roundDiv n d ≤ k := by
  unfold roundDiv
  dsimp only
  split
  · omega
  · split
    · omega
    · split <;> omega

theorem roundDiv_unitExponent_le (hden : 0 < den) :
    roundDiv (inUnits num den (unitExponent num den)).1
      (inUnits num den (unitExponent num den)).2 ≤ pow2 53 :=
  roundDiv_le (inUnits_unitExponent_lt hden)

end Mantissa

theorem assemble_lt {m : Nat} {e : Int} (hm : m < pow2 53) (he : e ≤ 971) :
    assemble m e < pow2 63 := by
  have hlow : pow2 52 = 4503599627370496 := by decide
  have hmid : pow2 53 = 9007199254740992 := by decide
  have hhigh : pow2 63 = 9223372036854775808 := by decide
  unfold assemble
  rw [hlow]
  rw [hmid] at hm
  rw [hhigh]
  split
  · omega
  · have hexponent : (e + 1075).toNat ≤ 2046 := by omega
    omega

theorem signBit_assemble {m : Nat} {e : Int} (hm : m < pow2 53) (he : e ≤ 971) :
    signBit (Float.ofBits (0 + assemble m e).toUInt64) = false := by
  have hbits := assemble_lt hm he
  refine signBit_ofBits ?_
  rw [Nat.zero_add]
  exact lt_of_le_of_lt (Nat.mod_le _ _) hbits

theorem signBit_nearest {num den : Nat} {x : Float} (hden : 0 < den)
    (h : nearest false num den = some x) : signBit x = false := by
  have hle : roundDiv (inUnits num den (unitExponent num den)).1
      (inUnits num den (unitExponent num den)).2 ≤ pow2 53 := roundDiv_unitExponent_le hden
  have hrounded {m : Nat} {e : Int} (hm : m < pow2 53)
      (h : (if 971 < e then none else some (Float.ofBits (0 + assemble m e).toUInt64)) = some x) :
      signBit x = false := by
    by_cases hrange : 971 < e
    · rw [if_pos hrange] at h
      cases h
    · rw [if_neg hrange] at h
      cases h
      exact signBit_assemble hm (by omega)
  unfold nearest at h
  dsimp only at h
  split at h
  · cases h
    exact signBit_ofBits (by decide)
  · split at h
    · exact hrounded (m := pow2 52) (by decide) h
    · rename_i hfull
      exact hrounded (lt_of_le_of_ne hle (by simpa using hfull)) h

/-! ## Decimals -/

theorem signBit_ofDecimal (digits : Nat) (e : Int) :
    signBit (ofDecimal false digits e) = false := by
  have hnearest {num den : Nat} (hden : 0 < den) :
      signBit ((nearest false num den).getD (infinity false)) = false := by
    cases h : nearest false num den with
    | none => exact signBit_infinity
    | some x => exact signBit_nearest hden h
  unfold ofDecimal
  dsimp only
  split
  · exact signBit_zero
  · split
    · exact signBit_infinity
    · split
      · exact hnearest Nat.one_pos
      · exact hnearest (Nat.pow_pos (by decide))

theorem signBit_readUnsigned? {cs : List Char} {x : Float} (h : readUnsigned? false cs = some x) :
    signBit x = false := by
  unfold readUnsigned? at h
  dsimp only at h
  split at h
  · cases h
    exact signBit_infinity
  · split at h
    · cases h
      exact signBit_nan
    · split at h
      · split at h
        · cases h
        · obtain ⟨e, -, rfl⟩ := Option.map_eq_some_iff.mp h
          exact signBit_ofDecimal _ _
      · split at h
        · cases h
        · obtain ⟨e, -, rfl⟩ := Option.map_eq_some_iff.mp h
          exact signBit_ofDecimal _ _

/-! ## Zero -/

/-- The only double that changes when zero is added to it is negative zero. -/
theorem zero_add_of_signBit {x : Float} (h : signBit x = false) : Float.ofBits 0 + x = x := by
  have hunpack : x.toModel.unpack ≠ .zero .negative := by
    intro hzero
    have hbits := (Float.Model.UnpackedFloat.unpack_eq_zero_iff_of_valid x.toModel.valid
      (by decide)).mp hzero
    have htrue : signBit x = true := by
      unfold signBit
      change (x.toModel.toBits.toBitVec.toNat / pow2 63 == 1) = true
      rw [hbits]
      decide
    rw [htrue] at h
    cases h
  have hadd : Float.Model.UnpackedFloat.add .binary64 (.zero .positive) x.toModel.unpack =
      x.toModel.unpack := by
    cases hx : x.toModel.unpack with
    | zero sign =>
      cases sign with
      | positive => rfl
      | negative => exact absurd hx hunpack
    | notANumber | infinity | finite => rfl
  have hpack : Float.Model.pack x.toModel.unpack = x.toModel := by
    have hbits := Float.Model.UnpackedFloat.pack_unpack_of_valid x.toModel.valid (by decide)
    simp only [Float.Model.pack, Float.Model.unpack, hbits]
  have hzero : (Float.ofBits 0).toModel.unpack = .zero .positive := by rfl
  change (⟨Float.Model.pack (Float.Model.UnpackedFloat.add .binary64
    (Float.ofBits 0).toModel.unpack x.toModel.unpack)⟩ : Float) = x
  rw [hzero, hadd, hpack]

end Number

theorem Num.zero_add {n : Num} (h : ∀ x, n = .float x → Number.signBit x = false) :
    (Num.int 0).add n = .ok n := by
  cases n with
  | int i =>
    change Except.ok (Num.int (0 + i)) = _
    rw [Int.zero_add]
  | float x =>
    change Except.ok (Num.float (Float.ofBits 0 + x)) = _
    rw [Number.zero_add_of_signBit (h x rfl)]

end Luuqad
