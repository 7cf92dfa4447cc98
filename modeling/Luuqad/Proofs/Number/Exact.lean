import Luuqad.Value.Arithmetic
import Mathlib.Algebra.Order.Field.Power
import Mathlib.Data.Rat.Cast.CharZero

/-!
# Exact values of numbers

A number that is finite has an exact value, a fraction. Two numbers compare as equal if and only if
they have the same value, or are the same infinity (`Num.compare?_eq_iff`). A number that is equal
to a whole number is cut off to it (`Num.truncate_of_equals`).
-/

namespace Luuqad

namespace Number

/-! ## Dyadic numbers -/

/-- The exact value of a dyadic number. -/
def Dyadic.value (d : Dyadic) : ℚ := d.signed * 2 ^ d.exponent

theorem pow2_toNat {e : Int} (he : 0 ≤ e) : ((pow2 e.toNat : Nat) : ℚ) = 2 ^ e := by
  obtain ⟨n, rfl⟩ := Int.eq_ofNat_of_zero_le he
  simp [pow2]

theorem Dyadic.value_eq (d : Dyadic) {unit : Int} (h : unit ≤ d.exponent) :
    d.value = ((d.signed * pow2 (d.exponent - unit).toNat : Int) : ℚ) * 2 ^ unit := by
  have hpow : (2 : ℚ) ^ d.exponent = 2 ^ (d.exponent - unit) * 2 ^ unit := by
    rw [← zpow_add₀ two_ne_zero, Int.sub_add_cancel]
  rw [value, hpow, ← pow2_toNat (by omega), ← mul_assoc, Int.cast_mul, Int.cast_natCast]

theorem Dyadic.compareTo_eq_iff {a b : Dyadic} : a.compareTo b = .eq ↔ a.value = b.value := by
  have hunit : (2 : ℚ) ^ min a.exponent b.exponent ≠ 0 := zpow_ne_zero _ two_ne_zero
  rw [compareTo, compare_eq_iff_eq, a.value_eq (Int.min_le_left _ b.exponent),
    b.value_eq (Int.min_le_right a.exponent _), mul_left_inj' hunit, Int.cast_inj]

theorem Dyadic.compareInt_eq_iff {d : Dyadic} {i : Int} :
    d.compareInt i = .eq ↔ (i : ℚ) = d.value := by
  unfold compareInt
  split
  · rename_i he
    rw [compare_eq_iff_eq, d.value_eq he, Int.sub_zero, zpow_zero, mul_one, Int.cast_inj]
  · rename_i he
    have hunit : (2 : ℚ) ^ d.exponent ≠ 0 := zpow_ne_zero _ two_ne_zero
    have hpow : ((pow2 (-d.exponent).toNat : Nat) : ℚ) * 2 ^ d.exponent = 1 := by
      rw [pow2_toNat (by omega), ← zpow_add₀ two_ne_zero, Int.add_left_neg, zpow_zero]
    rw [compare_eq_iff_eq, ← Int.cast_inj (α := ℚ), ← mul_left_inj' hunit, value]
    push_cast
    rw [mul_assoc, hpow, mul_one]

theorem Dyadic.truncate_of_compareInt {d : Dyadic} {i : Int} (h : d.compareInt i = .eq) :
    d.truncate = i := by
  unfold compareInt signed at h
  unfold truncate
  by_cases he : 0 ≤ d.exponent
  · rw [if_pos he, compare_eq_iff_eq] at h
    rw [if_pos he, h]
    cases d.negative <;> simp
  · rw [if_neg he, compare_eq_iff_eq] at h
    rw [if_neg he]
    have hpos : ((pow2 (-d.exponent).toNat : Nat) : Int) ≠ 0 := by simp
    cases hneg : d.negative with
    | false =>
      have hmantissa : (d.mantissa : Int) = i * (pow2 (-d.exponent).toNat : Nat) := by
        simpa [hneg] using h.symm
      simp only [Int.natCast_ediv, hmantissa, Int.mul_ediv_cancel _ hpos]
      rfl
    | true =>
      have hmantissa : (d.mantissa : Int) = -i * (pow2 (-d.exponent).toNat : Nat) := by
        rw [Int.neg_mul, h]
        simp [hneg]
      simp only [Int.natCast_ediv, hmantissa, Int.mul_ediv_cancel _ hpos, Int.neg_neg]
      rfl

/-- The value of a double, or the infinity that it is. -/
def Decoded.value? : Decoded → Option (Bool ⊕ ℚ)
  | .nan => none
  | .infinite negative => some (.inl negative)
  | .finite d => some (.inr d.value)

end Number

namespace Num

/-- The exact value of a number, or the infinity that it is. -/
def value? : Num → Option (Bool ⊕ ℚ)
  | int i => some (.inr i)
  | float x => (Number.decode x).value?

theorem compareMixed_eq_iff {i : Int} {x : Float} :
    compareMixed i x = some .eq ↔ (Number.decode x).value? = some (.inr (i : ℚ)) := by
  unfold compareMixed
  cases Number.decode x with
  | nan => simp [Number.Decoded.value?]
  | infinite negative => cases negative <;> simp [Number.Decoded.value?]
  | finite d => simpa [Number.Decoded.value?, Number.Dyadic.compareInt_eq_iff] using eq_comm

theorem compareFloats_eq_iff {x y : Float} :
    compareFloats x y = some .eq ↔
      ∃ q, (Number.decode x).value? = some q ∧ (Number.decode y).value? = some q := by
  unfold compareFloats
  cases Number.decode x with
  | nan => simp [Number.Decoded.value?]
  | infinite a =>
    cases Number.decode y with
    | nan => simp [Number.Decoded.value?]
    | infinite b => cases a <;> cases b <;> simp [Number.Decoded.value?]
    | finite d => cases a <;> simp [Number.Decoded.value?]
  | finite d =>
    cases Number.decode y with
    | nan => simp [Number.Decoded.value?]
    | infinite b => cases b <;> simp [Number.Decoded.value?]
    | finite e => simpa [Number.Decoded.value?, Number.Dyadic.compareTo_eq_iff] using eq_comm

/-- Two numbers are equal if and only if they have the same value. -/
theorem compare?_eq_iff {x y : Num} :
    x.compare? y = some .eq ↔ ∃ q, x.value? = some q ∧ y.value? = some q := by
  cases x with
  | int i =>
    cases y with
    | int j => simpa [compare?, value?] using eq_comm
    | float y => simp [compare?, value?, compareMixed_eq_iff]
  | float x =>
    cases y with
    | int j =>
      have hswap (o : Ordering) : o.swap = .eq ↔ o = .eq := by cases o <;> simp
      simp [compare?, value?, hswap, compareMixed_eq_iff]
    | float y => exact compareFloats_eq_iff

/-- A number that is equal to a whole number is cut off to it. -/
theorem truncate_of_equals {x : Num} {i : Int} (h : (int i).compare? x = some .eq) :
    x.truncate = .ok i := by
  cases x with
  | int j =>
    obtain rfl : i = j := by simpa [compare?] using h
    rfl
  | float x =>
    simp only [compare?, compareMixed] at h
    simp only [truncate]
    cases hx : Number.decode x with
    | nan => simp [hx] at h
    | infinite negative => cases negative <;> simp [hx] at h
    | finite d =>
      rw [hx] at h
      exact congrArg Except.ok (Number.Dyadic.truncate_of_compareInt (Option.some.inj h))

end Num

end Luuqad
