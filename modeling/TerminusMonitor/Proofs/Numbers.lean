import Mathlib.Algebra.Field.Rat
import Mathlib.Tactic.FieldSimp
import TerminusMonitor.Monitor.Effecter

/-!
The numbers that property values are.

A double is a significand times a power of two, and its value is taken exactly. A value is set
as a whole number of a given width, or not at all.

* `exactValue?_of_wholeNumber?`: a double that is taken as a whole number is that number;
* `Quantity.of_ofInt`: a number that fits a width is that number in it;
* `PropertyValue.number?_of_whole?`: so the number that an effecter is set to is the value.
-/

namespace TerminusMonitor

/-! ### Doubles -/

/-- The exact value of a double, if it is finite. -/
def exactValue? (x : Float) : Option ℚ :=
  match x.toModel.unpack with
  | .finite sign significand exponent _ => some (sign.apply significand * 2 ^ exponent)
  | .zero _ => some 0
  | .infinity _ | .notANumber => none

/-- A power of two below 1 divides a whole into parts, and whole numbers are so many wholes. -/
theorem value_of_parts {significand : ℕ} {exponent : ℤ}
    (divides : significand % (1 <<< (-exponent).toNat) = 0) :
    (significand : ℚ) * 2 ^ exponent =
      ↑(significand <<< exponent.toNat >>> (-exponent).toNat) := by
  rw [Nat.shiftLeft_eq, Nat.one_mul] at divides
  obtain ⟨wholes, rfl⟩ := Nat.dvd_of_mod_eq_zero divides
  rw [Nat.shiftRight_eq_div_pow, Nat.shiftLeft_eq, Nat.mul_assoc,
    Nat.mul_div_cancel_left _ (Nat.two_pow_pos _)]
  push_cast
  rcases Int.le_total 0 exponent with up | down
  · obtain ⟨e, rfl⟩ := Int.eq_ofNat_of_zero_le up
    simp
  · obtain ⟨e, eq⟩ := Int.eq_ofNat_of_zero_le (Int.neg_nonneg_of_nonpos down)
    obtain rfl : exponent = -(e : ℤ) := by omega
    simp only [neg_neg, Int.toNat_natCast, zpow_neg, zpow_natCast, Int.toNat_neg_natCast,
      pow_zero, mul_one]
    field_simp

theorem exactValue?_of_wholeNumber? {x : Float} {n : Int} (whole : wholeNumber? x = some n) :
    exactValue? x = some (n : ℚ) := by
  unfold wholeNumber? at whole
  unfold exactValue?
  cases unpacked : x.toModel.unpack with
  | infinity =>
    rw [unpacked] at whole
    cases whole
  | notANumber =>
    rw [unpacked] at whole
    cases whole
  | zero =>
    rw [unpacked] at whole
    cases whole
    rfl
  | finite sign significand exponent positive =>
    rw [unpacked] at whole
    dsimp only at whole ⊢
    split at whole
    next divides =>
      cases whole
      have value := value_of_parts divides
      cases sign <;>
        simp only [Float.Model.UnpackedFloat.Sign.apply, Int.cast_neg, Int.cast_natCast, neg_mul,
          value]
    next => cases whole

example : wholeNumber? 3.0 = some 3 ∧ wholeNumber? 2.5 = none := by decide +kernel

/-! ### Widths -/

namespace Quantity

/-- A number that fits a width is that number in it. -/
theorem of_ofInt {tag : UInt8} {value : Int} {q : Quantity} (fits : ofInt tag value = .ok q) :
    q.tag = tag ∧ q.toInt = value := by
  unfold ofInt at fits
  simp only at fits
  split at fits
  case h_7 => cases fits
  all_goals
    split at fits
    next range =>
      cases fits
      refine ⟨rfl, ?_⟩
      simp only [toInt, UInt8.ofInt, UInt16.ofInt, UInt32.ofInt, UInt8.toNat_ofNat',
        UInt16.toNat_ofNat', UInt32.toNat_ofNat', Int8.toInt_ofInt, Int16.toInt_ofInt,
        Int32.toInt_ofInt, Int.bmod, Int8.size, Int16.size, Int32.size]
      omega
    next => cases fits

/-- No width reaches as far as 64 bits do. -/
theorem toInt_bounds (q : Quantity) :
    Int64.minValue.toInt < q.toInt ∧ q.toInt < Int64.maxValue.toInt := by
  have low : Int64.minValue.toInt = -0x8000000000000000 := rfl
  have high : Int64.maxValue.toInt = 0x7fffffffffffffff := rfl
  cases q with
  | u8 n | u16 n | u32 n =>
    have below := n.toNat_lt
    simp only [toInt]
    omega
  | i8 n | i16 n | i32 n =>
    have below := n.toInt_lt
    have above := n.le_toInt
    simp only [toInt]
    omega

end Quantity

/-- A number that is not at an end of the range of 64 bits was not beyond it. -/
theorem eq_of_clamped {n : Int} (above : Int64.minValue.toInt < (Int64.ofIntClamp n).toInt)
    (below : (Int64.ofIntClamp n).toInt < Int64.maxValue.toInt) :
    (Int64.ofIntClamp n).toInt = n := by
  unfold Int64.ofIntClamp at above below ⊢
  split
  next low =>
    rw [dif_pos low] at below
    split
    next => exact Int64.toInt_ofIntLE ..
    next high =>
      rw [dif_neg high] at below
      exact absurd below (Int.lt_irrefl _)
  next low =>
    rw [dif_neg low] at above
    exact absurd above (Int.lt_irrefl _)

/-! ### Property values -/

namespace PropertyValue

/-- The number that a value is, if it is one. The truth values are 0 and 1. -/
def number? : PropertyValue → Option ℚ
  | int n => some n.toInt
  | bool b => some (if b then 1 else 0)
  | double x => exactValue? x
  | string _ => none

/-- What fits a width for a value is the number that the value is. -/
theorem number?_of_whole? {value : PropertyValue} {n : Int} {tag : UInt8} {q : Quantity}
    (whole : value.whole? = some n) (fits : Quantity.ofInt tag n = .ok q) :
    q.tag = tag ∧ value.number? = some (q.toInt : ℚ) := by
  obtain ⟨width, rfl⟩ := Quantity.of_ofInt fits
  refine ⟨width, ?_⟩
  cases value with
  | int n =>
    have same : n.toInt = q.toInt := Option.some.inj whole
    simp only [number?, same]
  | bool b =>
    have same : (if b then 1 else 0) = q.toInt := Option.some.inj whole
    cases b <;> simp [number?, ← same]
  | double x =>
    obtain ⟨n, found, clamped⟩ := Option.map_eq_some_iff.mp whole
    -- A double beyond 64 bits would be at an end of their range, which fits no width.
    obtain ⟨above, below⟩ := q.toInt_bounds
    rw [← clamped] at above below ⊢
    rw [eq_of_clamped above below]
    exact exactValue?_of_wholeNumber? found
  | string s => cases whole

end PropertyValue

end TerminusMonitor
