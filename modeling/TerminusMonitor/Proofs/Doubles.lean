import Mathlib.Algebra.Order.Field.Power
import Mathlib.Algebra.Order.Field.Rat
import Mathlib.Order.Compare
import Mathlib.Tactic.NormNum
import Mathlib.Tactic.Ring
import TerminusMonitor.Proofs.Latching
import TerminusMonitor.Proofs.Numbers

/-!
Doubles compare as the numbers that they are.

A finite double is held in one form only (`Canonical`), so that comparing exponents first and
significands second compares the values. What is computed with doubles that are compared, and
added and subtracted without rounding, is therefore what is computed with exact numbers.

* `Canonical.compare_eq`: exponents and significands compare as what they stand for;
* `compare_of_exactValue?`: so the order of finite doubles is that of their values, with
  `le_iff_of_exactValue?` and `lt_iff_of_exactValue?` for its two relations;
* `foldl_latch_exact`: so an alarm over doubles is the alarm over their values, if the bound at
  which it is cleared is exact.
-/

namespace TerminusMonitor

open Float.Model Float.Model.UnpackedFloat

/-! ### The form of a double -/

/-- The form in which a finite double is held: the significand fills its 53 bits unless the
exponent is the least one. -/
structure Canonical (significand : ℕ) (exponent : ℤ) : Prop where
  lt : significand < 2 ^ 53
  least_le : -1074 ≤ exponent
  full : exponent = -1074 ∨ 2 ^ 52 ≤ significand

variable {sign : Sign} {significand significand' : ℕ} {exponent exponent' : ℤ}

theorem canonical_unpack {x : Float.Model} {positive : 0 < significand}
    (unpacked : x.unpack = .finite sign significand exponent positive) :
    Canonical significand exponent := by
  unfold Float.Model.unpack UnpackedFloat.unpack at unpacked
  dsimp only at unpacked
  have fits := (@unpackMantissa .binary64 x.toBits.toBitVec).isLt
  change _ < 2 ^ 52 at fits
  by_cases reserved : @unpackExponent .binary64 x.toBits.toBitVec = -1#11
  · -- Infinities, and what is no number.
    rw [if_pos reserved] at unpacked
    by_cases empty : @unpackMantissa .binary64 x.toBits.toBitVec = 0#52
    · rw [if_pos empty] at unpacked
      cases unpacked
    · rw [if_neg empty] at unpacked
      cases unpacked
  rw [if_neg reserved] at unpacked
  by_cases least : @unpackExponent .binary64 x.toBits.toBitVec = 0#11
  · -- Zeros, and what does not fill its bits.
    rw [if_pos least] at unpacked
    by_cases empty : @unpackMantissa .binary64 x.toBits.toBitVec = 0#52
    · rw [dif_pos empty] at unpacked
      cases unpacked
    · rw [dif_neg empty] at unpacked
      cases unpacked
      rw [least]
      exact ⟨by omega, by decide, .inl (by decide)⟩
  · rw [if_neg least] at unpacked
    cases unpacked
    have nonzero : (@unpackExponent .binary64 x.toBits.toBitVec).toNat ≠ 0 :=
      fun zero => least (BitVec.eq_of_toNat_eq zero)
    -- The first bit of the significand is not written.
    have whole : (1#1 ++ @unpackMantissa .binary64 x.toBits.toBitVec).toNat =
        2 ^ 52 + (@unpackMantissa .binary64 x.toBits.toBitVec).toNat := by
      rw [BitVec.toNat_append, ← Nat.shiftLeft_add_eq_or_of_lt fits]
      rfl
    rw [whole]
    refine ⟨by omega, ?_, .inr (by omega)⟩
    change -1074 ≤ (_ : ℤ) - 1075
    omega

/-- A double of a larger exponent is larger. -/
theorem Canonical.lt_of_exponent_lt (form : Canonical significand exponent)
    (form' : Canonical significand' exponent') (less : exponent < exponent') :
    (significand : ℚ) * 2 ^ exponent < significand' * 2 ^ exponent' := by
  have least := form.least_le
  have fits : (significand : ℚ) < 2 ^ 53 := by exact_mod_cast form.lt
  have full : (2 : ℚ) ^ 52 ≤ significand' := by
    exact_mod_cast form'.full.resolve_left (by omega)
  calc (significand : ℚ) * 2 ^ exponent
      < 2 ^ 53 * 2 ^ exponent := by gcongr
    _ = 2 ^ 52 * 2 ^ (exponent + 1) := by
        rw [zpow_add_one₀ two_ne_zero]
        ring
    _ ≤ significand' * 2 ^ exponent' := by
        gcongr
        · norm_num
        · omega

/-- Doubles are compared by their exponents first, then by their significands. -/
theorem Canonical.compare_eq (form : Canonical significand exponent)
    (form' : Canonical significand' exponent') :
    (compare exponent exponent').then (compare significand significand') =
      compare ((significand : ℚ) * 2 ^ exponent) (significand' * 2 ^ exponent') := by
  rcases lt_trichotomy exponent exponent' with less | rfl | more
  · rw [compare_lt_iff_lt.mpr less, compare_lt_iff_lt.mpr (form.lt_of_exponent_lt form' less)]
    rfl
  · rw [compare_eq_iff_eq.mpr rfl, Ordering.eq_then]
    have grows : StrictMono fun m : ℕ => (m : ℚ) * 2 ^ exponent := by
      intro m m' less
      dsimp only
      gcongr
    rw [← cmp_eq_compare, ← cmp_eq_compare]
    exact (grows.cmp_map_eq significand significand').symm
  · rw [compare_gt_iff_gt.mpr more, compare_gt_iff_gt.mpr (form'.lt_of_exponent_lt form more)]
    rfl

/-! ### Values -/

/-- What is held of a finite double, and its value. -/
inductive Holds : UnpackedFloat → ℚ → Prop where
  | zero {s : Sign} : Holds (.zero s) 0
  | positive {m : ℕ} {e : ℤ} {above : 0 < m} (form : Canonical m e) :
      Holds (.finite .positive m e above) (m * 2 ^ e)
  | negative {m : ℕ} {e : ℤ} {above : 0 < m} (form : Canonical m e) :
      Holds (.finite .negative m e above) (-(m * 2 ^ e))

theorem holds_of_exactValue? {x : Float} {v : ℚ} (exact : exactValue? x = some v) :
    Holds x.toModel.unpack v := by
  unfold exactValue? at exact
  cases unpacked : x.toModel.unpack with
  | zero sign =>
    rw [unpacked] at exact
    cases exact
    exact .zero
  | finite sign significand exponent above =>
    have form := canonical_unpack unpacked
    rw [unpacked] at exact
    cases exact
    cases sign with
    | positive => exact .positive form
    | negative =>
      rw [Sign.apply, Int.cast_neg, neg_mul]
      exact .negative form
  | infinity | notANumber =>
    rw [unpacked] at exact
    cases exact

theorem compare_neg_neg (v w : ℚ) : compare (-v) (-w) = (compare v w).swap := by
  have falls : StrictAnti fun v : ℚ => -v := fun _ _ less => neg_lt_neg less
  rw [← cmp_eq_compare, ← cmp_eq_compare, cmp_swap]
  exact falls.cmp_map_eq v w

theorem Holds.compare_eq {a b : UnpackedFloat} {v w : ℚ} (left : Holds a v) (right : Holds b w) :
    a.compare b = some (compare v w) := by
  have up {m : ℕ} {e : ℤ} (above : 0 < m) : (0 : ℚ) < m * 2 ^ e := by positivity
  have down {m : ℕ} {e : ℤ} (above : 0 < m) : -((m : ℚ) * 2 ^ e) < 0 := neg_neg_of_pos (up above)
  cases left with
  | zero =>
    cases right with
    | zero => rfl
    | @positive _ _ above => exact congrArg some (compare_lt_iff_lt.mpr (up above)).symm
    | @negative _ _ above => exact congrArg some (compare_gt_iff_gt.mpr (down above)).symm
  | @positive _ _ above form =>
    cases right with
    | zero => exact congrArg some (compare_gt_iff_gt.mpr (up above)).symm
    | positive form' => exact congrArg some (form.compare_eq form')
    | @negative _ _ above' =>
      exact congrArg some (compare_gt_iff_gt.mpr ((down above').trans (up above))).symm
  | @negative _ _ above form =>
    cases right with
    | zero => exact congrArg some (compare_lt_iff_lt.mpr (down above)).symm
    | @positive _ _ above' =>
      exact congrArg some (compare_lt_iff_lt.mpr ((down above).trans (up above'))).symm
    | negative form' =>
      rw [compare_neg_neg, ← form.compare_eq form']
      rfl

variable {x y : Float} {v w : ℚ}

/-- Finite doubles are compared as the numbers that they are. -/
theorem compare_of_exactValue? (vx : exactValue? x = some v) (wy : exactValue? y = some w) :
    x.toModel.unpack.compare y.toModel.unpack = some (compare v w) :=
  (holds_of_exactValue? vx).compare_eq (holds_of_exactValue? wy)

theorem le_iff_of_exactValue? (vx : exactValue? x = some v) (wy : exactValue? y = some w) :
    x ≤ y ↔ v ≤ w := by
  change decide ((x.toModel.unpack.compare y.toModel.unpack).any (·.isLE) = true) = true ↔ _
  rw [compare_of_exactValue? vx wy, decide_eq_true_eq, Option.any_some, Ordering.isLE_iff_ne_gt]
  exact compare_le_iff_le

theorem lt_iff_of_exactValue? (vx : exactValue? x = some v) (wy : exactValue? y = some w) :
    x < y ↔ v < w := by
  change decide ((x.toModel.unpack.compare y.toModel.unpack == some .lt) = true) = true ↔ _
  rw [compare_of_exactValue? vx wy, decide_eq_true_eq, beq_iff_eq, Option.some.injEq,
    compare_lt_iff_lt]

/-! ### Alarms -/

/-- The alarm of doubles is that of exact numbers if the bound at which it is cleared is exact,
which is below the threshold for a high alarm and above it for a low one. -/
theorem foldl_latch_exact {high raised : Bool} {threshold hysteresis : Float} {t h : ℚ}
    (bound : exactValue? threshold = some t)
    (cleared : exactValue? (if high then threshold - hysteresis else threshold + hysteresis) =
      some (if high then t - h else t + h))
    {readings : List Float} {values : List ℚ}
    (exact : List.Forall₂ (fun x v => exactValue? x = some v) readings values) :
    readings.foldl (latch high threshold hysteresis) raised =
      values.foldl (latch high t h) raised := by
  induction exact generalizing raised with
  | nil => rfl
  | @cons x v _ _ vx _ ih =>
    have same : latch high threshold hysteresis raised x = latch high t h raised v := by
      unfold latch
      cases high with
      | true =>
        have retreats : x < threshold - hysteresis ↔ v < t - h := lt_iff_of_exactValue? vx cleared
        simp only [if_true, le_iff_of_exactValue? bound vx, retreats]
      | false =>
        have retreats : threshold + hysteresis < x ↔ t + h < v := lt_iff_of_exactValue? cleared vx
        simp only [Bool.false_eq_true, if_false, le_iff_of_exactValue? vx bound, retreats]
    rw [List.foldl_cons, List.foldl_cons, same, ih]

end TerminusMonitor
