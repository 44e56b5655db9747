/-!
Decimal text of floating-point numbers.

The text of a finite number has the fewest digits that are nearer to it than to
any other number of its format (the ends of that interval count when the
significand is even), and of those the nearest digits; of two equally near ones
the larger. It is written positionally, without an exponent: `0.1`, `25`,
`1000000000000000000000`. A whole number has no point, and zero keeps its sign.
-/

namespace TerminusMonitor.Text

/-! ### Exact values -/

/-- The size of a finite number, `significand * 2 ^ exponent` without sign. -/
structure Magnitude where
  significand : Nat
  exponent : Int
  /-- Whether the next smaller number is only half as far away as the next
  larger one. -/
  boundary : Bool
deriving DecidableEq, Repr

/-- Decodes the magnitude of a finite number from its 64 bits. -/
def Magnitude.ofBits (bits : UInt64) : Magnitude :=
  let fraction := bits.toNat % Nat.pow 2 52
  let biased := bits.toNat / Nat.pow 2 52 % Nat.pow 2 11
  if biased = 0 then ⟨fraction, -1074, false⟩
  else ⟨fraction + Nat.pow 2 52, Int.ofNat biased - 1075, fraction == 0 && biased != 1⟩

/-! ### Shortest digits -/

/-- `digits * 10 ^ exponent`. -/
structure Decimal where
  digits : Nat
  exponent : Int
deriving DecidableEq, Repr

/-- `a * 2 ^ p ≤ n * 10 ^ e`, in whole numbers. -/
def binaryLe (a : Nat) (p : Int) (n : Nat) (e : Int) : Bool :=
  a * Nat.pow 2 p.toNat * Nat.pow 10 (-e).toNat ≤ n * Nat.pow 10 e.toNat * Nat.pow 2 (-p).toNat

/-- `n * 10 ^ e ≤ a * 2 ^ p`, in whole numbers. -/
def decimalLe (n : Nat) (e : Int) (a : Nat) (p : Int) : Bool :=
  n * Nat.pow 10 e.toNat * Nat.pow 2 (-p).toNat ≤ a * Nat.pow 2 p.toNat * Nat.pow 10 (-e).toNat

namespace Magnitude

/-- Whether `n * 10 ^ e` reads back as the number: it lies between the middles
towards both neighbours, ends included for an even significand. -/
def readsBack (m : Magnitude) (n : Nat) (e : Int) : Bool :=
  let upper := 4 * m.significand + 2
  let lower := 4 * m.significand - (if m.boundary then 1 else 2)
  let p := m.exponent - 2
  if m.significand % 2 = 0 then binaryLe lower p n e && decimalLe n e upper p
  else !decimalLe n e lower p && !binaryLe upper p n e

/-- The whole number of units `10 ^ e` in the number, rounded down. -/
def floorAt (m : Magnitude) (e : Int) : Nat :=
  m.significand * Nat.pow 2 m.exponent.toNat * Nat.pow 10 (-e).toNat /
    (Nat.pow 10 e.toNat * Nat.pow 2 (-m.exponent).toNat)

/-- The nearest multiple of `10 ^ e` that reads back, the larger of two equally
near ones. -/
def nearestAt? (m : Magnitude) (e : Int) : Option Decimal :=
  let n := m.floorAt e
  let below := m.readsBack n e
  let above := m.readsBack (n + 1) e
  -- `n + 1` is no farther than `n` when the number is at least `(2 * n + 1) / 2` units.
  let up := decimalLe (2 * n + 1) e (2 * m.significand) m.exponent
  if above && (up || !below) then some ⟨n + 1, e⟩
  else if below then some ⟨n, e⟩
  else none

/-- A power of ten that is larger than the number, as its exponent. -/
def ceiling (m : Magnitude) : Int :=
  ((m.significand.log2 : Int) + m.exponent) * 30103 / 100000 + 2

/-- The fewest digits that read back; zero has none. -/
def shortest (m : Magnitude) : Decimal :=
  ((List.range 24).findSome? fun i => m.nearestAt? (m.ceiling - Int.ofNat i)).getD ⟨0, 0⟩

end Magnitude

/-- A decimal number written positionally. -/
def Decimal.positional (d : Decimal) : String :=
  let digits := Nat.toDigits 10 d.digits
  if 0 ≤ d.exponent then
    String.ofList (digits ++ List.replicate (if d.digits = 0 then 0 else d.exponent.toNat) '0')
  else
    let places := (-d.exponent).toNat
    let filled := List.replicate (places + 1 - digits.length) '0' ++ digits
    String.ofList (filled.take (filled.length - places) ++ '.' ::
      filled.drop (filled.length - places))

/-- The text of a floating-point number. -/
def decimal (x : Float) : String :=
  if x.isNaN then "NaN"
  else
    let sign := if x.toBits.toNat / Nat.pow 2 63 = 1 then "-" else ""
    if x.isInf then sign ++ "inf"
    else
      let m := Magnitude.ofBits x.toBits
      sign ++ (if m.significand = 0 then "0" else m.shortest.positional)

end TerminusMonitor.Text
