import TerminusMonitor.Record.NumericSensor

/-!
From raw readings to engineering units:
`(resolution * raw + offset) * 10 ^ unitModifier`, in double precision.
-/

namespace TerminusMonitor

/-- Multiplies `acc` by `base ^ exponent`, squaring the base once for each binary
digit of the exponent. -/
def powerLoop (base acc : Float) (exponent : Nat) : Float :=
  let acc := if exponent % 2 = 1 then acc * base else acc
  if exponent / 2 = 0 then acc else powerLoop (base * base) acc (exponent / 2)
termination_by exponent

/-- A power of ten. A negative exponent gives the reciprocal of the positive one. -/
def powerOfTen (exponent : Int) : Float :=
  let power := powerLoop 10 1 exponent.natAbs
  if exponent < 0 then 1 / power else power

/-- How raw readings become values. -/
structure Conversion where
  resolution : Float
  offset : Float
  unitModifier : Int8
deriving Repr

namespace Conversion

/-- The conversion that a sensor record tells. -/
def ofRecord (r : NumericSensorRecord) : Conversion :=
  { resolution := r.resolution.toFloat, offset := r.offset.toFloat, unitModifier := r.unitModifier }

/-- The power of ten that values are multiplied by. -/
def scale (c : Conversion) : Float := powerOfTen c.unitModifier.toInt

/-- The value of a raw reading. -/
def apply (c : Conversion) (raw : Float) : Float := (c.resolution * raw + c.offset) * c.scale

/-- The value of a difference between raw readings, from which the offset cancels. -/
def applyDelta (c : Conversion) (raw : Float) : Float := c.resolution * raw * c.scale

end Conversion

end TerminusMonitor
