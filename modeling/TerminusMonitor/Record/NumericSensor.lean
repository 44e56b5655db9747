import TerminusMonitor.Platform.Body
import TerminusMonitor.Platform.Identifier
import TerminusMonitor.Platform.Quantity

/-!
The record that describes a numeric sensor.

Two tags in it tell widths: one for the readings, among them the hysteresis and
the readable range, the other for the nominal value and the limits around it. All
numbers under one tag have its width.
-/

namespace TerminusMonitor

/-! ### Threshold levels -/

/-- The levels at which a sensor may have a threshold. -/
inductive Level where
  | upperWarning
  | upperCritical
  | upperFatal
  | lowerWarning
  | lowerCritical
  | lowerFatal
deriving DecidableEq, Repr

namespace Level

/-- All levels, in the order of their bits. -/
def all : List Level :=
  [upperWarning, upperCritical, upperFatal, lowerWarning, lowerCritical, lowerFatal]

/-- The bit of a level among the supported thresholds. -/
def bit : Level → UInt8
  | upperWarning => 0x01
  | upperCritical => 0x02
  | upperFatal => 0x04
  | lowerWarning => 0x08
  | lowerCritical => 0x10
  | lowerFatal => 0x20

/-- Whether rising readings cross the threshold. -/
def isHigh : Level → Bool
  | upperWarning | upperCritical | upperFatal => true
  | lowerWarning | lowerCritical | lowerFatal => false

/-- The name of a level. -/
def name : Level → String
  | upperWarning => "UpperWarning"
  | upperCritical => "UpperCritical"
  | upperFatal => "UpperFatal"
  | lowerWarning => "LowerWarning"
  | lowerCritical => "LowerCritical"
  | lowerFatal => "LowerFatal"

end Level

/-! ### The record -/

/-- The body of a numeric sensor record. -/
structure NumericSensorRecord where
  terminusHandle : UInt16
  sensor : SensorId
  entityType : UInt16
  entityInstance : UInt16
  container : UInt16
  initialization : UInt8
  hasNames : Bool
  baseUnit : UInt8
  /-- The power of ten that readings are to be multiplied by. -/
  unitModifier : Int8
  rateUnit : UInt8
  vendorUnit : UInt8
  auxiliaryUnit : UInt8
  auxiliaryModifier : Int8
  auxiliaryRate : UInt8
  relation : UInt8
  auxiliaryVendorUnit : UInt8
  isLinear : Bool
  resolution : Real32
  offset : Real32
  accuracy : UInt16
  plusTolerance : UInt8
  minusTolerance : UInt8
  hysteresis : Quantity
  /-- One bit for each level that has a threshold; other bits mean nothing. -/
  supported : UInt8
  volatility : UInt8
  transitionInterval : Real32
  /-- Seconds between updates of the reading. -/
  updateInterval : Real32
  maxReadable : Quantity
  minReadable : Quantity
  rangeSupport : UInt8
  nominal : Limit
  normalMax : Limit
  normalMin : Limit
  warningHigh : Limit
  warningLow : Limit
  criticalHigh : Limit
  criticalLow : Limit
  fatalHigh : Limit
  fatalLow : Limit
deriving DecidableEq, Repr

namespace NumericSensorRecord

/-- Whether the numbers under each tag have its width. -/
def uniform (r : NumericSensorRecord) : Bool :=
  [r.maxReadable, r.minReadable].all (·.tag == r.hysteresis.tag) &&
    [r.normalMax, r.normalMin, r.warningHigh, r.warningLow, r.criticalHigh, r.criticalLow,
      r.fatalHigh, r.fatalLow].all (·.tag == r.nominal.tag)

instance : Body NumericSensorRecord where
  shortest := 59
  put r :=
    Field.put r.terminusHandle ++ Field.put r.sensor ++ Field.put r.entityType ++
      Field.put r.entityInstance ++ Field.put r.container ++ Field.put r.initialization ++
      Field.put r.hasNames ++ Field.put r.baseUnit ++ Field.put r.unitModifier ++
      Field.put r.rateUnit ++ Field.put r.vendorUnit ++ Field.put r.auxiliaryUnit ++
      Field.put r.auxiliaryModifier ++ Field.put r.auxiliaryRate ++ Field.put r.relation ++
      Field.put r.auxiliaryVendorUnit ++ Field.put r.isLinear ++ Field.put r.hysteresis.tag ++
      Field.put r.resolution ++ Field.put r.offset ++ Field.put r.accuracy ++
      Field.put r.plusTolerance ++ Field.put r.minusTolerance ++ r.hysteresis.put ++
      Field.put r.supported ++ Field.put r.volatility ++ Field.put r.transitionInterval ++
      Field.put r.updateInterval ++ r.maxReadable.put ++ r.minReadable.put ++
      Field.put r.nominal.tag ++ Field.put r.rangeSupport ++ r.nominal.put ++
      r.normalMax.put ++ r.normalMin.put ++ r.warningHigh.put ++ r.warningLow.put ++
      r.criticalHigh.put ++ r.criticalLow.put ++ r.fatalHigh.put ++ r.fatalLow.put
  get := do
    let terminusHandle ← Field.get
    let sensor ← Field.get
    let entityType ← Field.get
    let entityInstance ← Field.get
    let container ← Field.get
    let initialization ← Field.get
    let hasNames ← Field.get
    let baseUnit ← Field.get
    let unitModifier ← Field.get
    let rateUnit ← Field.get
    let vendorUnit ← Field.get
    let auxiliaryUnit ← Field.get
    let auxiliaryModifier ← Field.get
    let auxiliaryRate ← Field.get
    let relation ← Field.get
    let auxiliaryVendorUnit ← Field.get
    let isLinear ← Field.get
    let readingTag ← Field.get
    let resolution ← Field.get
    let offset ← Field.get
    let accuracy ← Field.get
    let plusTolerance ← Field.get
    let minusTolerance ← Field.get
    let hysteresis ← Quantity.get readingTag
    let supported ← Field.get
    let volatility ← Field.get
    let transitionInterval ← Field.get
    let updateInterval ← Field.get
    let maxReadable ← Quantity.get readingTag
    let minReadable ← Quantity.get readingTag
    let rangeTag ← Field.get
    let rangeSupport ← Field.get
    let nominal ← Limit.get rangeTag
    let normalMax ← Limit.get rangeTag
    let normalMin ← Limit.get rangeTag
    let warningHigh ← Limit.get rangeTag
    let warningLow ← Limit.get rangeTag
    let criticalHigh ← Limit.get rangeTag
    let criticalLow ← Limit.get rangeTag
    let fatalHigh ← Limit.get rangeTag
    let fatalLow ← Limit.get rangeTag
    return {
      terminusHandle, sensor, entityType, entityInstance, container, initialization, hasNames
      baseUnit, unitModifier, rateUnit, vendorUnit, auxiliaryUnit, auxiliaryModifier
      auxiliaryRate, relation, auxiliaryVendorUnit, isLinear, resolution, offset, accuracy
      plusTolerance, minusTolerance, hysteresis, supported, volatility, transitionInterval
      updateInterval, maxReadable, minReadable, rangeSupport, nominal, normalMax, normalMin
      warningHigh, warningLow, criticalHigh, criticalLow, fatalHigh, fatalLow }
  check r := if r.uniform then .ok () else .error .inconsistent

/-! ### Thresholds -/

/-- Whether the sensor has a threshold at a level. -/
def supports (r : NumericSensorRecord) (level : Level) : Bool := r.supported &&& level.bit != 0

/-- The raw limit at a level, whether or not it is supported. -/
def limit (r : NumericSensorRecord) : Level → Limit
  | .upperWarning => r.warningHigh
  | .upperCritical => r.criticalHigh
  | .upperFatal => r.fatalHigh
  | .lowerWarning => r.warningLow
  | .lowerCritical => r.criticalLow
  | .lowerFatal => r.fatalLow

/-- The raw threshold at a level. -/
def threshold? (r : NumericSensorRecord) (level : Level) : Option Limit :=
  if r.supports level then some (r.limit level) else none

/-- A temperature sensor with one-byte readings in whole degrees, a warning above
40, another below 30, and a hysteresis of 2. -/
def temperature (sensor : SensorId) : NumericSensorRecord where
  terminusHandle := 0
  sensor := sensor
  entityType := 0x87
  entityInstance := 1
  container := 0
  initialization := 0
  hasNames := false
  baseUnit := 2
  unitModifier := 0
  rateUnit := 0
  vendorUnit := 0
  auxiliaryUnit := 0
  auxiliaryModifier := 0
  auxiliaryRate := 0
  relation := 0
  auxiliaryVendorUnit := 0
  isLinear := true
  resolution := ⟨0x3f800000⟩
  offset := ⟨0⟩
  accuracy := 0
  plusTolerance := 0
  minusTolerance := 0
  hysteresis := .u8 2
  supported := 0x09
  volatility := 0
  transitionInterval := ⟨0⟩
  updateInterval := ⟨0⟩
  maxReadable := .u8 255
  minReadable := .u8 0
  rangeSupport := 0
  nominal := .whole (.u8 35)
  normalMax := .whole (.u8 40)
  normalMin := .whole (.u8 30)
  warningHigh := .whole (.u8 40)
  warningLow := .whole (.u8 30)
  criticalHigh := .whole (.u8 0)
  criticalLow := .whole (.u8 0)
  fatalHigh := .whole (.u8 0)
  fatalLow := .whole (.u8 0)

end NumericSensorRecord

end TerminusMonitor
