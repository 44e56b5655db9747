import TerminusMonitor.Wire.Field

/-!
Raw numbers of sensors and effecters. The width of a number is told by a tag
that stands apart from it in a message, so reading one needs the tag first. A
`Quantity` is a whole number of one to four bytes; a `Limit`, the value of a
range field in a sensor record, may also be a single-precision number.
-/

namespace TerminusMonitor

/-- A whole number of a given width and sign. -/
inductive Quantity where
  | u8 (n : UInt8)
  | i8 (n : Int8)
  | u16 (n : UInt16)
  | i16 (n : Int16)
  | u32 (n : UInt32)
  | i32 (n : Int32)
deriving DecidableEq, Repr

namespace Quantity

/-- The data size tag. -/
def tag : Quantity → UInt8
  | u8 _ => 0
  | i8 _ => 1
  | u16 _ => 2
  | i16 _ => 3
  | u32 _ => 4
  | i32 _ => 5

/-- The largest data size tag. -/
def lastTag : UInt8 := 5

/-- The number itself. -/
def toInt : Quantity → Int
  | u8 n => n.toNat
  | i8 n => n.toInt
  | u16 n => n.toNat
  | i16 n => n.toInt
  | u32 n => n.toNat
  | i32 n => n.toInt

/-- The number in double precision, which holds it exactly. -/
def toFloat (q : Quantity) : Float := Float.ofInt q.toInt

/-- The bytes of a number, without its tag. -/
def put : Quantity → List UInt8
  | u8 n => Field.put n
  | i8 n => Field.put n
  | u16 n => Field.put n
  | i16 n => Field.put n
  | u32 n => Field.put n
  | i32 n => Field.put n

/-- Reads a number of the width that a tag tells. -/
def get (tag : UInt8) : Reader Quantity :=
  match tag with
  | 0 => u8 <$> Field.get
  | 1 => i8 <$> Field.get
  | 2 => u16 <$> Field.get
  | 3 => i16 <$> Field.get
  | 4 => u32 <$> Field.get
  | 5 => i32 <$> Field.get
  | _ => throw .undefinedCode

/-- A number in the width that a tag tells, if it fits. -/
def ofInt (tag : UInt8) (value : Int) : Except MessageFault Quantity :=
  let fit (low high : Int) (q : Quantity) : Except MessageFault Quantity :=
    if low ≤ value ∧ value ≤ high then .ok q else .error (.unfitValue value tag)
  match tag with
  | 0 => fit 0 0xff (u8 (UInt8.ofInt value))
  | 1 => fit (-0x80) 0x7f (i8 (Int8.ofInt value))
  | 2 => fit 0 0xffff (u16 (UInt16.ofInt value))
  | 3 => fit (-0x8000) 0x7fff (i16 (Int16.ofInt value))
  | 4 => fit 0 0xffffffff (u32 (UInt32.ofInt value))
  | 5 => fit (-0x80000000) 0x7fffffff (i32 (Int32.ofInt value))
  | _ => .error (.unknownSize tag)

end Quantity

/-- The value of a range field. -/
inductive Limit where
  | whole (q : Quantity)
  | real (x : Real32)
deriving DecidableEq, Repr

namespace Limit

/-- The tag of a single-precision range field. -/
def realTag : UInt8 := 6

/-- The range field format tag. -/
def tag : Limit → UInt8
  | whole q => q.tag
  | real _ => realTag

/-- The value in double precision, which holds it exactly. -/
def toFloat : Limit → Float
  | whole q => q.toFloat
  | real x => x.toFloat

/-- The bytes of a value, without its tag. -/
def put : Limit → List UInt8
  | whole q => q.put
  | real x => Field.put x

/-- Reads a value of the format that a tag tells. -/
def get (tag : UInt8) : Reader Limit :=
  if tag = realTag then real <$> Field.get else whole <$> Quantity.get tag

end Limit

end TerminusMonitor
