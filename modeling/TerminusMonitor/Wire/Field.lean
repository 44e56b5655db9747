import TerminusMonitor.Code.Basic
import TerminusMonitor.Message.Fault

/-!
Fields of message bodies: how single values are written, and read back from the
front of a sequence of bytes. Numbers of several bytes are little-endian, a truth
value is the byte 0 or 1, and a coded value is its code.

A reader takes what it needs from the front and leaves the rest. It fails with
`MessageFault.short` when the bytes end too early, and with
`MessageFault.undefinedCode` when a byte stands for nothing.
-/

namespace TerminusMonitor

/-- Reads a value from the front of the bytes that are left. -/
abbrev Reader := StateT (List UInt8) (Except MessageFault)

/-- A single-precision number, held as its 32 bits. -/
structure Real32 where
  bits : UInt32
deriving DecidableEq, Repr

/-- The same number in double precision. -/
def Real32.toFloat (x : Real32) : Float := (Float32.ofBits x.bits).toFloat

/-- Values with a written form in message bodies. -/
class Field (α : Type) where
  put : α → List UInt8
  get : Reader α

namespace Wire

/-- Reads one byte. -/
def byte : Reader UInt8 := fun bytes =>
  match bytes with
  | [] => .error .short
  | b :: rest => .ok (b, rest)

/-- Reads a given number of bytes. -/
def bytes (n : Nat) : Reader (List UInt8) := fun input =>
  if input.length < n then .error .short else .ok (input.take n, input.drop n)

/-- Reads `n` values one after the other. -/
def times {α : Type} (read : Reader α) : Nat → Reader (List α)
  | 0 => return []
  | n + 1 => do
    let first ← read
    return first :: (← times read n)

/-- The two bytes of a number, the lower first. -/
def put16 (n : UInt16) : List UInt8 := [n.toUInt8, (n >>> 8).toUInt8]

/-- Reads a number of two bytes. -/
def get16 : Reader UInt16 := do
  let low ← byte
  let high ← byte
  return low.toUInt16 ||| (high.toUInt16 <<< 8)

/-- The four bytes of a number, the lowest first. -/
def put32 (n : UInt32) : List UInt8 :=
  [n.toUInt8, (n >>> 8).toUInt8, (n >>> 16).toUInt8, (n >>> 24).toUInt8]

/-- Reads a number of four bytes. -/
def get32 : Reader UInt32 := do
  let low ← get16
  let high ← get16
  return low.toUInt32 ||| (high.toUInt32 <<< 16)

end Wire

/-! ### Instances -/

instance : Field UInt8 where
  put n := [n]
  get := Wire.byte

instance : Field Int8 where
  put n := [n.toUInt8]
  get := return (← Wire.byte).toInt8

instance : Field UInt16 where
  put := Wire.put16
  get := Wire.get16

instance : Field Int16 where
  put n := Wire.put16 n.toUInt16
  get := return (← Wire.get16).toInt16

instance : Field UInt32 where
  put := Wire.put32
  get := Wire.get32

instance : Field Int32 where
  put n := Wire.put32 n.toUInt32
  get := return (← Wire.get32).toInt32

instance : Field Real32 where
  put x := Wire.put32 x.bits
  get := return ⟨← Wire.get32⟩

instance : Field Bool where
  put b := [if b then 1 else 0]
  get := do
    match ← Wire.byte with
    | 0 => return false
    | 1 => return true
    | _ => throw .undefinedCode

instance {α : Type} [Coded α] : Field α where
  put x := [Coded.code x]
  get := do
    match Coded.ofCode? (← Wire.byte) with
    | some x => return x
    | none => throw .undefinedCode

end TerminusMonitor
