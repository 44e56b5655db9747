/-!
Identifiers of endpoints, termini, sensors and effecters, and the text form of
the last two: decimal digits, or hexadecimal ones after `0x`, with one leading
`+` allowed before the digits.
-/

namespace TerminusMonitor

/-- The address of an endpoint on the transport. -/
abbrev Eid := UInt8

/-- The identifier of a terminus. -/
abbrev Tid := UInt8

/-- The identifier of a sensor within its terminus. -/
abbrev SensorId := UInt16

/-- The identifier of an effecter within its terminus. -/
abbrev EffecterId := UInt16

/-- Why a text is no identifier. -/
inductive NumeralFault where
  /-- There is no text. -/
  | empty
  /-- A character is no digit, or a sign stands alone. -/
  | notDigit
  /-- The number is larger than an identifier can be. -/
  | overflow
deriving DecidableEq, Repr

/-- The text of a fault. -/
def NumeralFault.message : NumeralFault → String
  | empty => "cannot parse integer from empty string"
  | notDigit => "invalid digit found in string"
  | overflow => "number too large to fit in target type"

namespace Numeral

/-- The value of a digit below `base`, in either case. -/
def digit? (base : Nat) (c : Char) : Option Nat :=
  let value :=
    if '0' ≤ c ∧ c ≤ '9' then some (c.toNat - '0'.toNat)
    else if 'a' ≤ c ∧ c ≤ 'z' then some (c.toNat - 'a'.toNat + 10)
    else if 'A' ≤ c ∧ c ≤ 'Z' then some (c.toNat - 'A'.toNat + 10)
    else none
  value.filter (· < base)

/-- Reads digits from the left, to be appended to `acc`; the first one that is
wrong or leads too far decides. -/
def digits (base : Nat) (acc : Nat) : List Char → Except NumeralFault UInt16
  | [] => .ok acc.toUInt16
  | c :: rest =>
    match digit? base c with
    | none => .error .notDigit
    | some d =>
      if base * acc + d < 0x10000 then digits base (base * acc + d) rest else .error .overflow

/-- Reads a number in a given base. -/
def ofChars (base : Nat) : List Char → Except NumeralFault UInt16
  | [] => .error .empty
  | ['+'] | ['-'] => .error .notDigit
  | '+' :: rest => digits base 0 rest
  | cs => digits base 0 cs

/-- Reads the identifier of a sensor or effecter. -/
def ofString (s : String) : Except NumeralFault UInt16 :=
  match s.toList with
  | '0' :: 'x' :: rest => ofChars 16 rest
  | cs => ofChars 10 cs

end Numeral

end TerminusMonitor
