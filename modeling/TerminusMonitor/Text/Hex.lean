/-!
Hexadecimal text: lower-case digits, filled with zeros on the left up to a
least width.
-/

namespace TerminusMonitor.Text

/-- A number in base 16 with at least `width` digits. -/
def hex (width n : Nat) : String :=
  let digits := Nat.toDigits 16 n
  String.ofList (List.replicate (width - digits.length) '0' ++ digits)

/-- The two digits of a byte. -/
def hexByte (b : UInt8) : String := hex 2 b.toNat

/-- The digits of a sequence of bytes, two for each. -/
def hexBytes (bytes : List UInt8) : String := String.join (bytes.map hexByte)

example : hex 4 0x1af = "01af" := by decide

example : hexBytes [0, 0xa5] = "00a5" := by decide

end TerminusMonitor.Text
