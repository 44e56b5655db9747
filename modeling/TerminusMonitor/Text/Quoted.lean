import TerminusMonitor.Text.Hex
import TerminusMonitor.Text.Shown

/-!
Two ways to write text so that it can be told where it ends: quoted, with every
character that is not shown escaped, and plain ASCII without quotes.
-/

namespace TerminusMonitor.Text

/-- The escape of a character by its code point. -/
def codePoint (c : Char) : String := "\\u\x7b" ++ hex 1 c.toNat ++ "\x7d"

/-- A character inside quotes. -/
def quotedChar (c : Char) : String :=
  match c with
  | '"' => "\\\""
  | '\\' => "\\\\"
  | '\n' => "\\n"
  | '\r' => "\\r"
  | '\t' => "\\t"
  | '\x00' => "\\0"
  | _ => if isShown c then c.toString else codePoint c

/-- Text between double quotes. -/
def quoted (s : String) : String := "\"" ++ String.join (s.toList.map quotedChar) ++ "\""

/-- A character in printable ASCII. -/
def asciiChar (c : Char) : String :=
  match c with
  | '"' => "\\\""
  | '\'' => "\\'"
  | '\\' => "\\\\"
  | '\n' => "\\n"
  | '\r' => "\\r"
  | '\t' => "\\t"
  | _ => if ' ' ≤ c ∧ c ≤ '~' then c.toString else codePoint c

/-- Text in printable ASCII, without quotes around it. -/
def ascii (s : String) : String := String.join (s.toList.map asciiChar)

end TerminusMonitor.Text
