import TerminusMonitor.Text.Decimal
import TerminusMonitor.Text.Quoted

/-!
Values of published object properties, and their types.
-/

namespace TerminusMonitor

/-- The value of a property. -/
inductive PropertyValue where
  | double (x : Float)
  | int (n : Int64)
  | bool (b : Bool)
  | string (s : String)
deriving Repr

namespace PropertyValue

/-- Values are equal when they have one type and are equal in it. Doubles are
compared as numbers: a NaN equals nothing, and the two zeros are equal. -/
instance : BEq PropertyValue where
  beq
    | double x, double y => x == y
    | int m, int n => m == n
    | bool a, bool b => a == b
    | string s, string t => s == t
    | _, _ => false

/-- The text of a value; strings are quoted. -/
def text : PropertyValue → String
  | double x => Text.decimal x
  | int n => toString n.toInt
  | bool b => if b then "true" else "false"
  | string s => Text.quoted s

end PropertyValue

/-- The type of a property. -/
inductive PropertyType where
  | bool
  | int
  | double
  | string
deriving DecidableEq, Repr

namespace PropertyType

/-- The name of a type. -/
def name : PropertyType → String
  | bool => "Bool"
  | int => "Int"
  | double => "Double"
  | string => "String"

/-- All types. -/
def all : List PropertyType := [bool, int, double, string]

/-- The type with a given name. -/
def ofName? (s : String) : Option PropertyType := all.find? fun t => t.name == s

/-- Whether a value has the type. -/
def accepts : PropertyType → PropertyValue → Bool
  | bool, .bool _ | int, .int _ | double, .double _ | string, .string _ => true
  | _, _ => false

end PropertyType

end TerminusMonitor
