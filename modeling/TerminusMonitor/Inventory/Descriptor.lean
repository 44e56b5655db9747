import TerminusMonitor.Text.Hex
import TerminusMonitor.Text.Quoted

/-!
Descriptors: what identifies the kind of a component, and their text form.
-/

namespace TerminusMonitor

/-- A descriptor of a component. -/
inductive Descriptor where
  /-- The vendor of a PCI device. -/
  | pciVendor (id : UInt16)
  /-- An enterprise number. -/
  | enterprise (id : UInt32)
  /-- A universally unique identifier, as its sixteen bytes. -/
  | unique (bytes : List UInt8)
  /-- Data that only the vendor understands, with a title or without. -/
  | vendor (title? : Option String) (data : List UInt8)
deriving DecidableEq, Repr

namespace Descriptor

/-- The text of a universally unique identifier: its digits in five groups. -/
def uniqueText (bytes : List UInt8) : String :=
  let group (start count : Nat) := Text.hexBytes ((bytes.drop start).take count)
  "-".intercalate [group 0 4, group 4 2, group 6 2, group 8 2, group 10 6]

/-- The text of a descriptor. -/
def text : Descriptor → String
  | pciVendor id => "pci-vid:" ++ Text.hex 4 id.toNat
  | enterprise id => "iana:" ++ Text.hex 8 id.toNat
  | unique bytes => "uuid:" ++ uniqueText bytes
  | vendor title? data =>
    let title := (title?.map Text.ascii).getD ""
    s!"vendor:{title}[{Text.hexBytes data}]"

end Descriptor

end TerminusMonitor
