import TerminusMonitor.Code.Basic

/-!
Flags of a transfer in parts.
-/

namespace TerminusMonitor

/-- Which part of a record is asked for. -/
inductive TransferOperation where
  | getNextPart
  | getFirstPart
deriving DecidableEq, Repr

instance : Coded TransferOperation where
  all := [.getNextPart, .getFirstPart]
  code
    | .getNextPart => 0
    | .getFirstPart => 1
  name
    | .getNextPart => "GetNextPart"
    | .getFirstPart => "GetFirstPart"
  mem_all x := by cases x <;> decide
  code_inj {x y} h := by cases x <;> cases y <;> first | rfl | exact absurd h (by decide)

/-- Which part of a record a response holds. -/
inductive TransferFlag where
  | start
  | middle
  | last
  | startAndEnd
deriving DecidableEq, Repr

instance : Coded TransferFlag where
  all := [.start, .middle, .last, .startAndEnd]
  code
    | .start => 0
    | .middle => 1
    | .last => 4
    | .startAndEnd => 5
  name
    | .start => "Start"
    | .middle => "Middle"
    | .last => "End"
    | .startAndEnd => "StartAndEnd"
  mem_all x := by cases x <;> decide
  code_inj {x y} h := by cases x <;> cases y <;> first | rfl | exact absurd h (by decide)

end TerminusMonitor
