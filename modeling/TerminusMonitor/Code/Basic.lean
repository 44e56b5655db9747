/-!
Assigned codes: closed sets of values, each with a byte of its own on the wire
and a name. A byte outside the set is no value of it (`ofCode?`).
-/

namespace TerminusMonitor

/-- A closed set of values with a wire code and a name each. -/
class Coded (α : Type) where
  all : List α
  code : α → UInt8
  name : α → String
  mem_all : ∀ x, x ∈ all
  code_inj : ∀ {x y}, code x = code y → x = y

namespace Coded

variable {α : Type} [Coded α]

/-- The value with a given code. -/
def ofCode? (c : UInt8) : Option α := all.find? fun x => code x == c

/-- The value with a given name. -/
def ofName? (s : String) : Option α := all.find? fun x => name x == s

theorem code_of_ofCode? {c : UInt8} {x : α} (found : ofCode? c = some x) : code x = c :=
  beq_iff_eq.mp (List.find?_some (p := fun y => code y == c) found)

@[simp] theorem ofCode?_code (x : α) : ofCode? (code x) = some x := by
  have hit : (ofCode? (α := α) (code x)).isSome :=
    List.find?_isSome.mpr ⟨x, mem_all x, beq_self_eq_true _⟩
  obtain ⟨y, found⟩ := Option.isSome_iff_exists.mp hit
  rw [found, code_inj (code_of_ofCode? found)]

/-- Reading a code undoes writing it, and accepts nothing else. -/
theorem ofCode?_eq_some_iff {c : UInt8} {x : α} : ofCode? c = some x ↔ code x = c :=
  ⟨code_of_ofCode?, fun written => written ▸ ofCode?_code x⟩

end Coded

end TerminusMonitor
