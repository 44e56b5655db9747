import TerminusMonitor.Platform.Identifier
import TerminusMonitor.Table
import TerminusMonitor.Text.Hex

/-!
Compound identifiers: a sensor among all termini, a component among all
endpoints, and an instance ID of an endpoint. Each is ordered by its first part
and then by its second.
-/

namespace TerminusMonitor

/-- The lower digit of a number of two digits is its remainder, and the upper one its quotient. -/
theorem two_digits {base b : Nat} (a : Nat) (hb : b < base) :
    (a * base + b) / base = a ∧ (a * base + b) % base = b := by
  constructor
  · rw [Nat.add_comm, Nat.add_mul_div_right _ _ (Nat.zero_lt_of_lt hb), Nat.div_eq_of_lt hb,
      Nat.zero_add]
  · rw [Nat.add_comm, Nat.add_mul_mod_self_right, Nat.mod_eq_of_lt hb]

/-- A number of two digits in a base above the lower one determines both. -/
theorem two_digits_inj {base a b c d : Nat} (hb : b < base) (hd : d < base)
    (h : a * base + b = c * base + d) : a = c ∧ b = d :=
  ⟨(two_digits a hb).1.symm.trans (h ▸ (two_digits c hd).1),
    (two_digits a hb).2.symm.trans (h ▸ (two_digits c hd).2)⟩

/-! ### Sensors -/

/-- A sensor of a terminus. -/
structure SensorKey where
  tid : Tid
  sensor : SensorId
deriving DecidableEq, Repr

instance : Ranked SensorKey where
  rank k := k.tid.toNat * 0x10000 + k.sensor.toNat
  rank_inj {a b} h := by
    obtain ⟨tid, sensor⟩ := two_digits_inj (UInt16.toNat_lt _) (UInt16.toNat_lt _) h
    cases a; cases b
    simp_all [UInt8.toNat_inj, UInt16.toNat_inj]

/-- The text of a sensor key. -/
def SensorKey.text (k : SensorKey) : String := s!"tid {k.tid} sensor {k.sensor}"

/-! ### Components -/

/-- A component of an endpoint, with firmware of its own. -/
structure Component where
  eid : Eid
  number : UInt16
deriving DecidableEq, Repr

instance : Ranked Component where
  rank c := c.eid.toNat * 0x10000 + c.number.toNat
  rank_inj {a b} h := by
    obtain ⟨eid, number⟩ := two_digits_inj (UInt16.toNat_lt _) (UInt16.toNat_lt _) h
    cases a; cases b
    simp_all [UInt8.toNat_inj, UInt16.toNat_inj]

/-- The text of a component. -/
def Component.text (c : Component) : String :=
  s!"eid {c.eid} component 0x{Text.hex 4 c.number.toNat}"

/-! ### Instance IDs -/

/-- An instance ID: it tells apart the outstanding requests to an endpoint. -/
abbrev InstanceId := Fin 32

/-- The instance ID with a given header value. -/
def InstanceId.ofByte? (b : UInt8) : Option InstanceId :=
  if h : b.toNat < 32 then some ⟨b.toNat, h⟩ else none

/-- The header value of an instance ID. -/
def InstanceId.toByte (i : InstanceId) : UInt8 := UInt8.ofNat i.val

/-- An outstanding request, by its endpoint and instance ID. -/
structure RequestKey where
  eid : Eid
  iid : InstanceId
deriving DecidableEq, Repr

instance : Ranked RequestKey where
  rank k := k.eid.toNat * 32 + k.iid.val
  rank_inj {a b} h := by
    obtain ⟨eid, iid⟩ := two_digits_inj (Fin.isLt _) (Fin.isLt _) h
    cases a; cases b
    simp_all [UInt8.toNat_inj, Fin.ext_iff]

end TerminusMonitor
