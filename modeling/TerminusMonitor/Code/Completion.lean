import TerminusMonitor.Code.Basic

/-!
Completion codes of responses. Codes from 0x80 on are assigned anew by each
command, so that one byte has several readings; those of platform monitoring and
of firmware update stand below as plain bytes.
-/

namespace TerminusMonitor

/-- A completion code that every message type shares. -/
inductive CompletionCode where
  | success
  | error
  | invalidData
  | invalidLength
  | notReady
  | unsupportedCommand
  | invalidType
deriving DecidableEq, Repr

instance : Coded CompletionCode where
  all := [.success, .error, .invalidData, .invalidLength, .notReady, .unsupportedCommand,
    .invalidType]
  code
    | .success => 0
    | .error => 1
    | .invalidData => 2
    | .invalidLength => 3
    | .notReady => 4
    | .unsupportedCommand => 5
    | .invalidType => 32
  name
    | .success => "SUCCESS"
    | .error => "ERROR"
    | .invalidData => "ERROR_INVALID_DATA"
    | .invalidLength => "ERROR_INVALID_LENGTH"
    | .notReady => "ERROR_NOT_READY"
    | .unsupportedCommand => "ERROR_UNSUPPORTED_PLDM_CMD"
    | .invalidType => "ERROR_INVALID_PLDM_TYPE"
  mem_all x := by cases x <;> decide
  code_inj {x y} h := by cases x <;> cases y <;> first | rfl | exact absurd h (by decide)

/-- The byte of a successful response. -/
def success : UInt8 := Coded.code CompletionCode.success

/-! ### Codes of single commands -/

namespace CompletionCode

def invalidSensorId : UInt8 := 0x80
def invalidEffecterId : UInt8 := 0x80
def invalidSearchType : UInt8 := 0x80
def rearmUnavailable : UInt8 := 0x81
def invalidStateValue : UInt8 := 0x81
def invalidTransferHandle : UInt8 := 0x80
def invalidTransferOperation : UInt8 := 0x81
def invalidRecordHandle : UInt8 := 0x82
def invalidRecordChange : UInt8 := 0x83
def transferTimeout : UInt8 := 0x84
def repositoryUpdating : UInt8 := 0x85
def unsupportedSensorState : UInt8 := 0x82
def eventGenerationUnsupported : UInt8 := 0x82

/-- The receiver of a firmware update request was not expecting it. -/
def commandNotExpected : UInt8 := 0x88

end CompletionCode

end TerminusMonitor
