import Rescale.Decimal.Shortest
import Rescale.Decision.Error

/-!
# Command Errors

Why a command fails.

## Main definitions

* `CommandError`: The causes.
* `CommandError.message`: Their wording.
-/

namespace Rescale

/-- Why a command fails. -/
inductive CommandError where
  | config (path : String)
  | snapshotUnread (path : String)
  | snapshotUnparsed (path : String)
  | storeUnopened (path : String)
  /-- The folder of the store cannot be made. -/
  | folder (why : String)
  | noFolder (path : String)
  | cpuNotPositive (cpu : Float)
  | usedCpuNegative
  | memorySize (text : String)
  | store (cause : StoreError)
  | decision (cause : DecisionError)
  deriving DecidableEq, Repr

namespace CommandError

/-- The wording of an error. -/
def message : CommandError → String
  | config path => "failed to load config " ++ path
  | snapshotUnread path => "failed to read snapshot " ++ path
  | snapshotUnparsed path => "failed to parse snapshot " ++ path
  | storeUnopened path => "failed to open state store " ++ path
  | folder why => why
  | noFolder path => "snapshot directory " ++ path ++ " does not exist"
  | cpuNotPositive cpu => "cpu must be positive, got " ++ Decimal.plain cpu
  | usedCpuNegative => "used cpu must not be negative"
  | memorySize text => "invalid memory size '" ++ text ++ "'"
  | store cause => cause.message
  | decision cause => cause.message

end CommandError

end Rescale
