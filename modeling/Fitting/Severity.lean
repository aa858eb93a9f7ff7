import Fitting.Named

/-!
# How bad an error is
-/

namespace Fitting

/-- how bad an error is for the run that meets it -/
inductive Severity where
  /-- only the offending input is skipped -/
  | recoverable
  /-- the caller has to correct the input -/
  | validation
  /-- the bookkeeping of the engine is inconsistent -/
  | internal
  /-- nothing can be computed -/
  | fatal
deriving DecidableEq, Repr

namespace Severity

instance : Named Severity where
  alternatives := [.recoverable, .validation, .internal, .fatal]
  name
    | .recoverable => "recoverable"
    | .validation => "validation"
    | .internal => "internal"
    | .fatal => "fatal"

def isRecoverable (s : Severity) : Bool := s = .recoverable

end Severity

end Fitting
