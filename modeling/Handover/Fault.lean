/-!
# Faults

What can go wrong outside the decisions themselves: reading a configuration and
setting up logging.
-/

namespace Handover

/-- A fault of the surroundings. -/
inductive Fault where
  /-- A setting is unusable. -/
  | configuration (reason : String)
  /-- A file could not be read. -/
  | unreadable
  /-- A document could not be understood. -/
  | malformed
  /-- Messages already have a destination. -/
  | loggingInstalled
deriving DecidableEq, Repr

namespace Fault

/-- Text of a fault. -/
def message : Fault → String
  | configuration reason => "Configuration error: " ++ reason
  | unreadable => "I/O error"
  | malformed => "YAML parse error"
  | loggingInstalled => "Logging setup failed"

end Fault

end Handover
