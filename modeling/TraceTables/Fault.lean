import TraceTables.Binary.Cause
import TraceTables.Json.Cause

/-!
# Faults of a run

Everything that can end a run early, from the command line to the last write, with the
wording in which it is reported.
-/

namespace TraceTables

/-- Where in a recording an event is malformed. -/
inductive Place where
  /-- A line, counted from one. -/
  | line (number : Nat)
  /-- An event, counted from zero. -/
  | event (index : Nat)
  /-- Not in a recording that is read, but in the one being written. -/
  | output
  deriving DecidableEq

/-- How a place is named. -/
def Place.message : Place → String
  | .line number => s!"line {number}"
  | .event index => s!"event {index}"
  | .output => "output"

/-- Why an event is malformed. -/
inductive Malformation where
  | json (fault : Json.Malformed)
  | binary (cause : Binary.Cause)
  deriving DecidableEq

/-- The wording of a reason. -/
def Malformation.message : Malformation → String
  | .json fault => fault.message
  | .binary cause => cause.message

/-- Whether an event arrives between tables or inside one. -/
inductive Position where
  | betweenTables
  | insideTable
  deriving DecidableEq

/-- How a position is named. -/
def Position.message : Position → String
  | .betweenTables => "between tables"
  | .insideTable => "inside a table"

/-- A fault that ends a run. -/
inductive Fault where
  | missingInput
  | tooManyInputs
  | conflictingFilters
  /-- A backslash sequence in a separator that stands for nothing. -/
  | invalidEscape (sequence typed : String)
  | outputOpen (path : String) (cause : DeviceFault)
  | inputOpen (path : String) (cause : DeviceFault)
  | malformedEvent (place : Place) (reason : Malformation)
  /-- An event, named by its word, that cannot occur where it does. -/
  | unexpectedEvent (word : String) (position : Position)
  /-- The decoder of the trace had reported this. -/
  | decode (message : String)
  | device (cause : DeviceFault)
  deriving DecidableEq

namespace Fault

/-- The wording of a fault. -/
def message : Fault → String
  | .missingInput => "The name of a trace event file must be specified"
  | .tooManyInputs => "Only a single input file is allowed to be specified"
  | .conflictingFilters => "Only one of --include (-i) and --exclude (-e) may be specified"
  | .invalidEscape sequence typed =>
    "Unrecognized escape sequence \"" ++ sequence ++ "\" in \"" ++ typed ++ "\""
  | .outputOpen path cause => "Failed to open " ++ path ++ " for writing: " ++ cause.message
  | .inputOpen path cause => "Failed to open " ++ path ++ " for reading: " ++ cause.message
  | .malformedEvent place reason =>
    "Malformed event at " ++ place.message ++ ": " ++ reason.message
  | .unexpectedEvent word position =>
    "Unexpected " ++ word ++ " event while " ++ position.message
  | .decode message => message
  | .device cause => "IO error: " ++ cause.message

/-- The fault of the device underneath, if there is one. -/
def cause? : Fault → Option DeviceFault
  | .outputOpen _ cause | .inputOpen _ cause | .device cause => some cause
  | _ => none

/-- The wording of a fault followed by that of its cause. -/
def chain (fault : Fault) : String :=
  match fault.cause? with
  | some cause => fault.message ++ ": " ++ cause.message
  | none => fault.message

end Fault

end TraceTables
