import TraceTables.CommandLine.Arguments
import TraceTables.Renderer.Progress
import TraceTables.Separator

/-!
# The settings of a run

What a command line says is checked and made into the settings of one run. Of several
faults the first in this order counts: the number of inputs, the separator, the filter.
-/

namespace TraceTables

/-- Where the output goes. -/
inductive Target where
  | standardOutput
  | file (path : String)
  deriving DecidableEq

/-- How a target is named. -/
def Target.shown : Target → String
  | .standardOutput => "standard output"
  | .file path => path

/-- The settings of a run. -/
structure Config where
  input : String
  format : Format
  output : Target
  options : Options
  deriving DecidableEq

namespace Config

/-- The only input. -/
def soleInput : List String → Except Fault String
  | [] => .error .missingInput
  | [input] => .ok input
  | _ :: _ :: _ => .error .tooManyInputs

/-- The filter for the names to include and to exclude. -/
def filter (included excluded : List String) : Except Fault Filter :=
  match Filter.ofLists? included excluded with
  | some filter => .ok filter
  | none => .error .conflictingFilters

/-- The separator that a typed text stands for. -/
def separator (typed : String) : Except Fault String :=
  (Separator.expand typed).mapError fun sequence => .invalidEscape sequence typed

/-- The settings that a command line asks for. -/
def ofArguments (arguments : CommandLine.Arguments) : Except Fault Config := do
  let input ← soleInput arguments.inputs
  let separator ← separator arguments.colsep
  let filter ← filter arguments.included arguments.excluded
  return {
    input
    format := arguments.format
    output := arguments.output.elim .standardOutput .file
    options := ⟨separator, filter, arguments.list⟩ }

end Config

end TraceTables
