import TraceTables.CommandLine.Arguments

/-!
# Reading a command line

Arguments are read from left to right. An option that takes a value may carry it, or
wait for the next argument that is not an option; what waits is settled when something
else is to take effect, and faults of values come to light only then. Inputs wait
together in the same way. Behind a double dash every argument is an input.

Some faults are found at once and hide those of what still waits: an unknown option, and
a value on an option that takes none.
-/

namespace TraceTables.CommandLine

/-- What has been given but not yet settled. -/
inductive Waiting where
  | nothing
  | option (setting : Setting) (value : Option String)
  | inputs (values : List String)
  deriving DecidableEq

/-- What has been settled so far, and what waits. -/
structure Given where
  inputs : List String
  output : Option String
  colsep : Option String
  included : List String
  excluded : List String
  list : Bool
  format : Option Format
  verbose : Nat
  waiting : Waiting
  deriving DecidableEq

namespace Given

/-- Nothing given. -/
def empty : Given := ⟨[], none, none, [], [], false, none, 0, .nothing⟩

/-- What a command line said that gave this. -/
def arguments (given : Given) : Arguments where
  inputs := given.inputs
  output := given.output
  colsep := given.colsep.getD defaultColsep
  included := given.included
  excluded := given.excluded
  list := given.list
  format := given.format.getD .auto
  verbose := given.verbose

/-- A path, which cannot be empty. -/
def path (shown value : String) : Except Interruption String :=
  if value = "" then .error (.usage (.valueMissing shown)) else .ok value

/-- The format that a word stands for. -/
def format? (shown value : String) : Except Interruption Format :=
  match formats.lookup value with
  | some format => .ok format
  | none =>
    .error (.usage (if value = "" then .valueMissing shown else .invalidValue value shown))

/-- An option that can be given once takes its value. -/
def once {α : Type} (setting : Setting) (before : Option α)
    (value : Except Interruption α) : Except Interruption (Option α) :=
  if before.isSome then .error (.usage (.repeated setting.shown)) else value.map some

/-- An option with a value takes effect. -/
def setValue (given : Given) (setting : Setting) (value : String) : Except Interruption Given := do
  match setting with
  | .output =>
    return { given with output := ← once setting given.output (path setting.shown value) }
  | .colsep => return { given with colsep := ← once setting given.colsep (.ok value) }
  | .inputFormat =>
    return { given with format := ← once setting given.format (format? setting.shown value) }
  | .includeTable => return { given with included := given.included ++ [value] }
  | .excludeTable => return { given with excluded := given.excluded ++ [value] }
  | .list | .verbose | .help | .version => return given

/-- An option without a value takes effect. -/
def setFlag (given : Given) (setting : Setting) (long : Bool) : Except Interruption Given :=
  match setting with
  | .list =>
    if given.list then .error (.usage (.repeated setting.shown))
    else .ok { given with list := true }
  | .verbose => .ok { given with verbose := min 255 (given.verbose + 1) }
  | .help => .error (.help long)
  | .version => .error .version
  | .output | .colsep | .includeTable | .excludeTable | .inputFormat => .ok given

/-- What waits takes effect. -/
def settle (given : Given) : Except Interruption Given := do
  let settled := { given with waiting := .nothing }
  match given.waiting with
  | .nothing => return settled
  | .option setting none => throw (.usage (.valueMissing setting.shown))
  | .option setting (some value) => settled.setValue setting value
  | .inputs values =>
    return { settled with inputs := given.inputs ++ (← values.mapM (path inputsShown)) }

/-- An argument that is not an option: the value that an option waits for, or an input. -/
def addValue (given : Given) (argument : String) : Except Interruption Given := do
  match given.waiting with
  | .option setting none => return { given with waiting := .option setting (some argument) }
  | .inputs values => return { given with waiting := .inputs (values ++ [argument]) }
  | _ => return { ← given.settle with waiting := .inputs [argument] }

/-- An input behind a double dash, which no option can take for its value. -/
def addInput (given : Given) (argument : String) : Except Interruption Given := do
  match given.waiting with
  | .inputs values => return { given with waiting := .inputs (values ++ [argument]) }
  | _ => return { ← given.settle with waiting := .inputs [argument] }

/-- An option that takes a value, which may be attached to it. -/
def addOption (given : Given) (setting : Setting) (attached : Option String) :
    Except Interruption Given := do
  let given ← given.settle
  match attached with
  | some value => given.setValue setting value
  | none => return { given with waiting := .option setting none }

/-- An option that takes no value. -/
def addFlag (given : Given) (setting : Setting) (long : Bool) : Except Interruption Given := do
  (← given.settle).setFlag setting long

/-- An option by its word, with the value attached to it if there is one. -/
def addWord (given : Given) (word : String) (attached : Option String) :
    Except Interruption Given :=
  match Setting.all.find? (·.word == word), attached with
  | none, _ => .error (.usage (.unknownArgument ("--" ++ word)))
  | some setting, attached =>
    if setting.takesValue then given.addOption setting attached
    else
      match attached with
      | some value => .error (.usage (.unexpectedValue value setting.shown))
      | none => given.addFlag setting true

/-- Options by their letters. What follows the letter of an option with a value is its
value, behind an equals sign or not. -/
def addLetters (given : Given) : List Char → Except Interruption Given
  | [] => .ok given
  | letter :: more =>
    match Setting.all.find? (·.letter == letter) with
    | none => .error (.usage (.unknownArgument ("-".push letter)))
    | some setting =>
      if setting.takesValue then
        given.addOption setting
          (match more with
            | [] => none
            | '=' :: value => some (String.ofList value)
            | value => some (String.ofList value))
      else do (← given.addFlag setting false).addLetters more

/-- An argument before any double dash, other than it. -/
def add (given : Given) (argument : String) : Except Interruption Given :=
  match argument.toList with
  | '-' :: '-' :: text =>
    let word := text.takeWhile (· ≠ '=')
    given.addWord (String.ofList word)
      (match text.drop word.length with
        | [] => none
        | _ :: value => some (String.ofList value))
  | '-' :: letter :: more => given.addLetters (letter :: more)
  | _ => given.addValue argument

/-- Reads the arguments that are left. -/
def readAll (given : Given) : List String → Except Interruption Given
  | [] => given.settle
  | "--" :: inputs => do (← inputs.foldlM addInput given).settle
  | argument :: more => do (← given.add argument).readAll more

end Given

/-- What a command line says. -/
def parse (arguments : List String) : Except Interruption Arguments :=
  (Given.empty.readAll arguments).map Given.arguments

end TraceTables.CommandLine
