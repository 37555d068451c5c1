import TraceTables.Recording.Format
import TraceTables.Text.Plain

/-!
# What can be said on the command line

The settings of a run are given as options, and the files to convert as inputs. This
module names the options and holds what a command line said, or why it was not taken.
-/

namespace TraceTables.CommandLine

/-- The options. -/
inductive Setting where
  | output
  | colsep
  | includeTable
  | excludeTable
  | list
  | inputFormat
  | verbose
  | help
  | version
  deriving DecidableEq

namespace Setting

/-- All options, in the order in which they are documented. -/
def all : List Setting :=
  [.output, .colsep, .includeTable, .excludeTable, .list, .inputFormat, .verbose, .help, .version]

/-- The letter that stands for an option behind a single dash. -/
def letter : Setting → Char
  | .output => 'o'
  | .colsep => 'c'
  | .includeTable => 'i'
  | .excludeTable => 'e'
  | .list => 'l'
  | .inputFormat => 'f'
  | .verbose => 'v'
  | .help => 'h'
  | .version => 'V'

/-- The word that stands for an option behind two dashes. -/
def word : Setting → String
  | .output => "output"
  | .colsep => "colsep"
  | .includeTable => "include"
  | .excludeTable => "exclude"
  | .list => "list"
  | .inputFormat => "input-format"
  | .verbose => "verbose"
  | .help => "help"
  | .version => "version"

/-- What the value of an option is called, if the option takes one. -/
def valueName? : Setting → Option String
  | .output => some "FILE"
  | .colsep => some "STRING"
  | .includeTable | .excludeTable => some "TABLE"
  | .inputFormat => some "INPUT_FORMAT"
  | .list | .verbose | .help | .version => none

/-- Whether an option takes a value. -/
def takesValue (setting : Setting) : Bool := setting.valueName?.isSome

/-- How an option is shown: with the name of its value, or with dots if it is counted. -/
def shown (setting : Setting) : String :=
  let dashed := "--" ++ setting.word
  match setting, setting.valueName? with
  | .verbose, _ => dashed ++ "..."
  | _, some value => dashed ++ " <" ++ value ++ ">"
  | _, none => dashed

end Setting

/-- How the inputs are shown. -/
def inputsShown : String := "[INPUT]..."

/-- What a command line said. -/
structure Arguments where
  inputs : List String
  output : Option String
  colsep : String
  included : List String
  excluded : List String
  list : Bool
  format : Format
  /-- How often more messages were asked for, up to 255 times. -/
  verbose : Nat
  deriving DecidableEq

/-- The separator of a command line that gives none. -/
def defaultColsep : String := ","

/-- The words for formats. -/
def formats : List (String × Format) :=
  [("auto", .auto), ("json", .given .json), ("bincode", .given .bincode)]

/-- The word for a format. -/
def formatWord : Format → String
  | .auto => "auto"
  | .given .json => "json"
  | .given .bincode => "bincode"

/-- Why a command line was not taken. -/
inductive UsageError where
  /-- An option or an input was given without a value, or with an empty one. -/
  | valueMissing (shown : String)
  | invalidValue (value shown : String)
  | unknownArgument (argument : String)
  /-- An option was given again that can be given once. -/
  | repeated (shown : String)
  /-- A value was attached to an option that takes none. -/
  | unexpectedValue (value shown : String)
  deriving DecidableEq

/-- What is at fault, with values as plain text. -/
def UsageError.message : UsageError → String
  | .valueMissing shown => s!"error: a value is required for '{shown}' but none was supplied"
  | .invalidValue value shown => s!"error: invalid value '{Text.plain value}' for '{shown}'"
  | .unknownArgument argument => s!"error: unexpected argument '{Text.plain argument}' found"
  | .repeated shown => s!"error: the argument '{shown}' cannot be used multiple times"
  | .unexpectedValue value shown =>
    s!"error: unexpected value '{Text.plain value}' for '{shown}' found; " ++
      "no more were expected"

/-- Why a command line leads to no run. -/
inductive Interruption where
  /-- Help was asked for, at length or in short. -/
  | help (long : Bool)
  | version
  | usage (error : UsageError)
  deriving DecidableEq

end TraceTables.CommandLine
