import TraceTables.CommandLine.Arguments
import TraceTables.Text.Plain

/-!
# Help

The help lists the options with what they do. In short, every option takes one line, and
what it does is aligned; at length, what it does stands below it, with notes on its value
in lines of their own.
-/

namespace TraceTables.CommandLine

/-- The name and the version of the program. -/
def versionText : String := "trace2csv 0.1.0\n"

/-- What an option does. -/
def Setting.purpose (long : Bool) : Setting → String
  | .output => "Write output to a file instead of stdout"
  | .colsep => "Column separator; accepts \\t, \\n, \\r, \\\\, \\' and \\\" escapes"
  | .includeTable => "Render only the named table (may be repeated)"
  | .excludeTable => "Skip the named table (may be repeated)"
  | .list => "Output only table names"
  | .inputFormat => "Encoding of the input file"
  | .verbose => "Increase log verbosity (-v info, -vv debug)"
  | .help =>
    if long then "Print help (see a summary with '-h')"
    else "Print help (see more with '--help')"
  | .version => "Print version"

/-- Notes on the value of an option. -/
def Setting.notes : Setting → List String
  | .colsep => ["[default: " ++ defaultColsep ++ "]"]
  | .inputFormat =>
    ["[default: " ++ formatWord .auto ++ "]",
      "[possible values: " ++ ", ".intercalate (formats.map (·.1)) ++ "]"]
  | _ => []

/-- An option in front of what it does. -/
def Setting.heading (setting : Setting) : String :=
  "  -".push setting.letter ++ ", " ++ setting.shown

/-- What an input is. -/
def inputPurpose : String := "Recorded trace event file to convert"

/-- How to call a program of the given name, which is shown as plain text. -/
def usage (program : String) : String :=
  "Usage: " ++ Text.plainLasting program ++ " [OPTIONS] " ++ inputsShown

/-- A text with spaces behind it up to the given width. -/
def padded (width : Nat) (text : String) : String :=
  text ++ String.ofList (List.replicate (width - text.length) ' ')

/-- The width of the headings. -/
def headingWidth : Nat :=
  Setting.all.foldl (fun width setting => max width setting.heading.length) 0

/-- The help in short. -/
def shortHelp (program : String) : List String :=
  ["Render recorded trace tables as spreadsheet-friendly delimited text", "",
    usage program, "",
    "Arguments:",
    "  " ++ inputsShown ++ "  " ++ inputPurpose, "",
    "Options:"] ++
  Setting.all.map fun setting =>
    padded headingWidth setting.heading ++ "  " ++
      " ".intercalate (setting.purpose false :: setting.notes)

/-- A line below a heading. -/
def indented (text : String) : String := "          " ++ text

/-- An option at length. -/
def Setting.paragraph (setting : Setting) : List String :=
  let notes := setting.notes
  "" :: setting.heading :: indented (setting.purpose true) ::
    (if notes.isEmpty then [] else indented "" :: notes.map indented)

/-- The help at length. -/
def longHelp (program : String) : List String :=
  ["Command-line arguments for the `trace2csv` converter.", "",
    "Positional inputs are collected into a list so that a missing or extra input file " ++
      "can be reported with a dedicated message.", "",
    usage program, "",
    "Arguments:",
    "  " ++ inputsShown,
    indented inputPurpose, "",
    "Options:"] ++
  (Setting.all.flatMap Setting.paragraph).drop 1

/-- The help of a program of the given name. -/
def helpText (program : String) (long : Bool) : String :=
  String.join ((if long then longHelp program else shortHelp program).map (· ++ "\n"))

end TraceTables.CommandLine
