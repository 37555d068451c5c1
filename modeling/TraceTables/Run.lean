import TraceTables.CommandLine.Help
import TraceTables.CommandLine.Parse
import TraceTables.Config
import TraceTables.Log
import TraceTables.OutputFile

/-!
# A run of the program

A run takes a directory and a command line and gives an exit code, what is printed, and
the directory as it is left. The output is opened, and with it emptied, before the input:
an input that is the output's own file is therefore read as empty, and an input that
cannot be opened leaves an empty output.
-/

namespace TraceTables

/-- How the program is called. -/
structure Invocation where
  /-- The path under which the program was called. -/
  program : String
  arguments : List String
  /-- The filter for messages, if the environment sets one. -/
  logFilter : Option String

/-- What a run leaves. -/
structure Outcome where
  success : Bool
  printed : ByteArray
  /-- The messages and the fault, if there is one. -/
  reported : String
  directory : Directory

namespace Run

/-- The name of the program, in front of its reports. -/
def programName (path : String) : String :=
  match FileName.ofPath? path.toList with
  | some name => String.ofList name
  | none => "trace2csv"

/-- The word for an encoding in a message. -/
def encodingShown : Encoding → String
  | .json => "Json"
  | .bincode => "Bincode"

/-- The message on the counters of a run. -/
def summaryMessage (summary : Summary) : Log.Message :=
  ⟨.info, Log.program, s!"Rendered {summary.tablesRendered} of {summary.tablesSeen} tables (" ++
    s!"{summary.tablesSuppressed} suppressed), {summary.rowsWritten} rows"⟩

/-- A part of a run that has ended: with the fault to report, if there is one. -/
structure Ended where
  fault : Option String
  messages : List (Aside Log.Message)
  /-- Where the output has arrived, if it was opened. -/
  store : Option Store
  directory : Directory

/-- What has arrived at a device. -/
def Ended.arrivedAt (device : Device) (ended : Ended) : ByteArray :=
  (ended.store.map (Store.arrivedAt device)).getD .empty

/-- Converts an input that has been opened, and closes the output. -/
def convertInput (config : Config) (input : Input) (out : OutputFile) (directory : Directory) :
    Ended :=
  let encoding := config.format.resolve config.input
  let conversion := convert config.options out (encoding.read input).items
  let remarks := conversion.remarks.map fun remark => ⟨remark.place, Log.ofRemark remark.said⟩
  let store := conversion.out.close
  let closed (fault : Option String) (messages : List (Aside Log.Message)) : Ended :=
    ⟨fault, messages, some store, store.save directory⟩
  match conversion.result with
  | .ok summary =>
    closed none (remarks ++ [Sink.aside (summaryMessage summary) conversion.out])
  | .error fault => closed (some (config.input ++ ": " ++ fault.chain)) remarks

/-- Opens the input, which may be the output itself, and converts it. -/
def withOutput (config : Config) (out : OutputFile) (directory : Directory) : Ended :=
  let encoding := config.format.resolve config.input
  let reading : Aside Log.Message :=
    ⟨0, .debug, Log.program, "Reading " ++ config.input ++ " as " ++ encodingShown encoding⟩
  match (out.found directory).openInput config.input with
  | .error cause =>
    ⟨some (Fault.inputOpen config.input cause).chain, [reading], none, directory⟩
  | .ok input =>
    let ended := convertInput config input out directory
    { ended with messages := reading :: ended.messages }

/-- Runs a conversion with the given settings. -/
def withConfig (config : Config) (directory : Directory) : Ended :=
  let writing : Aside Log.Message :=
    ⟨0, .debug, Log.program, "Writing to " ++ config.output.shown⟩
  match config.output with
  | .standardOutput =>
    let ended := withOutput config .standardOutput directory
    { ended with messages := writing :: ended.messages }
  | .file path =>
    match OutputFile.create directory path with
    | .error cause =>
      ⟨some (Fault.outputOpen path cause).chain, [writing], none, directory⟩
    | .ok (out, directory) =>
      let ended := withOutput config out directory
      { ended with messages := writing :: ended.messages }

/-- The settings of a command line, and the run with them. -/
def withArguments (arguments : CommandLine.Arguments) (directory : Directory) : Ended :=
  match Config.ofArguments arguments with
  | .error fault => ⟨some fault.chain, [], none, directory⟩
  | .ok config => withConfig config directory

end Run

/-- Runs the program in a directory. -/
def run (directory : Directory) (invocation : Invocation) : Outcome :=
  let name := Run.programName invocation.program
  let fault (text : String) : String := name ++ ": " ++ text ++ "\n"
  match CommandLine.parse invocation.arguments with
  | .error (.help long) => ⟨true, (CommandLine.helpText name long).toUTF8, "", directory⟩
  | .error .version => ⟨true, CommandLine.versionText.toUTF8, "", directory⟩
  | .error (.usage error) => ⟨false, .empty, fault error.message, directory⟩
  | .ok arguments =>
    let ended := Run.withArguments arguments directory
    let threshold := Log.threshold invocation.logFilter arguments.verbose
    ⟨ended.fault.isNone, ended.arrivedAt .standardOutput,
      Log.report threshold (ended.arrivedAt .standardError) ended.messages ++
        (ended.fault.map fault).getD "",
      ended.directory⟩

end TraceTables
