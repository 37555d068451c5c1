import TraceTables.Conversion
import TraceTables.Text.Blank
import TraceTables.Text.Plain

/-!
# Messages about a run

While it runs the program reports what it does, each message with its level. Which levels
are shown is set by how often more messages were asked for, unless a filter names the
last level to show. The lines of a message after the first are indented. Output that is
sent where the messages are shown stands among them.
-/

namespace TraceTables.Log

/-- How important a message is, the most important first. -/
inductive Level where
  | error
  | warn
  | info
  | debug
  | trace
  deriving DecidableEq

namespace Level

/-- The rank of a level. -/
def rank : Level → Nat
  | .error => 1
  | .warn => 2
  | .info => 3
  | .debug => 4
  | .trace => 5

/-- The word for a level, in five places. -/
def tag : Level → String
  | .error => "ERROR"
  | .warn => "WARN "
  | .info => "INFO "
  | .debug => "DEBUG"
  | .trace => "TRACE"

end Level

/-- The last level that is shown, by rank; zero shows nothing. -/
abbrev Threshold := Nat

/-- The threshold that the command line asks for. -/
def ofVerbosity : Nat → Threshold
  | 0 => Level.warn.rank
  | 1 => Level.info.rank
  | _ => Level.debug.rank

/-- The thresholds by their words, in lower case. -/
def thresholds : List (String × Threshold) :=
  [("off", 0), ("error", 1), ("warn", 2), ("info", 3), ("debug", 4), ("trace", 5)]

/-- The threshold that a filter sets: an empty one shows errors, and a word that names no
level shows nothing. -/
def ofFilter (filter : String) : Threshold :=
  let word := ((filter.toList.dropWhile Text.isWhite).reverse.dropWhile Text.isWhite).reverse
  if word.isEmpty then Level.error.rank
  else (thresholds.lookup (String.ofList (word.map Char.toLower))).getD 0

/-- The threshold of a run. -/
def threshold (filter : Option String) (verbose : Nat) : Threshold :=
  match filter with
  | some filter => ofFilter filter
  | none => ofVerbosity verbose

/-- A message. -/
structure Message where
  level : Level
  /-- The part of the program that has something to say. -/
  origin : String
  text : String

/-- The part of the program that runs a conversion. -/
def program : String := "trace2csv"

/-- The part of the program that renders. -/
def renderer : String := "trace2csv::render"

/-- The lines that show a message, as plain text. -/
def Message.shown (message : Message) : String :=
  let indent (c : Char) : Option String := if c = '\n' then some "\n    " else none
  Text.plainLasting <| "[" ++ message.level.tag ++ " " ++ message.origin ++ "] " ++
    Text.substitute indent message.text ++ "\n"

/-- The octets of an output between two places, as text. -/
def passage (output : ByteArray) (start stop : Nat) : String :=
  (String.fromUTF8? (output.extract start stop)).getD ""

/-- What is seen of messages and of an output among them. A threshold says which messages
are shown. -/
def report (threshold : Threshold) (output : ByteArray) (messages : List (Aside Message)) :
    String :=
  let (seen, place) := messages.foldl (fun (seen, place) message =>
    let seen := seen ++ passage output place message.place
    (if message.said.level.rank ≤ threshold then seen ++ message.said.shown else seen,
      message.place)) ("", 0)
  seen ++ passage output place output.size

/-- The message for a remark on a conversion. -/
def ofRemark : Remark → Message
  | .suppressing name => ⟨.debug, renderer, "Suppressing table " ++ Text.literal name⟩
  | .flushFailed cause =>
    ⟨.warn, program, "Failed to flush output after error: " ++ (Fault.device cause).message⟩
  | .endedInsideTable => ⟨.warn, program, "Event stream ended inside an open table"⟩

end TraceTables.Log
