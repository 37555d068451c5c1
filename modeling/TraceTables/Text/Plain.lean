/-!
# Plain text

A terminal takes some characters for commands: control characters, and the sequences that
an escape character begins. A report is plain text: it is shown without them, except for
white space. White space is shown within a sequence too, unless a string is being read.
-/

namespace TraceTables.Text

/-- The control characters that only move on: tabs, line feeds, form feeds and carriage
returns. -/
def movements : List Char := ['\t', '\n', '\x0c', '\r']

/-- Whether a character of ASCII is for the terminal and not for the reader. -/
def isCommand (c : Char) : Bool :=
  c.toNat = 0x7F || c.toNat < 0x20 && !movements.contains c

/-- Where a terminal is in what it reads. -/
inductive Place where
  /-- Outside of sequences. -/
  | text
  /-- Behind the escape character. -/
  | opening
  /-- Among the signs between the escape character and the end of a short sequence. -/
  | signs
  /-- Ahead of the last character of a control sequence. -/
  | control
  /-- In a command to the system around the terminal. -/
  | system
  /-- At the start of a device control string. -/
  | device
  /-- Among the parameters of a device control string. -/
  | parameters
  /-- Among the signs behind those parameters. -/
  | selection
  /-- In a string that the terminal keeps to itself. -/
  | hidden
  deriving DecidableEq

namespace Place

/-- The place behind a character that is not of those which act at any place. Characters
without a meaning at a place are passed over.

A string ends at the octet `0x9C`. Octets of which a character is made up count, so that
a character can end a string without being the terminator. -/
def within (c : Char) : Place → Place
  | .text => .text
  | .opening =>
    if ' ' ≤ c ∧ c ≤ '/' then .signs
    else if c = '[' then .control
    else if c = ']' then .system
    else if c = 'P' then .device
    else if c = 'X' ∨ c = '^' ∨ c = '_' then .hidden
    else if '0' ≤ c ∧ c ≤ '~' then .text
    else .opening
  | .signs => if '0' ≤ c ∧ c ≤ '~' then .text else .signs
  | .control => if '@' ≤ c ∧ c ≤ '~' then .text else .control
  | .system => if c = '\x07' then .text else .system
  | .device =>
    if ' ' ≤ c ∧ c ≤ '/' then .selection
    else if '0' ≤ c ∧ c ≤ '?' then .parameters
    else if '@' ≤ c ∧ c ≤ '~' then .hidden
    else .device
  | .parameters =>
    if ' ' ≤ c ∧ c ≤ '/' then .selection
    else if '<' ≤ c ∧ c ≤ '~' then .hidden
    else .parameters
  | .selection => if '0' ≤ c ∧ c ≤ '~' then .hidden else .selection
  | .hidden => if (String.utf8EncodeChar c).contains 0x9C then .text else .hidden

/-- The place behind a character. At any place an escape character begins a sequence, and
the characters for cancelling and for substitution leave the one that was begun. -/
def after (c : Char) (place : Place) : Place :=
  if c = '\x1b' then .opening
  else if c = '\x18' ∨ c = '\x1a' then .text
  else place.within c

/-- Whether a character is shown at a place. -/
def shows (c : Char) : Place → Bool
  | .text => !isCommand c
  | .opening | .signs | .control => movements.contains c
  | .system | .device | .parameters | .selection | .hidden => false

end Place

/-- Adds to `shown` what is shown of further characters. White space that is shown within
a sequence is followed by text up to the next command (`showing`). This is the end of the
sequence, unless it is `lasting`: then the command finds the terminal in the sequence,
except behind a character beyond ASCII. -/
def shownFrom (lasting : Bool) (place : Place) (showing : Bool) (shown : String) :
    List Char → String
  | [] => shown
  | c :: s =>
    if (if showing then Place.text else place).shows c then
      shownFrom lasting (if lasting ∧ c.toNat < 0x80 then place else .text) true
        (shown.push c) s
    else shownFrom lasting (place.after c) false shown s

/-- The text without commands. -/
def plain (text : String) : String := shownFrom false .text false "" text.toList

/-- The text without commands, where sequences are lasting. -/
def plainLasting (text : String) : String := shownFrom true .text false "" text.toList

end TraceTables.Text
