import TraceTables.Text.Literal

/-!
# Why a line is not an event

A line of a recording is refused either because it is not JSON or because its JSON does
not describe an event. This module lists the causes and words them. A refusal usually
knows how many octets of the line had been read when its cause was found.
-/

namespace TraceTables.Json

/-- What stood in the place of something else. -/
inductive Met where
  | integer (n : Int)
  /-- A number with a fraction or an exponent, or too large for an integer, as printed. -/
  | real (shown : String)
  | bool (flag : Bool)
  | text (content : String)
  | null
  | list
  | object
  /-- A bare word where the word needs a payload. -/
  | bareWord
  deriving DecidableEq

/-- What was wanted in a place. -/
inductive Wanted where
  | text
  | bool
  | uint64
  | null
  /-- The members of the event with this name. -/
  | members (event : String)
  /-- A word with an object for its payload. -/
  | wordWithMembers
  /-- A word with a value for its payload. -/
  | wordWithValue
  deriving DecidableEq

/-- The cause of a refusal. -/
inductive Cause where
  | expectedValue
  | expectedWord
  | expectedColon
  | expectedCommaOrBrace
  | expectedCommaOrBracket
  | keyNotText
  | trailingComma
  | trailingCharacters
  | invalidNumber
  | numberOutOfRange
  | invalidEscape
  | loneSurrogate
  | unfinishedSurrogate
  | controlCharacter
  | endInText
  | endInValue
  | endInObject
  | endInList
  | unknownWord (word : String) (known : List String)
  | missingMember (name : String)
  | repeatedMember (name : String)
  /-- A list of members that ends early: it has `found` of the `due` members. -/
  | shortList (found : Nat) (event : String) (due : Nat)
  | mismatch (met : Met) (wanted : Wanted)
  /-- An integer below zero where a natural number is wanted. -/
  | belowZero (n : Int)
  deriving DecidableEq

/-- A text between back quotes. -/
def ticked (text : String) : String := "`" ++ text ++ "`"

/-- How what was met is named. -/
def Met.message : Met → String
  | .integer n => "integer " ++ ticked (toString n)
  | .real shown => "floating point " ++ ticked shown
  | .bool flag => "boolean " ++ ticked (toString flag)
  | .text content => "string " ++ Text.literal content
  | .null => "null"
  | .list => "sequence"
  | .object => "map"
  | .bareWord => "unit variant"

/-- How what was wanted is named. -/
def Wanted.message : Wanted → String
  | .text => "a string"
  | .bool => "a boolean"
  | .uint64 => "u64"
  | .null => "unit"
  | .members event => "struct variant Event::" ++ event
  | .wordWithMembers => "struct variant"
  | .wordWithValue => "newtype variant"

/-- The words to choose from: two are joined by "or", more are listed. -/
def choice : List String → String
  | [a, b] => ticked a ++ " or " ++ ticked b
  | words => "one of " ++ ", ".intercalate (words.map ticked)

/-- The wording of a cause. -/
def Cause.message : Cause → String
  | .expectedValue => "expected value"
  | .expectedWord => "expected ident"
  | .expectedColon => "expected " ++ ticked ":"
  | .expectedCommaOrBrace => "expected " ++ ticked "," ++ " or " ++ ticked "\x7d"
  | .expectedCommaOrBracket => "expected " ++ ticked "," ++ " or " ++ ticked "]"
  | .keyNotText => "key must be a string"
  | .trailingComma => "trailing comma"
  | .trailingCharacters => "trailing characters"
  | .invalidNumber => "invalid number"
  | .numberOutOfRange => "number out of range"
  | .invalidEscape => "invalid escape"
  | .loneSurrogate => "lone leading surrogate in hex escape"
  | .unfinishedSurrogate => "unexpected end of hex escape"
  | .controlCharacter => "control character (\\u0000-\\u001F) found while parsing a string"
  | .endInText => "EOF while parsing a string"
  | .endInValue => "EOF while parsing a value"
  | .endInObject => "EOF while parsing an object"
  | .endInList => "EOF while parsing a list"
  | .unknownWord word known =>
    "unknown variant " ++ ticked word ++ ", expected " ++ choice known
  | .missingMember name => "missing field " ++ ticked name
  | .repeatedMember name => "duplicate field " ++ ticked name
  | .shortList found event due =>
    let elements := if due = 1 then "element" else "elements"
    s!"invalid length {found}, expected struct variant Event::{event} with {due} {elements}"
  | .mismatch met wanted => "invalid type: " ++ met.message ++ ", expected " ++ wanted.message
  | .belowZero n =>
    "invalid value: " ++ (Met.integer n).message ++ ", expected " ++ Wanted.uint64.message

/-- A refused line: the cause, and how many octets had been read when it was found, which
a bare word without its payload does not tell. -/
structure Malformed where
  cause : Cause
  column : Option Nat
  deriving DecidableEq

/-- The wording of a refusal, with the place if it is known. -/
def Malformed.message (fault : Malformed) : String :=
  match fault.column with
  | some column => fault.cause.message ++ s!" at line 1 column {column}"
  | none => fault.cause.message

end TraceTables.Json
