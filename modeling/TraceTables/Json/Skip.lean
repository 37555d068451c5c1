import TraceTables.Json.Scan

/-!
# Passing over values

The value of an unknown member is passed over. Only its form is checked, not what its
numbers and escapes stand for, and it may be nested to any depth: the brackets that are
open are kept in a list, and every character takes one step.
-/

namespace TraceTables.Json.Skip

/-- A bracket that has been opened. -/
inductive Bracket where
  | list
  | object
  deriving DecidableEq

/-- What is due next. -/
inductive Due where
  | value
  /-- A first value, or the end of a list. -/
  | listStart
  /-- A first key, or the end of an object. -/
  | objectStart
  /-- A comma, or the end of the innermost bracket. -/
  | comma
  | key
  | colon
  /-- The rest of a string, which may be a key. -/
  | text (key : Bool)
  /-- The character after a backslash. -/
  | escape (key : Bool)
  /-- Octets of a hexadecimal escape; `sound` says whether those read were digits. -/
  | digits (key : Bool) (due : Nat) (sound : Bool)
  /-- Letters of a literal name. -/
  | letters (due : List Char)
  /-- A first digit, behind the sign. -/
  | whole
  /-- No further digit, behind a leading zero. -/
  | afterZero
  /-- Further digits, a point or an exponent. -/
  | moreWhole
  /-- A first digit, behind the point. -/
  | fraction
  | moreFraction
  /-- A sign or a first digit, behind the letter of an exponent. -/
  | power
  /-- A first digit of an exponent, behind its sign. -/
  | unsignedPower
  | morePower

/-- What a character leads to. -/
inductive Turn where
  | go (due : Due) (opened : List Bracket)
  /-- The value ends with this character. -/
  | last
  /-- The value ended before this character. -/
  | over
  /-- A fault, this many octets after the start of this character. -/
  | stop (cause : Cause) (ahead : Nat)

/-- A value has ended with this character. -/
def settle (opened : List Bracket) : Turn :=
  if opened.isEmpty then .last else .go .comma opened

/-- The first character of a value. -/
def value (opened : List Bracket) (c : Char) : Turn :=
  if isSpace c then .go .value opened
  else match c with
    | '"' => .go (.text false) opened
    | '[' => .go .listStart (.list :: opened)
    | '{' => .go .objectStart (.object :: opened)
    | 'n' => .go (.letters ['u', 'l', 'l']) opened
    | 't' => .go (.letters ['r', 'u', 'e']) opened
    | 'f' => .go (.letters ['a', 'l', 's', 'e']) opened
    | '-' => .go .whole opened
    | '0' => .go .afterZero opened
    | _ => if c.isDigit then .go .moreWhole opened else .stop .expectedValue 1

/-- The first character of a key. -/
def key (opened : List Bracket) (c : Char) : Turn :=
  if isSpace c then .go .key opened
  else if c = '"' then .go (.text true) opened
  else .stop .keyNotText 1

/-- A character after a value. -/
def comma (opened : List Bracket) (c : Char) : Turn :=
  match opened with
  | [] => .over
  | .list :: outer =>
    if isSpace c then .go .comma opened
    else if c = ',' then .go .value opened
    else if c = ']' then settle outer
    else .stop .expectedCommaOrBracket 1
  | .object :: outer =>
    if isSpace c then .go .comma opened
    else if c = ',' then .go .key opened
    else if c = '}' then settle outer
    else .stop .expectedCommaOrBrace 1

/-- A character behind a digit of the integral part. -/
def afterWhole (opened : List Bracket) (c : Char) : Turn :=
  if c = '.' then .go .fraction opened
  else if c = 'e' ∨ c = 'E' then .go .power opened
  else comma opened c

/-- The step at one character. -/
def step (due : Due) (opened : List Bracket) (c : Char) : Turn :=
  match due with
  | .value => value opened c
  | .listStart =>
    if isSpace c then .go .listStart opened
    else if c = ']' then settle opened.tail
    else value opened c
  | .objectStart =>
    if isSpace c then .go .objectStart opened
    else if c = '}' then settle opened.tail
    else key opened c
  | .comma => comma opened c
  | .key => key opened c
  | .colon =>
    if isSpace c then .go .colon opened
    else if c = ':' then .go .value opened
    else .stop .expectedColon 1
  | .text key =>
    if c = '"' then if key then .go .colon opened else settle opened
    else if c = '\\' then .go (.escape key) opened
    else if c.toNat < 0x20 then .stop .controlCharacter 0
    else .go (.text key) opened
  | .escape key =>
    if c = 'u' then .go (.digits key 4 true) opened
    else if ['"', '\\', '/', 'b', 'f', 'n', 'r', 't'].contains c then .go (.text key) opened
    else .stop .invalidEscape 1
  | .digits key due sound =>
    let sound := sound && (c.isDigit || ('a' ≤ c && c ≤ 'f') || ('A' ≤ c && c ≤ 'F'))
    if c.utf8Size < due then .go (.digits key (due - c.utf8Size) sound) opened
    else if sound then .go (.text key) opened
    else .stop .invalidEscape due
  | .letters [] => settle opened
  | .letters (letter :: more) =>
    if c = letter then if more.isEmpty then settle opened else .go (.letters more) opened
    else .stop .expectedWord 1
  | .whole =>
    if c = '0' then .go .afterZero opened
    else if c.isDigit then .go .moreWhole opened
    else .stop .invalidNumber 1
  | .afterZero => if c.isDigit then .stop .invalidNumber 1 else afterWhole opened c
  | .moreWhole => if c.isDigit then .go .moreWhole opened else afterWhole opened c
  | .fraction => if c.isDigit then .go .moreFraction opened else .stop .invalidNumber 1
  | .moreFraction =>
    if c.isDigit then .go .moreFraction opened
    else if c = 'e' ∨ c = 'E' then .go .power opened
    else comma opened c
  | .power =>
    if c = '+' ∨ c = '-' then .go .unsignedPower opened
    else if c.isDigit then .go .morePower opened
    else .stop .invalidNumber 1
  | .unsignedPower => if c.isDigit then .go .morePower opened else .stop .invalidNumber 1
  | .morePower => if c.isDigit then .go .morePower opened else comma opened c

/-- The cause of a refusal where a bracket is open at the end of the line. -/
def unclosed : List Bracket → Cause
  | [] => .endInValue
  | .list :: _ => .endInList
  | .object :: _ => .endInObject

/-- What the end of the line means: `none` if a value ends with it. -/
def atEnd (due : Due) (opened : List Bracket) : Option Cause :=
  match due with
  | .value | .letters _ => some .endInValue
  | .listStart | .objectStart | .comma | .key | .colon => some (unclosed opened)
  | .text _ | .escape _ | .digits .. => some .endInText
  | .whole | .fraction | .power | .unsignedPower => some .invalidNumber
  | .afterZero | .moreWhole | .moreFraction | .morePower =>
    if opened.isEmpty then none else some (unclosed opened)

/-- Passes over the rest of a value and gives the characters after it. -/
def run (due : Due) (opened : List Bracket) : List Char → Except Refusal (List Char)
  | [] =>
    match atEnd due opened with
    | none => .ok []
    | some cause => .error (.here cause [])
  | c :: s =>
    match step due opened c with
    | .go due opened => run due opened s
    | .last => .ok s
    | .over => .ok (c :: s)
    | .stop cause ahead => .error (.within ahead cause (c :: s))

theorem length_le_of_run {due : Due} {opened : List Bracket} {s rest : List Char}
    (h : run due opened s = .ok rest) : rest.length ≤ s.length := by
  induction s generalizing due opened with
  | nil =>
    simp only [run] at h
    split at h <;> cases h
    exact Nat.le_refl _
  | cons c s ih =>
    simp only [run] at h
    split at h
    · exact Nat.le_succ_of_le (ih h)
    · cases h; exact Nat.le_succ _
    · cases h; exact Nat.le_refl _
    · cases h

/-- A value has a first character: it does not end before it. -/
theorem value_ne_over (opened : List Bracket) (c : Char) : value opened c ≠ .over := by
  unfold value
  repeat' split
  all_goals simp

theorem length_lt_of_run_value {opened : List Bracket} {s rest : List Char}
    (h : run .value opened s = .ok rest) : rest.length < s.length := by
  cases s with
  | nil => cases h
  | cons c s =>
    simp only [run, step] at h
    split at h
    · exact Nat.lt_succ_of_le (length_le_of_run h)
    · cases h; exact Nat.lt_succ_self _
    · exact absurd ‹_› (value_ne_over opened c)
    · cases h

end Skip

/-- Passes over a value of any form. -/
def skipValue (s : List Char) : Except Refusal (Found Unit s.length) :=
  match h : Skip.run .value [] s with
  | .ok rest => .ok ⟨(), rest, Skip.length_lt_of_run_value h⟩
  | .error refusal => .error refusal

end TraceTables.Json
