import TraceTables.Json.Cause

/-!
# Scanning a line

A reader takes the characters of a line that are left and gives a value with the
characters after it, or refuses. A value takes at least one character, and `Found`
carries the proof: loops over the members of an object end because of it.

A refusal counts the octets left on the line. The characters before that place are the
ones that were read, so the place is known without counting them on the way.
-/

namespace TraceTables.Json

/-- Why reading stopped, and how many octets of the line were left then. -/
structure Refusal where
  cause : Cause
  left : Option Nat
  deriving DecidableEq

/-- How many octets the characters take. -/
def octets (s : List Char) : Nat :=
  s.foldl (fun total c => total + c.utf8Size) 0

namespace Refusal

/-- A cause found with all of `s` left. -/
def here (cause : Cause) (s : List Char) : Refusal :=
  ⟨cause, some (octets s)⟩

/-- A cause found `ahead` octets into `s`, or at its end if it is shorter. -/
def within (ahead : Nat) (cause : Cause) (s : List Char) : Refusal :=
  ⟨cause, some (octets s - ahead)⟩

/-- A cause found by looking at the next octet of `s`. -/
def next (cause : Cause) (s : List Char) : Refusal :=
  within 1 cause s

end Refusal

/-- A value that was read, and the characters after it: fewer than `n`. -/
structure Found (α : Type) (n : Nat) where
  value : α
  rest : List Char
  shorter : rest.length < n

/-- The same reading, measured against a longer line. -/
def Found.weaken {α : Type} {m n : Nat} (f : Found α m) (h : m ≤ n) : Found α n :=
  ⟨f.value, f.rest, Nat.lt_of_lt_of_le f.shorter h⟩

/-- The same reading behind one more character. -/
def Found.behind {α : Type} {s : List Char} (c : Char) (f : Found α s.length) :
    Found α (c :: s).length :=
  f.weaken (Nat.le_succ _)

/-- Another value for the same characters. -/
def Found.map {α β : Type} {n : Nat} (g : α → β) (f : Found α n) : Found β n :=
  ⟨g f.value, f.rest, f.shorter⟩

/-- Reads a value from the start of a line. -/
abbrev Reader (α : Type) := (s : List Char) → Except Refusal (Found α s.length)

/-- The white space of JSON. -/
def isSpace (c : Char) : Bool :=
  c == ' ' || c == '\t' || c == '\n' || c == '\r'

/-- What follows the white space at the start. -/
def skipSpace (s : List Char) : List Char :=
  s.dropWhile isSpace

theorem length_dropWhile_le (p : Char → Bool) (s : List Char) :
    (s.dropWhile p).length ≤ s.length :=
  (List.dropWhile_suffix p).length_le

theorem length_skipSpace_le (s : List Char) : (skipSpace s).length ≤ s.length :=
  length_dropWhile_le isSpace s

theorem length_lt_of_skipSpace {s rest : List Char} {c : Char} (h : skipSpace s = c :: rest) :
    rest.length < s.length := by
  have := length_skipSpace_le s
  simp only [h, List.length_cons] at this
  omega

/-- Reads the letters of a literal name that are still due. -/
def readLetters : List Char → List Char → Except Refusal (List Char)
  | [], s => .ok s
  | _ :: _, [] => .error (.here .endInValue [])
  | letter :: due, c :: s =>
    if c = letter then readLetters due s else .error (.next .expectedWord (c :: s))

theorem length_le_of_readLetters {due s rest : List Char}
    (h : readLetters due s = .ok rest) : rest.length ≤ s.length := by
  induction due generalizing s with
  | nil => cases h; exact Nat.le_refl _
  | cons letter due ih =>
    cases s with
    | nil => cases h
    | cons c s =>
      simp only [readLetters] at h
      split at h
      · exact Nat.le_succ_of_le (ih h)
      · cases h

/-- Reads the colon between a key and its value. -/
def readColon (s : List Char) : Except Refusal (Found Unit s.length) :=
  match h : skipSpace s with
  | ':' :: rest => .ok ⟨(), rest, length_lt_of_skipSpace h⟩
  | [] => .error (.here .endInObject [])
  | c :: rest => .error (.next .expectedColon (c :: rest))

end TraceTables.Json
