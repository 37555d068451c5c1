/-!
# Separators as typed

Shells make it awkward to type a tab, so a separator is typed with escapes: a backslash
before a backslash or before either quotation mark stands for that character, and `\t`,
`\n` and `\r` stand for a tab, a line feed and a carriage return. Every other character
stands for itself, and every other use of a backslash is refused.
-/

namespace TraceTables.Separator

/-- The character that a backslash followed by the given character stands for. -/
def escaped : Char → Option Char
  | '\\' => some '\\'
  | '\'' => some '\''
  | '"' => some '"'
  | 't' => some '\t'
  | 'n' => some '\n'
  | 'r' => some '\r'
  | _ => none

/-- Appends to `done` what the typed characters stand for, or gives the first sequence
that stands for nothing: a backslash, with the character after it if there is one. -/
def expandFrom (done : String) : List Char → Except String String
  | [] => .ok done
  | ['\\'] => .error "\\"
  | '\\' :: c :: rest =>
    match escaped c with
    | some meant => expandFrom (done.push meant) rest
    | none => .error ("\\".push c)
  | c :: rest => expandFrom (done.push c) rest

/-- The separator that the typed text stands for, or the sequence at fault. -/
def expand (typed : String) : Except String String :=
  expandFrom "" typed.toList

end TraceTables.Separator
