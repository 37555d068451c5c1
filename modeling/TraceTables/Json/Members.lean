import TraceTables.Json.Scalar
import TraceTables.Json.Skip

/-!
# Objects with fixed members

An object gives a value of each of its members, in any order, and members it does not
know are passed over. The same value may be written as a list of exactly its members in
order. In both forms a fault in the value of a member comes first; a member that is
missing, repeated or in excess is a fault too.
-/

namespace TraceTables.Json

/-- A member that is read into an incomplete record. -/
structure Member (ρ : Type) where
  name : String
  /-- Reads the value and stores it. -/
  read : ρ → Reader ρ
  /-- Whether a value has been stored. -/
  present : ρ → Bool

/-- An object with fixed members, and the value they make up. -/
structure Shape (ρ α : Type) where
  /-- The name of the event whose members these are. -/
  event : String
  members : List (Member ρ)
  /-- The record without any value. -/
  empty : ρ
  /-- The value of a record, or the name of the first member it lacks. -/
  complete : ρ → Except String α

/-- What comes next in brackets: another item, or the closing bracket, which is read. -/
inductive Item (n : Nat) where
  | item (rest : List Char) (shorter : rest.length < n)
  | ended (rest : List Char) (shorter : rest.length < n)

/-- Looks for the next item of a list and reads the comma in front of it. -/
def nextItem (first : Bool) (s : List Char) : Except Refusal (Item (s.length + 1)) :=
  match h : skipSpace s with
  | [] => .error (.here .endInList [])
  | c :: rest =>
    have shorter := length_lt_of_skipSpace h
    if c = ']' then .ok (.ended rest (Nat.lt_succ_of_lt shorter))
    else if first then .ok (.item (c :: rest) (Nat.succ_lt_succ shorter))
    else if c = ',' then
      match skipSpace rest with
      | [] => .error (.here .endInValue [])
      | d :: more =>
        if d = ']' then .error (.next .trailingComma (d :: more))
        else .ok (.item rest (Nat.lt_succ_of_lt shorter))
    else .error (.next .expectedCommaOrBracket (c :: rest))

/-- Reads the closing bracket of a list whose items are complete. -/
def readListEnd (s : List Char) : Except Refusal (Found Unit s.length) :=
  match h : skipSpace s with
  | [] => .error (.here .endInList [])
  | c :: rest =>
    if c = ']' then .ok ⟨(), rest, length_lt_of_skipSpace h⟩
    else if c = ',' then
      match skipSpace rest with
      | ']' :: more => .error (.next .trailingComma (']' :: more))
      | more => .error (.next .trailingCharacters more)
    else .error (.next .trailingCharacters (c :: rest))

/-- Looks for the next key of an object and reads up to the opening quote of it. -/
def nextKey (first : Bool) (s : List Char) : Except Refusal (Item s.length) :=
  match h : skipSpace s with
  | [] => .error (.here .endInObject [])
  | c :: rest =>
    have shorter := length_lt_of_skipSpace h
    if c = '}' then .ok (.ended rest shorter)
    else if first then
      if c = '"' then .ok (.item rest shorter) else .error (.next .keyNotText (c :: rest))
    else if c = ',' then
      match h' : skipSpace rest with
      | [] => .error (.here .endInValue [])
      | d :: more =>
        if d = '"' then .ok (.item more (Nat.lt_trans (length_lt_of_skipSpace h') shorter))
        else if d = '}' then .error (.next .trailingComma (d :: more))
        else .error (.next .keyNotText (d :: more))
    else .error (.next .expectedCommaOrBrace (c :: rest))

/-- What is left after a closing brace, if one comes next. -/
def dropBrace (s : List Char) : List Char :=
  match skipSpace s with
  | '}' :: rest => rest
  | rest => rest

namespace Shape

variable {ρ α : Type}

/-- The value of a record all of whose members have been read. -/
def value (shape : Shape ρ α) (record : ρ) {n : Nat} (rest : List Char) (h : rest.length < n) :
    Except Refusal (Found α n) :=
  match shape.complete record with
  | .ok value => .ok ⟨value, rest, h⟩
  | .error name => .error (.here (.missingMember name) rest)

/-- Reads the members that are due in a list, `found` of them having been read. -/
def readItems (shape : Shape ρ α) {n : Nat} (found : Nat) (record : ρ) :
    List (Member ρ) → (s : List Char) → s.length < n → Except Refusal (Found α n)
  | [], s, h => do
    let closed ← readListEnd s
    shape.value record closed.rest (Nat.lt_trans closed.shorter h)
  | member :: due, s, h => do
    match ← nextItem (found = 0) s with
    | .ended rest _ =>
      .error (.here (.shortList found shape.event shape.members.length) rest)
    | .item rest h' =>
      let read ← member.read record rest
      have := read.shorter
      shape.readItems (found + 1) read.value due read.rest (by omega)

/-- Reads the members of an object up to its closing brace. A repeated member is found
at its key, and the object is left there. -/
def readMembers (shape : Shape ρ α) {n : Nat} (first : Bool) (record : ρ) (s : List Char)
    (h : s.length < n) : Except Refusal (Found α n) := do
  match ← nextKey first s with
  | .ended rest h' => shape.value record rest (Nat.lt_trans h' h)
  | .item rest h' =>
    let key ← readText rest
    have := key.shorter
    match shape.members.find? (·.name == key.value) with
    | none =>
      let colon ← readColon key.rest
      let skipped ← skipValue colon.rest
      have := colon.shorter
      have := skipped.shorter
      shape.readMembers false record skipped.rest (by omega)
    | some member =>
      if member.present record then
        .error (.here (.repeatedMember member.name) (dropBrace key.rest))
      else
        let colon ← readColon key.rest
        let read ← member.read record colon.rest
        have := colon.shorter
        have := read.shorter
        shape.readMembers false read.value read.rest (by omega)
termination_by s.length

/-- Reads the members in either form. -/
def read (shape : Shape ρ α) : Reader α := afterSpace fun
  | '[' :: rest => shape.readItems 0 shape.empty shape.members rest (Nat.lt_succ_self _)
  | '{' :: rest => shape.readMembers true shape.empty rest (Nat.lt_succ_self _)
  | s => .error (mismatch (.members shape.event) s)

end Shape

end TraceTables.Json
