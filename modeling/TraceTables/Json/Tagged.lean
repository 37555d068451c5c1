import TraceTables.Json.Scalar

/-!
# Words with payloads

A choice between variants is written as a word with its payload: an object whose only key
is the word and whose value is the payload. A variant without payload may be written as
the bare word.
-/

namespace TraceTables.Json

/-- One variant of a choice. -/
structure Variant (α : Type) where
  word : String
  /-- The value of the bare word, or what the bare word lacks. -/
  bare : Except Wanted α
  payload : Reader α

/-- A variant without payload. -/
def Variant.plain {α : Type} (word : String) (value : α) : Variant α :=
  ⟨word, .ok value, readNull value⟩

/-- A variant whose payload is a value. -/
def Variant.withValue {α : Type} (word : String) (payload : Reader α) : Variant α :=
  ⟨word, .error .wordWithValue, payload⟩

/-- A variant whose payload is an object with fixed members. -/
def Variant.withMembers {α : Type} (word : String) (payload : Reader α) : Variant α :=
  ⟨word, .error .wordWithMembers, payload⟩

/-- Reads the word of a variant behind its opening quote. -/
def readWord {α : Type} (variants : List (Variant α)) (s : List Char) :
    Except Refusal (Found (Variant α) s.length) := do
  let word ← readText s
  match variants.find? (·.word == word.value) with
  | some variant => .ok (word.map fun _ => variant)
  | none => .error (.here (.unknownWord word.value (variants.map (·.word))) word.rest)

/-- Reads a variant as an object, behind its opening brace. -/
def readTagged {α : Type} (variants : List (Variant α)) (s : List Char) :
    Except Refusal (Found α s.length) :=
  match hs : skipSpace s with
  | [] => .error (.here .endInObject [])
  | c :: rest => do
    if c = '}' then throw (.next .expectedValue (c :: rest))
    if c ≠ '"' then throw (.next .keyNotText (c :: rest))
    let variant ← readWord variants rest
    let colon ← readColon variant.rest
    let value ← variant.value.payload colon.rest
    match hv : skipSpace value.rest with
    | [] => .error (.here .endInObject [])
    | d :: more =>
      if d = '}' then
        .ok ⟨value.value, more,
          Nat.lt_trans (length_lt_of_skipSpace hv) <| Nat.lt_trans value.shorter <|
            Nat.lt_trans colon.shorter <| Nat.lt_trans variant.shorter <|
              length_lt_of_skipSpace hs⟩
      else .error (.here .expectedValue (d :: more))

/-- Reads one of the variants in either form. -/
def readVariant {α : Type} (variants : List (Variant α)) : Reader α := afterSpace fun
  | '"' :: rest => do
    let variant ← readWord variants rest
    match variant.value.bare with
    | .ok value => .ok ((variant.map fun _ => value).behind '"')
    | .error wanted => .error ⟨.mismatch .bareWord wanted, none⟩
  | '{' :: rest => (readTagged variants rest).map (·.behind '{')
  | [] => .error (.here .endInValue [])
  | s => .error (.next .expectedValue s)

end TraceTables.Json
