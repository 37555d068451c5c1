import TraceTables.Proofs.Json.LineEnd.Basic

/-!
# Numbers and other scalars in front of a carriage return

A number ends in front of a carriage return as it does at the end of the line: neither is a digit, a
point, a sign or the letter of an exponent. So the readers of numbers take the same characters on
both lines, and the readers of scalars do.
-/

namespace TraceTables.Json

section Numbers

variable {s s' : List Char}

/-- Whether a carriage return stands behind a part of the line that is left. -/
def Tail.Behind (tail : Tail s) (tail' : Tail s') : Prop :=
  Json.Behind tail.val tail'.val

/-- Whether the same number is found, and a carriage return stands behind what is left. -/
def TailReturned (found : Number × Tail s) (found' : Number × Tail s') : Prop :=
  found'.1 = found.1 ∧ found.2.Behind found'.2

variable {tail : Tail s} {tail' : Tail s'}

theorem digitNext_of_behind {rest rest' : List Char} (behind : Behind rest rest') :
    digitNext rest' = digitNext rest := by
  obtain rfl : rest' = rest ++ ['\r'] := behind
  cases rest <;> rfl

theorem Tail.Behind.dropDigits (behind : tail.Behind tail') :
    tail.dropDigits.Behind tail'.dropDigits := by
  have same : tail'.val = tail.val ++ ['\r'] := behind
  change tail'.val.dropWhile Char.isDigit = tail.val.dropWhile Char.isDigit ++ ['\r']
  rw [same, List.dropWhile_append]
  split
  case isTrue nothing =>
    rw [List.isEmpty_iff.1 nothing]
    rfl
  case isFalse => rfl

theorem takeDigits_return (limit number taken : Nat) (behind : tail.Behind tail') :
    (takeDigits limit number taken tail').number = (takeDigits limit number taken tail).number ∧
      (takeDigits limit number taken tail').taken = (takeDigits limit number taken tail).taken ∧
      (takeDigits limit number taken tail).rest.Behind
        (takeDigits limit number taken tail').rest := by
  obtain ⟨rest, within⟩ := tail
  obtain ⟨rest', within'⟩ := tail'
  obtain rfl : rest' = rest ++ ['\r'] := behind
  induction rest generalizing number taken with
  | nil =>
    have noDigit : '\r'.isDigit = false := rfl
    simp only [List.nil_append]
    rw [takeDigits.eq_def, takeDigits.eq_def]
    simp only [noDigit, Bool.false_eq_true, false_and, if_false]
    exact ⟨trivial, trivial, rfl⟩
  | cons c more ih =>
    simp only [List.cons_append]
    rw [takeDigits.eq_def, takeDigits.eq_def _ _ _ (⟨c :: more, _⟩ : Tail s)]
    dsimp only
    split
    · exact ih _ _ _ _
    · exact ⟨rfl, rfl, rfl⟩

theorem assemble_return (minus : Bool) (digits : Nat) (exponent : Int)
    (behind : tail.Behind tail') :
    Agree TailReturned (assemble minus digits exponent tail)
      (assemble minus digits exponent tail') := by
  unfold assemble
  split
  · exact .found ⟨rfl, behind⟩
  · exact .refused _ _

/-- Reads an exponent behind its sign. -/
def readPower (minus : Bool) (digits : Nat) (start : Int) (down : Bool) (tail : Tail s) :
    Except Refusal (Number × Tail s) :=
  match tail with
  | ⟨[], _⟩ => .error (.here .endInValue [])
  | ⟨c :: rest, h⟩ =>
    if c.isDigit then
      let power := takeDigits (0x7FFFFFFF) 0 0 (⟨c :: rest, h⟩ : Tail s)
      if digitNext power.rest.val then
        if digits = 0 ∨ down then
          .ok (.real (if minus then -0.0 else 0.0), power.rest.dropDigits)
        else .error (.next .numberOutOfRange power.rest.val)
      else
        let exponent := if down then start - power.number else start + power.number
        assemble minus digits exponent power.rest
    else .error (.next .invalidNumber (c :: rest))

theorem readExponent_unsigned (minus : Bool) (digits : Nat) (start : Int) (tail : Tail s)
    (unsigned : ∀ c ∈ tail.val.head?, c ≠ '+' ∧ c ≠ '-') :
    readExponent minus digits start tail = readPower minus digits start false tail := by
  unfold readExponent
  split
  case _ down rest sign =>
    split at sign
    · exact absurd rfl (unsigned _ rfl).1
    · exact absurd rfl (unsigned _ rfl).2
    · cases sign
      rfl

theorem readPower_return (minus : Bool) (digits : Nat) (start : Int) (down : Bool)
    (behind : tail.Behind tail') :
    Agree TailReturned (readPower minus digits start down tail)
      (readPower minus digits start down tail') := by
  obtain ⟨rest, within⟩ := tail
  obtain ⟨rest', within'⟩ := tail'
  obtain ⟨number, -, left⟩ := takeDigits_return 0x7FFFFFFF 0 0 behind
  obtain rfl : rest' = rest ++ ['\r'] := behind
  cases rest with
  | nil => exact .refused _ _
  | cons c more =>
    simp only [List.cons_append] at number left ⊢
    rw [readPower.eq_def, readPower.eq_def]
    dsimp only
    rw [number, digitNext_of_behind left]
    split
    · split
      · split
        · exact .found ⟨rfl, left.dropDigits⟩
        · exact .refused _ _
      · exact assemble_return _ _ _ left
    · exact .refused _ _

theorem readExponent_return (minus : Bool) (digits : Nat) (start : Int)
    (behind : tail.Behind tail') :
    Agree TailReturned (readExponent minus digits start tail)
      (readExponent minus digits start tail') := by
  obtain ⟨rest, within⟩ := tail
  obtain ⟨rest', within'⟩ := tail'
  obtain rfl : rest' = rest ++ ['\r'] := behind
  cases rest with
  | nil => exact .refused _ _
  | cons c more =>
    by_cases plus : c = '+'
    · subst plus
      exact readPower_return minus digits start false rfl
    by_cases hyphen : c = '-'
    · subst hyphen
      exact readPower_return minus digits start true rfl
    have unsigned (d : Char) (next : d ∈ some c) : d ≠ '+' ∧ d ≠ '-' := by
      cases next
      exact ⟨plus, hyphen⟩
    rw [readExponent_unsigned _ _ _ ⟨_, within⟩ unsigned,
      readExponent_unsigned _ _ _ ⟨_, within'⟩ unsigned]
    exact readPower_return minus digits start false rfl

theorem readScale_ended (minus : Bool) (digits : Nat) (start : Int) (tail : Tail s)
    (ended : ∀ c ∈ tail.val.head?, c ≠ 'e' ∧ c ≠ 'E') :
    readScale minus digits start tail = assemble minus digits start tail := by
  unfold readScale
  split
  · exact absurd rfl (ended _ rfl).1
  · exact absurd rfl (ended _ rfl).2
  · rfl

theorem readScale_return (minus : Bool) (digits : Nat) (start : Int)
    (behind : tail.Behind tail') :
    Agree TailReturned (readScale minus digits start tail)
      (readScale minus digits start tail') := by
  obtain ⟨rest, within⟩ := tail
  obtain ⟨rest', within'⟩ := tail'
  obtain rfl : rest' = rest ++ ['\r'] := behind
  cases rest with
  | nil => exact assemble_return minus digits start rfl
  | cons c more =>
    by_cases e : c = 'e'
    · subst e
      exact readExponent_return minus digits start rfl
    by_cases E : c = 'E'
    · subst E
      exact readExponent_return minus digits start rfl
    have ended (d : Char) (next : d ∈ some c) : d ≠ 'e' ∧ d ≠ 'E' := by
      cases next
      exact ⟨e, E⟩
    rw [readScale_ended _ _ _ ⟨_, within⟩ ended, readScale_ended _ _ _ ⟨_, within'⟩ ended]
    exact assemble_return minus digits start rfl

theorem readFraction_return (minus : Bool) (digits : Nat) (start : Int)
    (behind : tail.Behind tail') :
    Agree TailReturned (readFraction minus digits start tail)
      (readFraction minus digits start tail') := by
  obtain ⟨number, taken, rest⟩ := takeDigits_return (UInt64.size - 1) digits 0 behind
  simp only [readFraction, number, taken, digitNext_of_behind rest]
  split
  · exact readScale_return _ _ _ rest.dropDigits
  split
  · split <;> split <;> exact .refused _ _
  · exact readScale_return _ _ _ rest

/-- The number that ends behind its integral digits. -/
def wholeNumber (minus : Bool) (digits : Nat) : Number :=
  if !minus then .natural (UInt64.ofNat digits)
  else if digits = 0 ∨ UInt64.size / 2 < digits then .real (-(UInt64.ofNat digits).toFloat)
  else .negative digits

theorem readAfterWhole_ended (minus : Bool) (digits : Nat) (tail : Tail s)
    (ended : ∀ c ∈ tail.val.head?, c ≠ '.' ∧ c ≠ 'e' ∧ c ≠ 'E') :
    readAfterWhole minus digits tail = .ok (wholeNumber minus digits, tail) := by
  unfold readAfterWhole wholeNumber
  split
  · exact absurd rfl (ended _ rfl).1
  · exact absurd rfl (ended _ rfl).2.1
  · exact absurd rfl (ended _ rfl).2.2
  · split
    · rfl
    split <;> rfl

theorem readAfterWhole_return (minus : Bool) (digits : Nat) (behind : tail.Behind tail') :
    Agree TailReturned (readAfterWhole minus digits tail) (readAfterWhole minus digits tail') := by
  obtain ⟨rest, within⟩ := tail
  obtain ⟨rest', within'⟩ := tail'
  obtain rfl : rest' = rest ++ ['\r'] := behind
  cases rest with
  | nil =>
    rw [readAfterWhole_ended _ _ ⟨[], within⟩ (by simp),
      readAfterWhole_ended _ _ ⟨_, within'⟩ (by simp)]
    exact .found ⟨rfl, rfl⟩
  | cons c more =>
    by_cases point : c = '.'
    · subst point
      exact readFraction_return minus digits 0 rfl
    by_cases e : c = 'e'
    · subst e
      exact readExponent_return minus digits 0 rfl
    by_cases E : c = 'E'
    · subst E
      exact readExponent_return minus digits 0 rfl
    have ended (d : Char) (next : d ∈ some c) : d ≠ '.' ∧ d ≠ 'e' ∧ d ≠ 'E' := by
      cases next
      exact ⟨point, e, E⟩
    rw [readAfterWhole_ended _ _ ⟨_, within⟩ ended, readAfterWhole_ended _ _ ⟨_, within'⟩ ended]
    exact .found ⟨rfl, rfl⟩

theorem readAfterLongWhole_point (minus : Bool) (digits : Nat) (tail : Tail s) {rest : List Char}
    (point : tail.dropDigits.val = '.' :: rest) :
    ∃ h, readAfterLongWhole minus digits tail =
      readFraction minus digits (tail.val.length - tail.dropDigits.val.length)
        (⟨rest, h⟩ : Tail s) := by
  have within : rest.length ≤ s.length := by
    have := tail.dropDigits.property
    rw [point, List.length_cons] at this
    omega
  have dropped : tail.dropDigits = ⟨'.' :: rest, point ▸ tail.dropDigits.property⟩ :=
    Subtype.ext point
  refine ⟨within, ?_⟩
  rw [readAfterLongWhole, dropped]
  rfl

theorem readAfterLongWhole_ended (minus : Bool) (digits : Nat) (tail : Tail s)
    (ended : ∀ c ∈ tail.dropDigits.val.head?, c ≠ '.') :
    readAfterLongWhole minus digits tail =
      readScale minus digits (tail.val.length - tail.dropDigits.val.length)
        tail.dropDigits := by
  unfold readAfterLongWhole
  dsimp only
  split
  case _ rest h point =>
    rw [point] at ended
    exact absurd rfl (ended '.' rfl)
  case _ => rfl

theorem readAfterLongWhole_return (minus : Bool) (digits : Nat) (behind : tail.Behind tail') :
    Agree TailReturned (readAfterLongWhole minus digits tail)
      (readAfterLongWhole minus digits tail') := by
  have left : tail'.dropDigits.val = tail.dropDigits.val ++ ['\r'] := behind.dropDigits
  have passed : (tail'.val.length : Int) - tail'.dropDigits.val.length =
      tail.val.length - tail.dropDigits.val.length := by
    rw [show tail'.val = _ from behind, left]
    simp only [List.length_append]
    omega
  cases rest : tail.dropDigits.val with
  | nil =>
    rw [readAfterLongWhole_ended _ _ tail (by simp [rest]),
      readAfterLongWhole_ended _ _ tail' (by simp [left, rest]), passed]
    exact readScale_return minus digits _ behind.dropDigits
  | cons c more =>
    by_cases point : c = '.'
    · subst point
      obtain ⟨h, reads⟩ := readAfterLongWhole_point minus digits tail rest
      have rest' : tail'.dropDigits.val = '.' :: (more ++ ['\r']) := by
        rw [left, rest, List.cons_append]
      obtain ⟨h', reads'⟩ := readAfterLongWhole_point minus digits tail' rest'
      rw [reads, reads', passed]
      exact readFraction_return minus digits _ rfl
    · rw [readAfterLongWhole_ended _ _ tail (by simp [rest, point]),
        readAfterLongWhole_ended _ _ tail' (by simp [left, rest, point]), passed]
      exact readScale_return minus digits _ behind.dropDigits

theorem readWhole_return (minus : Bool) (first : Char) (s : List Char) :
    Agree TailReturned (readWhole minus first s) (readWhole minus first (s ++ ['\r'])) := by
  have behind : Tail.Behind (⟨s, Nat.le_refl _⟩ : Tail s)
    (⟨s ++ ['\r'], Nat.le_refl _⟩ : Tail (s ++ ['\r'])) := rfl
  have next : digitNext (s ++ ['\r']) = digitNext s := digitNext_of_behind rfl
  obtain ⟨number, -, rest⟩ :=
    takeDigits_return (UInt64.size - 1) (first.toNat - '0'.toNat) 1 behind
  simp only [readWhole, number, digitNext_of_behind rest, next]
  split
  · split
    · exact .refused _ _
    · exact readAfterWhole_return _ _ behind
  split
  · split
    · exact readAfterLongWhole_return _ _ rest
    · exact readAfterWhole_return _ _ rest
  · exact .refused _ _

theorem readNumber_return : IgnoresReturn readNumber := by
  intro s
  cases s with
  | nil => exact .refused _ _
  | cons first rest =>
    by_cases minus : first = '-'
    · subst minus
      cases rest with
      | nil => exact .refused _ _
      | cons first rest => exact (readWhole_return true first rest).map fun _ _ same => same
    · rw [List.cons_append, readNumber_of_ne minus, readNumber_of_ne minus]
      exact (readWhole_return false first rest).map fun _ _ same => same

end Numbers

section Values

theorem readNull_return (value : α) : IgnoresReturn (readNull value) := by
  apply afterSpace_ignoresReturn
  · exact ⟨_, rfl⟩
  intro c s
  by_cases n : c = 'n'
  · subst n
    exact readName_return (by decide) value s
  · simpa [n] using Agree.refused _ _

theorem readBool_return : IgnoresReturn readBool := by
  apply afterSpace_ignoresReturn
  · exact ⟨_, rfl⟩
  intro c s
  by_cases t : c = 't'
  · subst t
    exact readName_return (by decide) true s
  by_cases f : c = 'f'
  · subst f
    exact readName_return (by decide) false s
  · simpa [t, f] using Agree.refused _ _

theorem readString_return : IgnoresReturn readString := by
  apply afterSpace_ignoresReturn
  · exact ⟨_, rfl⟩
  intro c s
  by_cases quote : c = '"'
  · subst quote
    exact (readText_return s).map fun _ _ same => same
  · simpa [quote] using Agree.refused _ _

theorem readUInt64_return : IgnoresReturn readUInt64 := by
  apply afterSpace_ignoresReturn
  · exact ⟨_, rfl⟩
  intro c s
  have read := readNumber_return (c :: s)
  have same : numberNext (c :: (s ++ ['\r'])) = numberNext (c :: s) := rfl
  rw [same]
  split
  case isTrue =>
    rw [List.cons_append] at read
    generalize readNumber (c :: s) = left at read ⊢
    generalize readNumber (c :: (s ++ ['\r'])) = right at read ⊢
    cases read with
    | refused => exact .refused _ _
    | @found number number' related =>
      obtain ⟨value, rest, _⟩ := number
      obtain ⟨value', rest', _⟩ := number'
      obtain ⟨rfl, behind⟩ : value' = value ∧ Behind rest rest' := related
      cases value' with
      | natural n => exact .found ⟨rfl, behind⟩
      | negative magnitude => exact .refused _ _
      | real x => exact .refused _ _
  case isFalse => exact .refused _ _

end Values

end TraceTables.Json
