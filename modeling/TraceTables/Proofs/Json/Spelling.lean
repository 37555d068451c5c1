import TraceTables.Json.Text

/-!
# How a string may be spelled

Every character of a string may be spelled in several ways: as it is, unless it is a quote, a
backslash or a control character, by a backslash and a letter, or by four hexadecimal digits,
twice four for a character beyond the first 65536. `Spells` is the grammar of one character
and `Spelling` that of a text. `readText_spelling` says that a string is read as its text,
however each of its characters is spelled.
-/

namespace TraceTables.Json

/-- The letters of short escapes, with the characters that they stand for. -/
def shortEscapes : List (Char × Char) :=
  [('"', '"'), ('\\', '\\'), ('/', '/'), ('b', '\x08'), ('f', '\x0c'), ('n', '\n'), ('r', '\r'),
    ('t', '\t')]

/-- Whether a character is the hexadecimal digit of a number, in either case. -/
def isDigitOf (n : Nat) (c : Char) : Bool :=
  n < 0x10 && (c == Nat.digitChar n || c == (Nat.digitChar n).toUpper)

/-- Whether these are the four digits of a code. -/
def isCodeText (code : Nat) : List Char → Bool
  | [first, second, third, fourth] =>
    isDigitOf (code / 0x1000) first && isDigitOf (code / 0x100 % 0x10) second &&
      isDigitOf (code / 0x10 % 0x10) third && isDigitOf (code % 0x10) fourth
  | _ => false

/-- The spellings of a character within a string. -/
inductive Spells (c : Char) : List Char → Prop where
  | raw (quote : c ≠ '"') (backslash : c ≠ '\\') (visible : 0x20 ≤ c.toNat) : Spells c [c]
  | short {letter : Char} (listed : (letter, c) ∈ shortEscapes) : Spells c ['\\', letter]
  | code {digits : List Char} (text : isCodeText c.toNat digits = true) :
    Spells c ('\\' :: 'u' :: digits)
  | pair {first second : List Char} (beyond : 0x10000 ≤ c.toNat)
    (high : isCodeText (0xD800 + (c.toNat - 0x10000) / 0x400) first = true)
    (low : isCodeText (0xDC00 + (c.toNat - 0x10000) % 0x400) second = true) :
    Spells c ('\\' :: 'u' :: (first ++ '\\' :: 'u' :: second))

/-- The spellings of a text, character by character. -/
inductive Spelling : List Char → List Char → Prop where
  | nil : Spelling [] []
  | cons {c : Char} {code text body : List Char} (first : Spells c code)
    (more : Spelling text body) : Spelling (c :: text) (code ++ body)

variable {done : String} {s : List Char}

theorem extended_foldl_none (digits : List Char) : digits.foldl extended none = none := by
  induction digits with
  | nil => rfl
  | cons c more ih => exact ih

theorem hexDigit?_of_isDigitOf {n : Nat} {c : Char} (h : isDigitOf n c = true) :
    hexDigit? c = some n := by
  have digits : ∀ n < 0x10, hexDigit? (Nat.digitChar n) = some n ∧
      hexDigit? (Nat.digitChar n).toUpper = some n := by decide
  simp only [isDigitOf, Bool.and_eq_true, Bool.or_eq_true, decide_eq_true_eq, beq_iff_eq] at h
  obtain ⟨less, rfl | rfl⟩ := h
  · exact (digits n less).1
  · exact (digits n less).2

theorem unescaped?_of_mem {letter c : Char} (listed : (letter, c) ∈ shortEscapes) :
    unescaped? letter = some c := by
  have all : ∀ entry ∈ shortEscapes, unescaped? entry.1 = some entry.2 := by decide
  exact all _ listed

section Codes

variable {code : Nat} {digits : List Char}

/-- The text of a code is made of four hexadecimal digits. -/
theorem exists_digits (h : isCodeText code digits = true) :
    ∃ a b c d, digits = [a, b, c, d] ∧ hexDigit? a = some (code / 0x1000) ∧
      hexDigit? b = some (code / 0x100 % 0x10) ∧ hexDigit? c = some (code / 0x10 % 0x10) ∧
      hexDigit? d = some (code % 0x10) := by
  unfold isCodeText at h
  split at h
  case h_1 a b c d =>
    simp only [Bool.and_eq_true] at h
    obtain ⟨⟨⟨first, second⟩, third⟩, fourth⟩ := h
    exact ⟨a, b, c, d, rfl, hexDigit?_of_isDigitOf first, hexDigit?_of_isDigitOf second,
      hexDigit?_of_isDigitOf third, hexDigit?_of_isDigitOf fourth⟩
  case h_2 => cases h

theorem length_of_isCodeText (h : isCodeText code digits = true) : digits.length = 4 := by
  obtain ⟨a, b, c, d, rfl, -⟩ := exists_digits h
  rfl

theorem isSome_hexDigit?_of_isCodeText (h : isCodeText code digits = true) :
    ∀ c ∈ digits, (hexDigit? c).isSome = true := by
  obtain ⟨a, b, c, d, rfl, first, second, third, fourth⟩ := exists_digits h
  simp [first, second, third, fourth]

/-- The digits of a code make it up again. -/
theorem foldl_extended_of_isCodeText (h : isCodeText code digits = true) :
    digits.foldl extended (some 0) = some code := by
  obtain ⟨a, b, c, d, rfl, first, second, third, fourth⟩ := exists_digits h
  simp only [List.foldl_cons, List.foldl_nil, extended, Option.bind_some, Option.map_some, first,
    second, third, fourth, Option.some.injEq]
  omega

end Codes

/-- The digits of an escape are characters of one octet. -/
theorem utf8Size_of_hexDigit? {c : Char} {digit : Nat} (h : hexDigit? c = some digit) :
    c.utf8Size = 1 := by
  rw [Char.utf8Size_eq_one_iff]
  unfold hexDigit? at h
  have bound : c ≤ 'f' → c.val ≤ 127 := by
    intro le
    exact UInt32.le_trans le (by decide)
  repeat' split at h
  case _ range => exact bound (Char.le_trans range.2 (by decide))
  case _ range => exact bound range.2
  case _ range => exact bound (Char.le_trans range.2 (by decide))
  case _ => cases h

theorem readTextFrom_plain_cons (c : Char) :
    readTextFrom done .plain (c :: s) =
      if c = '"' then .ok (done, s)
      else if c = '\\' then readTextFrom done .escape s
      else if c.toNat < 0x20 then .error (.next .controlCharacter (c :: s))
      else readTextFrom (done.push c) .plain s := rfl

theorem readTextFrom_backslash :
    readTextFrom done .plain ('\\' :: s) = readTextFrom done .escape s := rfl

theorem readTextFrom_escape_cons (c : Char) :
    readTextFrom done .escape (c :: s) =
      if c = 'u' then readTextFrom done (.digits none 4 (some 0)) s
      else
        match unescaped? c with
        | some meant => readTextFrom (done.push meant) .plain s
        | none => .error (.next .invalidEscape (c :: s)) := rfl

theorem readTextFrom_mark :
    readTextFrom done .escape ('u' :: s) = readTextFrom done (.digits none 4 (some 0)) s := rfl

/-- What the digits of an escape lead to. -/
def afterDigits (done : String) (high : Option Nat) (code : Nat) (s : List Char) :
    Except Refusal (String × List Char) :=
  match high with
  | none =>
    if isLow code then .error (.here .loneSurrogate s)
    else if isHigh code then readTextFrom done (.pair code) s
    else readTextFrom (done.push (Char.ofNat code)) .plain s
  | some high =>
    if isLow code then readTextFrom (done.push (joined high code)) .plain s
    else .error (.here .loneSurrogate s)

/-- The digits of an escape are taken one by one. -/
theorem readTextFrom_digits {high : Option Nat} {digits : List Char} {start code : Nat}
    (digit : digits ≠ []) (value : digits.foldl extended (some start) = some code) :
    readTextFrom done (.digits high digits.length (some start)) (digits ++ s) =
      afterDigits done high code s := by
  induction digits generalizing start with
  | nil => exact absurd rfl digit
  | cons c more ih =>
    rw [List.foldl_cons] at value
    cases next : extended (some start) c with
    | none =>
      rw [next, extended_foldl_none] at value
      cases value
    | some reached =>
      have size : c.utf8Size = 1 := by
        obtain ⟨digit, isDigit, -⟩ := Option.map_eq_some_iff.1 next
        exact utf8Size_of_hexDigit? isDigit
      rw [next] at value
      rw [List.cons_append]
      unfold readTextFrom
      simp only [size, next]
      cases more with
      | nil =>
        cases value
        cases high <;> rfl
      | cons d rest =>
        rw [if_pos (by simp)]
        exact ih (by simp) value

theorem readTextFrom_code {high : Option Nat} {digits : List Char} {code : Nat}
    (h : isCodeText code digits = true) :
    readTextFrom done (.digits high 4 (some 0)) (digits ++ s) = afterDigits done high code s := by
  rw [← length_of_isCodeText h]
  refine readTextFrom_digits ?_ (foldl_extended_of_isCodeText h)
  rintro rfl
  cases h

/-- No character is half of a pair. -/
theorem not_half (c : Char) : isLow c.toNat = false ∧ isHigh c.toNat = false := by
  have valid := c.valid
  simp only [UInt32.isValidChar, Nat.isValidChar] at valid
  have : c.val.toNat = c.toNat := rfl
  simp only [isLow, isHigh, Bool.and_eq_false_iff, decide_eq_false_iff_not]
  omega

/-- A character beyond the first 65536 has two halves that make it up again. -/
theorem halves {c : Char} (beyond : 0x10000 ≤ c.toNat) :
    let high := 0xD800 + (c.toNat - 0x10000) / 0x400
    let low := 0xDC00 + (c.toNat - 0x10000) % 0x400
    isHigh high = true ∧ isLow high = false ∧ isLow low = true ∧ joined high low = c := by
  intro high low
  have valid := c.valid
  simp only [UInt32.isValidChar, Nat.isValidChar] at valid
  have : c.val.toNat = c.toNat := rfl
  have whole : 0x10000 + (high - 0xD800) * 0x400 + (low - 0xDC00) = c.toNat := by omega
  refine ⟨?_, ?_, ?_, ?_⟩
  · simp only [isHigh, Bool.and_eq_true, decide_eq_true_eq]
    omega
  · simp only [isLow, Bool.and_eq_false_iff, decide_eq_false_iff_not]
    omega
  · simp only [isLow, Bool.and_eq_true, decide_eq_true_eq]
    omega
  · rw [joined, whole, Char.ofNat_toNat]

/-- A spelled character is read as that character. -/
theorem readTextFrom_spells {c : Char} {code : List Char} (h : Spells c code) :
    readTextFrom done .plain (code ++ s) = readTextFrom (done.push c) .plain s := by
  cases h with
  | raw quote backslash visible =>
    rw [List.singleton_append, readTextFrom_plain_cons, if_neg quote, if_neg backslash,
      if_neg (Nat.not_lt.2 visible)]
  | @short letter listed =>
    have meant := unescaped?_of_mem listed
    have other : letter ≠ 'u' := by
      rintro rfl
      cases meant
    change readTextFrom done .plain ('\\' :: letter :: s) = _
    rw [readTextFrom_backslash, readTextFrom_escape_cons, if_neg other, meant]
  | @code digits text =>
    change readTextFrom done .plain ('\\' :: 'u' :: (digits ++ s)) = _
    rw [readTextFrom_backslash, readTextFrom_mark, readTextFrom_code text, afterDigits]
    simp [not_half c]
  | @pair first second beyond high low =>
    obtain ⟨highHalf, noLow, lowHalf, whole⟩ := halves beyond
    have regroup : '\\' :: 'u' :: (first ++ '\\' :: 'u' :: second) ++ s =
        '\\' :: 'u' :: (first ++ '\\' :: 'u' :: (second ++ s)) := by simp
    -- The first code is the first half of a pair and no second half, so another escape is due.
    rw [regroup, readTextFrom_backslash, readTextFrom_mark, readTextFrom_code high, afterDigits]
    simp only [noLow, highHalf, if_true, Bool.false_eq_true, if_false]
    change readTextFrom done (.digits (some _) 4 (some 0)) (second ++ s) = _
    rw [readTextFrom_code low, afterDigits]
    simp only [lowHalf, if_true, whole]

/-- A string is read as its text, however that is spelled. -/
theorem readTextFrom_spelling {text body : List Char} (h : Spelling text body) (done : String)
    (s : List Char) :
    readTextFrom done .plain (body ++ '"' :: s) = .ok (done ++ String.ofList text, s) := by
  induction h generalizing done with
  | nil =>
    rw [List.nil_append, readTextFrom_plain_cons, if_pos rfl]
    simp
  | @cons c _ text _ first more ih =>
    rw [List.append_assoc, readTextFrom_spells first, ih]
    refine congrArg (fun text => Except.ok (text, s)) (String.toList_injective ?_)
    simp

theorem readText_spelling {text : String} {body : List Char} (h : Spelling text.toList body)
    (s : List Char) :
    ∃ shorter, readText (body ++ '"' :: s) = .ok ⟨text, s, shorter⟩ := by
  have read := readTextFrom_spelling h "" s
  rw [String.ofList_toList, String.empty_append] at read
  refine ⟨length_lt_of_readTextFrom read, ?_⟩
  unfold readText
  split
  case _ text' rest read' =>
    rw [read] at read'
    cases read'
    rfl
  case _ refusal refused =>
    rw [read] at refused
    cases refused

end TraceTables.Json
