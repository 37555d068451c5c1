import TraceTables.Json.Print
import TraceTables.Proofs.Json.EventText

/-!
# Written events are read back

What is written for an event is one of its texts (`eventText_printEvent`), and so it is read as
that event (`readEvent_printEvent`). It holds no control character, whatever the texts of the event
hold, so that it fits on one line.
-/

namespace TraceTables.Json

/-- The characters between the quotes of a written string. -/
def escaped (text : String) : List Char :=
  text.toList.flatMap fun c => (Text.spelling escape c).toList

theorem string_toList (text : String) : (string text).toList = '"' :: (escaped text ++ ['"']) := by
  simp [string, Text.substitute_toList, escaped]

/-- A character is written as one of its spellings. -/
theorem spells_escape (c : Char) : Spells c (Text.spelling escape c).toList := by
  have digits : ∀ n < 0x20,
      isCodeText n ['0', '0', hexDigit (n / 16), hexDigit (n % 16)] = true := by
    decide
  have short (letter : Char) (listed : (letter, c) ∈ shortEscapes) :
      Spells c ['\\', letter] := .short listed
  unfold Text.spelling escape
  split
  case h_8 quote backslash _ _ _ _ _ =>
    split
    case isTrue control =>
      have code : Spells c _ := .code (digits c.toNat control)
      simpa using code
    case isFalse visible =>
      simpa using Spells.raw quote backslash (Nat.not_lt.1 visible)
  case h_1 => exact short '"' (by decide)
  case h_2 => exact short '\\' (by decide)
  case h_3 => exact short 'b' (by decide)
  case h_4 => exact short 't' (by decide)
  case h_5 => exact short 'n' (by decide)
  case h_6 => exact short 'f' (by decide)
  case h_7 => exact short 'r' (by decide)

theorem spelling_escaped (text : String) : Spelling text.toList (escaped text) := by
  unfold escaped
  induction text.toList with
  | nil => exact .nil
  | cons c more ih => exact .cons (spells_escape c) ih

theorem object_one (key value : String) :
    (object [(key, value)]).toList =
      '\x7b' :: '"' :: (escaped key ++ '"' :: ':' :: (value.toList ++ ['\x7d'])) := by
  simp [object, string_toList]

theorem object_two (key key' value value' : String) :
    (object [(key, value), (key', value')]).toList =
      '\x7b' :: '"' :: (escaped key ++ '"' :: ':' :: (value.toList ++
        ',' :: '"' :: (escaped key' ++ '"' :: ':' :: (value'.toList ++ ['\x7d'])))) := by
  simp [object, string_toList]

section Texts

theorem quotedText_string (text : String) : QuotedText text (string text).toList := by
  rw [string_toList]
  exact .make (spelling_escaped text)

theorem taggedText_object {word value : String} {payload : List Char → Prop}
    (given : payload value.toList) :
    TaggedText word payload (object [(word, value)]).toList := by
  rw [object_one]
  exact .make space_nil (spelling_escaped word) space_nil space_nil given space_nil

theorem objectText_one {key value : String} {text : List Char → Prop}
    (given : text value.toList) : ObjectText [(key, text)] (object [(key, value)]).toList := by
  have texts : MembersText true [(key, value.toList)] _ :=
    .cons (.first space_nil) (spelling_escaped key) space_nil space_nil .nil
  have once : Once [(key, value.toList)] key text := ⟨_, by simp, given⟩
  have object : ObjectText [(key, text)] _ :=
    .make texts space_nil (List.forall_mem_singleton.2 once) (by simp)
  rw [object_one]
  simpa using object

/-- An object with two members is written in the order in which they are given. -/
theorem objectText_two {key key' value value' : String} {text text' : List Char → Prop}
    (distinct : key ≠ key') (given : text value.toList) (given' : text' value'.toList) :
    ObjectText [(key, text), (key', text')] (object [(key, value), (key', value')]).toList := by
  have texts : MembersText true [(key, value.toList), (key', value'.toList)] _ :=
    .cons (.first space_nil) (spelling_escaped key) space_nil space_nil <|
    .cons (.next space_nil space_nil) (spelling_escaped key') space_nil space_nil .nil
  have once : Once [(key, value.toList), (key', value'.toList)] key text :=
    ⟨_, by simp [distinct.symm], given⟩
  have once' : Once [(key, value.toList), (key', value'.toList)] key' text' :=
    ⟨_, by simp [distinct], given'⟩
  have object : ObjectText [(key, text), (key', text')] _ :=
    .make texts space_nil (List.forall_mem_cons.2 ⟨once, List.forall_mem_singleton.2 once'⟩)
      (by simp +contextual)
  rw [object_two]
  simpa using object

theorem valueText_written (value : Value) :
    ValueText value (object [(value.word, valuePayload value)]).toList := by
  cases value with
  | uint64 n => exact taggedText_object rfl
  | string text => exact taggedText_object (quotedText_string text)
  | bool flag => cases flag <;> exact taggedText_object rfl

/-- What is written for an event is one of its texts. -/
theorem eventText_printEvent (event : Event) : EventText event (printEvent event).toList := by
  cases event with
  | tableBegin kind name =>
    exact taggedText_object <|
      objectText_two (by decide) (quotedText_string kind.word) (quotedText_string name)
  | columnDeclare type name =>
    exact taggedText_object <|
      objectText_two (by decide) (quotedText_string type.word) (quotedText_string name)
  | rowBegin => exact quotedText_string "row_begin"
  | cellValue value => exact taggedText_object (valueText_written value)
  | rowEnd => exact quotedText_string "row_end"
  | tableEnd => exact quotedText_string "table_end"
  | error message => exact taggedText_object (objectText_one (quotedText_string message))

theorem lineText_printEvent (event : Event) : LineText event (printEvent event).toList := by
  have line := LineText.make space_nil (eventText_printEvent event) space_nil
  rwa [List.nil_append, List.append_nil] at line

end Texts

/-- A written event is read back. -/
theorem readEvent_printEvent (event : Event) : readEvent (printEvent event) = .ok event :=
  readEvent_of_lineText (lineText_printEvent event)

theorem isBlank_printEvent (event : Event) : Text.isBlank (printEvent event).toList = false :=
  isBlank_of_lineText (lineText_printEvent event)

section Visible

/-- Whether a text holds no control character. -/
def Visible (text : List Char) : Prop :=
  ∀ c ∈ text, 0x20 ≤ c.toNat

theorem visible_nil : Visible [] := by
  intro c member
  cases member

@[simp] theorem visible_cons (c : Char) (text : List Char) :
    Visible (c :: text) ↔ 0x20 ≤ c.toNat ∧ Visible text :=
  List.forall_mem_cons

@[simp] theorem visible_append (a b : List Char) : Visible (a ++ b) ↔ Visible a ∧ Visible b :=
  List.forall_mem_append

theorem visible_spelling (c : Char) : Visible (Text.spelling escape c).toList := by
  have digits : ∀ n < 0x20,
      0x20 ≤ (hexDigit (n / 16)).toNat ∧ 0x20 ≤ (hexDigit (n % 16)).toNat := by decide
  unfold Text.spelling escape
  split
  case h_8 =>
    split
    case isTrue control =>
      obtain ⟨high, low⟩ := digits c.toNat control
      simp [high, low, visible_nil]
    case isFalse visible => simpa [visible_nil] using visible
  all_goals simp [visible_nil]

theorem visible_escaped (text : String) : Visible (escaped text) := by
  intro d member
  obtain ⟨c, -, spelled⟩ := List.mem_flatMap.1 member
  exact visible_spelling c d spelled

theorem visible_string (text : String) : Visible (string text).toList := by
  rw [string_toList]
  simp [visible_escaped, visible_nil]

theorem visible_object_one {key value : String} (h : Visible value.toList) :
    Visible (object [(key, value)]).toList := by
  rw [object_one]
  simp [visible_escaped, visible_nil, h]

theorem visible_object_two {key key' value value' : String} (h : Visible value.toList)
    (h' : Visible value'.toList) : Visible (object [(key, value), (key', value')]).toList := by
  rw [object_two]
  simp [visible_escaped, visible_nil, h, h']

theorem visible_valuePayload (value : Value) : Visible (valuePayload value).toList := by
  cases value with
  | uint64 n =>
    change Visible (toString n.toNat).toList
    rw [Nat.toString_eq_repr, Nat.toList_repr]
    intro c member
    have digit : c.isDigit = true := Nat.isDigit_of_mem_toDigits (by decide) (by decide) member
    rw [Char.isDigit_iff_toNat] at digit
    exact Nat.le_trans (by decide) digit.1
  | string text => exact visible_string text
  | bool flag =>
    cases flag <;> simp [valuePayload, visible_nil]

/-- A written event holds no control character, whatever its texts hold. -/
theorem visible_printEvent (event : Event) : Visible (printEvent event).toList := by
  cases event with
  | tableBegin kind name =>
    exact visible_object_one (visible_object_two (visible_string _) (visible_string _))
  | columnDeclare type name =>
    exact visible_object_one (visible_object_two (visible_string _) (visible_string _))
  | cellValue value => exact visible_object_one (visible_object_one (visible_valuePayload value))
  | error message => exact visible_object_one (visible_object_one (visible_string _))
  | rowBegin => exact visible_string _
  | rowEnd => exact visible_string _
  | tableEnd => exact visible_string _

end Visible

end TraceTables.Json
