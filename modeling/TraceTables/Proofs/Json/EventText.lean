import TraceTables.Json.Read
import TraceTables.Proofs.Json.Objects
import TraceTables.Proofs.Json.WellFormed
import TraceTables.Text.Blank

/-!
# How an event may be spelled

`EventText` is the grammar of the texts of an event, by its fields alone: words and texts are
strings, however they are spelled, white space stands between any two tokens, and an object gives
each of its own members once, in any order and among any other members (`ObjectText`).

A reader takes the texts of a kind for a value (`Takes`). That is carried through the grammar from
the inside out, so that `takes_event` names, for each event, the readers that its text meets. Only
an object needs an induction of its own. At each of its members, a field of the record either holds
its value already, and its key does not come again, or its key is still to come (`Owed`).
-/

namespace TraceTables.Json

section Grammar

/-- A string that stands for the text. -/
inductive QuotedText (text : String) : List Char → Prop where
  | make {body : List Char} (spelled : Spelling text.toList body) :
    QuotedText text ('"' :: (body ++ ['"']))

/-- A word with its payload, as an object with one member. -/
inductive TaggedText (word : String) (payload : List Char → Prop) : List Char → Prop where
  | make {space body space' space'' s last : List Char} (spaces : Space space)
    (spelled : Spelling word.toList body) (spaces' : Space space') (spaces'' : Space space'')
    (given : payload s) (lastSpaces : Space last) :
    TaggedText word payload ('\x7b' :: (space ++ '"' :: (body ++ '"' :: (space' ++ ':' ::
      (space'' ++ s ++ (last ++ ['\x7d']))))))

/-- The members of an object, with their keys and the texts of their values. -/
inductive MembersText : Bool → List (String × List Char) → List Char → Prop where
  | nil {first : Bool} : MembersText first [] []
  | cons {first : Bool} {members : List (String × List Char)} {key : String}
    {lead body space space' value more : List Char} (leads : Lead first lead)
    (spelled : Spelling key.toList body) (spaces : Space space) (spaces' : Space space')
    (rest : MembersText false members more) :
    MembersText first ((key, value) :: members)
      (lead ++ '"' :: (body ++ '"' :: (space ++ ':' :: (space' ++ value ++ more))))

/-- Whether a key is given once, with a value of some kind. -/
def Once (members : List (String × List Char)) (key : String) (text : List Char → Prop) : Prop :=
  ∃ value, members.filter (·.1 == key) = [(key, value)] ∧ text value

/-- An object that gives each of its own members once. Any other member has a well-formed value. -/
inductive ObjectText (own : List (String × (List Char → Prop))) : List Char → Prop where
  | make {members : List (String × List Char)} {phrase space : List Char}
    (texts : MembersText true members phrase) (spaces : Space space)
    (once : ∀ member ∈ own, Once members member.1 member.2)
    (others : ∀ member ∈ members, member.1 ∉ own.map Prod.fst → WellFormed .value member.2) :
    ObjectText own ('\x7b' :: (phrase ++ (space ++ ['\x7d'])))

/-- The texts of a value. An integer is given in plain digits. -/
def ValueText : Value → List Char → Prop
  | .uint64 n => TaggedText "uint64" (· = (toString n.toNat).toList)
  | .string text => TaggedText "string" (QuotedText text)
  | .bool true => TaggedText "bool" (· = ['t', 'r', 'u', 'e'])
  | .bool false => TaggedText "bool" (· = ['f', 'a', 'l', 's', 'e'])

/-- The texts of an event. -/
def EventText : Event → List Char → Prop
  | .tableBegin kind name => TaggedText "table_begin" <|
    ObjectText [("kind", QuotedText kind.word), ("name", QuotedText name)]
  | .columnDeclare type name => TaggedText "column_declare" <|
    ObjectText [("column_type", QuotedText type.word), ("name", QuotedText name)]
  | .rowBegin => QuotedText "row_begin"
  | .cellValue value => TaggedText "cell_value" (ValueText value)
  | .rowEnd => QuotedText "row_end"
  | .tableEnd => QuotedText "table_end"
  | .error message => TaggedText "error" (ObjectText [("message", QuotedText message)])

/-- A text of an event with white space around it. -/
inductive LineText (event : Event) : List Char → Prop where
  | make {space s space' : List Char} (spaces : Space space) (text : EventText event s)
    (spaces' : Space space') : LineText event (space ++ (s ++ space'))

end Grammar

section Takes

variable {α β : Type} {reader : Reader α} {text : List Char → Prop} {a : α}

/-- The reader takes every text of this kind for the value, behind any white space. -/
def Takes (reader : Reader α) (text : List Char → Prop) (a : α) : Prop :=
  ∀ ⦃space s⦄, Space space → text s → Reads reader (space ++ s) a

theorem Takes.map (h : Takes reader text a) (f : α → β) :
    Takes (fun s => (reader s).map (·.map f)) text (f a) := by
  intro space s spaces given
  exact (h spaces given).map f

theorem takes_uint64 (n : UInt64) : Takes readUInt64 (· = (toString n.toNat).toList) n := by
  rintro space s spaces rfl
  exact (reads_uint64 n).spaced spaces

theorem takes_true : Takes readBool (· = ['t', 'r', 'u', 'e']) true := by
  rintro space s spaces rfl
  exact reads_true.spaced spaces

theorem takes_false : Takes readBool (· = ['f', 'a', 'l', 's', 'e']) false := by
  rintro space s spaces rfl
  exact reads_false.spaced spaces

theorem takes_quoted (text : String) : Takes readString (QuotedText text) text := by
  rintro space s spaces ⟨spelled⟩
  exact (reads_string spelled).spaced spaces

variable {variants : List (Variant α)} {variant : Variant α} {word : String}

theorem takes_word (found : variants.find? (·.word == word) = some variant)
    (bare : variant.bare = .ok a) : Takes (readVariant variants) (QuotedText word) a := by
  rintro space s spaces ⟨spelled⟩
  exact (reads_bareWord spelled found bare).spaced spaces

theorem takes_tagged (found : variants.find? (·.word == word) = some variant)
    (payload : Takes variant.payload text a) :
    Takes (readVariant variants) (TaggedText word text) a := by
  rintro space s spaces ⟨before, spelled, colon, behind, given, after⟩
  exact (reads_tagged before colon after spelled found (payload behind given)).spaced spaces

theorem takes_tableKind (kind : TableKind) :
    Takes (readVariant tableKinds) (QuotedText kind.word) kind := by
  cases kind <;> exact takes_word rfl rfl

theorem takes_columnType (type : ColumnType) :
    Takes (readVariant columnTypes) (QuotedText type.word) type := by
  cases type <;> exact takes_word rfl rfl

theorem takes_value (value : Value) : Takes (readVariant values) (ValueText value) value := by
  cases value with
  | uint64 n => exact takes_tagged rfl ((takes_uint64 n).map Value.uint64)
  | string text => exact takes_tagged rfl ((takes_quoted text).map Value.string)
  | bool flag =>
    cases flag with
    | true => exact takes_tagged rfl (takes_true.map Value.bool)
    | false => exact takes_tagged rfl (takes_false.map Value.bool)

end Takes

section Owed

variable {α : Type} {key other : String} {text : List Char → Prop} {a : α}
  {members : List (String × List Char)} {value : List Char} {field : Option α}

/-- What a field of a record holds where some members are left. -/
inductive Owed (key : String) (text : List Char → Prop) (a : α)
    (members : List (String × List Char)) : Option α → Prop where
  | held (absent : members.filter (·.1 == key) = []) : Owed key text a members (some a)
  | due (once : Once members key text) : Owed key text a members none

theorem Owed.eq_some (h : Owed key text a [] field) : field = some a := by
  cases h with
  | held => rfl
  | due once =>
    obtain ⟨_, given, -⟩ := once
    cases given

/-- Another member changes nothing. -/
theorem Owed.of_ne (h : Owed key text a ((other, value) :: members) field) (ne : other ≠ key) :
    Owed key text a members field := by
  have skipped : ((other, value) :: members).filter (·.1 == key) =
      members.filter (·.1 == key) :=
    List.filter_cons_of_neg (by simpa using ne)
  cases h with
  | held absent => exact .held (skipped ▸ absent)
  | due once => exact .due (by rwa [Once, skipped] at once)

/-- The member of a field has its value, and does not come again. -/
theorem Owed.of_eq (h : Owed key text a ((key, value) :: members) field) :
    field = none ∧ text value ∧ Owed key text a members (some a) := by
  have kept : ((key, value) :: members).filter (·.1 == key) =
      (key, value) :: members.filter (·.1 == key) :=
    List.filter_cons_of_pos (by simp)
  cases h with
  | held absent =>
    rw [kept] at absent
    cases absent
  | due once =>
    obtain ⟨given, same, right⟩ := once
    rw [kept] at same
    obtain ⟨first, absent⟩ := List.cons.inj same
    cases first
    exact ⟨rfl, right, .held absent⟩

end Owed

section Objects

variable {ρ α : Type} {shape : Shape ρ α}

/-- What a member makes of a record: its value is stored, or it is passed over. -/
inductive Shape.Step (shape : Shape ρ α) (record : ρ) (key : String) (value : List Char) :
    ρ → Prop where
  | stored {member : Member ρ} {next : ρ}
    (found : shape.members.find? (·.name == key) = some member)
    (absent : member.present record = false)
    (read : ∀ ⦃space⦄, Space space → Reads (member.read record) (space ++ value) next) :
    Step shape record key value next
  | passed (unknown : shape.members.find? (·.name == key) = none)
    (wellFormed : WellFormed .value value) : Step shape record key value record

variable {own : List (String × (List Char → Prop))} {owes : List (String × List Char) → ρ → Prop}

/-- If every member leads from what a record owes to what the next one owes, members lead to a record
that owes nothing. -/
theorem exists_members {first : Bool} {members : List (String × List Char)} {phrase : List Char}
    (texts : MembersText first members phrase)
    (others : ∀ member ∈ members, member.1 ∉ own.map Prod.fst → WellFormed .value member.2)
    (step : ∀ {key value members record}, (key ∉ own.map Prod.fst → WellFormed .value value) →
      owes ((key, value) :: members) record →
      ∃ next, shape.Step record key value next ∧ owes members next)
    {record : ρ} (owed : owes members record) :
    ∃ last, shape.Members first record phrase last ∧ owes [] last := by
  -- What is owed is the invariant: it speaks of the members that are left, not of their texts.
  induction texts generalizing record with
  | nil => exact ⟨record, .nil, owed⟩
  | cons leads spelled spaces spaces' _ ih =>
    obtain ⟨here, later⟩ := List.forall_mem_cons.1 others
    obtain ⟨next, made, left⟩ := step here owed
    obtain ⟨last, more, ended⟩ := ih later left
    refine ⟨last, ?_, ended⟩
    cases made with
    | stored found absent read =>
      exact .known leads spelled found absent spaces (read spaces') more
    | passed unknown wellFormed =>
      exact .unknown leads spelled unknown spaces (reads_skipped spaces' wellFormed) more

/-- An object is taken for the value of a record that owes nothing. -/
theorem takes_object (owes : List (String × List Char) → ρ → Prop) {a : α}
    (start : ∀ {members}, (∀ member ∈ own, Once members member.1 member.2) →
      owes members shape.empty)
    (step : ∀ {key value members record}, (key ∉ own.map Prod.fst → WellFormed .value value) →
      owes ((key, value) :: members) record →
      ∃ next, shape.Step record key value next ∧ owes members next)
    (complete : ∀ {record}, owes [] record → shape.complete record = .ok a) :
    Takes shape.read (ObjectText own) a := by
  rintro space s spaces ⟨texts, spaces', once, others⟩
  obtain ⟨last, members, ended⟩ := exists_members texts others step (start once)
  exact (Shape.reads_members members spaces' (complete ended)).spaced spaces

end Objects

section Named

variable {τ : Type} {types : List (Variant τ)} {type : τ} {typeText : List Char → Prop}
  {event typeKey : String} {make : τ → String → Event}

/-- What the record of an event that names something owes where some members are left. -/
structure Named.Owes (typeKey : String) (typeText : List Char → Prop) (type : τ) (name : String)
    (members : List (String × List Char)) (record : Named τ) : Prop where
  typed : Owed typeKey typeText type members record.type
  named : Owed "name" (QuotedText name) name members record.name

/-- Either field takes the value of its own member, and no other. -/
theorem Named.exists_step {name key : String} {value : List Char}
    {members : List (String × List Char)} {record : Named τ} (distinct : typeKey ≠ "name")
    (takes : Takes (readVariant types) typeText type)
    (other : key ∉ [typeKey, "name"] → WellFormed .value value)
    (owes : Owes typeKey typeText type name ((key, value) :: members) record) :
    ∃ next, (shape event typeKey types make).Step record key value next ∧
      Owes typeKey typeText type name members next := by
  obtain ⟨typed, named⟩ := owes
  by_cases isType : key = typeKey
  · subst isType
    obtain ⟨absent, right, held⟩ := typed.of_eq
    have found : (shape event key types make).members.find? (·.name == key) =
        some (typeMember key types) := by
      simp [shape, typeMember]
    have due : (typeMember key types).present record = false := by simp [typeMember, absent]
    exact ⟨{ record with type := some type },
      .stored found due fun _ spaces => (takes spaces right).map _, held, named.of_ne distinct⟩
  by_cases isName : key = "name"
  · subst isName
    obtain ⟨absent, right, held⟩ := named.of_eq
    have found : (shape event typeKey types make).members.find? (·.name == "name") =
        some nameMember := by
      simp [shape, typeMember, nameMember, distinct]
    have due : nameMember.present record = false := by simp [nameMember, absent]
    exact ⟨{ record with name := some name },
      .stored found due fun _ spaces => (takes_quoted name spaces right).map _,
      typed.of_ne isType, held⟩
  · have unknown : (shape event typeKey types make).members.find? (·.name == key) = none := by
      simp [shape, typeMember, nameMember, Ne.symm isType, Ne.symm isName]
    have wellFormed := other (by simp [isType, isName])
    exact ⟨record, .passed unknown wellFormed, typed.of_ne isType, named.of_ne isName⟩

theorem takes_named (distinct : typeKey ≠ "name")
    (takes : Takes (readVariant types) typeText type) (name : String) :
    Takes (Named.shape event typeKey types make).read
      (ObjectText [(typeKey, typeText), ("name", QuotedText name)]) (make type name) := by
  refine takes_object (Named.Owes typeKey typeText type name) (fun {members} once => ?_)
    (Named.exists_step distinct takes) ?_
  · have typed : Once members typeKey typeText := once (typeKey, typeText) (by simp)
    have named : Once members "name" (QuotedText name) := once ("name", QuotedText name) (by simp)
    exact ⟨.due typed, .due named⟩
  · rintro ⟨fieldType, fieldName⟩ ⟨typed, named⟩
    obtain rfl := typed.eq_some
    obtain rfl := named.eq_some
    rfl

end Named

section Error

variable {message : String}

theorem error_exists_step {key : String} {value : List Char}
    {members : List (String × List Char)} {record : Option String}
    (other : key ∉ ["message"] → WellFormed .value value)
    (owed : Owed "message" (QuotedText message) message ((key, value) :: members) record) :
    ∃ next, errorShape.Step record key value next ∧
      Owed "message" (QuotedText message) message members next := by
  by_cases isMessage : key = "message"
  · subst isMessage
    obtain ⟨rfl, right, held⟩ := owed.of_eq
    have found : errorShape.members.find? (·.name == "message") = some messageMember := rfl
    exact ⟨some message,
      .stored found rfl fun _ spaces => (takes_quoted message spaces right).map some, held⟩
  · have unknown : errorShape.members.find? (·.name == key) = none := by
      simp [errorShape, messageMember, Ne.symm isMessage]
    exact ⟨record, .passed unknown (other (by simp [isMessage])), owed.of_ne isMessage⟩

theorem takes_error (message : String) :
    Takes errorShape.read (ObjectText [("message", QuotedText message)]) (.error message) := by
  refine takes_object (Owed "message" (QuotedText message) message) (fun once => ?_)
    error_exists_step ?_
  · exact .due (once ("message", QuotedText message) (by simp))
  · intro record owed
    obtain rfl : record = some message := owed.eq_some
    rfl

end Error

/-- Every text of an event is read as that event. -/
theorem takes_event (event : Event) : Takes (readVariant events) (EventText event) event := by
  cases event with
  | tableBegin kind name =>
    exact takes_tagged rfl (takes_named (by decide) (takes_tableKind kind) name)
  | columnDeclare type name =>
    exact takes_tagged rfl (takes_named (by decide) (takes_columnType type) name)
  | rowBegin => exact takes_word rfl rfl
  | cellValue value => exact takes_tagged rfl ((takes_value value).map Event.cellValue)
  | rowEnd => exact takes_word rfl rfl
  | tableEnd => exact takes_word rfl rfl
  | error message => exact takes_tagged rfl (takes_error message)

/-- A line with the text of an event is not blank: a quote or a brace comes first. -/
theorem isBlank_of_lineText {event : Event} {s : List Char} (text : LineText event s) :
    Text.isBlank s = false := by
  have opens {s : List Char} (text : EventText event s) : Text.isBlank s = false := by
    cases event <;> cases text <;> rfl
  cases text with
  | make _ text _ =>
    rw [Text.isBlank_append, Text.isBlank_append, opens text, Bool.false_and, Bool.and_false]

/-- A line with the text of an event is read as that event. -/
theorem readEvent_of_lineText {event : Event} {line : String} (text : LineText event line.toList) :
    readEvent line = .ok event := by
  generalize characters : line.toList = s at text
  cases text with
  | @make space s space' spaces text spaces' =>
    have behind : Ends space' := List.append_nil space' ▸ ends_space spaces' ends_nil
    obtain ⟨shorter, read⟩ := takes_event event spaces text behind
    have blank : skipSpace space' = [] := List.dropWhile_eq_nil_iff.2 spaces'.isSpace
    have whole : readLine line.toList = .ok event := by
      rw [characters, ← List.append_assoc, readLine, read]
      simp only [Bind.bind, Except.bind, blank]
    rw [readEvent, whole]

end TraceTables.Json
