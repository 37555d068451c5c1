import TraceTables.Binary.LittleEndian
import TraceTables.Recording.Basic

/-!
# Reading a binary event

An event is stored as the number of its variant, in four octets, followed by what it
holds. A text is stored as the number of its octets, in eight, followed by them, and a
truth value as one octet.

No event may take more than `maxEventSize` octets. Each part of an event is charged
against that budget before it is looked at, so that a false length can neither be
believed nor fetched. `advances_event` says that an event takes at least four octets.
-/

namespace TraceTables.Binary

/-- How many octets an event may take. -/
def maxEventSize : Nat := 16 * 1024 * 1024

/-- A place in an input, and how many octets the event being read may still take. -/
structure Cursor (input : Input) where
  position : Nat
  budget : Nat
  inside : position ≤ input.bytes.size

/-- Reads a part of an event. -/
abbrev Decoder (input : Input) (α : Type) := StateT (Cursor input) (Except Cause) α

namespace Decoder

variable {input : Input} {α β : Type}

/-- Refuses the event. -/
def refuse (cause : Cause) : Decoder input α := fun _ => .error cause

/-- Takes the next `count` octets. -/
def take (count : Nat) : Decoder input ByteArray := fun cursor =>
  if cursor.budget < count then .error .sizeLimit
  else if h : cursor.position + count ≤ input.bytes.size then
    .ok (input.bytes.extract cursor.position (cursor.position + count),
      ⟨cursor.position + count, cursor.budget - count, h⟩)
  else
    match input.fault with
    | some fault => .error (.device fault)
    | none => .error .truncated

/-- A number of the given width. -/
def number (width : Nat) : Decoder input Nat := do
  let bytes ← take width
  return ofOctets bytes.data.toList

/-- The number of one of `count` variants. -/
def variant (count : Nat) : Decoder input (Fin count) := do
  let chosen ← number 4
  if h : chosen < count then return ⟨chosen, h⟩ else refuse (.unknownVariant chosen count)

/-- A truth value. -/
def bool : Decoder input Bool := do
  match ← number 1 with
  | 0 => return false
  | 1 => return true
  | other => refuse (.invalidBool (UInt8.ofNat other))

/-- A text. -/
def text : Decoder input String := do
  let length ← number 8
  let bytes ← take length
  match Text.Utf8.decode bytes with
  | .ok text => return text
  | .error fault => refuse (.invalidText fault)

/-- The kind of a table. -/
def tableKind : Decoder input TableKind := do
  match ← variant 2 with
  | 0 => return .basic
  | 1 => return .keyValue

/-- The type of a column. -/
def columnType : Decoder input ColumnType := do
  match ← variant 3 with
  | 0 => return .uint64
  | 1 => return .string
  | 2 => return .bool

/-- The value of a cell. -/
def value : Decoder input Value := do
  match ← variant 3 with
  | 0 => return .uint64 (UInt64.ofNat (← number 8))
  | 1 => return .string (← text)
  | 2 => return .bool (← bool)

/-- What the event with the given variant holds. -/
def payload : Fin 7 → Decoder input Event
  | 0 => return .tableBegin (← tableKind) (← text)
  | 1 => return .columnDeclare (← columnType) (← text)
  | 2 => return .rowBegin
  | 3 => return .cellValue (← value)
  | 4 => return .rowEnd
  | 5 => return .tableEnd
  | 6 => return .error (← text)

/-- An event. -/
def event : Decoder input Event := do
  payload (← variant 7)

/-- A decoder moves on by at least `count` octets if it succeeds. -/
def Advances (decoder : Decoder input α) (count : Nat) : Prop :=
  ∀ ⦃cursor a next⦄, decoder cursor = .ok (a, next) → cursor.position + count ≤ next.position

theorem advances_pure (a : α) : (pure a : Decoder input α).Advances 0 := by
  intro cursor b next h
  cases h
  exact Nat.le_refl _

theorem advances_refuse (cause : Cause) (count : Nat) :
    (refuse cause : Decoder input α).Advances count := by
  intro cursor b next h
  cases h

/-- A sequence of decoders succeeds exactly if both do, the second where the first has left
off. -/
theorem bind_eq_ok {decoder : Decoder input α} {f : α → Decoder input β}
    {cursor last : Cursor input} {b : β} :
    (decoder >>= f) cursor = .ok (b, last) ↔
      ∃ a next, decoder cursor = .ok (a, next) ∧ f a next = .ok (b, last) := by
  constructor
  · intro run
    rcases hd : decoder cursor with cause | ⟨a, next⟩
    · simp only [Bind.bind, StateT.bind, hd, Except.bind] at run
      cases run
    · simp only [Bind.bind, StateT.bind, hd, Except.bind] at run
      exact ⟨a, next, rfl, run⟩
  · rintro ⟨a, next, first, second⟩
    simp only [Bind.bind, StateT.bind, first, Except.bind]
    exact second

theorem Advances.bind {decoder : Decoder input α} {f : α → Decoder input β} {m n : Nat}
    (h : decoder.Advances m) (hf : ∀ a, (f a).Advances n) : (decoder >>= f).Advances (m + n) := by
  intro cursor b last run
  obtain ⟨a, next, first, second⟩ := bind_eq_ok.1 run
  have := h first
  have := hf a second
  omega

theorem Advances.mono {decoder : Decoder input α} {m n : Nat} (h : decoder.Advances n)
    (le : m ≤ n) : decoder.Advances m := fun _ _ _ run =>
  Nat.le_trans (Nat.add_le_add_left le _) (h run)

theorem advances_take (count : Nat) : (take count : Decoder input ByteArray).Advances count := by
  intro cursor bytes next h
  unfold take at h
  repeat' split at h
  all_goals cases h
  exact Nat.le_refl _

theorem advances_number (width : Nat) : (number width : Decoder input Nat).Advances width :=
  (advances_take width).bind fun _ => advances_pure _

theorem advances_variant (count : Nat) :
    (variant count : Decoder input (Fin count)).Advances 4 := by
  refine (advances_number 4).bind (n := 0) fun chosen => ?_
  split
  · exact advances_pure _
  · exact advances_refuse _ _

theorem advances_bool : (bool : Decoder input Bool).Advances 0 := by
  refine ((advances_number 1).bind (n := 0) fun octet => ?_).mono (Nat.zero_le _)
  split
  · exact advances_pure _
  · exact advances_pure _
  · exact advances_refuse _ _

theorem advances_text : (text : Decoder input String).Advances 0 := by
  refine ((advances_number 8).bind (n := 0) fun length =>
    ((advances_take length).bind (n := 0) fun bytes => ?_).mono (Nat.zero_le _)).mono
      (Nat.zero_le _)
  split
  · exact advances_pure _
  · exact advances_refuse _ _

theorem advances_tableKind : (tableKind : Decoder input TableKind).Advances 0 := by
  refine ((advances_variant 2).bind (n := 0) fun chosen => ?_).mono (Nat.zero_le _)
  split <;> exact advances_pure _

theorem advances_columnType : (columnType : Decoder input ColumnType).Advances 0 := by
  refine ((advances_variant 3).bind (n := 0) fun chosen => ?_).mono (Nat.zero_le _)
  split <;> exact advances_pure _

theorem advances_value : (value : Decoder input Value).Advances 0 := by
  refine ((advances_variant 3).bind (n := 0) fun chosen => ?_).mono (Nat.zero_le _)
  split
  · exact ((advances_number 8).bind fun _ => advances_pure _).mono (Nat.zero_le _)
  · exact advances_text.bind fun _ => advances_pure _
  · exact advances_bool.bind fun _ => advances_pure _

theorem advances_payload (chosen : Fin 7) : (payload chosen : Decoder input Event).Advances 0 := by
  unfold payload
  split
  · exact advances_tableKind.bind fun _ => advances_text.bind fun _ => advances_pure _
  · exact advances_columnType.bind fun _ => advances_text.bind fun _ => advances_pure _
  · exact advances_pure _
  · exact advances_value.bind fun _ => advances_pure _
  · exact advances_pure _
  · exact advances_pure _
  · exact advances_text.bind fun _ => advances_pure _

/-- An event takes at least the octets of its variant. -/
theorem advances_event : (event : Decoder input Event).Advances 4 :=
  (advances_variant 7).bind fun chosen => advances_payload chosen

end Decoder

end TraceTables.Binary
