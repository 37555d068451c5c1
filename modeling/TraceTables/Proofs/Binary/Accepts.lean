import Mathlib
import TraceTables.Binary.Decode
import TraceTables.Binary.Encode

/-!
# What a decoder accepts

A decoder is described by the values it gives and the octets it takes for each of them.
`Accepts` is exact in both directions: the decoder gives a value only for octets of that
form, and it gives it whenever such octets come next and the budget covers them. Forms
compose as decoders do, so the form of an event is computed from those of its parts, and it
turns out to be the encoding of the event (`inverts_event`).

The budget is charged by exactly the octets taken. That it never exceeds the largest size of
an event is all that is known of it, and enough to know that no length that is read has been
cut to eight octets.
-/

namespace TraceTables.Binary

/-- Octets are determined by their list. -/
theorem eq_of_toList {a b : ByteArray} (h : a.data.toList = b.data.toList) : a = b :=
  ByteArray.ext (Array.toList_inj.1 h)

variable {input : Input}

namespace Cursor

/-- The octets from a place on. -/
def remaining (cursor : Cursor input) : List UInt8 :=
  input.bytes.data.toList.drop cursor.position

theorem length_remaining (cursor : Cursor input) :
    cursor.remaining.length = input.bytes.size - cursor.position := by
  simp [remaining]

/-- A place is determined by what remains there. -/
theorem eq_of_remaining {a b : Cursor input} (octets : a.remaining = b.remaining)
    (budget : a.budget = b.budget) : a = b := by
  have lengths := congrArg List.length octets
  rw [length_remaining, length_remaining] at lengths
  have := a.inside
  have := b.inside
  obtain ⟨i, _, _⟩ := a
  obtain ⟨j, _, _⟩ := b
  simp only at *
  obtain rfl : i = j := by omega
  subst budget
  rfl

/-- The place behind octets that the budget covers. -/
theorem exists_behind (cursor : Cursor input) {taken rest : List UInt8}
    (octets : cursor.remaining = taken ++ rest) (covered : taken.length ≤ cursor.budget) :
    ∃ next : Cursor input, next.position = cursor.position + taken.length ∧
      next.remaining = rest ∧ cursor.budget = taken.length + next.budget := by
  have inside := cursor.inside
  have lengths := congrArg List.length octets
  rw [length_remaining, List.length_append] at lengths
  refine ⟨⟨cursor.position + taken.length, cursor.budget - taken.length, by omega⟩, rfl, ?_, ?_⟩
  · rw [remaining, ← List.drop_drop]
    change cursor.remaining.drop taken.length = rest
    rw [octets, List.drop_left]
  · simp only
    omega

end Cursor

namespace Decoder

variable {α β γ : Type}

/-- The decoder gives a value exactly where octets of the right form come next, takes them
and charges their number. -/
def Accepts (decoder : Decoder input α) (form : α → List UInt8 → Prop) : Prop :=
  ∀ ⦃cursor a next⦄, cursor.budget ≤ maxEventSize →
    (decoder cursor = .ok (a, next) ↔
      ∃ code, form a code ∧ cursor.remaining = code ++ next.remaining ∧
        cursor.budget = code.length + next.budget)

/-- Forms that agree on what fits the budget describe the same decoder. -/
theorem Accepts.congr {decoder : Decoder input α} {form form' : α → List UInt8 → Prop}
    (h : decoder.Accepts form)
    (same : ∀ a code, code.length ≤ maxEventSize → (form a code ↔ form' a code)) :
    decoder.Accepts form' := by
  intro cursor a next budget
  rw [h budget]
  constructor
  · rintro ⟨code, formed, octets, charged⟩
    exact ⟨code, (same a code (by omega)).1 formed, octets, charged⟩
  · rintro ⟨code, formed, octets, charged⟩
    exact ⟨code, (same a code (by omega)).2 formed, octets, charged⟩

theorem accepts_pure (a : α) :
    (pure a : Decoder input α).Accepts fun b code => b = a ∧ code = [] := by
  intro cursor b next budget
  constructor
  · intro run
    cases run
    exact ⟨[], ⟨rfl, rfl⟩, rfl, by simp⟩
  · rintro ⟨_, ⟨rfl, rfl⟩, octets, charged⟩
    obtain rfl := Cursor.eq_of_remaining octets (by simpa using charged)
    rfl

theorem accepts_refuse (cause : Cause) :
    (refuse cause : Decoder input α).Accepts fun _ _ => False := by
  intro cursor a next budget
  constructor
  · intro run
    cases run
  · rintro ⟨_, impossible, -⟩
    cases impossible

/-- One decoder after the other takes the octets of both. -/
theorem Accepts.bind {decoder : Decoder input α} {f : α → Decoder input β}
    {form : α → List UInt8 → Prop} {form' : α → β → List UInt8 → Prop}
    (h : decoder.Accepts form) (hf : ∀ a, (f a).Accepts (form' a)) :
    (decoder >>= f).Accepts fun b code =>
      ∃ a left right, code = left ++ right ∧ form a left ∧ form' a b right := by
  intro cursor b last budget
  rw [bind_eq_ok]
  constructor
  · rintro ⟨a, next, first, second⟩
    obtain ⟨left, formed, octets, charged⟩ := (h budget).1 first
    obtain ⟨right, formed', octets', charged'⟩ := (hf a (by omega)).1 second
    refine ⟨left ++ right, ⟨a, left, right, rfl, formed, formed'⟩, ?_, ?_⟩
    · rw [octets, octets', List.append_assoc]
    · rw [List.length_append]
      omega
  · rintro ⟨_, ⟨a, left, right, rfl, formed, formed'⟩, octets, charged⟩
    rw [List.append_assoc] at octets
    rw [List.length_append] at charged
    obtain ⟨next, -, rest, charged'⟩ := cursor.exists_behind octets (by omega)
    refine ⟨a, next, (h budget).2 ⟨left, formed, ?_, charged'⟩,
      (hf a (by omega)).2 ⟨right, formed', rest, by omega⟩⟩
    rw [octets, rest]

theorem accepts_take (count : Nat) :
    (take count : Decoder input ByteArray).Accepts fun bytes code =>
      bytes.data.toList = code ∧ code.length = count := by
  intro cursor bytes next budget
  unfold take
  split
  case isTrue short =>
    constructor
    · intro run
      cases run
    · rintro ⟨code, ⟨-, rfl⟩, -, charged⟩
      omega
  split
  case isTrue covered inside =>
    have taken : (input.bytes.extract cursor.position (cursor.position + count)).data.toList =
        cursor.remaining.take count := by
      simp [Cursor.remaining, List.take_drop]
    have length : (cursor.remaining.take count).length = count := by
      rw [List.length_take, Cursor.length_remaining]
      omega
    constructor
    · intro run
      cases run
      refine ⟨cursor.remaining.take count, ⟨taken, length⟩, ?_, ?_⟩
      · rw [Cursor.remaining, Cursor.remaining, ← List.drop_drop, List.take_append_drop]
      · simp only [length]
        omega
    · rintro ⟨code, ⟨rfl, rfl⟩, octets, charged⟩
      have same : bytes = input.bytes.extract cursor.position
          (cursor.position + bytes.data.toList.length) := by
        apply eq_of_toList
        rw [taken, octets, List.take_left]
      rw [← same]
      refine congrArg (Except.ok ∘ Prod.mk bytes) (Cursor.eq_of_remaining ?_ ?_)
      · rw [Cursor.remaining, ← List.drop_drop]
        change cursor.remaining.drop _ = _
        rw [octets, List.drop_left]
      · simp only
        omega
  case isFalse covered outside =>
    constructor
    · intro run
      split at run <;> cases run
    · rintro ⟨code, ⟨-, rfl⟩, octets, charged⟩
      have lengths := congrArg List.length octets
      rw [Cursor.length_remaining, List.length_append] at lengths
      have := cursor.inside
      omega

theorem accepts_number (width : Nat) :
    (number width : Decoder input Nat).Accepts fun n code =>
      n < limit width ∧ code = octets width n := by
  refine ((accepts_take width).bind fun bytes => accepts_pure _).congr fun n code _ => ?_
  constructor
  · rintro ⟨bytes, left, _, rfl, ⟨rfl, rfl⟩, rfl, rfl⟩
    rw [List.append_nil]
    exact ⟨ofOctets_lt _, (octets_ofOctets _).symm⟩
  · rintro ⟨fits, rfl⟩
    refine ⟨(octets width n).toByteArray, octets width n, [], by simp, ⟨by simp, by simp⟩, ?_, rfl⟩
    simp [ofOctets_octets fits]

/-- The decoder reads what the encoder writes, and nothing else. -/
def Inverts (decoder : Decoder input α) (encode : α → ByteArray) : Prop :=
  decoder.Accepts fun a code => code = (encode a).data.toList

/-- What is read by the number of its variant is written behind that number. -/
theorem inverts_variant {count : Nat} {f : Fin count → Decoder input α}
    {choice : α → Fin count} {encode : α → ByteArray} (few : count ≤ limit 4)
    (hf : ∀ i, (f i).Accepts fun a code => choice a = i ∧ code = (encode a).data.toList) :
    (variant count >>= f).Inverts fun a => encodeNumber 4 (choice a) ++ encode a := by
  have chosen (n : Nat) : (if h : n < count then pure ⟨n, h⟩ else
      refuse (.unknownVariant n count) : Decoder input (Fin count)).Accepts
        fun i code => i.val = n ∧ code = [] := by
    split
    case isTrue h =>
      refine (accepts_pure _).congr fun i code _ => ?_
      rw [Fin.ext_iff]
    case isFalse h =>
      refine (accepts_refuse _).congr fun i code _ => ?_
      have := i.isLt
      simp only [false_iff]
      rintro ⟨rfl, -⟩
      exact h this
  refine (((accepts_number 4).bind chosen).bind hf).congr fun a code _ => ?_
  rw [ByteArray.data_append, Array.toList_append, toList_encodeNumber]
  constructor
  · rintro ⟨i, _, right, rfl, ⟨n, left, _, rfl, ⟨-, rfl⟩, rfl, rfl⟩, rfl, rfl⟩
    rw [List.append_nil]
  · rintro rfl
    have fits : (choice a).val < limit 4 := Nat.lt_of_lt_of_le (choice a).isLt few
    exact ⟨choice a, octets 4 (choice a), _, rfl,
      ⟨choice a, _, [], by simp, ⟨fits, rfl⟩, rfl, rfl⟩, rfl, rfl⟩

theorem inverts_bool :
    (bool : Decoder input Bool).Inverts fun flag => encodeNumber 1 flag.toNat := by
  rw [bool]
  refine ((accepts_number 1).bind fun n =>
    (?known : Accepts _ fun flag code => n = flag.toNat ∧ code = [])).congr
      fun flag code _ => ?same
  case known =>
    split
    · refine (accepts_pure _).congr fun flag code _ => ?_
      cases flag <;> simp
    · refine (accepts_pure _).congr fun flag code _ => ?_
      cases flag <;> simp
    · refine (accepts_refuse _).congr fun flag code _ => ?_
      cases flag <;> simp_all
  rw [toList_encodeNumber]
  constructor
  · rintro ⟨n, left, _, rfl, ⟨-, rfl⟩, rfl, rfl⟩
    rw [List.append_nil]
  · rintro rfl
    exact ⟨flag.toNat, _, [], by simp, ⟨by cases flag <;> decide, rfl⟩, rfl, rfl⟩

/-- The length in front of a text is the only one that the text can have. -/
theorem inverts_text : (text : Decoder input String).Inverts encodeText := by
  rw [text]
  refine ((accepts_number 8).bind fun length => (accepts_take length).bind fun bytes =>
    (?spelled : Accepts _ fun text code => bytes = text.toUTF8 ∧ code = [])).congr
      fun text code short => ?same
  case spelled =>
    split
    case _ read h =>
      refine (accepts_pure _).congr fun text code _ => ?_
      rw [← Text.Utf8.decode_eq_ok_iff, h, Except.ok.injEq, eq_comm]
    case _ fault h =>
      refine (accepts_refuse _).congr fun text code _ => ?_
      rw [← Text.Utf8.decode_eq_ok_iff, h]
      simp
  rw [encodeText, ByteArray.data_append, Array.toList_append, toList_encodeNumber]
  constructor
  · rintro ⟨n, _, _, rfl, ⟨-, rfl⟩, bytes, left, _, rfl, ⟨rfl, rfl⟩, rfl, rfl⟩
    rw [List.append_nil]
    rfl
  · rintro rfl
    have size : text.toUTF8.data.toList.length = text.utf8ByteSize := rfl
    have fits : text.utf8ByteSize < limit 8 := by
      rw [List.length_append, length_octets, size] at short
      have : maxEventSize < limit 8 := by decide
      omega
    exact ⟨text.utf8ByteSize, _, _, rfl, ⟨fits, rfl⟩, text.toUTF8, _, [],
      by simp, ⟨rfl, size⟩, rfl, rfl⟩

/-- What its variant says all of is written as the number of the variant. -/
theorem inverts_enumeration {count : Nat} {f : Fin count → Decoder input α} {choice : α → Fin count}
    (few : count ≤ limit 4) (hf : ∀ i, (f i).Accepts fun a code => choice a = i ∧ code = []) :
    (variant count >>= f).Inverts fun a => encodeNumber 4 (choice a) := by
  have h : (variant count >>= f).Inverts fun a => encodeNumber 4 (choice a) ++ .empty :=
    inverts_variant few hf
  simpa only [ByteArray.append_empty] using h

theorem inverts_tableKind : (tableKind : Decoder input TableKind).Inverts encodeTableKind := by
  refine inverts_enumeration (by decide) fun i => ?_
  split <;> refine (accepts_pure _).congr fun kind code _ => ?_ <;> cases kind <;>
    simp [tableKindVariant]

theorem inverts_columnType : (columnType : Decoder input ColumnType).Inverts encodeColumnType := by
  refine inverts_enumeration (by decide) fun i => ?_
  split <;> refine (accepts_pure _).congr fun type code _ => ?_ <;> cases type <;>
    simp [columnTypeVariant]

/-- What holds one part is written as the part is. -/
theorem Inverts.map {decoder : Decoder input α} {encode : α → ByteArray} {make : α → β}
    {form : β → List UInt8 → Prop} (h : decoder.Inverts encode)
    (made : ∀ b code, form b code ↔ ∃ a, b = make a ∧ code = (encode a).data.toList) :
    (decoder >>= fun a => pure (make a)).Accepts form := by
  refine (h.bind fun a => accepts_pure (make a)).congr fun b code _ => ?_
  rw [made]
  constructor
  · rintro ⟨a, _, _, rfl, rfl, rfl, rfl⟩
    exact ⟨a, rfl, List.append_nil _⟩
  · rintro ⟨a, rfl, rfl⟩
    exact ⟨a, _, [], (List.append_nil _).symm, rfl, rfl, rfl⟩

/-- What holds two parts is written as the one and then the other. -/
theorem Inverts.map₂ {first : Decoder input α} {second : Decoder input β} {encode : α → ByteArray}
    {encode' : β → ByteArray} {make : α → β → γ} {form : γ → List UInt8 → Prop}
    (h : first.Inverts encode) (h' : second.Inverts encode')
    (made : ∀ c code, form c code ↔
      ∃ a b, c = make a b ∧ code = (encode a ++ encode' b).data.toList) :
    (first >>= fun a => second >>= fun b => pure (make a b)).Accepts form := by
  refine (h.bind fun a => h'.map fun _ _ => Iff.rfl).congr fun c code _ => ?_
  rw [made]
  constructor
  · rintro ⟨a, _, _, rfl, rfl, b, rfl, rfl⟩
    exact ⟨a, b, rfl, by simp⟩
  · rintro ⟨a, b, rfl, rfl⟩
    exact ⟨a, _, _, by simp, rfl, b, rfl, rfl⟩

theorem inverts_value : (value : Decoder input Value).Inverts encodeValue := by
  refine inverts_variant (by decide) fun i => ?_
  split
  · refine ((accepts_number 8).bind fun n => accepts_pure _).congr fun value code _ => ?_
    constructor
    · rintro ⟨n, left, _, rfl, ⟨fits, rfl⟩, rfl, rfl⟩
      have : (UInt64.ofNat n).toNat = n := UInt64.toNat_ofNat_of_lt' fits
      simp [valueVariant, encodeContent, this]
    · rintro ⟨chosen, rfl⟩
      cases value with
      | uint64 n =>
        refine ⟨n.toNat, _, [], (List.append_nil _).symm, ⟨n.toNat_lt, ?_⟩, by simp, rfl⟩
        simp [encodeContent]
      | string text => cases chosen
      | bool flag => cases chosen
  · refine inverts_text.map fun value code => ?_
    cases value <;> simp [valueVariant, encodeContent]
  · refine inverts_bool.map fun value code => ?_
    cases value <;> simp [valueVariant, encodeContent]

theorem accepts_payload (i : Fin 7) : (payload i : Decoder input Event).Accepts fun event code =>
    eventVariant event = i ∧ code = (encodePayload event).data.toList := by
  unfold payload
  split
  · refine inverts_tableKind.map₂ inverts_text fun event code => ?_
    cases event <;> simp [eventVariant, encodePayload, and_assoc]
  · refine inverts_columnType.map₂ inverts_text fun event code => ?_
    cases event <;> simp [eventVariant, encodePayload, and_assoc]
  · refine (accepts_pure _).congr fun event code _ => ?_
    cases event <;> simp [eventVariant, encodePayload]
  · refine inverts_value.map fun event code => ?_
    cases event <;> simp [eventVariant, encodePayload]
  · refine (accepts_pure _).congr fun event code _ => ?_
    cases event <;> simp [eventVariant, encodePayload]
  · refine (accepts_pure _).congr fun event code _ => ?_
    cases event <;> simp [eventVariant, encodePayload]
  · refine inverts_text.map fun event code => ?_
    cases event <;> simp [eventVariant, encodePayload]

/-- An event is read exactly where its encoding comes next. -/
theorem inverts_event : (event : Decoder input Event).Inverts encodeEvent :=
  inverts_variant (by decide) accepts_payload

end Decoder

end TraceTables.Binary
