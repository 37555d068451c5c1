/-!
# Reading octets as text

Text is stored as UTF-8. Octets that are not well-formed are refused with the place of
the first fault: the index up to which they are well-formed, and how many octets from
there cannot begin any character, unless the octets merely end in the middle of one.

The table `following` is the whole of the format: the lead octet of a character decides
how many octets follow it and the range of each.
-/

namespace TraceTables.Text.Utf8

/-- The first place at which octets are not well-formed. -/
structure Fault where
  /-- How many octets before the fault are well-formed. -/
  index : Nat
  /-- How many octets from `index` on are at fault; `none` if the octets end inside a
  character that was well-formed so far. -/
  octets : Option Nat
  deriving DecidableEq

/-- The wording of a fault. -/
def Fault.message (fault : Fault) : String :=
  match fault.octets with
  | some count => s!"invalid utf-8 sequence of {count} bytes from index {fault.index}"
  | none => s!"incomplete utf-8 byte sequence from index {fault.index}"

/-- A range of octets, both ends included. -/
structure Range where
  low : UInt8
  high : UInt8

/-- Whether an octet lies in a range. -/
def Range.contains (range : Range) (octet : UInt8) : Bool :=
  range.low ≤ octet && octet ≤ range.high

/-- What may follow a lead octet within its character; `none` for an octet that leads no
character. -/
def following (lead : UInt8) : Option (List Range) :=
  let any : Range := ⟨0x80, 0xBF⟩
  if lead < 0x80 then some []
  else if lead < 0xC2 then none
  else if lead < 0xE0 then some [any]
  else if lead = 0xE0 then some [⟨0xA0, 0xBF⟩, any]
  else if lead = 0xED then some [⟨0x80, 0x9F⟩, any]
  else if lead < 0xF0 then some [any, any]
  else if lead = 0xF0 then some [⟨0x90, 0xBF⟩, any, any]
  else if lead < 0xF4 then some [any, any, any]
  else if lead = 0xF4 then some [⟨0x80, 0x8F⟩, any, any]
  else none

/-- The first fault of the octets from a place inside a character on: the character
starts at `start`, `seen` of its octets have been read and `due` are the ranges of those
still to come. Between characters nothing has been seen and nothing is due. -/
def faultFrom (start seen : Nat) (due : List Range) : List UInt8 → Option Fault
  | [] => if seen = 0 then none else some ⟨start, none⟩
  | octet :: rest =>
    match due with
    | [] =>
      match following octet with
      | none => some ⟨start, some 1⟩
      | some [] => faultFrom (start + 1) 0 [] rest
      | some (range :: more) => faultFrom start 1 (range :: more) rest
    | range :: more =>
      if range.contains octet then
        match more with
        | [] => faultFrom (start + seen + 1) 0 [] rest
        | _ :: _ => faultFrom start (seen + 1) more rest
      else some ⟨start, some seen⟩

/-- The first fault of the octets, if there is one. -/
def fault? (octets : List UInt8) : Option Fault :=
  faultFrom 0 0 [] octets

/-- The text that the octets spell, or their first fault. -/
def decode (octets : ByteArray) : Except Fault String :=
  match String.fromUTF8? octets with
  | some text => .ok text
  | none => .error ((fault? octets.data.toList).getD ⟨octets.size, none⟩)

/-- The octets are read as a text exactly when they are its octets. -/
theorem decode_eq_ok_iff {octets : ByteArray} {text : String} :
    decode octets = .ok text ↔ octets = text.toUTF8 := by
  unfold decode String.fromUTF8?
  by_cases h : octets.IsValidUTF8
  · simp only [h, dite_true, Except.ok.injEq]
    constructor
    · rintro rfl; rfl
    · rintro rfl; rfl
  · simp only [h, dite_false, reduceCtorEq, false_iff]
    rintro rfl
    exact h text.isValidUTF8

@[simp] theorem decode_toUTF8 (text : String) : decode text.toUTF8 = .ok text :=
  decode_eq_ok_iff.2 rfl

/-- The octets of a text are those of its characters. -/
theorem toList_toUTF8 (text : String) :
    text.toUTF8.data.toList = text.toList.flatMap String.utf8EncodeChar := by
  conv => lhs; rw [← String.ofList_toList (s := text)]
  rw [String.toUTF8_eq_toByteArray, String.toByteArray_ofList, List.utf8Encode,
    List.data_toByteArray]

/-- An octet below the space is a character of its own. -/
theorem le_of_mem_utf8EncodeChar {c : Char} (h : 0x20 ≤ c.toNat) {octet : UInt8}
    (member : octet ∈ String.utf8EncodeChar c) : 0x20 ≤ octet.toNat := by
  have : c.val.toNat = c.toNat := rfl
  revert octet
  fun_cases String.utf8EncodeChar <;> simp [UInt8.toNat_ofNat'] <;> omega

/-- The octet of a control character stands for that character only. -/
theorem eq_of_mem_utf8EncodeChar {c d : Char} (control : d.toNat < 0x20)
    (member : UInt8.ofNat d.toNat ∈ String.utf8EncodeChar c) : c = d := by
  have low : c.toNat < 0x20 := by
    apply Nat.lt_of_not_le
    intro visible
    have := le_of_mem_utf8EncodeChar visible member
    rw [UInt8.toNat_ofNat'] at this
    omega
  have single : String.utf8EncodeChar c = [UInt8.ofNat c.toNat] := by
    rw [String.utf8EncodeChar]
    have : c.val.toNat = c.toNat := rfl
    rw [if_pos (by omega)]
    rfl
  rw [single, List.mem_singleton] at member
  have := congrArg UInt8.toNat member
  rw [UInt8.toNat_ofNat', UInt8.toNat_ofNat'] at this
  apply Char.ext
  apply UInt32.toNat_inj.1
  change c.toNat = d.toNat
  omega

end TraceTables.Text.Utf8
