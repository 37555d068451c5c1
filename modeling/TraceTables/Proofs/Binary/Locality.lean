import TraceTables.Proofs.Binary.Accepts

/-!
# What a decoder looks at

A decoder looks at the octets that come next and at nothing else: not at those before them, and
not at those behind the ones that it takes. To say so, it is run over two inputs, the second of
which may go on where the first one ends (`Precedes`). Either both runs come to the same result,
or the first one has come to the end of its input and reports that (`Agree`).

Where no octets are missing the results are always the same, wherever in their inputs the two runs
began. Where octets are missing, an event that the second run reads and that needs them is
reported by the first one as cut off (`event_of_cut`).

A relation of this kind is proved for `take` and for the ways to put decoders together, and then
holds of every decoder of the format (`Congruence`).
-/

namespace TraceTables.Binary

/-- What is reported where an input ends inside an event. -/
def endCause (input : Input) : Cause :=
  match input.fault with
  | some fault => .device fault
  | none => .truncated

variable {short long : Input} {missing : List UInt8}

/-- A relation between the decoders of two inputs that holds of octets that are taken, and of
whatever is put together from decoders of which it holds. -/
structure Decoder.Congruence (short long : Input) where
  Related : ∀ {α : Type}, Decoder short α → Decoder long α → Prop
  pure : ∀ {α : Type} (a : α), Related (pure a) (pure a)
  refuse : ∀ {α : Type} (cause : Cause), Related (refuse cause : Decoder short α) (refuse cause)
  bind : ∀ {α β : Type} {decoder : Decoder short α} {decoder' : Decoder long α}
    {f : α → Decoder short β} {f' : α → Decoder long β}, Related decoder decoder' →
    (∀ a, Related (f a) (f' a)) → Related (decoder >>= f) (decoder' >>= f')
  take : ∀ count : Nat, Related (take count) (take count)

namespace Decoder.Congruence

variable (congruence : Congruence short long)

theorem number (width : Nat) : congruence.Related (number width) (number width) :=
  congruence.bind (congruence.take width) fun _ => congruence.pure _

theorem variant (count : Nat) : congruence.Related (variant count) (variant count) := by
  refine congruence.bind (congruence.number 4) fun chosen => ?_
  split
  · exact congruence.pure _
  · exact congruence.refuse _

theorem bool : congruence.Related bool bool := by
  refine congruence.bind (congruence.number 1) fun octet => ?_
  split
  · exact congruence.pure _
  · exact congruence.pure _
  · exact congruence.refuse _

theorem text : congruence.Related text text := by
  refine congruence.bind (congruence.number 8) fun length =>
    congruence.bind (congruence.take length) fun bytes => ?_
  split
  · exact congruence.pure _
  · exact congruence.refuse _

theorem tableKind : congruence.Related tableKind tableKind := by
  refine congruence.bind (congruence.variant 2) fun chosen => ?_
  split <;> exact congruence.pure _

theorem columnType : congruence.Related columnType columnType := by
  refine congruence.bind (congruence.variant 3) fun chosen => ?_
  split <;> exact congruence.pure _

theorem value : congruence.Related value value := by
  refine congruence.bind (congruence.variant 3) fun chosen => ?_
  split
  · exact congruence.bind (congruence.number 8) fun _ => congruence.pure _
  · exact congruence.bind congruence.text fun _ => congruence.pure _
  · exact congruence.bind congruence.bool fun _ => congruence.pure _

theorem payload (chosen : Fin 7) : congruence.Related (payload chosen) (payload chosen) := by
  unfold Decoder.payload
  split
  · exact congruence.bind congruence.tableKind fun _ =>
      congruence.bind congruence.text fun _ => congruence.pure _
  · exact congruence.bind congruence.columnType fun _ =>
      congruence.bind congruence.text fun _ => congruence.pure _
  · exact congruence.pure _
  · exact congruence.bind congruence.value fun _ => congruence.pure _
  · exact congruence.pure _
  · exact congruence.pure _
  · exact congruence.bind congruence.text fun _ => congruence.pure _

theorem event : congruence.Related event event :=
  congruence.bind (congruence.variant 7) fun chosen => congruence.payload chosen

end Decoder.Congruence

/-- Whether the same octets come next at two places, and `missing` behind those at the second one.
If nothing is missing, the two inputs end alike. -/
structure Cursor.Precedes (missing : List UInt8) (a : Cursor short) (b : Cursor long) : Prop where
  remaining : b.remaining = a.remaining ++ missing
  budget : b.budget = a.budget
  ends : missing = [] → long.fault = short.fault

namespace Decoder

variable {α β : Type}

/-- Whether two runs come to the same result, as far as the first one has octets for it. -/
inductive Agree (missing : List UInt8) :
    Except Cause (α × Cursor short) → Except Cause (α × Cursor long) → Prop where
  | value (a : α) {cursor : Cursor short} {cursor' : Cursor long}
    (behind : cursor.Precedes missing cursor') :
    Agree missing (.ok (a, cursor)) (.ok (a, cursor'))
  | refused (cause : Cause) : Agree missing (.error cause) (.error cause)
  | ended (more : missing ≠ []) (result : Except Cause (α × Cursor long)) :
    Agree missing (.error (endCause short)) result

/-- Whether two decoders agree wherever the octets of the first are those of the second. -/
def Matches (missing : List UInt8) (decoder : Decoder short α)
    (decoder' : Decoder long α) : Prop :=
  ∀ ⦃cursor cursor'⦄, cursor.Precedes missing cursor' →
    Agree missing (decoder cursor) (decoder' cursor')

theorem matches_pure (a : α) :
    Matches missing (pure a : Decoder short α) (pure a : Decoder long α) :=
  fun _ _ precedes => .value a precedes

theorem matches_refuse (cause : Cause) :
    Matches missing (refuse cause : Decoder short α) (refuse cause : Decoder long α) :=
  fun _ _ _ => .refused cause

theorem Matches.bind {decoder : Decoder short α} {decoder' : Decoder long α}
    {f : α → Decoder short β} {f' : α → Decoder long β} (h : Matches missing decoder decoder')
    (hf : ∀ a, Matches missing (f a) (f' a)) :
    Matches missing (decoder >>= f) (decoder' >>= f') := by
  intro cursor cursor' precedes
  have first := h precedes
  change Agree missing (Except.bind (decoder cursor) fun result => f result.1 result.2)
    (Except.bind (decoder' cursor') fun result => f' result.1 result.2)
  generalize decoder cursor = result at first ⊢
  generalize decoder' cursor' = result' at first ⊢
  cases first with
  | value a behind => exact hf a behind
  | refused cause => exact .refused cause
  | ended more => exact .ended more _

section Take

variable {input : Input} {cursor : Cursor input} {count : Nat}

theorem take_of_not_covered (uncovered : cursor.budget < count) :
    take count cursor = .error .sizeLimit :=
  if_pos uncovered

/-- Octets that are there and covered are taken. -/
theorem take_of_inside (covered : count ≤ cursor.budget)
    (inside : count ≤ cursor.remaining.length) :
    ∃ next, take count cursor = .ok ((cursor.remaining.take count).toByteArray, next) ∧
      next.remaining = cursor.remaining.drop count ∧ next.budget = cursor.budget - count := by
  rw [Cursor.length_remaining] at inside
  have within : cursor.position + count ≤ input.bytes.size := by
    have := cursor.inside
    omega
  refine ⟨⟨cursor.position + count, cursor.budget - count, within⟩, ?_, ?_, rfl⟩
  · have taken : input.bytes.extract cursor.position (cursor.position + count) =
        (cursor.remaining.take count).toByteArray := by
      apply eq_of_toList
      simp [Cursor.remaining, List.take_drop]
    rw [take, if_neg (Nat.not_lt.2 covered), dif_pos within, taken]
  · rw [Cursor.remaining, Cursor.remaining, List.drop_drop]

theorem take_of_outside (covered : count ≤ cursor.budget)
    (outside : cursor.remaining.length < count) :
    take count cursor = .error (endCause input) := by
  rw [Cursor.length_remaining] at outside
  have beyond : ¬ cursor.position + count ≤ input.bytes.size := by
    omega
  rw [take, if_neg (Nat.not_lt.2 covered), dif_neg beyond, endCause]
  cases input.fault <;> rfl

end Take

theorem matches_take (count : Nat) :
    Matches missing (take count : Decoder short ByteArray)
      (take count : Decoder long ByteArray) := by
  intro cursor cursor' precedes
  obtain ⟨remaining, budget, ends⟩ := precedes
  rcases Nat.lt_or_ge cursor.budget count with uncovered | covered
  · rw [take_of_not_covered uncovered, take_of_not_covered (budget ▸ uncovered)]
    exact .refused _
  rcases Nat.lt_or_ge cursor.remaining.length count with outside | inside
  · rw [take_of_outside covered outside]
    by_cases nothing : missing = []
    · have same : endCause long = endCause short := by
        rw [endCause, endCause, ends nothing]
      rw [nothing, List.append_nil] at remaining
      rw [take_of_outside (budget ▸ covered) (remaining ▸ outside), same]
      exact .refused _
    · exact .ended nothing _
  · have inside' : count ≤ cursor'.remaining.length := by
      rw [remaining, List.length_append]
      exact Nat.le_add_right_of_le inside
    obtain ⟨next, taken, behind, left⟩ := take_of_inside covered inside
    obtain ⟨next', taken', behind', left'⟩ := take_of_inside (budget ▸ covered) inside'
    rw [taken, taken', remaining, List.take_append_of_le_length inside]
    refine .value _ ⟨?_, ?_, ends⟩
    · rw [behind, behind', remaining, List.drop_append_of_le_length inside]
    · rw [left, left', budget]

/-- An event is decoded from the octets that come next. -/
theorem matches_event :
    Matches missing (event : Decoder short Event) (event : Decoder long Event) :=
  Congruence.event ⟨Matches missing, matches_pure, matches_refuse, Matches.bind, matches_take⟩

/-- An event whose last octets are missing is reported as cut off, wherever it is cut. -/
theorem event_of_cut {decoded : Event} (fits : (encodeEvent decoded).size ≤ maxEventSize)
    {cursor : Cursor short} (budget : cursor.budget = maxEventSize)
    (octets : (encodeEvent decoded).data.toList = cursor.remaining ++ missing)
    (more : missing ≠ []) : event cursor = .error (endCause short) := by
  -- The whole event is read from an input that holds nothing else.
  let whole : Input := ⟨encodeEvent decoded, none⟩
  let first : Cursor whole := ⟨0, maxEventSize, Nat.zero_le _⟩
  have precedes : cursor.Precedes missing first :=
    ⟨octets, budget.symm, fun nothing => absurd nothing more⟩
  have all : first.remaining = (encodeEvent decoded).data.toList ++ [] := by
    rw [List.append_nil]
    rfl
  obtain ⟨last, -, ended, charged⟩ := first.exists_behind all fits
  have read : event first = .ok (decoded, last) :=
    (inverts_event (Nat.le_refl _)).2 ⟨_, rfl, by rw [all, ended], charged⟩
  have agree := matches_event precedes
  rw [read] at agree
  generalize event cursor = result at agree ⊢
  cases agree with
  | value a behind =>
    have nothing := behind.remaining
    rw [ended, eq_comm, List.append_eq_nil_iff] at nothing
    exact absurd nothing.2 more
  | ended => rfl

end Decoder

end TraceTables.Binary
