import TraceTables.Proofs.Rendition
import TraceTables.Renderer.Session

/-!
# Sinks of limited capacity

A write that fails cuts the output and does nothing else to it. This is proved for the buffer
that stores as many octets as it has room for. What it holds after a write is the beginning of
what a buffer without a limit would hold (`write_eq`), and the write fails exactly when that is
more than finds room.

For a conversion, which stops at the first fault, the rendition of the items says what would be
stored, and the limit says how much of it is (`convert_buffer`). A session goes on after a
fault, so that the renderer over the limited buffer may answer later events otherwise than the
one over the unlimited buffer does; but by then it is full, and whatever it still writes is lost
(`Shadows`).
-/

namespace TraceTables

namespace Action

/-- The octets that a plan writes. -/
def octets (plan : List Action) : ByteArray :=
  (String.join (texts plan)).toUTF8

@[simp] theorem octets_nil : octets [] = .empty := rfl

@[simp] theorem octets_write (text : String) (plan : List Action) :
    octets (.write text :: plan) = text.toUTF8 ++ octets plan := by
  simp [octets]

end Action

namespace Buffer

/-- Whether octets find room in an empty buffer. -/
def Fits (limit : Option Nat) (octets : ByteArray) : Prop :=
  ∀ n ∈ limit, octets.size ≤ n

instance (limit : Option Nat) (octets : ByteArray) : Decidable (Fits limit octets) :=
  match limit with
  | none => .isTrue (by simp [Fits])
  | some n => decidable_of_iff (octets.size ≤ n) (by simp [Fits])

/-- As many of the octets as find room in an empty buffer. -/
def first (limit : Option Nat) (octets : ByteArray) : ByteArray :=
  match limit with
  | none => octets
  | some n => octets.extract 0 n

section Room

variable {limit : Option Nat} {a b : ByteArray}

@[simp] theorem fits_none : Fits none a := by
  simp [Fits]

@[simp] theorem fits_some {n : Nat} : Fits (some n) a ↔ a.size ≤ n := by
  simp [Fits]

theorem fits_empty : Fits limit .empty :=
  fun n _ => Nat.zero_le n

@[simp] theorem first_none : first none a = a := rfl

theorem first_some {n : Nat} : first (some n) a = a.extract 0 n := rfl

/-- What finds room does so without what follows it. -/
theorem Fits.of_append (fits : Fits limit (a ++ b)) : Fits limit a := by
  intro n bound
  have := fits n bound
  rw [ByteArray.size_append] at this
  omega

theorem first_of_fits (fits : Fits limit a) : first limit a = a := by
  cases limit with
  | none => rfl
  | some n =>
    apply ByteArray.ext
    rw [first_some, ByteArray.data_extract, Array.extract_eq_self_of_le (fits n rfl)]

theorem first_empty (limit : Option Nat) : first limit .empty = .empty :=
  first_of_fits fits_empty

theorem fits_first : Fits limit (first limit a) := by
  cases limit with
  | none => exact fits_none
  | some n =>
    rw [fits_some, first_some, ByteArray.size_extract]
    omega

/-- Where the room is used up, what follows is lost. -/
theorem first_append_of_not_fits (full : ¬ Fits limit a) (b : ByteArray) :
    first limit (a ++ b) = first limit a := by
  cases limit with
  | none => exact absurd fits_none full
  | some n =>
    have bound : n ≤ a.size := by
      rw [fits_some] at full
      omega
    rw [first_some, first_some, ByteArray.extract_append, Nat.sub_eq_zero_of_le bound]
    simp

/-- What has found room stays, whatever follows it. -/
theorem first_first_append (b : ByteArray) :
    first limit (first limit a ++ b) = first limit (a ++ b) := by
  by_cases fits : Fits limit a
  · rw [first_of_fits fits]
  · rw [first_append_of_not_fits fits]
    cases limit with
    | none => exact absurd fits_none fits
    | some n =>
      rw [fits_some] at fits
      apply ByteArray.extract_append_eq_left
      rw [first_some, ByteArray.size_extract]
      omega

end Room

/-- The buffer after octets have been written to it, as far as there is room. -/
def store (buffer : Buffer) (octets : ByteArray) : Buffer :=
  { buffer with written := first buffer.limit (buffer.written ++ octets) }

/-- Whether all octets find room in the buffer. -/
def Takes (buffer : Buffer) (octets : ByteArray) : Prop :=
  Fits buffer.limit (buffer.written ++ octets)

instance (buffer : Buffer) (octets : ByteArray) : Decidable (buffer.Takes octets) :=
  inferInstanceAs (Decidable (Fits buffer.limit (buffer.written ++ octets)))

/-- Whether what the buffer holds keeps to its limit. -/
def Sound (buffer : Buffer) : Prop :=
  Fits buffer.limit buffer.written

section Store

variable {buffer : Buffer} {a b : ByteArray}

theorem room_le_size (buffer : Buffer) (octets : ByteArray) : buffer.room octets ≤ octets.size := by
  rw [room]
  split
  · exact Nat.le_refl _
  · exact Nat.min_le_left _ _

/-- Octets are cut where the room for them ends. -/
theorem extract_room (buffer : Buffer) (octets : ByteArray) :
    octets.extract 0 (buffer.room octets) ++ octets.extract (buffer.room octets) octets.size =
      octets := by
  rw [ByteArray.extract_append_extract, Nat.zero_min, Nat.max_eq_right (room_le_size buffer octets),
    ByteArray.extract_zero_size]

theorem sound_store : (buffer.store a).Sound := fits_first

theorem Takes.of_append (takes : buffer.Takes (a ++ b)) : buffer.Takes a := by
  apply Fits.of_append (b := b)
  rw [ByteArray.append_assoc]
  exact takes

theorem store_empty (sound : buffer.Sound) : buffer.store .empty = buffer := by
  rw [store, ByteArray.append_empty, first_of_fits sound]

theorem takes_empty (sound : buffer.Sound) : buffer.Takes .empty := by
  rw [Takes, ByteArray.append_empty]
  exact sound

/-- Two writes store what one write of both stores. -/
theorem store_store : (buffer.store a).store b = buffer.store (a ++ b) := by
  simp only [store, first_first_append, ByteArray.append_assoc]

theorem takes_store (takes : buffer.Takes a) :
    (buffer.store a).Takes b ↔ buffer.Takes (a ++ b) := by
  rw [Takes, Takes, store, first_of_fits takes, ByteArray.append_assoc]

theorem store_append_of_not_takes (full : ¬ buffer.Takes a) :
    buffer.store (a ++ b) = buffer.store a := by
  rw [store, store, ← ByteArray.append_assoc, first_append_of_not_fits full]

theorem room_of_takes (takes : buffer.Takes a) : buffer.room a = a.size := by
  rw [room]
  split
  · rfl
  · rename_i n bound
    have whole := takes n bound
    rw [ByteArray.size_append] at whole
    omega

/-- What does not find room fills the buffer. -/
theorem room_of_not_takes (sound : buffer.Sound) (full : ¬ buffer.Takes a) :
    buffer.room a ≠ a.size ∧
      { buffer with written := buffer.written ++ a.extract 0 (buffer.room a) } =
        buffer.store a := by
  obtain ⟨written, limit, flushFails⟩ := buffer
  cases limit with
  | none => exact absurd fits_none full
  | some n =>
    have bound : written.size ≤ n := sound n rfl
    have beyond : n < written.size + a.size := by
      rw [Takes, fits_some, ByteArray.size_append] at full
      exact Nat.not_le.1 full
    have taken : room ⟨written, some n, flushFails⟩ a = n - written.size := by
      change min a.size (n - written.size) = _
      omega
    have kept : written.extract 0 n = written := first_of_fits sound
    rw [taken, store, first_some, ByteArray.extract_append, Nat.zero_sub, kept]
    exact ⟨by omega, rfl⟩

/-- A write stores as much as finds room, and fails if that is not all of it. -/
theorem write_eq (sound : buffer.Sound) :
    Sink.write a buffer =
      (if buffer.Takes a then .ok () else .error .limitReached, buffer.store a) := by
  by_cases takes : buffer.Takes a
  · rw [if_pos takes, store, first_of_fits takes]
    exact if_pos (room_of_takes takes)
  · obtain ⟨less, stored⟩ := room_of_not_takes sound takes
    rw [if_neg takes, ← stored]
    exact if_neg less

/-- Pieces are stored as far as there is room, as if they were written at once. -/
theorem writeAll_eq (sound : buffer.Sound) (pieces : List ByteArray) :
    Sink.writeAll pieces buffer =
      (if buffer.Takes (joinOctets pieces) then .ok () else .error .limitReached,
        buffer.store (joinOctets pieces)) := by
  induction pieces generalizing buffer with
  | nil => rw [joinOctets_nil, if_pos (takes_empty sound), store_empty sound, Sink.writeAll]
  | cons piece more ih =>
    rw [Sink.writeAll, write_eq sound, joinOctets_cons]
    by_cases takes : buffer.Takes piece
    · simp only [if_pos takes]
      rw [ih sound_store, store_store]
      simp only [takes_store takes]
    · simp only [if_neg takes]
      rw [if_neg (mt Takes.of_append takes), store_append_of_not_takes takes]

end Store

end Buffer

namespace Renderer

open Buffer

/-- What a step comes to that would write `octets`, reach `progress` and end with `result`. The
octets are stored as far as there is room. If all are, the step is as it would be, and if not,
it fails. -/
structure Cut (before : Renderer Buffer) (octets : ByteArray) (progress : Progress)
    (result : Except Fault Unit) (after : Except Fault Unit × Renderer Buffer) : Prop where
  options : after.2.options = before.options
  out : after.2.out = before.out.store octets
  whole : before.out.Takes octets → after.1 = result ∧ after.2.progress = progress
  part : ¬ before.out.Takes octets → after.1 = .error (.device .limitReached)

/-- Goes on with `next` if the first step succeeds. -/
def andThen (next : Renderer Buffer → Except Fault Unit × Renderer Buffer) :
    Except Fault Unit × Renderer Buffer → Except Fault Unit × Renderer Buffer
  | (.ok (), renderer) => next renderer
  | (.error fault, renderer) => (.error fault, renderer)

section Cut

variable {before : Renderer Buffer} {a b : ByteArray} {progress : Progress}
  {result : Except Fault Unit} {first : Except Fault Unit × Renderer Buffer}

/-- A step that writes nothing is not cut. -/
theorem Cut.nothing (sound : before.out.Sound) (result : Except Fault Unit) :
    Cut before .empty before.progress result (result, before) where
  options := rfl
  out := (store_empty sound).symm
  whole _ := ⟨rfl, rfl⟩
  part full := absurd (takes_empty sound) full

/-- Two steps, the second of which is taken only if the first succeeds. -/
theorem Cut.andThen (one : Cut before a progress (.ok ()) first)
    (next : Renderer Buffer → Except Fault Unit × Renderer Buffer) {last : Progress}
    (two : first.2.options = before.options → first.2.progress = progress → first.2.out.Sound →
      Cut first.2 b last result (next first.2)) :
    Cut before (a ++ b) last result (andThen next first) := by
  obtain ⟨ended, renderer⟩ := first
  obtain ⟨options, out, whole, part⟩ := one
  by_cases takes : before.out.Takes a
  · obtain ⟨rfl, reached⟩ := whole takes
    dsimp only at options out reached two
    have rest := two options reached (out ▸ sound_store)
    refine ⟨rest.options.trans options, ?_, ?_, ?_⟩
    · rw [andThen, rest.out, out, store_store]
    · intro both
      exact rest.whole (by rwa [out, takes_store takes])
    · intro full
      exact rest.part (by rwa [out, takes_store takes])
  · have full : ¬ before.out.Takes (a ++ b) := mt Takes.of_append takes
    obtain rfl := part takes
    exact ⟨options, out.trans (store_append_of_not_takes takes).symm,
      fun taken => absurd taken full, fun _ => rfl⟩

end Cut

/-- A plan is carried out as far as there is room. -/
theorem perform_cut (plan : List Action) (renderer : Renderer Buffer)
    (sound : renderer.out.Sound) :
    Cut renderer (Action.octets plan) (Action.last plan renderer.progress) (.ok ())
      (renderer.perform plan) := by
  induction plan generalizing renderer with
  | nil => exact .nothing sound _
  | cons action plan ih =>
    cases action with
    | reach progress =>
      obtain ⟨options, out, whole, part⟩ := ih { renderer with progress := progress } sound
      exact ⟨options, out, whole, part⟩
    | discard name =>
      obtain ⟨options, out, whole, part⟩ :=
        ih { renderer with
          remarks := renderer.remarks.push (Sink.aside (.suppressing name) renderer.out) } sound
      exact ⟨options, out, whole, part⟩
    | write text =>
      have wrote : Cut renderer text.toUTF8 renderer.progress (.ok ())
          (if renderer.out.Takes text.toUTF8 then .ok () else .error (.device .limitReached),
            { renderer with out := renderer.out.store text.toUTF8 }) :=
        ⟨rfl, rfl, fun takes => ⟨if_pos takes, rfl⟩, fun full => if_neg full⟩
      have both := wrote.andThen (·.perform plan)
        fun _ reached sound => reached ▸ ih _ sound
      rw [perform, Sink.writeText, write_eq sound, Action.octets_write]
      by_cases takes : renderer.out.Takes text.toUTF8
      · simp only [if_pos takes] at both ⊢
        exact both
      · simp only [if_neg takes] at both ⊢
        exact both

theorem takeAll_cons (item : Item) (more : List Item) (renderer : Renderer Buffer) :
    renderer.takeAll (item :: more) = andThen (·.takeAll more) (renderer.take item) := by
  rw [takeAll]
  obtain ⟨_ | _, _⟩ := renderer.take item <;> rfl

/-- Items are handled as far as there is room for their text. -/
theorem takeAll_cut (items : List Item) (renderer : Renderer Buffer)
    (sound : renderer.out.Sound) :
    Cut renderer (Rendition.ofItems renderer.options renderer.progress items).text.toUTF8
      (Rendition.ofItems renderer.options renderer.progress items).progress
      ((Rendition.ofItems renderer.options renderer.progress items).result.map fun _ => ())
      (renderer.takeAll items) := by
  induction items generalizing renderer with
  | nil => exact .nothing sound _
  | cons item more ih =>
    rw [takeAll_cons, take_eq, Rendition.ofItems]
    cases item.bind (Plan.ofEvent renderer.options renderer.progress) with
    | error fault => exact .nothing sound _
    | ok plan =>
      have rest := (perform_cut plan renderer sound).andThen (·.takeAll more)
        fun kept reached sound => kept ▸ reached ▸ ih _ sound
      have joined : ∀ text : String,
          (String.join (Action.texts plan) ++ text).toUTF8 = Action.octets plan ++ text.toUTF8 :=
        fun text => String.toByteArray_append
      rw [← joined] at rest
      exact rest

end Renderer

/-- A flush leaves the buffer as it is, whether it fails or not. -/
theorem Renderer.flush_buffer (renderer : Renderer Buffer) :
    renderer.flush =
      (if renderer.out.flushFails then .error (.device .flushFailed) else .ok (), renderer) := by
  obtain ⟨options, ⟨written, limit, fails⟩, progress, remarks⟩ := renderer
  cases fails <;> rfl

/-- Once the items are handled, a conversion flushes, which leaves the buffer as it is. -/
theorem convert_of_takeAll {options : Options} {items : List Item} {out : Buffer}
    {ended : Except Fault Unit} {renderer : Renderer Buffer}
    (taken : (Renderer.new options out).takeAll items = (ended, renderer)) :
    (convert options out items).out = renderer.out ∧
      (convert options out items).result = ended.bind fun _ =>
        if renderer.out.flushFails then .error (.device .flushFailed)
        else .ok renderer.progress.summary := by
  rw [convert, taken]
  cases ended with
  | error fault =>
    have flushed : Sink.flush renderer.out =
        (if renderer.out.flushFails then .error .flushFailed else .ok (), renderer.out) := rfl
    simp only [flushed]
    cases renderer.out.flushFails <;> exact ⟨rfl, rfl⟩
  | ok done =>
    simp only [Renderer.finish, Renderer.flush_buffer]
    cases renderer.out.flushFails <;> exact ⟨rfl, rfl⟩

/-- A conversion stores as much of its rendition as there is room for. If there is room for all
of it, the conversion ends as the rendition does unless the flush fails. -/
theorem convert_buffer (options : Options) (items : List Item) {out : Buffer}
    (sound : out.Sound) :
    (convert options out items).out =
        out.store (Rendition.ofItems options .initial items).text.toUTF8 ∧
      (convert options out items).result =
        if out.Takes (Rendition.ofItems options .initial items).text.toUTF8 then
          (Rendition.ofItems options .initial items).result.bind fun summary =>
            if out.flushFails then .error (.device .flushFailed) else .ok summary
        else .error (.device .limitReached) := by
  obtain ⟨-, stored, whole, part⟩ := Renderer.takeAll_cut items (.new options out) sound
  cases taken : (Renderer.new options out).takeAll items with | mk ended renderer
  rw [taken] at stored whole part
  dsimp only [Renderer.new] at stored whole part
  obtain ⟨held, result⟩ := convert_of_takeAll taken
  have fails : renderer.out.flushFails = out.flushFails := by
    rw [stored, Buffer.store]
  refine ⟨held.trans stored, ?_⟩
  rw [result, fails]
  by_cases takes : out.Takes (Rendition.ofItems options .initial items).text.toUTF8
  · obtain ⟨rfl, reached⟩ := whole takes
    rw [if_pos takes, reached, Rendition.result]
    cases (Rendition.ofItems options .initial items).fault <;> rfl
  · obtain rfl := part takes
    rw [if_neg takes]
    rfl

/-- A conversion into an empty buffer. -/
theorem convert_empty (options : Options) (items : List Item) (limit : Option Nat)
    (flushFails : Bool) :
    (convert options (Buffer.mk .empty limit flushFails) items).out.written =
        Buffer.first limit (Rendition.ofItems options .initial items).text.toUTF8 ∧
      (convert options (Buffer.mk .empty limit flushFails) items).result =
        if Buffer.Fits limit (Rendition.ofItems options .initial items).text.toUTF8 then
          (Rendition.ofItems options .initial items).result.bind fun summary =>
            if flushFails then .error (.device .flushFailed) else .ok summary
        else .error (.device .limitReached) := by
  obtain ⟨out, result⟩ := convert_buffer options items
    (show (Buffer.mk .empty limit flushFails).Sound from Buffer.fits_empty)
  rw [out, result]
  simp only [Buffer.store, Buffer.Takes, ByteArray.empty_append, and_self]

namespace Renderer

open Buffer

/-- The plan of a request. A flush and an event that is rejected have nothing to do. -/
def planOf (options : Options) (progress : Progress) : Request → List Action
  | .handle event => (Plan.ofEvent options progress event).toOption.getD []
  | .flush => []

/-- Whatever a request is answered, what it does to the renderer is its plan, as far as there is
room. -/
theorem serve_cut (request : Request) (renderer : Renderer Buffer) (sound : renderer.out.Sound) :
    ∃ result,
      Cut renderer (Action.octets (planOf renderer.options renderer.progress request))
        (Action.last (planOf renderer.options renderer.progress request) renderer.progress) result
        (renderer.serve request) := by
  cases request with
  | flush =>
    rw [serve, flush_buffer]
    exact ⟨_, .nothing sound _⟩
  | handle event =>
    rw [serve, handle, planOf]
    cases Plan.ofEvent renderer.options renderer.progress event with
    | error fault => exact ⟨_, .nothing sound _⟩
    | ok plan => exact ⟨_, perform_cut plan renderer sound⟩

/-- A renderer whose buffer takes `n` octets beside one that has done the same over a buffer
without limit. Once the latter holds more than `n` octets, the two may differ in where they are. -/
structure Shadows (n : Nat) (limited whole : Renderer Buffer) : Prop where
  options : limited.options = whole.options
  limit : limited.out.limit = some n
  unlimited : whole.out.limit = none
  held : limited.out.written = whole.out.written.extract 0 n
  progress : whole.out.written.size ≤ n → limited.progress = whole.progress

section Shadows

variable {n : Nat} {limited whole : Renderer Buffer}

/-- One request more. As long as all octets fit, both renderers plan the same. Once they do not,
the limited buffer is full, and what its renderer plans does not matter. -/
theorem Shadows.serve (shadows : Shadows n limited whole) (request : Request) :
    Shadows n (limited.serve request).2 (whole.serve request).2 := by
  obtain ⟨options, limit, unlimited, held, progress⟩ := shadows
  have sound : limited.out.Sound := by
    rw [Sound, limit, held]
    exact fits_first
  have sound' : whole.out.Sound := by
    rw [Sound, unlimited]
    exact fits_none
  obtain ⟨_, kept, stored, reached, -⟩ := serve_cut request limited sound
  obtain ⟨_, kept', stored', reached', -⟩ := serve_cut request whole sound'
  have all : ∀ octets, whole.out.Takes octets := by
    intro octets
    rw [Takes, unlimited]
    exact fits_none
  have grown : (whole.serve request).2.out.written =
      whole.out.written ++ Action.octets (planOf whole.options whole.progress request) := by
    rw [stored', store, unlimited, first_none]
  have cut : (limited.serve request).2.out.written = first (some n)
      (first (some n) whole.out.written ++
        Action.octets (planOf limited.options limited.progress request)) := by
    rw [stored, store, limit, held]
    rfl
  refine ⟨by rw [kept, kept', options], by rw [stored, store, limit],
    by rw [stored', store, unlimited], ?_, ?_⟩
  · rw [cut, grown, first_first_append, ← first_some]
    by_cases fits : whole.out.written.size ≤ n
    · rw [options, progress fits]
    · have full : ¬ Fits (some n) whole.out.written := mt fits_some.1 fits
      rw [first_append_of_not_fits full, first_append_of_not_fits full]
  · intro fits
    have fits' : Fits (some n) (whole.serve request).2.out.written := fits_some.2 fits
    rw [grown] at fits'
    have before := progress (fits_some.1 fits'.of_append)
    have takes : limited.out.Takes
        (Action.octets (planOf limited.options limited.progress request)) := by
      rw [Takes, limit, held, ← first_some, first_of_fits fits'.of_append, options, before]
      exact fits'
    rw [(reached takes).2, (reached' (all _)).2, options, before]

theorem Shadows.serveAll (shadows : Shadows n limited whole) (requests : List Request) :
    Shadows n (limited.serveAll requests) (whole.serveAll requests) := by
  induction requests generalizing limited whole with
  | nil => exact shadows
  | cons request more ih => exact ih (shadows.serve request)

end Shadows

end Renderer

/-- A buffer with room for `n` octets ends up with the first `n` of those that the conversion
writes. If that is all of them, nothing else is different; if not, the conversion fails for want
of room, whatever else would be at fault. Nor does a renderer that goes on after faults write
anything but the beginning of what it would write without the limit. -/
theorem convert_limited (options : Options) (items : List Item) (requests : List Request)
    (n : Nat) (flushFails : Bool) :
    let whole := convert options (Buffer.mk .empty none flushFails) items
    let limited := convert options (Buffer.mk .empty (some n) flushFails) items
    (limited.out.written, limited.result) =
        (if whole.out.written.size ≤ n then (whole.out.written, whole.result)
        else (whole.out.written.extract 0 n, .error (.device .limitReached))) ∧
      ((Renderer.new options (Buffer.mk .empty (some n) flushFails)).serveAll
          requests).out.written =
        ((Renderer.new options (Buffer.mk .empty none flushFails)).serveAll
          requests).out.written.extract 0 n := by
  intro whole limited
  have shadows : Renderer.Shadows n (.new options (Buffer.mk .empty (some n) flushFails))
      (.new options (Buffer.mk .empty none flushFails)) :=
    ⟨rfl, rfl, rfl, (Buffer.first_empty (some n)).symm, fun _ => rfl⟩
  refine ⟨?_, (shadows.serveAll requests).held⟩
  obtain ⟨wholeOut, wholeResult⟩ := convert_empty options items none flushFails
  obtain ⟨out, result⟩ := convert_empty options items (some n) flushFails
  rw [if_pos Buffer.fits_none] at wholeResult
  rw [Buffer.first_none] at wholeOut
  rw [Buffer.first_some, ← wholeOut] at out
  simp only [Buffer.fits_some, ← wholeOut] at result
  by_cases fits : whole.out.written.size ≤ n
  · rw [if_pos fits] at result ⊢
    rw [out, result, ← wholeResult, Prod.mk.injEq]
    exact ⟨Buffer.first_of_fits (Buffer.fits_some.2 fits), rfl⟩
  · rw [if_neg fits, Prod.mk.injEq]
    exact ⟨out, result.trans (if_neg fits)⟩

end TraceTables
