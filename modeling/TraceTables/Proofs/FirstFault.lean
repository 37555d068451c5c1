import Mathlib
import TraceTables.Proofs.Limit

/-!
# Where a conversion stops

A conversion stops at the first item that is at fault: the source reports a fault there, the event
is rejected, or a write of its plan fails. This module tells that place by handling the items one
after the other (`faultAt?`), and proves that a conversion ends with the fault found there, keeps
what has been written up to it, and never looks at the items behind it.

Which part of a write that fails is stored is the sink's affair. All that is asked of a sink is that
it stores a beginning of what it is given, and all of it unless it fails (`Sink.Stores`). The items
before the first fault then store the text of their rendition, and the item at fault a beginning of
its own.
-/

namespace TraceTables

namespace Sink

/-- A sink that stores a beginning of what is written, and all of it unless it fails. A flush stores
nothing and takes nothing back. -/
structure Stores {σ : Type} [Sink σ] (held : σ → ByteArray) : Prop where
  write (octets : ByteArray) (out : σ) : ∃ part rest, octets = part ++ rest ∧
    held (Sink.write octets out).2 = held out ++ part ∧
    ((Sink.write octets out).1 = .ok () → rest = .empty)
  flush (out : σ) : held (Sink.flush out).2 = held out

end Sink

/-- A buffer stores a beginning of each write, whatever its limit, and whether its flushes fail. -/
theorem Buffer.stores : Sink.Stores Buffer.written where
  write octets buffer := by
    by_cases all : buffer.room octets = octets.size
    · refine ⟨octets, .empty, ByteArray.append_empty.symm, ?_, fun _ => rfl⟩
      simp only [Sink.write, if_pos all]
    · refine ⟨octets.extract 0 (buffer.room octets),
        octets.extract (buffer.room octets) octets.size, (extract_room buffer octets).symm, ?_,
        fun wrote => ?_⟩
      · simp only [Sink.write, if_neg all]
      · simp [Sink.write, all] at wrote
  flush _ := rfl

namespace Renderer

variable {σ : Type} [Sink σ]

/-- Takes items one after the other, whatever becomes of each. -/
def takeEach (items : List Item) (renderer : Renderer σ) : Renderer σ :=
  items.foldl (fun renderer item => (renderer.take item).2) renderer

/-- The fault at a place: that of the item there, when the items before it have been taken. -/
def faultAt? (items : List Item) (renderer : Renderer σ) (place : Nat) : Option Fault :=
  match items[place]? with
  | none => none
  | some item =>
    match ((renderer.takeEach (items.take place)).take item).1 with
    | .ok () => none
    | .error fault => some fault

/-- The first fault among items, and its place. -/
structure FirstFault (items : List Item) (renderer : Renderer σ) (place : Nat) (fault : Fault) :
    Prop where
  here : renderer.faultAt? items place = some fault
  before : ∀ earlier < place, renderer.faultAt? items earlier = none

@[simp] theorem takeEach_cons (item : Item) (more : List Item) (renderer : Renderer σ) :
    renderer.takeEach (item :: more) = (renderer.take item).2.takeEach more := rfl

@[simp] theorem options_takeEach (items : List Item) (renderer : Renderer σ) :
    (renderer.takeEach items).options = renderer.options := by
  induction items generalizing renderer with
  | nil => rfl
  | cons item more ih => rw [takeEach_cons, ih, options_take]

@[simp] theorem faultAt?_succ (item : Item) (more : List Item) (renderer : Renderer σ)
    (place : Nat) :
    renderer.faultAt? (item :: more) (place + 1) = (renderer.take item).2.faultAt? more place := by
  simp [faultAt?]

theorem take_of_faultAt?_zero {item : Item} {more : List Item} {renderer : Renderer σ}
    (none : renderer.faultAt? (item :: more) 0 = none) : (renderer.take item).1 = .ok () := by
  simp only [faultAt?, List.getElem?_cons_zero, List.take_zero, takeEach, List.foldl_nil] at none
  split at none
  · assumption
  · cases none

section Handled

variable {items : List Item} {renderer : Renderer σ}

/-- Items without a fault are taken to the last. -/
theorem takeAll_of_handled (handled : ∀ place, renderer.faultAt? items place = none) :
    renderer.takeAll items = (.ok (), renderer.takeEach items) := by
  induction items generalizing renderer with
  | nil => rfl
  | cons item more ih =>
    have first := take_of_faultAt?_zero (handled 0)
    have rest := ih fun place => by simpa using handled (place + 1)
    rw [takeAll, takeEach_cons, ← rest]
    split
    · rename_i taken
      rw [taken]
    · rename_i taken
      rw [taken] at first
      cases first

theorem takeAll_append {reached : Renderer σ} (taken : renderer.takeAll items = (.ok (), reached))
    (more : List Item) : renderer.takeAll (items ++ more) = reached.takeAll more := by
  induction items generalizing renderer with
  | nil =>
    cases taken
    rfl
  | cons item rest ih =>
    rw [List.cons_append, takeAll]
    rw [takeAll] at taken
    split at taken
    · exact ih taken
    · cases taken

end Handled

section Stores

variable {held : σ → ByteArray}

/-- A plan that is carried out to its end leads to where it ends. -/
theorem progress_perform_of_ok {plan : List Action} {renderer : Renderer σ}
    (performed : (renderer.perform plan).1 = .ok ()) :
    (renderer.perform plan).2.progress = Action.last plan renderer.progress := by
  induction plan generalizing renderer with
  | nil => rfl
  | cons action plan ih =>
    cases action with
    | reach progress => exact ih performed
    | discard name => exact ih performed
    | write text =>
      rw [perform] at performed ⊢
      split at performed
      · exact ih performed
      · cases performed

/-- Of the octets of a plan a beginning is stored, and all of them unless a write fails. -/
theorem perform_stores (stores : Sink.Stores held) (plan : List Action) (renderer : Renderer σ) :
    ∃ part rest, Action.octets plan = part ++ rest ∧
      held (renderer.perform plan).2.out = held renderer.out ++ part ∧
      ((renderer.perform plan).1 = .ok () → rest = .empty) := by
  induction plan generalizing renderer with
  | nil => exact ⟨.empty, .empty, rfl, ByteArray.append_empty.symm, fun _ => rfl⟩
  | cons action plan ih =>
    cases action with
    | reach progress => exact ih { renderer with progress := progress }
    | discard name => exact ih { renderer with remarks := _ }
    | write text =>
      obtain ⟨part, rest, cut, stored, whole⟩ := stores.write text.toUTF8 renderer.out
      rw [perform, Action.octets_write]
      rcases wrote : Sink.writeText text renderer.out with ⟨cause | done, out⟩
      · have out_eq : (Sink.write text.toUTF8 renderer.out).2 = out := congrArg Prod.snd wrote
        refine ⟨part, rest ++ Action.octets plan, ?_, ?_, ?_⟩
        · rw [cut, ByteArray.append_assoc]
        · rw [← out_eq]
          exact stored
        · intro performed
          cases performed
      · have out_eq : (Sink.write text.toUTF8 renderer.out).2 = out := congrArg Prod.snd wrote
        obtain rfl := whole (congrArg Prod.fst wrote)
        obtain ⟨part', rest', cut', stored', whole'⟩ := ih { renderer with out := out }
        refine ⟨part ++ part', rest', ?_, ?_, whole'⟩
        · rw [cut, cut', ByteArray.append_empty, ByteArray.append_assoc]
        · rw [← ByteArray.append_assoc, ← stored, out_eq]
          exact stored'

/-- What an item that is taken stores, is a beginning of its rendition, and all of it unless it is
at fault. -/
theorem take_stores (stores : Sink.Stores held) (item : Item) (renderer : Renderer σ) :
    ∃ part rest,
      (Rendition.ofItems renderer.options renderer.progress [item]).text.toUTF8 = part ++ rest ∧
      held (renderer.take item).2.out = held renderer.out ++ part ∧
      ((renderer.take item).1 = .ok () → rest = .empty ∧
        Rendition.ofItems renderer.options renderer.progress [item] =
          ⟨(Rendition.ofItems renderer.options renderer.progress [item]).text,
            (renderer.take item).2.progress, none⟩) := by
  rw [take_eq, Rendition.ofItems]
  cases item.bind (Plan.ofEvent renderer.options renderer.progress) with
  | error fault =>
    refine ⟨.empty, .empty, rfl, ByteArray.append_empty.symm, ?_⟩
    intro performed
    cases performed
  | ok plan =>
    obtain ⟨part, rest, cut, stored, whole⟩ := perform_stores stores plan renderer
    refine ⟨part, rest, ?_, stored, fun performed => ⟨whole performed, ?_⟩⟩
    · simpa [Rendition.ofItems, Action.octets] using cut
    · rw [progress_perform_of_ok performed]
      rfl

/-- Items without a fault store the text of their rendition, and lead where it ends. -/
theorem takeEach_stores (stores : Sink.Stores held) {items : List Item} {renderer : Renderer σ}
    (handled : ∀ place, renderer.faultAt? items place = none) :
    ∃ text, Rendition.ofItems renderer.options renderer.progress items =
        ⟨text, (renderer.takeEach items).progress, none⟩ ∧
      held (renderer.takeEach items).out = held renderer.out ++ text.toUTF8 := by
  induction items generalizing renderer with
  | nil => exact ⟨"", rfl, ByteArray.append_empty.symm⟩
  | cons item more ih =>
    obtain ⟨part, rest, cut, stored, whole⟩ := take_stores stores item renderer
    obtain ⟨rfl, first⟩ := whole (take_of_faultAt?_zero (handled 0))
    obtain ⟨text, behind, stored'⟩ := ih fun place => by simpa using handled (place + 1)
    rw [options_take] at behind
    refine ⟨(Rendition.ofItems renderer.options renderer.progress [item]).text ++ text, ?_, ?_⟩
    · rw [← List.singleton_append, Rendition.ofItems_append first, behind]
      rfl
    · have whole : (Rendition.ofItems renderer.options renderer.progress [item]).text.toUTF8 =
          part := cut.trans ByteArray.append_empty
      rw [takeEach_cons, stored', stored, ← whole, ByteArray.append_assoc]
      exact congrArg (held renderer.out ++ ·) String.toByteArray_append.symm

end Stores

namespace FirstFault

variable {items : List Item} {renderer : Renderer σ} {place : Nat} {fault : Fault}

/-- The item at the first fault. -/
theorem exists_item (first : renderer.FirstFault items place fault) :
    ∃ item, items[place]? = some item ∧
      ((renderer.takeEach (items.take place)).take item).1 = .error fault := by
  have here := first.here
  rw [faultAt?] at here
  split at here
  · cases here
  · rename_i item there
    refine ⟨item, there, ?_⟩
    split at here
    · cases here
    · rename_i found failed
      cases here
      exact failed

/-- The items before the first fault are taken without one. -/
theorem handled_before (first : renderer.FirstFault items place fault) (earlier : Nat) :
    renderer.faultAt? (items.take place) earlier = none := by
  by_cases before : earlier < place
  · have none := first.before earlier before
    rw [faultAt?] at none ⊢
    rw [List.getElem?_take_of_lt before, List.take_take, Nat.min_eq_left (Nat.le_of_lt before)]
    exact none
  · have behind : (items.take place)[earlier]? = none :=
      List.getElem?_eq_none (by rw [List.length_take]; omega)
    rw [faultAt?, behind]

/-- Items are taken up to the first fault, whatever is behind it. -/
theorem takeAll_eq (first : renderer.FirstFault items place fault) {item : Item}
    (there : items[place]? = some item)
    (failed : ((renderer.takeEach (items.take place)).take item).1 = .error fault)
    (others : List Item) :
    renderer.takeAll (items.take (place + 1) ++ others) =
      (.error fault, ((renderer.takeEach (items.take place)).take item).2) := by
  rw [List.take_add_one, there, Option.toList_some, List.append_assoc,
    takeAll_append (takeAll_of_handled first.handled_before), List.singleton_append, takeAll]
  split
  · rename_i taken
    rw [taken] at failed
    cases failed
  · rename_i taken
    rw [taken] at failed ⊢
    cases failed
    rfl

end FirstFault

end Renderer

/-- Items write what they write whatever comes behind them. -/
theorem Rendition.text_ofItems_append (options : Options) (progress : Progress)
    (a b : List Item) :
    ∃ rest, (ofItems options progress (a ++ b)).text =
      (ofItems options progress a).text ++ rest := by
  induction a generalizing progress with
  | nil => exact ⟨(ofItems options progress b).text, String.empty_append.symm⟩
  | cons item more ih =>
    rw [List.cons_append, ofItems, ofItems]
    cases item.bind (Plan.ofEvent options progress) with
    | error fault => exact ⟨"", String.append_empty.symm⟩
    | ok plan =>
      obtain ⟨rest, same⟩ := ih (Action.last plan progress)
      refine ⟨rest, ?_⟩
      rw [behind_text, behind_text, same, String.append_assoc]

section Convert

variable {σ : Type} [Sink σ] {options : Options} {out : σ} {items : List Item}
  {renderer : Renderer σ}

/-- How a conversion ends that has come to a fault: with that fault, however the flush ends. -/
theorem convert_of_takeAll_error {fault : Fault}
    (taken : (Renderer.new options out).takeAll items = (.error fault, renderer)) :
    (convert options out items).result = .error fault ∧
      (convert options out items).out = (Sink.flush renderer.out).2 := by
  rw [convert, taken]
  rcases ended : Sink.flush renderer.out with ⟨cause | done, flushed⟩
  · simp only [ended, and_self]
  · simp only [ended, and_self]

/-- How a conversion ends that has taken all items: as the flush does. -/
theorem convert_of_takeAll_ok
    (taken : (Renderer.new options out).takeAll items = (.ok (), renderer)) :
    (convert options out items).result =
        (match (Sink.flush renderer.out).1 with
        | .ok () => .ok renderer.progress.summary
        | .error cause => .error (.device cause)) ∧
      (convert options out items).out = (Sink.flush renderer.out).2 := by
  rw [convert, taken]
  rcases ended : Sink.flush renderer.out with ⟨cause | done, flushed⟩
  · simp only [Renderer.finish, Renderer.flush, ended, and_self]
  · simp only [Renderer.finish, Renderer.flush, ended, and_self]

/-- What a conversion comes to is decided by what its items come to. -/
theorem convert_congr {others : List Item}
    (same : (Renderer.new options out).takeAll items = (Renderer.new options out).takeAll others) :
    convert options out items = convert options out others := by
  rw [convert, convert, same]

/-- A conversion ends with the first fault among its items, whether or not the flush fails, and does
not look behind it. It has stored the text of the items before that place and a beginning of what
the item there was to write. Without a fault it has stored everything, and ends as the flush does.
Over a sink that never fails, more items only add to what is stored. -/
theorem convert_first_fault {held : σ → ByteArray} (stores : Sink.Stores held) (options : Options)
    (out : σ) (items : List Item) :
    let start := Renderer.new options out
    let run := convert options out items
    (∀ place fault, start.FirstFault items place fault →
      run.result = .error fault ∧
      (∀ others, convert options out (items.take (place + 1) ++ others) = run) ∧
      ∃ item part rest, items[place]? = some item ∧
        let before := start.takeEach (items.take place)
        let failed := (before.take item).2
        held before.out =
          held out ++ (Rendition.ofItems options .initial (items.take place)).text.toUTF8 ∧
        (Rendition.ofItems options before.progress [item]).text.toUTF8 = part ++ rest ∧
        held failed.out = held before.out ++ part ∧ held run.out = held failed.out) ∧
    ((∀ place, start.faultAt? items place = none) →
      held run.out = held out ++ (Rendition.ofItems options .initial items).text.toUTF8 ∧
      run.result =
        match (Sink.flush (start.takeEach items).out).1 with
        | .ok () => .ok (start.takeEach items).progress.summary
        | .error cause => .error (.device cause)) ∧
    ∀ sound, Sink.Faithful sound held → sound out → ∀ count, ∃ rest,
      held run.out = held (convert options out (items.take count)).out ++ rest := by
  intro start run
  refine ⟨?_, ?_, ?_⟩
  · intro place fault first
    obtain ⟨item, there, failed⟩ := first.exists_item
    have taken := first.takeAll_eq there failed
    have whole : start.takeAll items = _ := List.take_append_drop (place + 1) items ▸ taken _
    obtain ⟨result, flushed⟩ := convert_of_takeAll_error whole
    obtain ⟨text, rendition, stored⟩ := Renderer.takeEach_stores stores first.handled_before
    obtain ⟨part, rest, cut, stored', -⟩ :=
      Renderer.take_stores stores item (start.takeEach (items.take place))
    rw [Renderer.options_takeEach] at cut
    refine ⟨result, fun others => convert_congr ((taken others).trans whole.symm), item, part, rest,
      there, ?_, cut, stored', ?_⟩
    · rw [show Rendition.ofItems options .initial (items.take place) = _ from rendition]
      exact stored
    · rw [flushed, stores.flush]
  · intro handled
    obtain ⟨result, flushed⟩ := convert_of_takeAll_ok (Renderer.takeAll_of_handled handled)
    obtain ⟨text, rendition, stored⟩ := Renderer.takeEach_stores stores handled
    refine ⟨?_, result⟩
    rw [flushed, stores.flush, stored, show Rendition.ofItems options .initial items = _ from
      rendition]
    rfl
  · intro sound faithful sane count
    obtain ⟨more, text⟩ := Rendition.text_ofItems_append options .initial (items.take count)
      (items.drop count)
    rw [List.take_append_drop] at text
    obtain ⟨-, grown⟩ := convert_faithful faithful sane options items
    obtain ⟨-, grown'⟩ := convert_faithful faithful sane options (items.take count)
    refine ⟨more.toUTF8, ?_⟩
    rw [grown.held, grown'.held, text, ByteArray.append_assoc]
    exact congrArg (held out ++ ·) String.toByteArray_append

/-- A text is cut by the limit of the buffer. Neither the flush, which fails too, nor the fault of
the source behind it is reported. Without the text, the flush is. -/
theorem convert_first_fault_cut_text :
    let options : Options := ⟨",", .all, false⟩
    let full := Buffer.mk .empty (some 6) true
    let opening : List Item := [.ok (.tableBegin .basic "A")]
    let items : List Item :=
      opening ++ [.ok (.cellValue (.string "xy")), .error (.decode "lost")]
    let run := convert options full items
    (Renderer.new options full).FirstFault items 1 (.device .limitReached) ∧
      run.result = .error (.device .limitReached) ∧ run.out.written = "\"A\"\n\"x".toUTF8 ∧
      convert options full (items.take 2 ++ [.error .missingInput]) = run ∧
      (∀ place, (Renderer.new options full).faultAt? opening place = none) ∧
      (convert options full opening).result = .error (.device .flushFailed) ∧
      Buffer.unlimited.Unlimited ∧
      ∃ rest, (convert options Buffer.unlimited items).out.written =
        (convert options Buffer.unlimited (items.take 1)).out.written ++ rest := by
  intro options full opening items run
  obtain ⟨stops, -, -⟩ := convert_first_fault Buffer.stores options full items
  obtain ⟨-, ends, -⟩ := convert_first_fault Buffer.stores options full opening
  obtain ⟨-, -, grows⟩ := convert_first_fault Buffer.stores options Buffer.unlimited items
  have first : (Renderer.new options full).FirstFault items 1 (.device .limitReached) :=
    ⟨rfl, by decide⟩
  have handled : ∀ place, (Renderer.new options full).faultAt? opening place = none := by
    intro place
    match place with
    | 0 | _ + 1 => rfl
  have start : Buffer.unlimited.Unlimited := ⟨rfl, rfl⟩
  obtain ⟨result, behind, -⟩ := stops 1 _ first
  have written : run.out.written = "\"A\"\n\"x".toUTF8 := by
    dsimp only [run, items, opening, full, options]
    cbv
  exact ⟨first, result, written, behind _, handled, (ends handled).2, start,
    grows _ Buffer.faithful start 1⟩

end Convert

end TraceTables
