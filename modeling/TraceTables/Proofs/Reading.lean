import TraceTables.Recording.Basic

/-!
# Asking a source for everything

A reading is collected by asking a source until it yields something that is no event. It
therefore splits at the first item (`read_of_event`, `read_of_fault`, `read_of_end`), and it
tells what a source answers however often it is asked (`ask_eq`): the items of the reading,
and nothing from then on.
-/

namespace TraceTables

@[simp] theorem Reading.items_events (events : List Event) :
    (Reading.mk events none).items = events.map .ok :=
  List.append_nil _

@[simp] theorem Reading.items_after (reading : Reading) (events : List Event) :
    (reading.after events).items = events.map .ok ++ reading.items := by
  simp [items, after]

@[simp] theorem Reading.after_nil (reading : Reading) : reading.after [] = reading := rfl

@[simp] theorem Reading.after_after (reading : Reading) (a b : List Event) :
    (reading.after b).after a = reading.after (a ++ b) := by
  simp [after]

/-- A reading is determined by what it yields. -/
theorem Reading.items_inj {a b : Reading} (h : a.items = b.items) : a = b := by
  obtain ⟨events, failure⟩ := a
  obtain ⟨events', failure'⟩ := b
  simp only [items] at h
  induction events generalizing events' with
  | nil => cases events' <;> cases failure <;> cases failure' <;> simp_all
  | cons event more ih =>
    cases events' with
    | nil => cases failure' <;> simp at h
    | cons event' more' =>
      simp only [List.map_cons, List.cons_append, List.cons.injEq, Except.ok.injEq] at h
      obtain ⟨rfl, h⟩ := h
      cases ih more' h
      rfl

namespace Source

variable {σ : Type} [Source σ] {source rest : σ}

/-- What holds of a source that ends or fails next, and of every other source if it holds of
it after its next event, holds of all sources. -/
theorem induction {P : σ → Prop}
    (event : ∀ ⦃source rest : σ⦄ ⦃event : Event⦄,
      next source = (some (.ok event), rest) → P rest → P source)
    (fault : ∀ ⦃source rest : σ⦄ ⦃fault : Fault⦄,
      next source = (some (.error fault), rest) → P source)
    (ended : ∀ ⦃source rest : σ⦄, next source = (none, rest) → P source)
    (source : σ) : P source := by
  generalize bound : size source = n
  induction n using Nat.strongRecOn generalizing source with
  | ind n ih =>
    rcases yields : next source with ⟨_ | (_ | e), rest⟩
    · exact ended yields
    · exact fault yields
    · exact event yields (ih (size rest) (bound ▸ shrinks yields) rest rfl)

theorem readFrom_of_event (done : Array Event) {event : Event}
    (h : next source = (some (.ok event), rest)) :
    readFrom done source = readFrom (done.push event) rest := by
  rw [readFrom]
  split <;> simp_all

theorem readFrom_of_fault (done : Array Event) {fault : Fault}
    (h : next source = (some (.error fault), rest)) :
    readFrom done source = ⟨done.toList, some fault⟩ := by
  rw [readFrom]
  split <;> simp_all

theorem readFrom_of_end (done : Array Event) (h : next source = (none, rest)) :
    readFrom done source = ⟨done.toList, none⟩ := by
  rw [readFrom]
  split <;> simp_all

/-- What was read before stands in front of what is read now. -/
theorem readFrom_eq (done : Array Event) (source : σ) :
    readFrom done source = (read source).after done.toList := by
  induction source using induction generalizing done with
  | event yields ih =>
    rw [read, readFrom_of_event _ yields, readFrom_of_event _ yields, ih (done.push _),
      ih (#[].push _)]
    simp [Reading.after]
  | fault yields =>
    rw [read, readFrom_of_fault _ yields, readFrom_of_fault _ yields]
    simp [Reading.after]
  | ended yields =>
    rw [read, readFrom_of_end _ yields, readFrom_of_end _ yields]
    simp [Reading.after]

theorem read_of_event {event : Event} (h : next source = (some (.ok event), rest)) :
    read source = (read rest).after [event] := by
  rw [read, readFrom_of_event _ h, readFrom_eq]
  rfl

theorem read_of_fault {fault : Fault} (h : next source = (some (.error fault), rest)) :
    read source = ⟨[], some fault⟩ :=
  readFrom_of_fault _ h

theorem read_of_end (h : next source = (none, rest)) : read source = ⟨[], none⟩ :=
  readFrom_of_end _ h

/-- What is read depends on the next step only. -/
theorem read_congr {other : σ} (same : next source = next other) : read source = read other := by
  rcases yields : next other with ⟨_ | (_ | _), rest⟩
  · rw [read_of_end (same.trans yields), read_of_end yields]
  · rw [read_of_fault (same.trans yields), read_of_fault yields]
  · rw [read_of_event (same.trans yields), read_of_event yields]

@[simp] theorem ask_succ (count : Nat) (source : σ) :
    ask (count + 1) source = ask count (next source).2 := rfl

/-- Once a source yields no event, it yields nothing however often it is asked. -/
theorem ask_of_stopped (h : next rest = (none, rest)) (count : Nat) : ask count rest = none := by
  induction count with
  | zero => rw [ask, h]
  | succ count ih => rw [ask_succ, h, ih]

/-- A source yields the items of its reading one by one, and nothing from then on. -/
theorem ask_eq (count : Nat) (source : σ) : ask count source = (read source).items[count]? := by
  induction source using induction generalizing count with
  | event yields ih =>
    rw [read_of_event yields]
    cases count with
    | zero => simp [ask, yields, Reading.items, Reading.after]
    | succ count =>
      rw [ask_succ, yields, ih]
      simp [Reading.items, Reading.after]
  | fault yields =>
    rw [read_of_fault yields]
    cases count with
    | zero => simp [ask, yields, Reading.items]
    | succ count =>
      rw [ask_succ, yields, ask_of_stopped (stops yields (by simp))]
      simp [Reading.items]
  | ended yields =>
    rw [read_of_end yields]
    cases count with
    | zero => simp [ask, yields, Reading.items]
    | succ count =>
      rw [ask_succ, yields, ask_of_stopped (stops yields (by simp))]
      simp [Reading.items]

/-- The answers of a source tell its reading. -/
theorem ask_eq_iff (source : σ) (reading : Reading) :
    (∀ count, ask count source = reading.items[count]?) ↔ read source = reading := by
  constructor
  · intro answers
    apply Reading.items_inj
    apply List.ext_getElem?
    intro count
    rw [← ask_eq, answers]
  · rintro rfl count
    exact ask_eq count source

/-- What is read behind events is what is yielded once they have been. -/
theorem ask_of_read_after {events : List Event} (reading : read source = (read rest).after events) :
    (∀ place (within : place < events.length), ask place source = some (.ok events[place])) ∧
      ∀ place, ask (events.length + place) source = ask place rest := by
  constructor
  · intro place within
    rw [ask_eq, reading, Reading.items_after, List.getElem?_append_left (by simpa using within)]
    simp [within]
  · intro place
    rw [ask_eq, ask_eq, reading, Reading.items_after, List.getElem?_append_right (by simp)]
    simp

/-- Two sources whose steps correspond yield corresponding items. -/
theorem ask_of_related {τ : Type} [Source τ] {R : σ → τ → Prop} {f : Item → Item}
    (step : ∀ ⦃source other⦄, R source other →
      (next source).1 = (next other).1.map f ∧ R (next source).2 (next other).2)
    {source : σ} {other : τ} (related : R source other) (place : Nat) :
    ask place source = (ask place other).map f := by
  induction place generalizing source other with
  | zero => exact (step related).1
  | succ place ih => exact ih (step related).2

end Source

end TraceTables
