import TraceTables.OutputFile
import TraceTables.Proofs.Faithful

/-!
# Output that arrives

What an output holds is what has arrived at its store and, behind it, what is still gathered.
Wherever the store accepts octets, the output is a sink that never fails (`faithful`), however
large the writes are and however they meet the end of the buffer, and closing it leaves in the
store all that it held.
-/

namespace TraceTables

namespace Store

/-- Whether the store takes all octets that it is handed. -/
def Accepts : Store → Prop
  | .file _ _ => True
  | .device which _ => which.refusal = none

/-- Where the store is. -/
def storage : Store → Directory.Storage
  | .file way _ => .file way
  | .device which _ => .device which

@[simp] theorem storage_ofStorage (storage : Directory.Storage) :
    (ofStorage storage).storage = storage := by
  cases storage <;> rfl

@[simp] theorem content_ofStorage (storage : Directory.Storage) :
    (ofStorage storage).content = .empty := by
  cases storage <;> rfl

theorem arrivedAt_of_storage {store : Store} {device : Device}
    (there : store.storage = .device device) : store.arrivedAt device = store.content := by
  cases store with
  | file way content => cases there
  | device which content =>
    cases there
    exact if_pos rfl

theorem save_of_storage {store : Store} {way : Way} (there : store.storage = .file way)
    (directory : Directory) : store.save directory = directory.put way (.file store.content) := by
  cases store with
  | device which content => cases there
  | file way content =>
    cases there
    rfl

/-- Octets that are handed to a store that accepts them arrive behind the others. -/
theorem append_of_accepts {store : Store} (accepts : store.Accepts) (bytes : ByteArray) :
    ∃ next, store.append bytes = .ok next ∧ next.Accepts ∧ next.storage = store.storage ∧
      next.content = store.content ++ bytes := by
  cases store with
  | file way content => exact ⟨_, rfl, trivial, rfl, rfl⟩
  | device which content =>
    rw [append, show which.refusal = none from accepts]
    exact ⟨_, rfl, accepts, rfl, rfl⟩

end Store

namespace OutputFile

/-- Whether the output goes to the given place and is accepted there. -/
def Arrives (place : Directory.Storage) (file : OutputFile) : Prop :=
  file.store.Accepts ∧ file.store.storage = place

/-- What has arrived and what is gathered. -/
def held (file : OutputFile) : ByteArray :=
  file.store.content ++ file.pending

variable {place : Directory.Storage} {file : OutputFile}

theorem drain_stores (arrives : file.Arrives place) :
    ∃ next, file.drain = (.ok (), next) ∧ next.pending = .empty ∧
      Sink.Grows (Arrives place) held file next .empty := by
  obtain ⟨accepts, there⟩ := arrives
  obtain ⟨store, appended, accepts', same, content⟩ :=
    Store.append_of_accepts accepts file.pending
  refine ⟨⟨store, .empty⟩, ?_, rfl, ⟨accepts', same.trans there⟩, ?_⟩
  · rw [drain, appended]
  · rw [held, held, content]

/-- Octets are kept, or handed on by themselves where nothing is pending that would have to go
before them. -/
theorem keep_stores (arrives : file.Arrives place) (bytes : ByteArray)
    (first : bytes.size < capacity ∨ file.pending = .empty) :
    ∃ next, file.keep bytes = (.ok (), next) ∧
      Sink.Grows (Arrives place) held file next bytes := by
  rw [keep]
  split
  · exact ⟨_, rfl, arrives, ByteArray.append_assoc.symm⟩
  · have nothing : file.pending = .empty := by
      rcases first with small | nothing
      · omega
      · exact nothing
    obtain ⟨accepts, there⟩ := arrives
    obtain ⟨store, appended, accepts', same, content⟩ := Store.append_of_accepts accepts bytes
    rw [appended]
    refine ⟨_, rfl, ⟨accepts', same.trans there⟩, ?_⟩
    simp only [held, content, nothing, ByteArray.append_empty]

theorem write_stores (arrives : file.Arrives place) (bytes : ByteArray) :
    ∃ next, file.write bytes = (.ok (), next) ∧
      Sink.Grows (Arrives place) held file next bytes := by
  rw [write]
  split
  · exact ⟨_, rfl, arrives, ByteArray.append_assoc.symm⟩
  split
  · rename_i fits
    apply keep_stores arrives bytes
    by_cases small : bytes.size < capacity
    · exact .inl small
    · -- Octets that fill the whole buffer fit only where nothing is pending.
      have nothing : file.pending.size = 0 := by
        rw [room] at fits
        have : 0 < capacity := by decide
        omega
      exact .inr (ByteArray.size_eq_zero_iff.1 nothing)
  · obtain ⟨next, drained, empty, grown⟩ := drain_stores arrives
    rw [drained]
    obtain ⟨last, kept, grown'⟩ := keep_stores grown.sound bytes (.inr empty)
    refine ⟨last, kept, ?_⟩
    simpa using grown.trans grown'

/-- An output whose store accepts octets never fails. -/
theorem faithful (place : Directory.Storage) : Sink.Faithful (Arrives place) held where
  write arrives bytes := write_stores arrives bytes
  flush arrives := by
    obtain ⟨next, drained, -, grown⟩ := drain_stores arrives
    exact ⟨next, drained, grown⟩

/-- Closing an output hands on all that it held. -/
theorem close_stores (arrives : file.Arrives place) :
    file.close.storage = place ∧ file.close.content = file.held := by
  obtain ⟨next, drained, empty, grown⟩ := drain_stores arrives
  rw [close, drained]
  refine ⟨grown.sound.2, ?_⟩
  have same := grown.held
  rw [held, empty, ByteArray.append_empty, ByteArray.append_empty] at same
  exact same

end OutputFile

end TraceTables
