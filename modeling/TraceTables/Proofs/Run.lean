import TraceTables.Proofs.Binary.Stream
import TraceTables.Proofs.Json.Recording
import TraceTables.Proofs.Output
import TraceTables.Proofs.Paths
import TraceTables.Proofs.Rendition
import TraceTables.Run

/-!
# A run is a conversion

A run that finds its input and its output does nothing but convert the one into the other. What
comes before settles which input, which output and which options these are. What comes after
hands on what has been written and reports whether the conversion succeeded.

`Task` is such a run. It is followed from the command line to the conversion (`ended_eq`), and
what it leaves is compared with a conversion in memory (`output_eq`). That the conversion starts
from the same items whichever way they were recorded is a property of the two encodings
(`items_of_records`).
-/

namespace TraceTables

/-- From the record of events that fit, these events are read, whatever the encoding. -/
theorem Encoding.read_record (encoding : Encoding) {events : List Event}
    (fit : ∀ event ∈ events, Binary.Fits event) :
    encoding.read ⟨(encoding.record events).bytes, none⟩ = ⟨events, none⟩ := by
  cases encoding with
  | json =>
    rw [read, JsonLines.read, JsonLines.Source.start,
      JsonLines.lines_of_joined (record_json events).2]
    exact JsonLines.read_lines events 0
  | bincode =>
    rw [read, BinaryStream.read, BinaryStream.Source.read_eq_iff rfl rfl]
    refine ⟨fit, ?_⟩
    rw [record_bincode fit]
    rfl

/-- The output that a target stands for, opened in a directory, and the directory then. -/
def OutputFile.ofTarget (directory : Directory) :
    Target → Except DeviceFault (OutputFile × Directory)
  | .standardOutput => .ok (standardOutput, directory)
  | .file path => create directory path

/-- What a target stands for has been there before or has been created. -/
theorem OutputFile.create_of_ofTarget {directory made : Directory} {target : Target}
    {out : OutputFile} (opened : ofTarget directory target = .ok (out, made)) :
    (target = .standardOutput ∧ out = standardOutput ∧ made = directory) ∨
      ∃ path, target = .file path ∧ create directory path = .ok (out, made) := by
  cases target with
  | standardOutput =>
    cases opened
    exact .inl ⟨rfl, rfl, rfl⟩
  | file path => exact .inr ⟨path, rfl, opened⟩

/-- An output holds nothing when it has been opened. -/
theorem OutputFile.held_of_ofTarget {directory made : Directory} {target : Target}
    {out : OutputFile} (opened : ofTarget directory target = .ok (out, made)) :
    out.held = .empty := by
  rcases create_of_ofTarget opened with ⟨-, out, -⟩ | ⟨path, -, created⟩
  · rw [out]
    rfl
  · obtain ⟨storage, -, out⟩ := openOutput_of_create created
    rw [out, held, Store.content_ofStorage, ByteArray.append_empty]

/-- An output in a file has been opened at the path of the target. -/
theorem OutputFile.openOutput_of_ofTarget {directory made : Directory} {target : Target}
    {out : OutputFile} {way : Way} (opened : ofTarget directory target = .ok (out, made))
    (file : out.store.storage = .file way) :
    ∃ path, target = .file path ∧ directory.openOutput path = .ok (.file way, made) := by
  rcases create_of_ofTarget opened with ⟨-, out, -⟩ | ⟨path, target, created⟩
  · rw [out] at file
    cases file
  · obtain ⟨storage, storing, out⟩ := openOutput_of_create created
    rw [out, Store.storage_ofStorage] at file
    rw [file] at storing
    exact ⟨path, target, storing⟩

/-- A run that gets as far as converting: its command line is taken, its output can be opened, and
then its input, which is not the output. -/
structure Task where
  directory : Directory
  invocation : Invocation
  arguments : CommandLine.Arguments
  config : Config
  /-- The output when it has been opened. -/
  out : OutputFile
  /-- The directory when the output has been opened. -/
  made : Directory
  input : Input
  parsed : CommandLine.parse invocation.arguments = .ok arguments
  configured : Config.ofArguments arguments = .ok config
  opened : OutputFile.ofTarget directory config.output = .ok (out, made)
  found : (out.found made).openInput config.input = .ok input
  apart : ∀ way ∈ out.ways, (out.found made).wayTo? config.input ≠ some way

/-- An input that has been opened is converted, and a fault of the conversion is that of the
run. -/
theorem Run.convertInput_eq (config : Config) (input : Input) (out : OutputFile)
    (directory : Directory) :
    let conversion := convert config.options out
      ((config.format.resolve config.input).read input).items
    ∃ fault messages,
      convertInput config input out directory =
        ⟨fault, messages, some conversion.out.close, conversion.out.close.save directory⟩ ∧
      (fault = none ↔ ∃ summary, conversion.result = .ok summary) := by
  intro conversion
  rw [convertInput]
  cases conversion.result with
  | ok summary => exact ⟨none, _, rfl, by simp⟩
  | error fault => exact ⟨some (config.input ++ ": " ++ fault.chain), _, rfl, by simp⟩

/-- Once the output is open, a run goes on with it. -/
theorem Run.withConfig_of_ofTarget {config : Config} {directory made : Directory}
    {out : OutputFile} (opened : OutputFile.ofTarget directory config.output = .ok (out, made)) :
    ∃ messages, withConfig config directory =
      { withOutput config out made with messages := messages } := by
  rw [withConfig]
  rcases OutputFile.create_of_ofTarget opened with ⟨target, rfl, rfl⟩ | ⟨path, target, created⟩
  · rw [target]
    exact ⟨_, rfl⟩
  · simp only [target, created]
    exact ⟨_, rfl⟩

namespace Task

variable (task : Task)

/-- The encoding in which the input is read. -/
def encoding : Encoding := task.config.format.resolve task.config.input

/-- What the input is read as. -/
def items : List Item := (task.encoding.read task.input).items

/-- What the run leaves. -/
def outcome : Outcome := run task.directory task.invocation

/-- The conversion that the run makes. -/
def conversion : Conversion OutputFile := convert task.config.options task.out task.items

/-- Whether what is written is found in a file or on the standard output afterwards. -/
def IsStored : Prop :=
  task.out.store.storage = .device .standardOutput ∨ ∃ way, task.out.store.storage = .file way

/-- What the output holds after the run, if that can be found. -/
def output : Option ByteArray :=
  match task.out.store.storage, task.config.output with
  | .device .standardOutput, _ => some task.outcome.printed
  | .file _, .file path => task.outcome.directory.content? path
  | _, _ => none

/-- Whether the input is a recording of events. -/
def Records (events : List Event) : Prop :=
  task.input = ⟨(task.encoding.write events Buffer.unlimited).2.written, none⟩

/-- Once the output is open, the run goes on with it. -/
theorem withConfig_eq :
    ∃ messages, Run.withConfig task.config task.directory =
      { Run.withOutput task.config task.out task.made with messages := messages } :=
  Run.withConfig_of_ofTarget task.opened

/-- The run converts, closes the output, and is at fault if the conversion is. -/
theorem ended_eq :
    ∃ fault messages,
      Run.withArguments task.arguments task.directory =
        ⟨fault, messages, some task.conversion.out.close,
          task.conversion.out.close.save task.made⟩ ∧
      (fault = none ↔ ∃ summary, task.conversion.result = .ok summary) := by
  obtain ⟨messages, ended⟩ := task.withConfig_eq
  rw [Run.withArguments, task.configured]
  simp only [ended, Run.withOutput, task.found]
  obtain ⟨fault, _, converted, sound⟩ :=
    Run.convertInput_eq task.config task.input task.out task.made
  refine ⟨fault, messages, ?_, sound⟩
  rw [converted]
  rfl

theorem success_iff :
    task.outcome.success = true ↔ ∃ summary, task.conversion.result = .ok summary := by
  obtain ⟨fault, messages, ended, sound⟩ := task.ended_eq
  rw [← sound, outcome, run, task.parsed]
  simp only [ended]
  exact Option.isNone_iff_eq_none

theorem directory_eq : task.outcome.directory = task.conversion.out.close.save task.made := by
  obtain ⟨fault, messages, ended, -⟩ := task.ended_eq
  rw [outcome, run, task.parsed]
  simp only [ended]

theorem printed_eq :
    task.outcome.printed = task.conversion.out.close.arrivedAt .standardOutput := by
  obtain ⟨fault, messages, ended, -⟩ := task.ended_eq
  rw [outcome, run, task.parsed]
  simp only [ended]
  rfl

/-- Where the output is accepted, the run converts as a conversion in memory does, and the same
octets arrive. -/
theorem conversion_eq (accepts : task.out.store.Accepts) :
    task.conversion.result = (convert task.config.options Buffer.unlimited task.items).result ∧
      task.conversion.out.close.storage = task.out.store.storage ∧
      task.conversion.out.close.content =
        (convert task.config.options Buffer.unlimited task.items).out.written := by
  obtain ⟨result, grown⟩ := convert_faithful (OutputFile.faithful task.out.store.storage)
    ⟨accepts, rfl⟩ task.config.options task.items
  obtain ⟨result', grown'⟩ := convert_faithful Buffer.faithful
    (show Buffer.unlimited.Unlimited from ⟨rfl, rfl⟩) task.config.options task.items
  obtain ⟨there, arrived⟩ := OutputFile.close_stores grown.sound
  refine ⟨result.trans result'.symm, there, ?_⟩
  rw [grown'.held]
  exact arrived.trans (by rw [grown.held, OutputFile.held_of_ofTarget task.opened]; rfl)

theorem accepts_of_isStored (stored : task.IsStored) : task.out.store.Accepts := by
  cases store : task.out.store with
  | file way content => exact trivial
  | device which content =>
    obtain rfl : which = .standardOutput := by simpa [IsStored, store, Store.storage] using stored
    rfl

/-- An output that can be looked at afterwards holds what a conversion in memory writes. -/
theorem output_eq (stored : task.IsStored) :
    task.output = some (convert task.config.options Buffer.unlimited task.items).out.written := by
  obtain ⟨-, there, content⟩ := task.conversion_eq (task.accepts_of_isStored stored)
  rcases stored with printed | ⟨way, file⟩
  · rw [output, printed]
    simp only
    rw [task.printed_eq, Store.arrivedAt_of_storage (there.trans printed), content]
  · obtain ⟨path, target, storing⟩ := OutputFile.openOutput_of_ofTarget task.opened file
    rw [output, file, target]
    simp only
    rw [task.directory_eq, Store.save_of_storage (there.trans file),
      Directory.content?_of_openOutput storing, content]

/-- What the run reads is what the directory held before. -/
theorem openInput_eq : task.directory.openInput task.config.input = .ok task.input := by
  have found := task.found
  rcases OutputFile.create_of_ofTarget task.opened with ⟨-, out, made⟩ | ⟨path, -, created⟩
  · rw [out, made] at found
    exact found
  · exact OutputFile.openInput_of_found created task.apart found

/-- From a recording of events that fit, in either encoding, these events are read. -/
theorem items_of_records {events : List Event} (records : task.Records events)
    (fit : ∀ event ∈ events, Binary.Fits event) : task.items = events.map .ok := by
  obtain ⟨next, written, grown⟩ := Encoding.write_faithful Buffer.faithful task.encoding events
    (show Buffer.unlimited.Unlimited from ⟨rfl, rfl⟩)
  have stored : next.written = (task.encoding.record events).bytes :=
    grown.held.trans ByteArray.empty_append
  rw [items, show task.input = _ from records, written, stored, Encoding.read_record _ fit,
    Reading.items_events]

/-- A run over recorded events does what a conversion of the events in memory does. -/
theorem output_of_records {events : List Event} (fit : ∀ event ∈ events, Binary.Fits event)
    (stored : task.IsStored) (records : task.Records events) :
    (task.outcome.success = true ↔
        ∃ summary,
          (convert task.config.options Buffer.unlimited (events.map .ok)).result = .ok summary) ∧
      task.output =
        some (convert task.config.options Buffer.unlimited (events.map .ok)).out.written := by
  obtain ⟨result, -, -⟩ := task.conversion_eq (task.accepts_of_isStored stored)
  rw [← task.items_of_records records fit]
  exact ⟨by rw [task.success_iff, result], task.output_eq stored⟩

/-- A run succeeds exactly if its conversion does, and an output that can be looked at holds what a
conversion in memory writes. So a run over recorded events does what a conversion of the events
does, and the same in whichever encoding they were recorded. -/
theorem run_converts :
    task.directory.openInput task.config.input = .ok task.input ∧
      (task.outcome.success = true ↔ ∃ summary, task.conversion.result = .ok summary) ∧
      (task.out.store.Accepts → task.conversion.result =
        (convert task.config.options Buffer.unlimited task.items).result) ∧
      (task.IsStored → task.output =
        some (convert task.config.options Buffer.unlimited task.items).out.written) ∧
      ∀ events : List Event, (∀ event ∈ events, Binary.Fits event) →
        task.IsStored → task.Records events →
        let direct := convert task.config.options Buffer.unlimited (events.map .ok)
        (task.outcome.success = true ↔ ∃ summary, direct.result = .ok summary) ∧
          task.output = some direct.out.written ∧
          ∀ other : Task, other.config.options = task.config.options →
            other.IsStored → other.Records events →
            other.outcome.success = task.outcome.success ∧ other.output = task.output := by
  refine ⟨task.openInput_eq, task.success_iff, fun accepts => (task.conversion_eq accepts).1,
    task.output_eq, ?_⟩
  intro events fit stored records direct
  obtain ⟨success, output⟩ := task.output_of_records fit stored records
  refine ⟨success, output, ?_⟩
  intro other same stored' records'
  obtain ⟨success', output'⟩ := other.output_of_records fit stored' records'
  rw [same] at success' output'
  exact ⟨Bool.eq_iff_iff.2 (success'.trans success.symm), output'.trans output.symm⟩

/-- The same events, the last of which reports an error, as lines that go to a file and in binary
on their way to the standard output. -/
theorem run_converts_twice :
    let events : List Event := [.tableBegin .keyValue "t", .error "x"]
    let recorded (encoding : Encoding) := (encoding.write events Buffer.unlimited).2.written
    let directory : Directory :=
      ⟨⟨["w"]⟩, [(⟨["w", "a.json"]⟩, .file (recorded .json)),
        (⟨["w", "b"]⟩, .file (recorded .bincode))]⟩
    (∀ event ∈ events, Binary.Fits event) ∧
      ∃ lines binary : Task,
        lines.directory = directory ∧ lines.invocation.arguments = ["a.json", "-oc"] ∧
        lines.encoding = .json ∧ lines.Records events ∧
        binary.directory = directory ∧ binary.invocation.arguments = ["b"] ∧
        binary.encoding = .bincode ∧ binary.Records events ∧
        lines.outcome.success = false ∧ lines.output = some "\"t\"\n".toUTF8 ∧
        binary.outcome.success = false ∧ binary.output = some "\"t\"\n".toUTF8 := by
  intro events recorded directory
  have fit : ∀ event ∈ events, Binary.Fits event := by decide
  refine ⟨fit, ?_⟩
  let lines : Task :=
    { directory := directory
      invocation := ⟨"trace2csv", ["a.json", "-oc"], none⟩
      arguments := ⟨["a.json"], some "c", ",", [], [], false, .auto, 0⟩
      config := ⟨"a.json", .auto, .file "c", ⟨",", .all, false⟩⟩
      out := ⟨.file ⟨["w", "c"]⟩ .empty, .empty⟩
      made := directory.put ⟨["w", "c"]⟩ (.file .empty)
      input := ⟨recorded .json, none⟩
      parsed := by cbv
      configured := by cbv
      opened := by rfl
      found := by rfl
      apart := by decide }
  let binary : Task :=
    { directory := directory
      invocation := ⟨"trace2csv", ["b"], none⟩
      arguments := ⟨["b"], none, ",", [], [], false, .auto, 0⟩
      config := ⟨"b", .auto, .standardOutput, ⟨",", .all, false⟩⟩
      out := .standardOutput
      made := directory
      input := ⟨recorded .bincode, none⟩
      parsed := by cbv
      configured := by cbv
      opened := by rfl
      found := by rfl
      apart := by decide }
  have linesStored : lines.IsStored := .inr ⟨_, rfl⟩
  have binaryStored : binary.IsStored := .inl rfl
  have linesEncoding : lines.encoding = .json := by cbv
  have binaryEncoding : binary.encoding = .bincode := by cbv
  have linesRecords : lines.Records events := by
    rw [Records, linesEncoding]
  have binaryRecords : binary.Records events := by
    rw [Records, binaryEncoding]
  obtain ⟨-, -, -, -, recordings⟩ := lines.run_converts
  obtain ⟨success, output, both⟩ := recordings events fit linesStored linesRecords
  obtain ⟨success', output'⟩ := both binary rfl binaryStored binaryRecords
  have fails : (convert lines.config.options Buffer.unlimited (events.map .ok)).result =
      .error (.decode "x") := by cbv
  have written : (convert lines.config.options Buffer.unlimited (events.map .ok)).out.written =
      "\"t\"\n".toUTF8 := by cbv
  have failed : lines.outcome.success = false := by
    rw [fails] at success
    simpa using success
  rw [written] at output
  exact ⟨lines, binary, rfl, rfl, linesEncoding, linesRecords, rfl, rfl, binaryEncoding,
    binaryRecords, failed, output, success'.trans failed, output'.trans output⟩

end Task

end TraceTables
