import TraceTables.OutputFile

/-!
# Paths in a directory that changes

A path leads through folders and links and through nothing else. Two directories with the same
folders and links lead every path the same way (`follow_of_keeps`), and opening, filling or
closing an output changes only what is found at the end of its own way. So an input that is not
the output is read as it was before the output was opened (`openInput_of_found`), and the path of
an output file leads to what has been stored (`content?_of_openOutput`).
-/

namespace TraceTables

/-- Whether a path can lead on behind a node. -/
def Node.leadsOn : Node → Bool
  | .folder | .link .. => true
  | .file _ | .kept .. | .device _ | .refused _ => false

namespace Directory

/-- The way to what a path names, whether there is something or not. -/
def wayTo? (directory : Directory) (path : String) : Option Way :=
  match directory.locate path with
  | .ok (.last folder name _ _) => some (folder.child name)
  | .ok .folder | .error _ => none

/-- Whether the folders and links of one directory are those of another, too. -/
structure Keeps (before after : Directory) : Prop where
  location : after.location = before.location
  find? {way : Way} {node : Node} :
    before.find? way = some node → node.leadsOn = true → after.find? way = some node

variable {before after : Directory} {way folder : Way} {node : Node} {path name : String}
  {links : Nat}

theorem Keeps.refl (directory : Directory) : Keeps directory directory where
  location := rfl
  find? found _ := found

theorem Keeps.trans {last : Directory} (one : Keeps before after) (two : Keeps after last) :
    Keeps before last where
  location := two.location.trans one.location
  find? found leadsOn := two.find? (one.find? found leadsOn) leadsOn

/-- What is put where no path leads on does not lead paths elsewhere. -/
theorem keeps_put (other : ∀ found, before.find? way = some found → found.leadsOn = false) :
    Keeps before (before.put way node) where
  location := rfl
  find? {at_ found} present leadsOn := by
    have elsewhere : at_ ≠ way := by
      rintro rfl
      rw [other found present] at leadsOn
      cases leadsOn
    rw [find?_put_of_ne before elsewhere, present]

/-- What has been put does not lead paths elsewhere if none leads on behind it. -/
theorem put_keeps (other : node.leadsOn = false) : Keeps (before.put way node) before where
  location := rfl
  find? {at_ found} present leadsOn := by
    have elsewhere : at_ ≠ way := by
      rintro rfl
      rw [find?_put] at present
      cases present
      rw [other] at leadsOn
      cases leadsOn
    rw [← find?_put_of_ne before elsewhere node, present]

section Follow

theorem find?_of_reach {found : Option Node} (reached : before.reach links way = .ok found) :
    before.find? way = found := by
  rw [reach] at reached
  split at reached
  · split at reached
    · cases reached
    · cases reached
      assumption
  · cases reached
    rfl

theorem find?_of_entered {found : Option Node}
    (entered : before.entry? links folder name = .ok found) :
    isTooLong folder name = false ∧ before.find? (folder.child name) = found := by
  unfold entry? at entered
  split at entered
  · cases entered
  · rename_i short
    exact ⟨eq_false_of_ne_true short, find?_of_reach entered⟩

theorem enters_congr (same : after.find? (folder.child name) = before.find? (folder.child name)) :
    after.entry? links folder name = before.entry? links folder name := by
  unfold entry? reach
  rw [same]

/-- What leads on is entered in both directories alike. -/
theorem Keeps.enters (keeps : Keeps before after)
    (entered : before.entry? links folder name = .ok (some node)) (leadsOn : node.leadsOn = true) :
    after.entry? links folder name = .ok (some node) := by
  have present := (find?_of_entered entered).2
  rw [enters_congr ((keeps.find? present leadsOn).trans present.symm), entered]

/-- A path that can be followed leads the same way where the folders and links are kept. -/
theorem follow_of_keeps (keeps : Keeps before after) {slash : Bool} {names : List String}
    {destination : Destination}
    (followed : before.follow slash links way names = .ok destination) :
    after.follow slash links way names = .ok destination := by
  induction names generalizing links way with
  | nil => exact followed
  | cons name more ih =>
    rw [follow] at followed ⊢
    split at followed
    · rw [if_pos ‹_›]
      exact ih followed
    rw [if_neg ‹_›]
    split at followed
    · rw [if_pos ‹_›]
      exact ih followed
    rw [if_neg ‹_›]
    split at followed
    · rw [if_pos ‹_›]
      exact followed
    rw [if_neg ‹_›]
    split at followed
    · cases followed
    · rw [keeps.enters ‹_› rfl]
      exact ih followed
    · rw [keeps.enters ‹_› rfl]
      exact ih followed
    · cases followed
    · cases followed

/-- A path that can be followed names the same place where the folders and links are kept. -/
theorem locate_of_keeps (keeps : Keeps before after) {destination : Destination}
    (located : before.locate path = .ok destination) :
    after.locate path = .ok destination := by
  rw [locate] at located ⊢
  split at located
  · cases located
  rw [if_neg ‹_›]
  split at located
  · cases located
  rw [if_neg ‹_›]
  split at located
  · cases located
  rw [if_neg ‹_›]
  rw [startOf, keeps.location]
  exact follow_of_keeps keeps located

/-- A path that can be followed leads to the same way where the folders and links are kept. -/
theorem wayTo?_of_keeps (keeps : Keeps before after) (there : before.wayTo? path = some way) :
    after.wayTo? path = some way := by
  rw [wayTo?] at there
  split at there
  · rename_i located
    rw [wayTo?, locate_of_keeps keeps located]
    exact there
  · cases there
  · cases there

/-- An input is opened in both directories alike if it is the same in both. -/
theorem openInput_of_keeps (keeps : Keeps before after) {input : Input}
    (same : ∀ way, before.wayTo? path = some way → after.find? way = before.find? way)
    (opened : before.openInput path = .ok input) : after.openInput path = .ok input := by
  rw [openInput] at opened ⊢
  split at opened
  · cases opened
  · rename_i located
    rw [locate_of_keeps keeps located]
    exact opened
  · rename_i folder name slash links located
    have there : before.wayTo? path = some (folder.child name) := by
      rw [wayTo?, located]
    rw [locate_of_keeps keeps located]
    simp only [enters_congr (same _ there)]
    exact opened

end Follow

section Output

variable {made : Directory}

/-- An output is opened at the last name of a path, where there is nothing, a file or a device. -/
theorem exists_of_openOutput {storage : Storage}
    (opened : before.openOutput path = .ok (storage, made)) :
    ∃ folder name links, before.locate path = .ok (.last folder name false links) ∧
      isTooLong folder name = false ∧
      ((∃ device, storage = .device device ∧ made = before) ∨
        ((∀ found, before.find? (folder.child name) = some found → found.leadsOn = false) ∧
          storage = .file (folder.child name) ∧
          made = before.put (folder.child name) (.file .empty))) := by
  rw [openOutput] at opened
  split at opened
  · cases opened
  · cases opened
  rename_i folder name slash links located
  split at opened
  · cases opened
  rename_i noSlash
  obtain rfl : slash = false := by simpa using noSlash
  refine ⟨folder, name, links, located, ?_⟩
  split at opened
  · cases opened
  · cases opened
  · cases opened
  · cases opened
  · cases opened
  · rename_i device entered
    cases opened
    obtain ⟨short, -⟩ := find?_of_entered entered
    exact ⟨short, .inl ⟨device, rfl, rfl⟩⟩
  · rename_i bytes entered
    cases opened
    obtain ⟨short, present⟩ := find?_of_entered entered
    exact ⟨short, .inr ⟨by simp [present, Node.leadsOn], rfl, rfl⟩⟩
  · rename_i entered
    obtain ⟨short, absent⟩ := find?_of_entered entered
    split at opened
    · cases opened
    · cases opened
      exact ⟨short, .inr ⟨by simp [absent], rfl, rfl⟩⟩

/-- The path of an output file leads to what has been stored there. -/
theorem content?_of_openOutput (opened : before.openOutput path = .ok (.file way, made))
    (bytes : ByteArray) : (made.put way (.file bytes)).content? path = some bytes := by
  obtain ⟨folder, name, links, located, short, stored⟩ := exists_of_openOutput opened
  rcases stored with ⟨device, other, -⟩ | ⟨former, same, rfl⟩
  · cases other
  cases same
  have keeps : Keeps before ((before.put (folder.child name) (.file .empty)).put
      (folder.child name) (.file bytes)) := by
    apply (keeps_put (former)).trans (keeps_put _)
    intro found present
    rw [find?_put] at present
    cases present
    rfl
  have opened' : Directory.openInput ((before.put (folder.child name) (.file .empty)).put
      (folder.child name) (.file bytes)) path = .ok ⟨bytes, none⟩ := by
    rw [openInput, locate_of_keeps keeps located]
    unfold entry?
    simp [short, reach]
  rw [content?, opened']

end Output

end Directory

namespace OutputFile

open Directory

/-- The ways on which what has been opened for the output is found. -/
def ways (out : OutputFile) : List Way :=
  match out.store with
  | .file way _ => [way, Surroundings.firstOpened]
  | .device .standardOutput _ => []
  | .device _ _ => [Surroundings.firstOpened]

variable {directory made : Directory} {out : OutputFile} {path : String}

theorem found_eq (out : OutputFile) (made : Directory) :
    out.found made = made ∨
      Surroundings.firstOpened ∈ out.ways ∧ ∃ node : Node, node.leadsOn = false ∧
        out.found made = made.put Surroundings.firstOpened node := by
  obtain ⟨⟨way, content⟩ | ⟨device, content⟩, pending⟩ := out
  · exact .inr ⟨by simp [ways], _, rfl, rfl⟩
  · cases device
    case standardOutput => exact .inl rfl
    all_goals exact .inr ⟨by simp [ways], _, rfl, rfl⟩

/-- What has been opened for the output leads no path elsewhere. -/
theorem found_keeps_made (out : OutputFile) (made : Directory) : Keeps (out.found made) made := by
  rcases found_eq out made with unchanged | ⟨-, node, noFolder, put⟩
  · rw [unchanged]
    exact .refl made
  · rw [put]
    exact put_keeps noFolder

theorem openOutput_of_create (opened : create directory path = .ok (out, made)) :
    ∃ storage, directory.openOutput path = .ok (storage, made) ∧
      out = ⟨.ofStorage storage, .empty⟩ := by
  rw [create] at opened
  cases storing : directory.openOutput path with
  | error fault =>
    rw [storing] at opened
    cases opened
  | ok stored =>
    rw [storing] at opened
    cases opened
    exact ⟨stored.1, rfl, rfl⟩

/-- Creating an output changes nothing but what is found on the ways of the output, and leads no
path elsewhere. -/
theorem create_keeps (opened : create directory path = .ok (out, made)) :
    Keeps made directory ∧ ∀ way ∉ out.ways, directory.find? way = made.find? way := by
  obtain ⟨storage, storing, rfl⟩ := openOutput_of_create opened
  obtain ⟨folder, name, links, -, -, stored⟩ := exists_of_openOutput storing
  rcases stored with ⟨device, rfl, rfl⟩ | ⟨former, rfl, rfl⟩
  · exact ⟨.refl _, fun _ _ => rfl⟩
  · refine ⟨put_keeps rfl, ?_⟩
    intro way apart
    rw [find?_put_of_ne]
    rintro rfl
    exact apart List.mem_cons_self

/-- So does opening it. -/
theorem found_keeps (opened : create directory path = .ok (out, made)) :
    Keeps (out.found made) directory ∧
      ∀ way ∉ out.ways, directory.find? way = (out.found made).find? way := by
  obtain ⟨keeps, same⟩ := create_keeps opened
  refine ⟨(found_keeps_made out made).trans keeps, ?_⟩
  intro way apart
  rcases found_eq out made with unchanged | ⟨inWays, node, -, put⟩
  · rw [unchanged, same way apart]
  · have elsewhere : way ≠ Surroundings.firstOpened := by
      rintro rfl
      exact apart inWays
    rw [put, find?_put_of_ne made elsewhere, same way apart]

/-- An input other than the output is the same before the output is opened. -/
theorem openInput_of_found (opened : create directory path = .ok (out, made)) {input : Input}
    {source : String}
    (apart : ∀ way ∈ out.ways, (out.found made).wayTo? source ≠ some way)
    (found : (out.found made).openInput source = .ok input) :
    directory.openInput source = .ok input := by
  obtain ⟨keeps, same⟩ := found_keeps opened
  refine openInput_of_keeps keeps ?_ found
  intro way there
  apply same
  intro inWays
  exact apart way inWays there

end OutputFile

end TraceTables
