import SceneGallery.Gallery.Summary
import SceneGallery.Proofs.Gallery.Filename
import SceneGallery.Proofs.Storage.Writes
set_option autoImplicit false

namespace SceneGallery.Gallery

open Storage

theorem readText_of_load {tree : FileTree} {path source : String}
    (loaded : load tree path = .ok source) : tree.readText path = .ok source := by
  rw [load] at loaded
  cases read : tree.readText path with
  | error fault =>
      rw [read] at loaded
      cases loaded
  | ok text =>
      rw [read] at loaded
      rw [Except.ok.inj loaded]

theorem readBytes_of_readText {tree : FileTree} {path source : String}
    (text : tree.readText path = .ok source) : ∃ content, tree.readBytes path = .ok content := by
  rw [FileTree.readText] at text
  cases read : tree.readBytes path with
  | error fault =>
      rw [read] at text
      cases text
  | ok content => exact ⟨content, rfl⟩

theorem readBytes_of_load {tree : FileTree} {path source : String}
    (loaded : load tree path = .ok source) : ∃ content, tree.readBytes path = .ok content :=
  readBytes_of_readText (readText_of_load loaded)

theorem hasPath_of_load {tree : FileTree} {path source : String}
    (loaded : load tree path = .ok source) : tree.hasPath path = true := by
  obtain ⟨content, read⟩ := readBytes_of_load loaded
  exact FileTree.hasPath_of_readBytes read

theorem load_congr {tree other : FileTree} {path : String}
    (same : other.readBytes path = tree.readBytes path) : load other path = load tree path := by
  rw [load, load, FileTree.readText_congr same]

/-- The path of a converted event. -/
def convertedPath (path : String) (id : UInt32) : String :=
  Path.join (Path.parent path) (eventFilename id)

theorem join_eventFilename (path : String) (id : UInt32) :
    Path.join (Path.parent path) (eventFilename id) = convertedPath path id := rfl

/-- The descriptor of an event that is converted next. -/
def nextDescriptor (counter : Counter) (path : String) (conversion : Event.Conversion) :
    Descriptor :=
  ⟨counter.next, conversion.linkage, convertedPath path counter.next⟩

/-- The event in a file, and what it is converted to. -/
structure Converts (settings : Settings) (tree : FileTree) (path source : String)
    (conversion : Event.Conversion) : Prop where
  loaded : load tree path = .ok source
  long : shortestScene ≤ (Text.lines source).length
  converted : Event.convert (resourcesIn settings tree (Path.parent path)) (Text.lines source) =
    .ok conversion

theorem Converts.unique {settings : Settings} {tree : FileTree} {path source other : String}
    {conversion another : Event.Conversion}
    (converts : Converts settings tree path source conversion)
    (again : Converts settings tree path other another) :
    other = source ∧ another = conversion := by
  obtain rfl : other = source := Except.ok.inj (again.loaded.symm.trans converts.loaded)
  exact ⟨rfl, Except.ok.inj (again.converted.symm.trans converts.converted)⟩

/-- How the conversion of a file can end: its result, and the files and the counter afterwards. -/
inductive Ends (settings : Settings) (tree : FileTree) (counter : Counter) (path : String) :
    Except FileError Outcome → FileTree → Counter → Prop
  | unreadable {problem : FileProblem} (unloaded : load tree path = .error problem) :
      Ends settings tree counter path (.error (.unreadable problem)) tree counter
  | short {source : String} (loaded : load tree path = .ok source)
      (short : (Text.lines source).length < shortestScene) :
      Ends settings tree counter path (.ok .notApplicable) tree counter
  | failed {source : String} {error : Event.Error} (loaded : load tree path = .ok source)
      (long : shortestScene ≤ (Text.lines source).length)
      (failed : Event.convert (resourcesIn settings tree (Path.parent path)) (Text.lines source) =
        .error error) :
      Ends settings tree counter path (.error (.event error)) tree counter
  | kept {source : String} {conversion : Event.Conversion}
      (converts : Converts settings tree path source conversion)
      (there : tree.hasPath (convertedPath path counter.next) = true)
      (keep : settings.overwrite = false) :
      Ends settings tree counter path (.ok (.kept (nextDescriptor counter path conversion))) tree
        counter.advance
  | unwritable {source : String} {conversion : Event.Conversion} {fault : Fault}
      (converts : Converts settings tree path source conversion)
      (free : (tree.hasPath (convertedPath path counter.next) && !settings.overwrite) = false)
      (refused : tree.write (convertedPath path counter.next)
        (convertedText source conversion counter.next).toUTF8 = .error fault) :
      Ends settings tree counter path
        (.error (.unwritable (convertedPath path counter.next) fault.describe)) tree counter.advance
  | written {source : String} {conversion : Event.Conversion} {after : FileTree}
      (converts : Converts settings tree path source conversion)
      (free : (tree.hasPath (convertedPath path counter.next) && !settings.overwrite) = false)
      (written : tree.write (convertedPath path counter.next)
        (convertedText source conversion counter.next).toUTF8 = .ok after) :
      Ends settings tree counter path (.ok (.written (nextDescriptor counter path conversion)))
        after counter.advance

/-- The converted event that a result is about. -/
def descriptorOf? : Except FileError Outcome → Option Descriptor
  | .ok outcome => outcome.descriptor?
  | .error _ => none

section Ends

variable {settings : Settings} {tree : FileTree} {counter : Counter} {path : String}

/-- The conversion of a file ends in one of these ways. -/
theorem convertFile_ends (settings : Settings) (tree : FileTree) (counter : Counter)
    (path : String) :
    Ends settings tree counter path (convertFile settings tree counter path).result
      (convertFile settings tree counter path).tree
      (convertFile settings tree counter path).counter := by
  rw [convertFile]
  cases loaded : load tree path with
  | error problem => exact .unreadable loaded
  | ok source =>
      simp only
      by_cases short : (Text.lines source).length < shortestScene
      · rw [if_pos short]
        exact .short loaded short
      · rw [if_neg short]
        have long := Nat.le_of_not_lt short
        cases converted : (Event.attempt (resourcesIn settings tree (Path.parent path))
          (Text.lines source)).result with
        | error error => exact .failed loaded long converted
        | ok conversion =>
            have converts : Converts settings tree path source conversion :=
              ⟨loaded, long, converted⟩
            simp only [writeConverted, join_eventFilename]
            by_cases there : (tree.hasPath (convertedPath path counter.next) &&
                !settings.overwrite) = true
            · obtain ⟨found, keep⟩ := Bool.and_eq_true_iff.mp there
              simp only [there, ↓reduceIte]
              exact .kept converts found (by simpa using keep)
            · have free := Bool.eq_false_iff.mpr there
              simp only [free, Bool.false_eq_true, ↓reduceIte]
              cases written : tree.write (convertedPath path counter.next)
                (convertedText source conversion counter.next).toUTF8 with
              | error fault => exact .unwritable converts free written
              | ok after => exact .written converts free written

/-- There is only one way in which the conversion of a file ends. -/
theorem Ends.run_eq {result : Except FileError Outcome} {after : FileTree} {used : Counter}
    (ends : Ends settings tree counter path result after used) :
    (convertFile settings tree counter path).result = result ∧
      (convertFile settings tree counter path).tree = after ∧
      (convertFile settings tree counter path).counter = used := by
  have converted {source : String} {conversion : Event.Conversion}
      (converts : Converts settings tree path source conversion) :
      ∃ told, convertFile settings tree counter path =
        { writeConverted settings tree counter path source conversion with notices := told } := by
    have attempted := converts.converted
    rw [Event.convert] at attempted
    simp only [convertFile, converts.loaded, if_neg (Nat.not_lt.mpr converts.long), attempted]
    exact ⟨_, rfl⟩
  cases ends with
  | unreadable unloaded => simp only [convertFile, unloaded, and_self]
  | short loaded short => simp only [convertFile, loaded, if_pos short, and_self]
  | failed loaded long failed =>
      rw [Event.convert] at failed
      simp only [convertFile, loaded, if_neg (Nat.not_lt.mpr long), failed, and_self]
  | kept converts there keep =>
      obtain ⟨told, same⟩ := converted converts
      rw [same]
      simp only [writeConverted, join_eventFilename, there, keep, Bool.not_false, Bool.and_self,
        ↓reduceIte, nextDescriptor, and_self]
  | unwritable converts free refused =>
      obtain ⟨told, same⟩ := converted converts
      rw [same]
      simp only [writeConverted, join_eventFilename, free, Bool.false_eq_true, ↓reduceIte, refused,
        and_self]
  | written converts free written =>
      obtain ⟨told, same⟩ := converted converts
      rw [same]
      simp only [writeConverted, join_eventFilename, free, Bool.false_eq_true, ↓reduceIte, written,
        nextDescriptor, and_self]

/-- What comes of a converted event: its file was there already, or it is written. -/
theorem Ends.converted {result : Except FileError Outcome} {after : FileTree} {used : Counter}
    (ends : Ends settings tree counter path result after used) {descriptor : Descriptor}
    (made : descriptorOf? result = some descriptor) :
    ∃ source conversion, Converts settings tree path source conversion ∧
      descriptor = nextDescriptor counter path conversion ∧
      ((tree.hasPath descriptor.path = true ∧ settings.overwrite = false ∧ after = tree) ∨
        ((tree.hasPath descriptor.path && !settings.overwrite) = false ∧
          tree.write descriptor.path (convertedText source conversion descriptor.derived).toUTF8 =
            .ok after)) := by
  cases ends with
  | kept converts there keep =>
      cases made
      exact ⟨_, _, converts, rfl, .inl ⟨there, keep, rfl⟩⟩
  | written converts free written =>
      cases made
      exact ⟨_, _, converts, rfl, .inr ⟨free, written⟩⟩
  | _ => cases made

/-- A conversion writes only the event that it has converted. -/
theorem Ends.unchanged {result : Except FileError Outcome} {after : FileTree} {used : Counter}
    (ends : Ends settings tree counter path result after used)
    (unmade : descriptorOf? result = none) : after = tree := by
  cases ends with
  | written => cases unmade
  | _ => rfl

theorem isFilePath_convertedPath (path : String) (id : UInt32) :
    FileTree.IsFilePath (convertedPath path id) (Path.names (Path.parent path))
      (eventFilename id) :=
  FileTree.isFilePath_join (isName_eventFilename id) _

end Ends

/-- The state of things between two files. -/
structure Stage where
  tree : FileTree
  counter : Counter

/-- The summary with one more result. -/
def Summary.add (summary : Summary) : Except FileError Outcome → Summary
  | .ok outcome => summary.record outcome
  | .error _ => summary.recordFailure

namespace Stage

/-- What comes of one file. -/
def result (settings : Settings) (stage : Stage) (path : String) : Except FileError Outcome :=
  (convertFile settings stage.tree stage.counter path).result

/-- The state of things after one more file. -/
def next (settings : Settings) (stage : Stage) (path : String) : Stage where
  tree := (convertFile settings stage.tree stage.counter path).tree
  counter := (convertFile settings stage.tree stage.counter path).counter

/-- The state of things after some files. -/
def after (settings : Settings) (stage : Stage) (paths : List String) : Stage :=
  paths.foldl (next settings) stage

/-- What comes of some files, in order. -/
def results (settings : Settings) : Stage → List String → List (Except FileError Outcome)
  | _, [] => []
  | stage, path :: rest =>
    stage.result settings path :: (stage.next settings path).results settings rest

@[simp] theorem length_results (settings : Settings) (stage : Stage) (paths : List String) :
    (stage.results settings paths).length = paths.length := by
  induction paths generalizing stage with
  | nil => rfl
  | cons path rest ih => rw [results, List.length_cons, ih, List.length_cons]

theorem ends (settings : Settings) (stage : Stage) (path : String) :
    Ends settings stage.tree stage.counter path (stage.result settings path)
      (stage.next settings path).tree (stage.next settings path).counter :=
  convertFile_ends settings stage.tree stage.counter path

end Stage

end SceneGallery.Gallery
