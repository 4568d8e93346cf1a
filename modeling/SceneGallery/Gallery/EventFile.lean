import SceneGallery.Descriptor
import SceneGallery.Event.Conversion
import SceneGallery.Gallery.Loading
import SceneGallery.Text.Lines
set_option autoImplicit false

namespace SceneGallery.Gallery

open Storage

/-- How events are converted. -/
structure Settings where
  /-- The directory with the pictures, if they are to be looked at. -/
  pictures : Option String
  /-- Whether a converted event that is there already is written again. -/
  overwrite : Bool
deriving DecidableEq, Repr

/-- What came of one file. -/
inductive Outcome where
  | written (descriptor : Descriptor)
  /-- A file was there already and was left alone. -/
  | kept (descriptor : Descriptor)
  /-- The event is too short for a scene. -/
  | notApplicable
deriving DecidableEq, Repr

/-- The converted event of an outcome. -/
def Outcome.descriptor? : Outcome → Option Descriptor
  | .written descriptor => some descriptor
  | .kept descriptor => some descriptor
  | .notApplicable => none

/-- Why nothing came of one file. -/
inductive FileError where
  | unreadable (problem : FileProblem)
  | unwritable (path details : String)
  | event (error : Event.Error)
deriving DecidableEq, Repr

namespace FileError

/-- The line where the problem was found, if there is one. -/
def line? : FileError → Option Nat
  | .event error => error.line?
  | _ => none

/-- The problem in a sentence. -/
def message : FileError → String
  | .unreadable problem => problem.describe
  | .unwritable path details => "failed writing '" ++ path ++ "': " ++ details
  | .event error => error.message

/-- The problem with the number of its line, counted from one. -/
def describe (error : FileError) : String :=
  match error with
  | .event error => error.describe
  | error => error.message

end FileError

/-- The smallest number of lines of an event that is a scene. -/
def shortestScene : Nat := 23

/-- What can be looked at while an event in a directory is converted. -/
def resourcesIn (settings : Settings) (tree : FileTree) (directory : String) : Event.Resources where
  event := fun id =>
    (tree.readText (Path.join directory (eventFilename id))).toOption.map Text.lines
  pictures := settings.pictures.map fun place name =>
    tree.hasPath (Path.join place (name ++ ".png"))

/-- What is told about the file of a defeat event: the fault, if it cannot be read. -/
def defeatNotices (tree : FileTree) (directory : String) : Event.Remark → List Notice
  | .linked linkage _ =>
    let path := Path.join directory (eventFilename linkage)
    match tree.readText path with
    | .ok _ => []
    | .error fault => [.debug ("Unable to read " ++ path ++ ": " ++ fault.describe)]
  | .continued _ => []

/-- What is told about a conversion. -/
def attemptNotices (tree : FileTree) (directory : String) (attempt : Event.Attempt) : List Notice :=
  attempt.remarks.flatMap fun remark => defeatNotices tree directory remark ++ [remark.notice]

/-- The text of a converted event: separated as the lines of its source, and terminated. -/
def convertedText (source : String) (conversion : Event.Conversion) (id : UInt32) : String :=
  { Text.layoutOf source with terminated := true : Text.Layout }.join (conversion.render id)

/-- What came of one file, and the state of things afterwards. -/
structure FileRun where
  result : Except FileError Outcome
  tree : FileTree
  counter : Counter
  notices : List Notice

/-- Writes a converted event next to its source under the next number. -/
def writeConverted (settings : Settings) (tree : FileTree) (counter : Counter)
    (path source : String) (conversion : Event.Conversion) : FileRun :=
  let derived := counter.next
  let target := Path.join (Path.parent path) (eventFilename derived)
  let descriptor : Descriptor := ⟨derived, conversion.linkage, target⟩
  if tree.hasPath target && !settings.overwrite then
    ⟨.ok (.kept descriptor), tree, counter.advance,
      [.debug (target ++ " already exists, not overwriting")]⟩
  else
    match tree.write target (convertedText source conversion derived).toUTF8 with
    | .error fault => ⟨.error (.unwritable target fault.describe), tree, counter.advance, []⟩
    | .ok tree =>
      ⟨.ok (.written descriptor), tree, counter.advance,
        [.debug ("Wrote " ++ target ++ " from " ++ path ++ ", linked to " ++
          toString conversion.linkage.toNat)]⟩

/-- Converts the event in a file. -/
def convertFile (settings : Settings) (tree : FileTree) (counter : Counter) (path : String) :
    FileRun :=
  match load tree path with
  | .error problem => ⟨.error (.unreadable problem), tree, counter, loadNotices tree path⟩
  | .ok source =>
    let lines := Text.lines source
    if lines.length < shortestScene then
      ⟨.ok .notApplicable, tree, counter,
        [.debug (path ++ " has only " ++ toString lines.length ++ " lines, not a scene")]⟩
    else
      let directory := Path.parent path
      let attempt := Event.attempt (resourcesIn settings tree directory) lines
      let told := attemptNotices tree directory attempt
      match attempt.result with
      | .error error => ⟨.error (.event error), tree, counter, told⟩
      | .ok conversion =>
        let run := writeConverted settings tree counter path source conversion
        { run with notices := told ++ run.notices }

end SceneGallery.Gallery
