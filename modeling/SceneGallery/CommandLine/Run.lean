import SceneGallery.CommandLine.Arguments
import SceneGallery.CommandLine.Transcript
import SceneGallery.Gallery.Backup
import SceneGallery.Gallery.Discovery
import SceneGallery.Gallery.Report
import SceneGallery.Gallery.Summary
import SceneGallery.Library.Reader
import SceneGallery.Library.Writer
import SceneGallery.Text.Quoted
set_option autoImplicit false

namespace SceneGallery.CommandLine

open Storage Gallery

/-- Notices as they are shown. -/
def showNotices (notices : List Notice) : List Shown :=
  notices.map .notice

/-- The settings as a value. -/
def shownSettings (settings : Settings) : String :=
  let pictures := match settings.pictures with
    | none => "None"
    | some path => "Some(" ++ Text.quote path ++ ")"
  "Options \x7b pictures: " ++ pictures ++ ", overwrite: " ++ toString settings.overwrite ++ " \x7d"

/-- The state of things between two events. -/
structure EventsRun where
  tree : FileTree
  counter : Counter
  summary : Summary
  descriptors : List Descriptor
  shown : List Shown

/-- Converts the event in one more file. -/
def EventsRun.next (settings : Settings) (run : EventsRun) (path : String) : EventsRun :=
  let file := convertFile settings run.tree run.counter path
  let shown := run.shown ++ showNotices file.notices
  match file.result with
  | .ok outcome =>
    ⟨file.tree, file.counter, run.summary.record outcome,
      run.descriptors ++ outcome.descriptor?.toList, shown⟩
  | .error error =>
    let source := (load file.tree path).toOption.getD ""
    ⟨file.tree, file.counter, run.summary.recordFailure, run.descriptors,
      shown ++ showNotices (loadNotices file.tree path) ++
        [.message (Report.full error path source)]⟩

/-- Converts the events in files, in order. -/
def runEvents (settings : Settings) (tree : FileTree) (paths : List String) : EventsRun :=
  paths.foldl (EventsRun.next settings) ⟨tree, .initial, {}, [], []⟩

/-- What became of the scene library. -/
structure LibraryRun where
  /-- The placements, or nothing if the run has to end. -/
  placements : Option (List Library.Placement)
  tree : FileTree
  shown : List Shown

/-- What is shown about a fault that keeps a file from being written. -/
def writeFaultMessage (path : String) (fault : Fault) : Shown :=
  .message (Report.errorIn path ++ " " ++ Report.bold fault.describe)

/-- Writes a library with new scenes, after a copy of it was made. -/
def saveLibrary (tree : FileTree) (path : String) (library : Library)
    (placements : List Library.Placement) : LibraryRun :=
  let copied := backup tree path
  let shown := showNotices copied.notices
  match copied.result with
  | .error problem => ⟨none, copied.tree, shown ++ [.message (Report.conciseFile problem)]⟩
  | .ok _ =>
    match copied.tree.write path library.serialize.toUTF8 with
    | .error fault => ⟨none, copied.tree, shown ++ [writeFaultMessage path fault]⟩
    | .ok tree => ⟨some placements, tree, shown ++ [.notice (.info ("Updated " ++ path))]⟩

/-- Places converted events in a library that was read from a file. -/
def placeEvents (tree : FileTree) (path : String) (library : Library)
    (descriptors : List Descriptor) : LibraryRun :=
  let (merged, placements) := library.merge descriptors
  let told := showNotices (Library.mergeNotices descriptors placements) ++
    (placements.zip descriptors).filterMap fun (placement, descriptor) =>
      (Report.placement? placement descriptor).map .message
  if placements.any fun placement => placement.isInserted then
    let run := saveLibrary tree path merged placements
    { run with shown := told ++ run.shown }
  else
    ⟨some placements, tree,
      told ++ [.notice (.info ("No new scenes; " ++ path ++ " left unchanged"))]⟩

/-- Adds converted events to the scene library in a file. -/
def updateLibrary (tree : FileTree) (path : String) (descriptors : List Descriptor) : LibraryRun :=
  match load tree path with
  | .error problem =>
    ⟨none, tree,
      showNotices (loadNotices tree path) ++ [.message (Report.conciseFile problem)]⟩
  | .ok content =>
    let told := showNotices (Library.notices content)
    match Library.parse content with
    | .error error =>
      ⟨none, tree, told ++ [.message (Report.fullLibrary error path content)]⟩
    | .ok library =>
      let run := placeEvents tree path library descriptors
      { run with shown := told ++ run.shown }

/-- Converts all events and adds them to the scene library. -/
def runConvert (options : ConvertOptions) (tree : FileTree) : Transcript :=
  let start := [Shown.notice (.quantity "options" (shownSettings options.settings))] ++
    showNotices (discoveryNotices tree options.events)
  match discover tree options.events with
  | .error problem => ⟨1, "", start ++ [.message (Report.conciseFile problem)], tree⟩
  | .ok paths =>
    let begun := .notice (.info ("Converting " ++ toString paths.length ++ " events from " ++
      options.events))
    let events := runEvents options.settings tree paths
    let shown := start ++ [begun] ++ events.shown
    if options.skipLibrary then ⟨0, events.summary.text, shown, events.tree⟩
    else
      let library := updateLibrary events.tree options.library events.descriptors
      let shown := shown ++ library.shown
      match library.placements with
      | none => ⟨1, "", shown, library.tree⟩
      | some placements =>
        ⟨0, (events.summary.recordPlacements placements).text, shown, library.tree⟩

/-- The path of the file that a check writes. -/
def checkedPath (filename : String) : String :=
  filename ++ ".test"

/-- Checks that a scene library is written as it was read. -/
def runCheck (filename : String) (tree : FileTree) : Transcript :=
  match load tree filename with
  | .error problem =>
    ⟨1, "", showNotices (loadNotices tree filename) ++ [.message (Report.conciseFile problem)],
      tree⟩
  | .ok content =>
    let told := showNotices (Library.notices content)
    match Library.parse content with
    | .error error => ⟨1, "", told ++ [.message (Report.fullLibrary error filename content)], tree⟩
    | .ok library =>
      let result := library.serialize
      let path := checkedPath filename
      match tree.write path result.toUTF8 with
      | .error fault => ⟨1, "", told ++ [writeFaultMessage path fault], tree⟩
      | .ok tree =>
        if result = content then
          ⟨0, path ++ " is identical to " ++ filename ++ "\n", told, tree⟩
        else
          ⟨1, Report.yellow "warning" ++ ": " ++ path ++ " differs from " ++ filename ++ "\n", told,
            tree⟩

/-- How the program is used. -/
def usageText : String :=
  "usage: paradox [COMMAND] ...\nTry '--help' for more information.\n"

/-- Runs a command on the files. -/
def Command.run (command : Command) (tree : FileTree) : Transcript :=
  match command with
  | .usage => ⟨0, usageText, [], tree⟩
  | .convert options => runConvert options tree
  | .check filename => runCheck filename tree

end SceneGallery.CommandLine
