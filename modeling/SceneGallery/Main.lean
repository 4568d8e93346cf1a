import SceneGallery.CommandLine.Run
set_option autoImplicit false

namespace SceneGallery.CommandLine

open Storage

/-- The path of a location on disk. -/
def diskPath (location : Location) : String :=
  "/" ++ String.intercalate "/" location

/-- A path on disk as an entry, by which its kind and its contents are asked for. -/
def diskEntry (location : Location) : IO.FS.DirEntry where
  root := diskPath location
  fileName := ""

/-- Whether the file at a location on disk cannot be opened for writing. Opening it in this way
changes nothing. -/
def isReadOnlyOnDisk (location : Location) : IO Bool := do
  try
    let _ ← IO.FS.Handle.mk (diskPath location) .readWrite
    return false
  catch _ => return true

/-- What is at a location on disk. The bytes of a file are read only on request. -/
def nodeOnDisk (location : Location) (withBytes : Bool) : IO (Option Node) := do
  try
    match (← (diskEntry location).root.metadata).type with
    | .dir => return some .directory
    | .file =>
      let bytes ← if withBytes then IO.FS.readBinFile (diskPath location) else pure .empty
      return some (.file bytes (← isReadOnlyOnDisk location))
    | _ => return none
  catch _ => return none

/-- Adds what is at a location on disk, unless it was added before. -/
def look (tree : FileTree) (location : Location) (withBytes : Bool) : IO FileTree := do
  if (tree.lookup location).isSome then return tree
  match ← nodeOnDisk location withBytes with
  | some node => return tree.put location node
  | none => return tree

/-- Adds what is on the way along some names. -/
def lookAlong (tree : FileTree) (location : Location) (withBytes : Bool) :
    List String → IO FileTree
  | [] => return tree
  | "." :: rest => lookAlong tree location withBytes rest
  | ".." :: rest => lookAlong tree location.dropLast withBytes rest
  | name :: rest => do
    let place := location ++ [name]
    lookAlong (← look tree place withBytes) place withBytes rest

/-- Adds what is on the way to a path. -/
def lookAt (tree : FileTree) (path : String) (withBytes : Bool) : IO FileTree :=
  lookAlong tree (tree.start path) withBytes (Path.names path)

/-- Adds a file and the files next to it that are written under longer names. -/
def lookBeside (tree : FileTree) (path : String) : IO FileTree := do
  let tree ← lookAt tree path true
  lookAt (← lookAt tree (Gallery.backupPath path) true) (checkedPath path) true

/-- Whether a file can hold an event, by its name. -/
def isEventName (name : String) : Bool :=
  "CommonEvent".toList.isPrefixOf name.toList

/-- Adds a directory and what it holds itself, with the bytes of its events. -/
def lookInto (tree : FileTree) (path : String) : IO FileTree := do
  let tree ← lookAt tree path false
  match tree.resolve path with
  | .error _ => return tree
  | .ok location =>
    let inside ← try (diskEntry location).root.readDir catch _ => pure #[]
    inside.foldlM (fun tree entry =>
      look tree (location ++ [entry.fileName]) (isEventName entry.fileName)) tree

/-- The names of the pictures that could continue those that a text shows. -/
def continuingPictures (text : String) : List String :=
  (Text.lines text).filterMap fun line =>
    (Event.pictureName? (Text.trim line.toList)).bind Event.nextPictureName?

/-- Adds the pictures in a directory that could continue those of the events. -/
def lookForPictures (tree : FileTree) (directory : String) : IO FileTree := do
  let names := tree.entries.flatMap fun
    | (_, .file content _) => ((String.fromUTF8? content).map continuingPictures).getD []
    | (_, .directory) => []
  names.foldlM (fun tree name => lookAt tree (Path.join directory (name ++ ".png")) false) tree

/-- The files that a command can touch. -/
def filesFor (command : Command) : IO FileTree := do
  let directory ← IO.currentDir
  let here := Path.names directory.toString
  let tree ← lookAt ⟨here, []⟩ directory.toString false
  match command with
  | .usage => return tree
  | .check filename => lookBeside tree filename
  | .convert options =>
    let tree ← lookInto (← lookBeside tree options.library) options.events
    match options.settings.pictures with
    | some path => lookForPictures tree path
    | none => return tree

/-- Writes the files that are not as they were before. -/
def store (before after : FileTree) : IO Unit := do
  for (location, node) in after.entries do
    match node with
    | .file content readOnly =>
      if before.lookup location ≠ some node then
        IO.FS.writeBinFile (diskPath location) content
        if readOnly then
          IO.setAccessRights (diskPath location) { user := { read := true } }
    | .directory => pure ()

end SceneGallery.CommandLine

open SceneGallery.CommandLine

/-- Runs the program. -/
def main (arguments : List String) : IO UInt32 := do
  match Request.ofArguments arguments with
  | none =>
    IO.eprint usageText
    return 2
  | some request =>
    let before ← filesFor request.command
    let transcript := request.command.run before
    store before transcript.tree
    IO.eprint (transcript.shownText request.verbose)
    IO.print transcript.output
    return UInt32.ofNat transcript.exit
