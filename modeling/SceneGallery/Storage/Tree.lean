import SceneGallery.Storage.Fault
import SceneGallery.Storage.Path
set_option autoImplicit false

/- Files and directories as a value. Every operation takes a path, finds out where it leads, and
gives either its result or the fault that stands in its way; an operation that fails changes
nothing. -/
namespace SceneGallery.Storage

/-- Where something is: the names on the way from the root. -/
abbrev Location := List String

/-- What can be at a location. A file that is read-only can be read, but not written. -/
inductive Node where
  | file (content : ByteArray) (readOnly : Bool := false)
  | directory

instance : DecidableEq Node
  | .file content readOnly, .file other flag =>
    match content.instDecidableEq other, instDecidableEqBool readOnly flag with
    | isTrue same, isTrue alike => isTrue (same ▸ alike ▸ rfl)
    | isFalse different, _ => isFalse fun equal => different (Node.file.inj equal).1
    | isTrue _, isFalse different => isFalse fun equal => different (Node.file.inj equal).2
  | .directory, .directory => isTrue rfl
  | .file _ _, .directory => isFalse Node.noConfusion
  | .directory, .file _ _ => isFalse Node.noConfusion

namespace Node

def isFile : Node → Bool
  | .file _ _ => true
  | .directory => false

/-- Whether a file can be written over a node. -/
def isWritable : Node → Bool
  | .file _ readOnly => !readOnly
  | .directory => false

end Node

/-- Files and directories, and the directory that relative paths lead from. -/
structure FileTree where
  here : Location
  /-- What is at each location other than the root. -/
  entries : List (Location × Node)
deriving DecidableEq

/-- The largest number of bytes in a name. -/
def longestName : Nat := 255

/-- The largest number of bytes in a path. -/
def longestPath : Nat := 4095

/-- The entries with a node put at a location. -/
def putEntry (location : Location) (node : Node) :
    List (Location × Node) → List (Location × Node)
  | [] => [(location, node)]
  | (other, old) :: rest =>
    if location = other then (location, node) :: rest
    else (other, old) :: putEntry location node rest

namespace FileTree

/-- What is at a location. The root is always a directory. -/
def lookup (tree : FileTree) (location : Location) : Option Node :=
  if location = [] then some .directory else tree.entries.lookup location

/-- The tree with a node put at a location. -/
def put (tree : FileTree) (location : Location) (node : Node) : FileTree :=
  { tree with entries := putEntry location node tree.entries }

/-- The tree without what is at a location. -/
def erase (tree : FileTree) (location : Location) : FileTree :=
  { tree with entries := tree.entries.filter fun entry => entry.1 != location }

/-- Follows names from a directory. -/
def follow (tree : FileTree) (location : Location) : List String → Except Fault Location
  | [] => .ok location
  | name :: rest =>
    if name = "." then tree.follow location rest
    else if name = ".." then tree.follow location.dropLast rest
    else if longestName < name.utf8ByteSize then .error .nameTooLong
    else
      match tree.lookup (location ++ [name]) with
      | none => .error .notFound
      | some .directory => tree.follow (location ++ [name]) rest
      | some (.file _ _) =>
        if rest.isEmpty then .ok (location ++ [name]) else .error .notDirectory

/-- The directory that a path leads from. -/
def start (tree : FileTree) (path : String) : Location :=
  if Path.isAbsolute path then [] else tree.here

/-- What is wrong with a path wherever it leads. -/
def pathFault? (path : String) : Option Fault :=
  if path.toList.contains '\x00' then some .badPath
  else if path.isEmpty then some .notFound
  else if longestPath < path.utf8ByteSize then some .nameTooLong
  else none

/-- Where a path leads. -/
def resolve (tree : FileTree) (path : String) : Except Fault Location :=
  match pathFault? path with
  | some fault => .error fault
  | none =>
    tree.follow (tree.start path)
      (Path.names path ++ if Path.endsWithSlash path then ["."] else [])

/-- Whether something is at a path. -/
def hasPath (tree : FileTree) (path : String) : Bool :=
  (tree.resolve path).toBool

/-- Whether a file is at a path. -/
def isFile (tree : FileTree) (path : String) : Bool :=
  match tree.resolve path with
  | .ok location => (tree.lookup location).any Node.isFile
  | .error _ => false

/-- The bytes of the file at a path. -/
def readBytes (tree : FileTree) (path : String) : Except Fault ByteArray := do
  match tree.lookup (← tree.resolve path) with
  | some (.file content _) => .ok content
  | some .directory => .error .isDirectory
  | none => .error .notFound

/-- The text of the file at a path. -/
def readText (tree : FileTree) (path : String) : Except Fault String := do
  match String.fromUTF8? (← tree.readBytes path) with
  | some text => .ok text
  | none => .error .notText

/-- The location at which a file can be written under a name in a directory. -/
def targetIn (tree : FileTree) (directory : Location) (name : String) : Except Fault Location :=
  if longestName < name.utf8ByteSize then .error .nameTooLong
  else
    match tree.lookup (directory ++ [name]) with
    | some .directory => .error .isDirectory
    | some (.file _ true) => .error .denied
    | _ => .ok (directory ++ [name])

/-- The location at which a file can be written under a path. Its directory has to be there. -/
def target (tree : FileTree) (path : String) : Except Fault Location :=
  match pathFault? path with
  | some fault => .error fault
  | none =>
    match (Path.names path).getLast? with
    | none => .error .isDirectory
    | some name => do
      let directory ← tree.follow (tree.start path) ((Path.names path).dropLast ++ ["."])
      if name = "." ∨ name = ".." ∨ Path.endsWithSlash path then .error .isDirectory
      else tree.targetIn directory name

/-- Writes a file, and says whether it is read-only from then on. -/
def write (tree : FileTree) (path : String) (content : ByteArray) (readOnly : Bool := false) :
    Except Fault FileTree := do
  return tree.put (← tree.target path) (.file content readOnly)

/-- Copies a file. The copy of a read-only file is read-only. -/
def copy (tree : FileTree) (source path : String) : Except Fault FileTree := do
  match tree.lookup (← tree.resolve source) with
  | some (.file content readOnly) => tree.write path content readOnly
  | some .directory => .error .notFile
  | none => .error .notFound

/-- The names in the directory at a path, in ascending order. -/
def namesIn (tree : FileTree) (path : String) : Except Fault (List String) := do
  let location ← tree.resolve path
  match tree.lookup location with
  | some (.file _ _) => .error .notDirectory
  | _ =>
    let inside := tree.entries.filterMap fun (place, _) =>
      if place.dropLast = location then place.getLast? else none
    return inside.mergeSort fun a b => decide (a ≤ b)

/-- The tree with directories of the given names, each inside the one before it. -/
def makeBelow (tree : FileTree) (location : Location) : List String → FileTree
  | [] => tree
  | name :: rest =>
    let place := location ++ [name]
    (if (tree.lookup place).isSome then tree else tree.put place .directory).makeBelow place rest

/-- The tree with a directory at a location, and the directories that lead to it. -/
def makeDirectory (tree : FileTree) (location : Location) : FileTree :=
  tree.makeBelow [] location

/-- The tree with a file at a location, and the directories that lead to it. -/
def makeFile (tree : FileTree) (location : Location) (content : ByteArray) : FileTree :=
  (tree.makeDirectory location.dropLast).put location (.file content)

/-- Whether a directory holds nothing. -/
def isBare (tree : FileTree) (location : Location) : Bool :=
  tree.entries.all fun (place, _) => place.isEmpty || place.dropLast != location

/-- The files below the working directory with their bytes, and the directories in which nothing
is, whose paths end in a slash; in ascending order of paths. -/
def inventory (tree : FileTree) : List (String × Option ByteArray) :=
  let below := tree.entries.filterMap fun (place, node) =>
    if tree.here.isPrefixOf place && place != tree.here then
      let path := String.intercalate "/" (place.drop tree.here.length)
      match node with
      | .file content _ => some (path, some content)
      | .directory => if tree.isBare place then some (path ++ "/", none) else none
    else none
  (if tree.isBare tree.here then [("/", none)] else below).mergeSort fun a b => decide (a.1 ≤ b.1)

theorem lookup_putEntry (location other : Location) (node : Node)
    (entries : List (Location × Node)) :
    (putEntry location node entries).lookup other =
      if other = location then some node else entries.lookup other := by
  have hcons (place : Location) (old : Node) (rest : List (Location × Node)) :
      List.lookup other ((place, old) :: rest) =
        if other = place then some old else rest.lookup other := by
    by_cases h : other = place
    · simp [h]
    · simp [List.lookup_cons, beq_false_of_ne h, h]
  induction entries with
  | nil => rw [putEntry, hcons]
  | cons entry rest ih =>
      obtain ⟨place, old⟩ := entry
      rw [putEntry, hcons]
      by_cases hplace : location = place
      · subst hplace
        rw [if_pos rfl, hcons]
        by_cases h : other = location <;> simp [h]
      · rw [if_neg hplace, hcons, ih]
        by_cases h : other = place
        · subst h
          simp [Ne.symm hplace]
        · simp [h]

/-- What is put at a location is found there, and nothing else changes. -/
theorem lookup_put (tree : FileTree) (location other : Location) (node : Node)
    (h : location ≠ []) :
    (tree.put location node).lookup other =
      if other = location then some node else tree.lookup other := by
  unfold lookup put
  by_cases hroot : other = []
  · simp [hroot, Ne.symm h]
  · simp [hroot, lookup_putEntry]

@[simp] theorem put_here (tree : FileTree) (location : Location) (node : Node) :
    (tree.put location node).here = tree.here := rfl

end FileTree

end SceneGallery.Storage
