import SceneGallery.Descriptor
import SceneGallery.Gallery.Loading
set_option autoImplicit false

namespace SceneGallery.Gallery

open Storage

/-- The temptation events that are no scenes. -/
def exceptions : List UInt32 :=
  [2000, 2079, 2080, 2081, 2088, 2089, 2090, 2091, 2092, 2159, 2160, 2242, 2243, 2269, 2270, 2271,
    2322, 2323, 2354, 2355, 2356, 2357, 2359, 2360, 2516, 2517, 2531, 2532, 2533, 2535, 2538, 2539,
    2957, 2958]

/-- The number of bytes in the name of a temptation event's file. -/
def shortestName : Nat := 19

/-- Whether a name is that of a temptation event's file. A name over two lines is not. -/
def isCandidate (name : String) : Bool :=
  shortestName ≤ name.utf8ByteSize &&
    "CommonEvent2".toList.isPrefixOf name.toList &&
    ".txt".toList.isSuffixOf name.toList &&
    !name.toList.contains '\n' &&
    !exceptions.any fun id => eventFilename id == name

/-- The paths of the events to convert in a directory, in ascending order. A name does not count if
its path is too long to be that of a file. -/
def discover (tree : FileTree) (directory : String) : Except FileProblem (List String) :=
  match tree.namesIn directory with
  | .error fault => .error ⟨"Failed listing events", fault.kindText, directory⟩
  | .ok names =>
    let found := names.filter fun name =>
      tree.isFile (Path.join directory name) && isCandidate name
    .ok (found.map (Path.join directory))

/-- What is told when events are looked for. -/
def discoveryNotices (tree : FileTree) (directory : String) : List Notice :=
  match discover tree directory with
  | .error _ => []
  | .ok files =>
    [.debug ("Found " ++ toString files.length ++ " events in " ++ directory)]

end SceneGallery.Gallery
