import SceneGallery.Gallery.Loading
set_option autoImplicit false

namespace SceneGallery.Gallery

open Storage

/-- The path of a file's copy. -/
def backupPath (filename : String) : String :=
  filename ++ ".bak"

/-- What came of making a copy, and the files afterwards. -/
structure BackupRun where
  /-- The path of the copy, if one was made. -/
  result : Except FileProblem (Option String)
  tree : FileTree
  notices : List Notice

/-- Makes a copy of a file unless there is one. -/
def backup (tree : FileTree) (filename : String) : BackupRun :=
  let path := backupPath filename
  if tree.hasPath path then ⟨.ok none, tree, [.debug ("Backup " ++ path ++ " already exists")]⟩
  else
    match tree.copy filename path with
    | .ok copied => ⟨.ok (some path), copied, [.info ("Backed up " ++ filename ++ " to " ++ path)]⟩
    | .error fault => ⟨.error ⟨"Failed making backup", fault.kindText, filename⟩, tree, []⟩

end SceneGallery.Gallery
