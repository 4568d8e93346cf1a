import SceneGallery.Notice
import SceneGallery.Storage.Tree
set_option autoImplicit false

namespace SceneGallery.Gallery

open Storage

/-- What is wrong with a file. -/
structure FileProblem where
  /-- The problem in a few words. -/
  problem : String
  /-- More about it, if there is more to say. -/
  details : String
  filename : String
deriving DecidableEq, Repr

/-- The problem in one line. -/
def FileProblem.describe (problem : FileProblem) : String :=
  if problem.details.isEmpty then problem.problem ++ ": " ++ problem.filename
  else problem.problem ++ ": " ++ problem.filename ++ ": " ++ problem.details

/-- What is wrong with a file that cannot be read. -/
def FileProblem.ofReading (filename : String) : Fault → FileProblem
  | .notFound => ⟨"File not found", "", filename⟩
  | fault => ⟨"Failed reading", fault.kindText, filename⟩

/-- The text of a file. -/
def load (tree : FileTree) (filename : String) : Except FileProblem String :=
  (tree.readText filename).mapError (.ofReading filename)

/-- What is told when a file is loaded: the fault, if there is one. -/
def loadNotices (tree : FileTree) (filename : String) : List Notice :=
  match tree.readText filename with
  | .ok _ => []
  | .error fault => [.quantity "error" fault.shown]

end SceneGallery.Gallery
