import SceneGallery.Event.Command
import SceneGallery.Event.Output
set_option autoImplicit false

namespace SceneGallery.Event

/-- One branch of a block of choices. -/
structure Branch where
  exits : Bool
  /-- The lines that show something. -/
  kept : List OutputLine
deriving DecidableEq, Repr

/-- The branches so far, the newest first and the newest line of each first, after one more line of
the block. Lines before the first branch belong to none. -/
def noteLine (branches : List Branch) (numbered : String × Nat) : List Branch :=
  let (line, position) := numbered
  if (Text.trim line.toList).isEmpty then branches
  else if isWhen line then ⟨false, []⟩ :: branches
  else if isExit line then branches.modifyHead fun branch => { branch with exits := true }
  else if isShown line then
    branches.modifyHead fun branch => { branch with kept := .copy position line :: branch.kept }
  else branches

/-- The branches of the lines between the two ends of a block of choices. -/
def branchesOf (position : Nat) (block : List String) : List Branch :=
  (((block.zipIdx position).foldl noteLine []).map fun branch =>
    { branch with kept := branch.kept.reverse }).reverse

end SceneGallery.Event
