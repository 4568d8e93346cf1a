import SceneGallery.Text.Blank
set_option autoImplicit false

namespace SceneGallery.Event

/-- Why an event cannot be converted. Lines are counted from zero. -/
inductive Error where
  /-- The line that names the defeat event does not give its number. -/
  | missingLinkage (line : Nat) (text : String)
  /-- The event that the line names is no defeat event. -/
  | linkageBelowFloor (line : Nat) (id : UInt32)
  | unterminatedPreamble
  | unterminatedBranch (line : Nat)
  | unterminatedChoices (line : Nat)
  | degenerateChoices (line : Nat) (count : Nat)
  /-- All branches of a block of choices end the event. -/
  | exitingChoices (line : Nat)
deriving DecidableEq, Repr

namespace Error

/-- The line where the problem was found, if there is one. -/
def line? : Error → Option Nat
  | .missingLinkage line _ => some line
  | .linkageBelowFloor line _ => some line
  | .unterminatedPreamble => none
  | .unterminatedBranch line => some line
  | .unterminatedChoices line => some line
  | .degenerateChoices line _ => some line
  | .exitingChoices line => some line

/-- The problem in a sentence. -/
def message : Error → String
  | .missingLinkage _ text =>
    "failed to find the defeat id on this line: '" ++ Text.trimLine text ++ "'"
  | .linkageBelowFloor _ id => "invalid defeat id " ++ toString id.toNat
  | .unterminatedPreamble => "finished the file while still in the preamble"
  | .unterminatedBranch _ => "never found the end of the ConditionalBranch block"
  | .unterminatedChoices _ => "never found the end of the ShowChoices block"
  | .degenerateChoices _ count =>
    "only found " ++ toString count ++ " When " ++
      (if count = 1 then "branch" else "branches") ++ " in a ShowChoices block"
  | .exitingChoices _ => "every branch of the ShowChoices block ends the event"

/-- The problem with the number of its line, counted from one. -/
def describe (error : Error) : String :=
  match error.line? with
  | some line => "line " ++ toString (line + 1) ++ ": " ++ error.message
  | none => error.message

end Error

end SceneGallery.Event
