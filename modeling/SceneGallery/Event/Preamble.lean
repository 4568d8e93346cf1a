import SceneGallery.Event.Linkage
import SceneGallery.Event.Output
set_option autoImplicit false

namespace SceneGallery.Event

/-- Whether a line of the preamble calls the event. -/
def isDispatch (line : String) : Bool :=
  "999".toList.isPrefixOf (Text.trim line.toList)

/-- The preamble of an event. -/
structure Preamble where
  /-- The lines of the converted event that come from it. -/
  output : List OutputLine
  linkage : UInt32
  /-- The place of the line that names it. -/
  position : Nat
  body : List String
deriving DecidableEq, Repr

/-- The preamble with a line in front of it. -/
def Preamble.cons (line : OutputLine) (preamble : Preamble) : Preamble :=
  { preamble with output := line :: preamble.output }

/-- Reads on in a preamble, after the header. -/
def readPreamble (position : Nat) : List String → Except Error Preamble
  | [] => .error .unterminatedPreamble
  | line :: rest =>
    if isDispatch line then
      (readPreamble (position + 1) rest).map (.cons ⟨.source position, .dispatch⟩)
    else if namesDefeat line then
      (readLinkage position line).map fun linkage => ⟨[], linkage, position, rest⟩
    else (readPreamble (position + 1) rest).map (.cons (.copy position line))

/-- The preamble of an event. -/
def Preamble.ofLines : List String → Except Error Preamble
  | [] => .error .unterminatedPreamble
  | _ :: rest => (readPreamble 1 rest).map (.cons ⟨.source 0, .header⟩)

end SceneGallery.Event
