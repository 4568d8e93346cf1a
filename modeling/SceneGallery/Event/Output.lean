set_option autoImplicit false

namespace SceneGallery.Event

/-- Where a line of a converted event comes from. -/
inductive Origin where
  /-- A line of the event itself, counted from zero. -/
  | source (line : Nat)
  | opening
  | continuation
deriving DecidableEq, Repr

/-- What a line of a converted event says. -/
inductive Content where
  /-- The line that gives the event its number. -/
  | header
  /-- The line by which the event is called. -/
  | dispatch
  /-- Any other line, as it is written. -/
  | verbatim (text : String)
deriving DecidableEq, Repr

/-- A line of a converted event. -/
structure OutputLine where
  origin : Origin
  content : Content
deriving DecidableEq, Repr

/-- A line of the event, taken over as it is. -/
def OutputLine.copy (position : Nat) (text : String) : OutputLine :=
  ⟨.source position, .verbatim text⟩

/-- Neighbouring lines of the event, taken over as they are. -/
def OutputLine.copies (position : Nat) (texts : List String) : List OutputLine :=
  (texts.zipIdx position).map fun (text, position) => copy position text

/-- The text of a line in the event with the given number. -/
def Content.render (id : UInt32) : Content → String
  | .header => "CommonEvent " ++ toString id.toNat
  | .dispatch => "  999([" ++ toString id.toNat ++ "])"
  | .verbatim text => text

/-- A converted event that has no number yet. -/
structure Conversion where
  lines : List OutputLine
  linkage : UInt32
deriving DecidableEq, Repr

/-- The lines of the event with the given number. -/
def Conversion.render (conversion : Conversion) (id : UInt32) : List String :=
  conversion.lines.map fun line => line.content.render id

end SceneGallery.Event
