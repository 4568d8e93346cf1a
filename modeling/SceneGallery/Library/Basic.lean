import SceneGallery.Text.Lines
set_option autoImplicit false

namespace SceneGallery

/-- When a scene is unlocked. The identifier may be a number or a symbol and is kept as written. -/
structure Condition where
  /-- What kind of quantity is compared. -/
  kind : Option Int64 := none
  /-- The quantity compared. -/
  id : Option String := none
  /-- How it is compared. -/
  op : Option Int64 := none
  /-- What it is compared with. -/
  value : Option Int64 := none
deriving DecidableEq, Repr

/-- The picture behind a scene. -/
structure Background where
  /-- The identifier of the picture, kept as written. -/
  id : String := ""
deriving DecidableEq, Repr

/-- One scene that the gallery can replay. -/
structure Scene where
  /-- The name on the scene's button. -/
  name : String := ""
  /-- The number of the event that plays the scene. -/
  common : UInt32 := 0
  /-- How long the music fades out. -/
  fadeout : Option UInt32 := none
  /-- When the scene is unlocked. -/
  condition : Option Condition := none
  background : Option Background := none
  /-- Where it plays, kept as written. -/
  map : Option String := none
deriving DecidableEq, Repr

/-- The record of one character. -/
structure Character where
  id : UInt32
  /-- The lines between the record's opener and the name. -/
  heading : List String
  name : String
  /-- The lines between the name and the scenes. -/
  preamble : List String
  scenes : List Scene
deriving DecidableEq, Repr

/-- A scene library. -/
structure Library where
  /-- The lines up to the first record. -/
  leading : List String
  characters : List Character
  closer : String
  /-- The lines after the section. -/
  trailing : List String
  layout : Text.Layout
deriving DecidableEq, Repr

/-- The place of the first scene that the given event plays. -/
def Character.findScene (character : Character) (common : UInt32) : Option Nat :=
  character.scenes.findIdx? fun scene => scene.common == common

/-- The number of scenes of all characters together. -/
def Library.sceneCount (library : Library) : Nat :=
  (library.characters.flatMap fun character => character.scenes).length

/-- Why a text is no scene library. Lines are counted from zero. -/
inductive Library.Error where
  | missingSection
  /-- The section that starts before the given line is not closed. -/
  | unterminatedSection (line : Nat)
deriving DecidableEq, Repr

namespace Library.Error

/-- The line where the problem was found, if there is one. -/
def line? : Library.Error → Option Nat
  | .missingSection => none
  | .unterminatedSection line => some line

/-- The problem in a sentence. -/
def message : Library.Error → String
  | .missingSection => "no H_SCENE_ITEMS section found in the scene library"
  | .unterminatedSection _ => "the H_SCENE_ITEMS section is never closed"

/-- The problem with the number of its line, counted from one. -/
def describe (error : Library.Error) : String :=
  match error.line? with
  | some line => toString (line + 1) ++ ":" ++ error.message
  | none => error.message

/-- The error as a value, named by its constructor. -/
def shown : Library.Error → String
  | .missingSection => "MissingSection"
  | .unterminatedSection line => "UnterminatedSection(" ++ toString line ++ ")"

end Library.Error

end SceneGallery
