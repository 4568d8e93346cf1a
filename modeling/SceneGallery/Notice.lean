set_option autoImplicit false

namespace SceneGallery

/-- How important a notice is. -/
inductive Level where
  /-- Something was left out or looks wrong. -/
  | warn
  /-- Progress that every run shows. -/
  | info
  /-- Progress in detail. -/
  | debug
deriving DecidableEq, Repr

/-- The word for a level. -/
def Level.label : Level → String
  | .warn => "WARN"
  | .info => "INFO"
  | .debug => "DEBUG"

/-- Whether a notice of this level is shown when no details are asked for. -/
def Level.isEssential : Level → Bool
  | .warn | .info => true
  | .debug => false

/-- What a notice tells. -/
inductive Notice.Body where
  | message (text : String)
  | quantity (label shown : String)
deriving DecidableEq, Repr

/-- One piece of news about the program's progress. -/
structure Notice where
  level : Level
  body : Notice.Body
deriving DecidableEq, Repr

namespace Notice

/-- A sentence that warns. -/
def warn (text : String) : Notice := ⟨.warn, .message text⟩

/-- A sentence about progress that every run shows. -/
def info (text : String) : Notice := ⟨.info, .message text⟩

/-- A sentence about progress in detail. -/
def debug (text : String) : Notice := ⟨.debug, .message text⟩

/-- The value of a quantity, for those who ask for details. -/
def quantity (label shown : String) : Notice := ⟨.debug, .quantity label shown⟩

/-- The sentence of a notice, if it has one. -/
def message? (notice : Notice) : Option String :=
  match notice.body with
  | .message text => some text
  | .quantity _ _ => none

/-- The text of a notice. -/
def text (notice : Notice) : String :=
  match notice.body with
  | .message text => text
  | .quantity label shown => label ++ "=" ++ shown

end Notice

end SceneGallery
