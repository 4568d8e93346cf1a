import SceneGallery.Event.Error
import SceneGallery.Text.Pattern
set_option autoImplicit false

namespace SceneGallery.Event

open Text.Pattern

/-- The smallest number of a defeat event. -/
def linkageFloor : UInt32 := 3000

/-- The numbers that are known to be wrong, each with the number that is meant. -/
def corrections : List (UInt32 × UInt32) :=
  [(3169, 3168), (3229, 3228), (3230, 3228), (3571, 3570), (3702, 3819), (3722, 3821),
    (3723, 3822), (3815, 3744), (3957, 3947)]

/-- The number that is meant. -/
def correctLinkage (id : UInt32) : UInt32 :=
  (corrections.lookup id).getD id

/-- Whether a line gives the number of the defeat event, in any case of its ASCII letters. -/
def namesDefeat (line : String) : Bool :=
  occurs "game_troop.lose_event_id" (line.toList.map Char.toLower)

/-- A number of four digits that is given to the defeat event, at the end of a quoted text. -/
def linkagePattern : Text.Pattern (List Char) :=
  word "lose_event_id" (gap (word "=" (gap (exactly 4 Text.isDecimal fun id =>
    gap (word "\"" (done id))))))

/-- The number of the defeat event that a line gives. -/
def defeatId? (line : String) : Option UInt32 :=
  (search linkagePattern line.toList).bind Text.readUInt32?

/-- The defeat event that the given line names. -/
def readLinkage (position : Nat) (line : String) : Except Error UInt32 :=
  match defeatId? line with
  | none => .error (.missingLinkage position line)
  | some id =>
    if correctLinkage id < linkageFloor then
      .error (.linkageBelowFloor position (correctLinkage id))
    else .ok (correctLinkage id)

end SceneGallery.Event
