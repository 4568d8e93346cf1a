import SceneGallery.Library.Basic
import SceneGallery.Library.Sheet
set_option autoImplicit false

namespace SceneGallery.Library

/-- A line that opens the record with the given number. -/
def openerLine (indent : String) (number : Nat) : String :=
  indent ++ toString number ++ " => \x7b"

/-- The fields of a condition that are given, each on a line of its own. -/
def conditionFields (condition : Condition) : List String :=
  [condition.kind.map fun value => ":type => " ++ toString value.toInt,
    condition.id.map fun text => ":id => " ++ text,
    condition.op.map fun value => ":op => " ++ toString value.toInt,
    condition.value.map fun value => ":value => " ++ toString value.toInt].reduceOption.map
      ("            " ++ ·)

namespace Sheet

/-- Adds a condition. -/
def addCondition (sheet : Sheet) (condition : Condition) : Sheet :=
  (addSeparated add (sheet.add "          :condition => \x7b") (conditionFields condition)).add
    "          \x7d"

/-- Adds a background. -/
def addBackground (sheet : Sheet) (background : Background) : Sheet :=
  ((sheet.add "          :background => \x7b").add ("            :id => " ++ background.id)).add
    "          \x7d"

/-- What adds the fields of a scene that are given, in the order in which they are written. -/
def sceneFields (scene : Scene) : List (Sheet → Sheet) :=
  [some fun sheet => sheet.add ("          :name => \"" ++ scene.name ++ "\""),
    some fun sheet => sheet.add ("          :common => " ++ toString scene.common.toNat),
    scene.fadeout.map fun number sheet =>
      sheet.add ("          :fadeout => " ++ toString number.toNat),
    scene.condition.map fun condition sheet => sheet.addCondition condition,
    scene.background.map fun background sheet => sheet.addBackground background,
    scene.map.map fun text sheet => sheet.add ("          map: " ++ text)].reduceOption

/-- Adds a scene under its number. -/
def addScene (sheet : Sheet) (scene : Scene) (ordinal : Nat) : Sheet :=
  (addSeparated (fun sheet write => write sheet) (sheet.add (openerLine "        " ordinal))
    (sceneFields scene)).add "        \x7d"

/-- Adds scenes, numbered from one. -/
def addScenes (sheet : Sheet) (scenes : List Scene) : Sheet :=
  addSeparated (fun sheet (scene, ordinal) => sheet.addScene scene ordinal) sheet
    (scenes.zipIdx 1)

/-- Adds the record of a character. -/
def addCharacter (sheet : Sheet) (character : Character) : Sheet :=
  let named := ((sheet.add (openerLine "    " character.id.toNat)).addAll character.heading).add
    ("      :name => \"" ++ character.name ++ "\",")
  let opened := (named.addAll character.preamble).add "      :items => \x7b"
  ((opened.addScenes character.scenes).add "      \x7d").add "    \x7d"

end Sheet

/-- The lines of a scene under the given number. -/
def sceneLines (scene : Scene) (ordinal : Nat) : List String :=
  (Sheet.empty.addScene scene ordinal).toList

/-- The lines of a library. -/
def toLines (library : Library) : List String :=
  let records := Sheet.addSeparated Sheet.addCharacter (Sheet.empty.addAll library.leading)
    library.characters
  ((records.add library.closer).addAll library.trailing).toList

/-- The text of a library. -/
def serialize (library : Library) : String :=
  library.layout.join library.toLines

end SceneGallery.Library
