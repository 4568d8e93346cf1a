import SceneGallery.Text.Pattern
set_option autoImplicit false

/- What one line of the scene library says: a field with its value, or a marker that opens or closes
a part of a record. `Field.ofLine?` tries the kinds of field in a fixed order, so a line that holds
two fields counts as the kind that comes first in that order, not as the field that stands first. -/
namespace SceneGallery

open Text.Pattern

/-- A field on one line of the scene library. -/
inductive Field where
  | recordStart (number : UInt32)
  | name (text : String)
  | common (number : UInt32)
  | kind (value : Int64)
  | op (value : Int64)
  | value (value : Int64)
  /-- An identifier, as written. -/
  | id (text : String)
  | fadeout (number : UInt32)
  /-- The map of a scene, as written. -/
  | map (text : String)
deriving DecidableEq, Repr

namespace Field

/-- The digits of a record's number, which an arrow and an opening brace follow. -/
def recordPattern : Text.Pattern (List Char) :=
  digits fun number => arrow (word "\x7b" (done number))

/-- A name, which double quotes enclose. -/
def namePattern : Text.Pattern (List Char) :=
  entry ":name" (quoted done)

/-- A number under a key. -/
def numberPattern (key : String) : Text.Pattern (List Char) :=
  entry key (digits done)

/-- A number with a sign under a key. -/
def numeralPattern (key : String) : Text.Pattern Text.Numeral :=
  entry key (numeral done)

/-- A number as an identifier, which a comma or the end of the line follows. -/
def numericIdPattern : Text.Pattern (List Char) :=
  entry ":id" (digits fun id => gap (fieldEnd id))

/-- Any identifier, up to a space or a comma. -/
def symbolicIdPattern : Text.Pattern (List Char) :=
  entry ":id" (run (fun c => c != ' ' && c != ',') done)

/-- A map in its brackets: everything up to the first closing bracket. -/
def mapPattern : Text.Pattern (List Char) :=
  word "map:" (gap (run (· != ']') fun text => word "]" (done (text ++ [']']))))

/-- The number of the record that a line opens. -/
def recordStart? (line : String) : Option UInt32 :=
  (search recordPattern line.toList).bind Text.readUInt32?

/-- The name that a line gives. -/
def name? (line : String) : Option String :=
  (search namePattern line.toList).map String.ofList

/-- The number that a line gives under a key. -/
def number? (key line : String) : Option UInt32 :=
  (search (numberPattern key) line.toList).bind Text.readUInt32?

/-- The number with a sign that a line gives under a key. -/
def signed? (key line : String) : Option Int64 :=
  (search (numeralPattern key) line.toList).bind Text.Numeral.toInt64?

/-- The identifier that a line gives. A number is taken wherever one stands on the line, so that
blanks after it are not a part of it. -/
def id? (line : String) : Option String :=
  ((search numericIdPattern line.toList).or (search symbolicIdPattern line.toList)).map
    String.ofList

/-- The map that a line gives. -/
def map? (line : String) : Option String :=
  (search mapPattern line.toList).map String.ofList

/-- The field that a line gives, of the first kind that can be read. -/
def ofLine? (line : String) : Option Field :=
  (recordStart? line).map recordStart <|>
  (name? line).map name <|>
  (number? ":common" line).map common <|>
  (signed? ":type" line).map kind <|>
  (signed? ":op" line).map op <|>
  (signed? ":value" line).map value <|>
  (id? line).map id <|>
  (number? ":fadeout" line).map fadeout <|>
  (map? line).map map

end Field

/-- Whether a line closes a part of the library: its first character that is no blank is a closing
brace. -/
def isCloser (line : String) : Bool :=
  (Text.trimStart line.toList).head? == some '\x7d'

/-- Whether a line opens the section of records. -/
def isSectionMarker (line : String) : Bool :=
  occurs "H_SCENE_ITEMS" line.toList

/-- Whether a line opens the scenes of a character. -/
def isItemsMarker (line : String) : Bool :=
  occurs ":items" line.toList

/-- Whether a line opens a condition. -/
def isConditionOpener (line : String) : Bool :=
  ":condition".toList.isPrefixOf (Text.trimStart line.toList)

/-- Whether a line opens a background. -/
def isBackgroundOpener (line : String) : Bool :=
  ":background".toList.isPrefixOf (Text.trimStart line.toList)

end SceneGallery
