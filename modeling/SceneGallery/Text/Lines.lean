import SceneGallery.Text.Pattern
set_option autoImplicit false

namespace SceneGallery.Text

/-- What separates two lines. -/
inductive Ending where
  | lf
  | crlf
deriving DecidableEq, Repr

/-- The characters of an ending. -/
def Ending.text : Ending → String
  | .lf => "\n"
  | .crlf => "\r\n"

/-- How the lines of a text are separated, and whether an ending follows the last of them. -/
structure Layout where
  ending : Ending
  /-- Whether the last line has an ending too. -/
  terminated : Bool
deriving DecidableEq, Repr

/-- Line feeds, one after every line. -/
def Layout.unix : Layout := ⟨.lf, true⟩

/-- The text of the given lines. No lines make the empty text in every layout. -/
def Layout.join (layout : Layout) : List String → String
  | [] => ""
  | line :: rest =>
    String.intercalate layout.ending.text (line :: rest) ++
      (if layout.terminated then layout.ending.text else "")

/-- A line that a line feed ended, from its characters in reverse order. -/
def endedLine (reversed : List Char) : List Char :=
  match reversed with
  | '\r' :: line => line.reverse
  | line => line.reverse

/-- The lines of a text of which a part of the first line has been read, in reverse order. -/
def linesFrom (reversed : List Char) : List Char → List (List Char)
  | [] => if reversed.isEmpty then [] else [reversed.reverse]
  | c :: s => if c = '\n' then endedLine reversed :: linesFrom [] s else linesFrom (c :: reversed) s

/-- The lines of a text. A last line without an ending counts if it is not empty, and keeps a
carriage return at its end. -/
def lines (content : String) : List String :=
  (linesFrom [] content.toList).map String.ofList

/-- The layout of a text: one pair of carriage return and line feed anywhere decides the ending. -/
def layoutOf (content : String) : Layout where
  ending := if Pattern.occurs "\r\n" content.toList then .crlf else .lf
  terminated := content.toList.getLast? == some '\n'

@[simp] theorem Layout.join_nil (layout : Layout) : layout.join [] = "" := rfl

@[simp] theorem lines_empty : lines "" = [] := by
  simp [lines, linesFrom]

end SceneGallery.Text
