import SceneGallery.Event.Body
import SceneGallery.Event.Picture
import SceneGallery.Event.Preamble
import SceneGallery.Notice
set_option autoImplicit false

namespace SceneGallery.Event

/-- What a conversion looks at besides the event itself. -/
structure Resources where
  /-- The lines of the event with the given number. -/
  event : UInt32 → Option (List String)
  /-- Which pictures there are, if that is known. -/
  pictures : Option (String → Bool)

/-- What comes of looking for a picture that continues the last one. -/
inductive Continuation where
  | noPicture
  /-- The line that shows the last picture does not name it. -/
  | unnamed (line : String)
  /-- The name of the last picture has no number at its end. -/
  | unnumbered (name : String)
  | missing (name next : String)
  /-- There is no place where it could be shown. -/
  | nowhere (name next : String)
  /-- It is shown before the given place of the output by the given line. -/
  | added (name next : String) (place : Nat) (line : String)
deriving DecidableEq, Repr

/-- Whether a line of a converted event sets how text is shown. -/
def OutputLine.isTextAttributes (line : OutputLine) : Bool :=
  match line.content with
  | .verbatim text => Event.isTextAttributes text
  | _ => false

/-- The second place from the given one on where the output sets how text is shown. -/
def secondTextAttributes (output : List OutputLine) (start : Nat) : Option Nat :=
  (((output.zipIdx).drop start).filter fun (line, _) => line.isTextAttributes)[1]?.map (·.2)

/-- Looks for the picture that continues the last one. -/
def Continuation.find (exists? : String → Bool) (output : List OutputLine) :
    Option ShownPicture → Continuation
  | none => .noPicture
  | some picture =>
    match pictureName? (Text.trim picture.line.toList) with
    | none => .unnamed picture.line
    | some name =>
      match nextPictureName? name with
      | none => .unnumbered name
      | some next =>
        if !exists? next then .missing name next
        else
          match secondTextAttributes output picture.output with
          | none => .nowhere name next
          | some place => .added name next place (Text.replaceAll name next picture.line)

/-- The output with the picture put in. -/
def Continuation.apply (output : List OutputLine) : Continuation → List OutputLine
  | .added _ _ place line => output.insertIdx place ⟨.continuation, .verbatim line⟩
  | _ => output

/-- What is remarked during a conversion. -/
inductive Remark where
  /-- The event is linked to a defeat event, whose first picture is shown by the given line. -/
  | linked (linkage : UInt32) (picture : Option String)
  | continued (continuation : Continuation)
deriving DecidableEq, Repr

/-- A remark as a notice. -/
def Remark.notice : Remark → Notice
  | .linked linkage none =>
    .debug ("Found defeat id: " ++ toString linkage.toNat ++ ", default image not found")
  | .linked linkage (some line) =>
    .debug ("Found defeat id: " ++ toString linkage.toNat ++ ", found default image: " ++
      Text.trimLine line)
  | .continued .noPicture => .debug "No ShowPicture command found"
  | .continued (.unnamed line) =>
    .debug ("No picture name found in '" ++ Text.trimLine line ++ "'")
  | .continued (.unnumbered name) =>
    .debug ("Last picture shown: " ++ name ++ " does not end in a number")
  | .continued (.missing name next) =>
    .debug ("Last picture shown: " ++ name ++ ", " ++ next ++ " does not exist")
  | .continued (.nowhere name next) =>
    .debug ("Last picture shown: " ++ name ++ ", nowhere to show " ++ next)
  | .continued (.added name next _ _) =>
    .debug ("Last picture shown: " ++ name ++ ", adding " ++ next)

/-- The outcome of a conversion, with the remarks made on the way. -/
structure Attempt where
  remarks : List Remark
  /-- The converted event, or why there is none. -/
  result : Except Error Conversion

/-- The first picture of a defeat event. -/
def Resources.openingPicture? (resources : Resources) (linkage : UInt32) : Option DefaultPicture :=
  (resources.event linkage).bind defaultPicture?

/-- The lines that show the first picture of a defeat event. -/
def openingLines (picture : Option DefaultPicture) : List OutputLine :=
  match picture with
  | none => []
  | some picture => picture.lines.map fun line => ⟨.opening, .verbatim line⟩

/-- The walk at the start of the body. -/
def Preamble.startWalk (preamble : Preamble) (opening : List OutputLine) : Walk where
  position := preamble.position + 1
  pending := preamble.body
  newest := (preamble.output ++ opening).reverse
  passed := false
  picture := none

/-- Converts the lines of an event. -/
def attempt (resources : Resources) (lines : List String) : Attempt :=
  match Preamble.ofLines lines with
  | .error error => ⟨[], .error error⟩
  | .ok preamble =>
    let picture := resources.openingPicture? preamble.linkage
    let linked := Remark.linked preamble.linkage (picture.map fun picture => picture.shown)
    match (preamble.startWalk (openingLines picture)).run with
    | .error error => ⟨[linked], .error error⟩
    | .ok walk =>
      let output := walk.output
      match resources.pictures with
      | none => ⟨[linked], .ok ⟨output, preamble.linkage⟩⟩
      | some exists? =>
        let continuation := Continuation.find exists? output walk.picture
        ⟨[linked, .continued continuation],
          .ok ⟨continuation.apply output, preamble.linkage⟩⟩

/-- The converted event. -/
def convert (resources : Resources) (lines : List String) : Except Error Conversion :=
  (attempt resources lines).result

end SceneGallery.Event
