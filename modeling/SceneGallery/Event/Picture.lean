import SceneGallery.Event.Command
import SceneGallery.Text.Pattern
import SceneGallery.Text.Replace
set_option autoImplicit false

namespace SceneGallery.Event

open Text.Pattern

/-- The picture that an event shows first. -/
structure DefaultPicture where
  shown : String
  /-- The line that moves it into view, where one follows at once. -/
  moved : Option String
deriving DecidableEq, Repr

/-- The lines of the picture. -/
def DefaultPicture.lines (picture : DefaultPicture) : List String :=
  picture.shown :: picture.moved.toList

/-- A line with every picture in it that is hidden at first made visible. -/
def makeVisible (line : String) : String :=
  Text.replaceAll "100, 100, 0, 0]" "100, 100, 255, 0]" line

/-- The first picture that an event shows. It is made visible unless a movement does that. -/
def defaultPicture? (lines : List String) : Option DefaultPicture :=
  match lines.dropWhile fun line => !isCommand "ShowPicture" line with
  | [] => none
  | [line] => some ⟨makeVisible line, none⟩
  | line :: next :: _ =>
    if isCommand "MovePicture" next then some ⟨line, some next⟩ else some ⟨makeVisible line, none⟩

/-- The arguments of a picture command up to its name: a number of one digit, and the name. -/
def picturePattern : Text.Pattern (List Char) :=
  word "[" (gap (exactly 1 Text.isDecimal fun _ =>
    gap (word "," (gap (quoted fun name => gap (word "," (done name)))))))

/-- The name of the picture that a line shows. -/
def pictureName? (line : List Char) : Option String :=
  (search picturePattern line).map String.ofList

/-- The name of the picture that comes after the given one: its last character, which has to be an
ASCII digit, is replaced by the number that is larger by one. -/
def nextPictureName? (name : String) : Option String :=
  match name.toList.getLast? with
  | some digit =>
    if digit.isDigit then
      some (String.ofList (name.toList.dropLast ++
        Nat.toDigits 10 (digit.toNat - '0'.toNat + 1)))
    else none
  | none => none

/-- The name of the next picture is the name before it with the number that is larger by one in
place of the last character, which is a digit. -/
theorem nextPictureName?_eq_some_iff {name next : String} :
    nextPictureName? name = some next ↔
      ∃ stem digit, name.toList = stem ++ [digit] ∧ digit.isDigit = true ∧
        next.toList = stem ++ Nat.toDigits 10 (digit.toNat - '0'.toNat + 1) := by
  rw [nextPictureName?]
  constructor
  · intro continued
    cases last : name.toList.getLast? with
    | none =>
        rw [last] at continued
        cases continued
    | some digit =>
        obtain ⟨stem, spelled⟩ := List.getLast?_eq_some_iff.mp last
        rw [last, spelled, List.dropLast_concat] at continued
        by_cases numbered : digit.isDigit = true
        · simp only [numbered, ↓reduceIte, Option.some.injEq] at continued
          refine ⟨stem, digit, spelled, numbered, ?_⟩
          rw [← continued, String.toList_ofList]
        · simp only [numbered, Bool.false_eq_true, ↓reduceIte] at continued
          cases continued
  · rintro ⟨stem, digit, spelled, numbered, grown⟩
    rw [spelled, List.getLast?_concat, List.dropLast_concat]
    simp only [numbered, ↓reduceIte]
    rw [← grown, String.ofList_toList]

end SceneGallery.Event
