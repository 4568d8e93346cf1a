import SceneGallery.Gallery.Loading
import SceneGallery.Text.Lines
set_option autoImplicit false

namespace SceneGallery.CommandLine

/-- Something that is shown besides the result. -/
inductive Shown where
  | notice (notice : Notice)
  | message (text : String)
deriving DecidableEq, Repr

/-- A character of a notice as a terminal may show it: those that steer a terminal are named by
their numbers. -/
def steeringSafe (c : Char) : List Char :=
  if c = '\x1b' then "\\x1b".toList
  else if c = '\x07' then "\\x07".toList
  else if c = '\x08' then "\\x08".toList
  else if c = '\x0c' then "\\x0c".toList
  else if c = '\x7f' then "\\x7f".toList
  else if 0x80 ≤ c.toNat ∧ c.toNat ≤ 0x9f then
    "\\u\x7b".toList ++ Nat.toDigits 16 c.toNat ++ ['\x7d']
  else [c]

/-- The line of a notice. -/
def noticeLine (notice : Notice) : String :=
  let text := match notice.body with
    | .message text => String.ofList (text.toList.flatMap steeringSafe)
    | .quantity _ _ => notice.text
  notice.level.label ++ " " ++ text

/-- The text of something that is shown, if it is. -/
def Shown.text? (verbose : Bool) : Shown → Option String
  | .notice news =>
    if verbose || news.level.isEssential then some (noticeLine news) else none
  | .message text => some text

/-- What a run shows and leaves. -/
structure Transcript where
  exit : Nat
  /-- The result, as it is printed. -/
  output : String
  shown : List Shown
  tree : Storage.FileTree

/-- The text that is shown besides the result. -/
def Transcript.shownText (transcript : Transcript) (verbose : Bool) : String :=
  String.join ((transcript.shown.filterMap (Shown.text? verbose)).map (· ++ "\n"))

/-- The lines that are shown besides the result. -/
def Transcript.shownLines (transcript : Transcript) (verbose : Bool) : List String :=
  Text.lines (transcript.shownText verbose)

end SceneGallery.CommandLine
