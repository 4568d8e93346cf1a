import SceneGallery.Gallery.EventFile
import SceneGallery.Library.Merge
set_option autoImplicit false

namespace SceneGallery.Gallery.Report

/-- A text in bright red. -/
def red (text : String) : String := "\x1b[91m" ++ text ++ "\x1b[39m"

/-- A text in bright yellow. -/
def yellow (text : String) : String := "\x1b[93m" ++ text ++ "\x1b[39m"

/-- A text in bright blue. -/
def blue (text : String) : String := "\x1b[94m" ++ text ++ "\x1b[39m"

/-- A text in bold type. -/
def bold (text : String) : String := "\x1b[1m" ++ text ++ "\x1b[0m"

/-- What a report tells about a problem. -/
structure Explanation where
  /-- The problem in a few words. -/
  problem : String
  /-- What it means. -/
  details : String
deriving DecidableEq, Repr

/-- The explanation of why an event cannot be converted. -/
def explainEvent : Event.Error → Explanation
  | .missingLinkage _ _ =>
    ⟨"Defeat event not understood",
      "The temptation event names its defeat event on this line, but not as a\n" ++
        "four digit literal id, so there is no way to tell which scene it leads to."⟩
  | .linkageBelowFloor _ id =>
    ⟨"Invalid defeat event " ++ toString id.toNat,
      "Defeat scenes are numbered from 3000 up; this event links to something else."⟩
  | .unterminatedPreamble =>
    ⟨"No defeat event named",
      "Reached the end of the file without finding which defeat event this\n" ++
        "temptation leads to. It is probably not a scene."⟩
  | .unterminatedBranch _ =>
    ⟨"Unclosed ConditionalBranch", "There was no matching BranchEnd before the end of the file."⟩
  | .unterminatedChoices _ =>
    ⟨"Unclosed ShowChoices", "There was no ChoicesEnd before the end of the file."⟩
  | .degenerateChoices _ count =>
    ⟨"ShowChoices with " ++ toString count ++ (if count = 1 then " branch" else " branches"),
      "A choice needs at least two When branches to be worth pruning."⟩
  | .exitingChoices _ =>
    ⟨"Every choice ends the event",
      "None of the When branches continues the scene, so there is nothing to keep."⟩

/-- The explanation of why nothing came of a file. -/
def explain : FileError → Explanation
  | .unreadable problem => ⟨problem.problem, problem.details⟩
  | .unwritable _ details => ⟨"Unable to write converted event", details⟩
  | .event error => explainEvent error

/-- The explanation of why a text is no scene library. -/
def explainLibrary : Library.Error → Explanation
  | .missingSection =>
    ⟨"No scene library section", "The file has no H_SCENE_ITEMS hash to add scenes to."⟩
  | .unterminatedSection _ =>
    ⟨"Unclosed scene library section",
      "The H_SCENE_ITEMS hash starts here but the closing brace that ends it was\nnever found."⟩

/-- A text with blanks in front of it up to a width. -/
def padLeft (width : Nat) (text : String) : String :=
  String.ofList (List.replicate (width - text.length) ' ') ++ text

/-- The start of a report on an error in a file. -/
def errorIn (filename : String) : String :=
  red "error" ++ ": " ++ filename ++ ":"

/-- A report with the line of the source where the problem was found, counted from zero. -/
def withContext (filename source : String) (line : Nat) (explanation : Explanation) : String :=
  let number := toString (line + 1)
  let width := max 3 number.length
  let margin := padLeft width "" ++ " " ++ blue "|"
  let code := (Text.lines source)[line]?.getD "?"
  errorIn filename ++ number ++ " " ++ bold explanation.problem ++ "\n\n" ++
    margin ++ "\n" ++ blue (padLeft width number) ++ " " ++ blue "|" ++ " " ++ code ++ "\n" ++
    margin ++ "\n\n" ++ explanation.details

/-- A report on a file in one line. -/
def conciseFile (problem : FileProblem) : String :=
  errorIn problem.filename ++ " " ++ bold problem.problem

/-- A report on an event in one line. -/
def concise (error : FileError) (filename : String) : String :=
  match error with
  | .unreadable problem => conciseFile problem
  | error =>
    let problem := bold (explain error).problem
    match error.line? with
    | some line => errorIn filename ++ toString (line + 1) ++ " " ++ problem
    | none => errorIn filename ++ " " ++ problem

/-- A report on an event, with the line where the problem was found. -/
def full (error : FileError) (filename source : String) : String :=
  match error.line? with
  | some line => withContext filename source line (explain error)
  | none => concise error filename

/-- A report on a scene library. -/
def fullLibrary (error : Library.Error) (filename source : String) : String :=
  let explanation := explainLibrary error
  match error.line? with
  | some line => withContext filename source line explanation
  | none => errorIn filename ++ " " ++ bold explanation.problem ++ "\n\n" ++ explanation.details

/-- Why a converted event was not placed, in words. -/
def placementMessage? (descriptor : Descriptor) : Library.Placement → Option String
  | .inserted _ _ => none
  | .alreadyPresent _ => none
  | .unmatched =>
    some ("no character has a scene using defeat event " ++ toString descriptor.linkage.toNat)
  | .ambiguous names =>
    some ("defeat event " ++ toString descriptor.linkage.toNat ++
      " is used by several characters: " ++ String.intercalate ", " names)
  | .missingDefeat character =>
    some (character ++ " has no scene using defeat event " ++ toString descriptor.linkage.toNat)

/-- A report on a converted event that was not placed. -/
def placement? (placement : Library.Placement) (descriptor : Descriptor) : Option String :=
  (placementMessage? descriptor placement).map fun message =>
    yellow "warning" ++ ": " ++ descriptor.path ++ ": " ++ bold message

end SceneGallery.Gallery.Report
