import SceneGallery.Gallery.Report
import SceneGallery.Proofs.Event.Failed
set_option autoImplicit false

namespace SceneGallery.Gallery

namespace Report

/-- A report with a line of the source up to that line, and the number of the line. -/
def beforeLine (filename : String) (place : Nat) (explanation : Explanation) : String :=
  let number := toString (place + 1)
  let width := max 3 number.length
  errorIn filename ++ number ++ " " ++ bold explanation.problem ++ "\n\n" ++
    (padLeft width "" ++ " " ++ blue "|") ++ "\n" ++ blue (padLeft width number) ++ " " ++
    blue "|" ++ " "

/-- A report with a line of the source from the end of that line on. -/
def afterLine (place : Nat) (explanation : Explanation) : String :=
  let width := max 3 (toString (place + 1)).length
  "\n" ++ (padLeft width "" ++ " " ++ blue "|") ++ "\n\n" ++ explanation.details

/-- Of the source, a report shows one line and nothing else. -/
theorem withContext_eq (filename source : String) (place : Nat) (explanation : Explanation) :
    withContext filename source place explanation =
      beforeLine filename place explanation ++ (Text.lines source)[place]?.getD "?" ++
        afterLine place explanation := by
  have regroup : ∀ front margin details : String,
      front ++ "\n" ++ margin ++ "\n\n" ++ details =
        front ++ ("\n" ++ margin ++ "\n\n" ++ details) := by
    intro front margin details
    simp only [String.append_assoc]
  exact regroup _ _ _

end Report

end SceneGallery.Gallery
