import SceneGallery.Gallery.EventFile
import SceneGallery.Library.Merge
set_option autoImplicit false

namespace SceneGallery.Gallery

/-- How many converted events were placed in the library. -/
structure PlacementCounts where
  inserted : Nat := 0
  present : Nat := 0
  /-- Events that were not placed. -/
  skipped : Nat := 0
deriving DecidableEq, Repr

/-- The counts with one more placement. -/
def PlacementCounts.record (counts : PlacementCounts) : Library.Placement → PlacementCounts
  | .inserted _ _ => { counts with inserted := counts.inserted + 1 }
  | .alreadyPresent _ => { counts with present := counts.present + 1 }
  | _ => { counts with skipped := counts.skipped + 1 }

/-- The summary of a run. -/
structure Summary where
  converted : Nat := 0
  /-- Events that were converted before. -/
  kept : Nat := 0
  notApplicable : Nat := 0
  failed : Nat := 0
  /-- The smallest number of a converted event. -/
  first : Option UInt32 := none
  /-- The largest number of a converted event. -/
  last : Option UInt32 := none
  /-- What became of the library, if it was looked at. -/
  library : Option PlacementCounts := none
deriving DecidableEq, Repr

namespace Summary

/-- The summary with the number of one more converted event. -/
def recordNumber (summary : Summary) (id : UInt32) : Summary :=
  { summary with
    first := some (summary.first.elim id (min · id))
    last := some (summary.last.elim id (max · id)) }

/-- The summary with one more outcome. -/
def record (summary : Summary) : Outcome → Summary
  | .written descriptor =>
    { summary with converted := summary.converted + 1 }.recordNumber descriptor.derived
  | .kept descriptor => { summary with kept := summary.kept + 1 }.recordNumber descriptor.derived
  | .notApplicable => { summary with notApplicable := summary.notApplicable + 1 }

/-- The summary with one more event that could not be converted. -/
def recordFailure (summary : Summary) : Summary :=
  { summary with failed := summary.failed + 1 }

/-- The summary with what became of the library. -/
def recordPlacements (summary : Summary) (placements : List Library.Placement) : Summary :=
  { summary with library := some (placements.foldl .record {}) }

/-- The number of events. -/
def total (summary : Summary) : Nat :=
  summary.converted + summary.kept + summary.notApplicable + summary.failed

/-- The numbers of the converted events, in words. -/
def numbersText (summary : Summary) : String :=
  match summary.first with
  | none => ""
  | some first =>
    ", numbered " ++ toString first.toNat ++ " to " ++ toString (summary.last.getD 0).toNat

/-- What became of the library, in words. -/
def libraryText (summary : Summary) : String :=
  match summary.library with
  | none => ""
  | some counts =>
    "Scene library: " ++ toString counts.inserted ++ " added, " ++ toString counts.present ++
      " already present, " ++ toString counts.skipped ++ " skipped.\n"

/-- The summary in words. -/
def text (summary : Summary) : String :=
  "Converted " ++ toString summary.converted ++ " of " ++ toString summary.total ++ " events" ++
    summary.numbersText ++ ".\n" ++ toString summary.kept ++ " already converted, " ++
    toString summary.notApplicable ++ " not applicable, " ++ toString summary.failed ++
    " failed.\n" ++ summary.libraryText

end Summary

end SceneGallery.Gallery
