import SceneGallery.Descriptor
import SceneGallery.Library.Basic
import SceneGallery.Notice
set_option autoImplicit false

/- Adding converted events to a scene library. A converted event is placed right after the scene of
the defeat event that it is linked to, if exactly one scene of the library plays that event. The
index of owners is built once, before the first event is placed. -/
namespace SceneGallery.Library

/-- What became of one converted event. -/
inductive Placement where
  | inserted (character scene : String)
  /-- The character has a scene of the converted event already. -/
  | alreadyPresent (character : String)
  | unmatched
  /-- Several scenes play the defeat event; the names are those of their owners. -/
  | ambiguous (names : List String)
  /-- The owner has no scene of the defeat event. -/
  | missingDefeat (character : String)
deriving DecidableEq, Repr

/-- Whether a scene was added. -/
def Placement.isInserted : Placement → Bool
  | .inserted _ _ => true
  | _ => false

/-- The owners of all scenes: the event of each scene, with the place of the character that has it,
in the order of the library. -/
structure Index where
  /-- One entry for every scene. -/
  entries : List (UInt32 × Nat)
deriving DecidableEq, Repr

namespace Index

/-- The index of a library. -/
def ofLibrary (library : Library) : Index where
  entries := library.characters.zipIdx.flatMap fun (character, place) =>
    character.scenes.map fun scene => (scene.common, place)

/-- The places of the characters that have a scene of the given event, once for each scene. -/
def owners (index : Index) (common : UInt32) : List Nat :=
  index.entries.filterMap fun (event, place) => if event = common then some place else none

/-- Every event with its owners, by ascending number. -/
def table (index : Index) : List (UInt32 × List Nat) :=
  let events := (index.entries.map (·.1)).eraseDups.mergeSort fun a b => decide (a ≤ b)
  events.map fun event => (event, index.owners event)

end Index

/-- The number of characters in the word for a defeat that a scene's name starts with. -/
def defeatWordLength : Nat := 6

/-- The name of the scene that is added next to the scene with the given name. -/
def seductionName (name : String) : String :=
  "Seduce" ++ String.ofList (name.toList.drop defeatWordLength)

/-- The scene of a converted event, made from the scene of its defeat event. -/
def deriveScene (defeat : Scene) (derived : UInt32) : Scene :=
  { defeat with common := derived, name := seductionName defeat.name }

/-- The character with a scene put in right after the one at the given place. -/
def insertAfter (character : Character) (place : Nat) (scene : Scene) : Character :=
  { character with scenes := character.scenes.insertIdx (place + 1) scene }

/-- The library with another character at the given place. -/
def setCharacter (library : Library) (place : Nat) (character : Character) : Library :=
  { library with characters := library.characters.set place character }

/-- Places a converted event with the character that owns its defeat event. -/
def placeWith (library : Library) (place : Nat) (character : Character) (descriptor : Descriptor) :
    Library × Placement :=
  match character.findScene descriptor.derived with
  | some _ => (library, .alreadyPresent character.name)
  | none =>
    match character.findScene descriptor.linkage with
    | none => (library, .missingDefeat character.name)
    | some position =>
      match character.scenes[position]? with
      | none => (library, .missingDefeat character.name)
      | some defeat =>
        let scene := deriveScene defeat descriptor.derived
        (library.setCharacter place (insertAfter character position scene),
          .inserted character.name scene.name)

/-- Places one converted event by an index. -/
def place (index : Index) (library : Library) (descriptor : Descriptor) : Library × Placement :=
  match index.owners descriptor.linkage with
  | [] => (library, .unmatched)
  | [owner] =>
    match library.characters[owner]? with
    | none => (library, .unmatched)
    | some character => library.placeWith owner character descriptor
  | several =>
    (library, .ambiguous (several.filterMap fun owner =>
      library.characters[owner]?.map fun character => character.name))

/-- Places converted events in order by an index. -/
def mergeBy (index : Index) (library : Library) : List Descriptor → Library × List Placement
  | [] => (library, [])
  | descriptor :: rest =>
    let placed := place index library descriptor
    let merged := mergeBy index placed.1 rest
    (merged.1, placed.2 :: merged.2)

/-- Places converted events in order. There is one placement for every event. -/
def merge (library : Library) (descriptors : List Descriptor) : Library × List Placement :=
  mergeBy (.ofLibrary library) library descriptors

/-- What is told about one placement. -/
def Placement.notice? (descriptor : Descriptor) : Placement → Option Notice
  | .inserted character scene =>
    some (.debug ("Added new scene " ++ scene ++ " to " ++ character))
  | .alreadyPresent character =>
    some (.debug ("Scene " ++ toString descriptor.derived.toNat ++
      " has already been added to " ++ character ++ ", skipping"))
  | _ => none

/-- What is told about the placements of a merge. -/
def mergeNotices (descriptors : List Descriptor) (placements : List Placement) : List Notice :=
  (descriptors.zip placements).filterMap fun (descriptor, placement) => placement.notice? descriptor

theorem mergeBy_placements_length (index : Index) (library : Library)
    (descriptors : List Descriptor) :
    (mergeBy index library descriptors).2.length = descriptors.length := by
  induction descriptors generalizing library with
  | nil => rfl
  | cons descriptor rest ih => simp [mergeBy, ih]

/-- There is one placement for every converted event. -/
theorem merge_placements_length (library : Library) (descriptors : List Descriptor) :
    (merge library descriptors).2.length = descriptors.length :=
  mergeBy_placements_length _ _ _

end SceneGallery.Library
