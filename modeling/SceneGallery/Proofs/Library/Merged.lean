import Mathlib.Data.List.Basic
import SceneGallery.Library.Merge
set_option autoImplicit false

/- The meaning of a merge, told by the library before it. The index of owners is older than the
library that it is used on, and a copy may play any event, so the state of a merge is followed with
the placements made so far: no copy ever plays the event of an original that is still to be copied.
-/
namespace SceneGallery.Library

/-- A scene with the character that has it and the place of that character. -/
structure Owned where
  place : Nat
  character : Character
  scene : Scene

/-- The scenes of one character that play an event. -/
def ownedBy (event : UInt32) (character : Character) (place : Nat) : List Owned :=
  (character.scenes.filter fun scene => scene.common = event).map fun scene =>
    ⟨place, character, scene⟩

/-- The scenes that play an event, in the order of the library. -/
def owned (library : Library) (event : UInt32) : List Owned :=
  library.characters.zipIdx.flatMap fun (character, place) => ownedBy event character place

/-- The places of the characters that have a scene of an event, one for each scene. -/
def own (library : Library) (event : UInt32) : List Nat :=
  (library.owned event).map Owned.place

/-- Whether an event is with a character, from the start or since one of the earlier descriptors. -/
def isPresent (library : Library) (earlier : List Descriptor) (place : Nat) (character : Character)
    (event : UInt32) : Bool :=
  (character.scenes.any fun scene => scene.common == event) ||
    earlier.any fun descriptor =>
      library.own descriptor.linkage == [place] && descriptor.derived == event

/-- What becomes of a descriptor after the given earlier ones. -/
def placementAfter (library : Library) (earlier : List Descriptor) (descriptor : Descriptor) :
    Placement :=
  match library.owned descriptor.linkage with
  | [] => .unmatched
  | [⟨place, character, original⟩] =>
    if library.isPresent earlier place character descriptor.derived then
      .alreadyPresent character.name
    else .inserted character.name (seductionName original.name)
  | several => .ambiguous (several.map fun owner => owner.character.name)

/-- The copies of a scene, the last one first. -/
def copies (library : Library) (placed : List (Descriptor × Placement)) (place : Nat)
    (scene : Scene) : List Scene :=
  (placed.reverse.filter fun (descriptor, placement) =>
    placement.isInserted && library.own descriptor.linkage == [place] &&
      descriptor.linkage == scene.common).map fun (descriptor, _) =>
        deriveScene scene descriptor.derived

/-- The character with the copies of each scene right after it. -/
def withCopies (library : Library) (placed : List (Descriptor × Placement)) (place : Nat)
    (character : Character) : Character :=
  { character with
    scenes := character.scenes.flatMap fun scene => scene :: library.copies placed place scene }

/-- The library with the copies of each scene right after it. -/
def filled (library : Library) (placed : List (Descriptor × Placement)) : Library :=
  { library with characters := library.characters.mapIdx (library.withCopies placed) }

theorem filterMap_entries (event : UInt32) (character : Character) (place : Nat) :
    (character.scenes.map fun scene => (scene.common, place)).filterMap
        (fun (played, place) => if played = event then some place else none) =
      (ownedBy event character place).map Owned.place := by
  rw [ownedBy, List.map_map, List.filterMap_map]
  induction character.scenes with
  | nil => rfl
  | cons scene rest ih =>
      by_cases played : scene.common = event
      · simp only [List.filterMap_cons, List.filter_cons, Function.comp_apply, played, decide_true,
          ↓reduceIte, List.map_cons]
        exact congrArg (place :: ·) ih
      · simp only [List.filterMap_cons, List.filter_cons, Function.comp_apply, played, decide_false,
          Bool.false_eq_true, ↓reduceIte]
        exact ih

/-- The index has the owners of every event. -/
theorem owners_ofLibrary (library : Library) (event : UInt32) :
    (Index.ofLibrary library).owners event = library.own event := by
  rw [Index.owners, Index.ofLibrary, own, owned, List.filterMap_flatMap, List.map_flatMap]
  congr 1
  funext ⟨character, place⟩
  exact filterMap_entries event character place

theorem mem_owned {library : Library} {event : UInt32} {entry : Owned} :
    entry ∈ library.owned event ↔
      library.characters[entry.place]? = some entry.character ∧
        entry.scene ∈ entry.character.scenes ∧ entry.scene.common = event := by
  obtain ⟨place, character, scene⟩ := entry
  simp only [owned, ownedBy, List.mem_flatMap, List.mem_map, List.mem_filter, decide_eq_true_eq,
    Owned.mk.injEq, Prod.exists, List.mk_mem_zipIdx_iff_getElem?]
  constructor
  · rintro ⟨_, _, found, _, ⟨member, played⟩, rfl, rfl, rfl⟩
    exact ⟨found, member, played⟩
  · rintro ⟨found, member, played⟩
    exact ⟨character, place, found, scene, ⟨member, played⟩, rfl, rfl, rfl⟩

theorem split_of_owned {library : Library} {event : UInt32} {place : Nat} {character : Character}
    {original : Scene} (single : library.owned event = [⟨place, character, original⟩]) :
    library.characters[place]? = some character ∧ ∃ before after,
      character.scenes = before ++ original :: after ∧ original.common = event ∧
        ∀ scene ∈ before ++ after, scene.common ≠ event := by
  have member : ⟨place, character, original⟩ ∈ library.owned event := by
    rw [single]
    exact List.mem_singleton_self _
  obtain ⟨found, inside, played⟩ : library.characters[place]? = some character ∧
      original ∈ character.scenes ∧ original.common = event := mem_owned.mp member
  have numbered : (character, place) ∈ library.characters.zipIdx :=
    List.mk_mem_zipIdx_iff_getElem?.mpr found
  have part : (ownedBy event character place).Sublist (library.owned event) :=
    List.sublist_flatten_of_mem (List.mem_map_of_mem numbered)
  rw [single, ownedBy] at part
  have few := part.length_le
  rw [List.length_map, List.length_singleton] at few
  obtain ⟨before, after, spelled⟩ := List.append_of_mem inside
  simp only [spelled, List.filter_append, List.filter_cons, played, decide_true, ↓reduceIte,
    List.length_append, List.length_cons] at few
  refine ⟨found, before, after, spelled, played, ?_⟩
  have none : (before ++ after).filter (fun scene => scene.common = event) = [] := by
    rw [List.filter_append]
    apply List.eq_nil_of_length_eq_zero
    rw [List.length_append]
    omega
  intro scene there same
  exact List.filter_eq_nil_iff.mp none scene there (decide_eq_true same)

theorem own_of_owned {library : Library} {event : UInt32} {entries : List Owned}
    (spelled : library.owned event = entries) : library.own event = entries.map Owned.place := by
  rw [own, spelled]

theorem exists_of_own {library : Library} {event : UInt32} {place : Nat}
    (single : library.own event = [place]) :
    ∃ character original, library.owned event = [⟨place, character, original⟩] := by
  obtain ⟨⟨_, character, original⟩, spelled, rfl⟩ := List.map_eq_singleton_iff.mp single
  exact ⟨character, original, spelled⟩

section Copies

variable {library : Library} {placed : List (Descriptor × Placement)} {place : Nat}

theorem mem_copies {scene copy : Scene} :
    copy ∈ library.copies placed place scene ↔
      ∃ descriptor placement, (descriptor, placement) ∈ placed ∧ placement.isInserted = true ∧
        library.own descriptor.linkage = [place] ∧ descriptor.linkage = scene.common ∧
          deriveScene scene descriptor.derived = copy := by
  simp only [copies, List.mem_map, List.mem_filter, List.mem_reverse, Bool.and_eq_true, beq_iff_eq,
    Prod.exists, and_assoc]

/-- A new placement puts its copy in front of the others of its original. -/
theorem copies_concat (scene : Scene) (descriptor : Descriptor) (placement : Placement) :
    library.copies (placed ++ [(descriptor, placement)]) place scene =
      if placement.isInserted && library.own descriptor.linkage == [place] &&
          descriptor.linkage == scene.common then
        deriveScene scene descriptor.derived :: library.copies placed place scene
      else library.copies placed place scene := by
  rw [copies, copies, List.reverse_concat, List.filter_cons, apply_ite (List.map _)]
  rfl

theorem copies_nil (scene : Scene) : library.copies [] place scene = [] := rfl

theorem filled_nil : library.filled [] = library := by
  have same : ∀ place, library.withCopies [] place = id := by
    intro place
    funext character
    simp only [withCopies, copies_nil, List.flatMap_singleton', id]
  rw [filled]
  have characters : library.characters.mapIdx (library.withCopies []) = library.characters := by
    rw [List.mapIdx_eq_iff]
    intro place
    rw [same, Option.map_id]
    rfl
  rw [characters]

theorem characters_filled (place : Nat) :
    (library.filled placed).characters[place]? =
      library.characters[place]?.map (library.withCopies placed place) :=
  List.getElem?_mapIdx

theorem filled_concat_of_not_inserted {placement : Placement} (descriptor : Descriptor)
    (kept : placement.isInserted = false) :
    library.filled (placed ++ [(descriptor, placement)]) = library.filled placed := by
  have same : library.withCopies (placed ++ [(descriptor, placement)]) =
      library.withCopies placed := by
    funext place character
    simp only [withCopies, copies_concat, kept, Bool.false_and, Bool.false_eq_true, ↓reduceIte]
  rw [filled, filled, same]

theorem mem_withCopies {character : Character} {scene : Scene} :
    scene ∈ (library.withCopies placed place character).scenes ↔
      scene ∈ character.scenes ∨
        ∃ original ∈ character.scenes, scene ∈ library.copies placed place original := by
  simp only [withCopies, List.mem_flatMap, List.mem_cons]
  constructor
  · rintro ⟨original, member, rfl | copy⟩
    · exact Or.inl member
    · exact Or.inr ⟨original, member, copy⟩
  · rintro (member | ⟨original, member, copy⟩)
    · exact ⟨scene, member, Or.inl rfl⟩
    · exact ⟨original, member, Or.inr copy⟩

theorem mem_withCopies_concat {character : Character} {scene : Scene}
    (member : scene ∈ (library.withCopies placed place character).scenes)
    (descriptor : Descriptor) (placement : Placement) :
    scene ∈ (library.withCopies (placed ++ [(descriptor, placement)]) place character).scenes := by
  rw [mem_withCopies] at member ⊢
  refine member.imp_right ?_
  rintro ⟨original, inside, copy⟩
  refine ⟨original, inside, ?_⟩
  rw [copies_concat]
  split
  · exact List.mem_cons_of_mem _ copy
  · exact copy

end Copies

/-- What holds of the placements made so far. A copy plays an event that its character did not have,
and an event with a single owner is with that owner once it is placed. -/
structure Consistent (library : Library) (placed : List (Descriptor × Placement)) : Prop where
  fresh : ∀ descriptor placement place character, (descriptor, placement) ∈ placed →
    placement.isInserted = true → library.own descriptor.linkage = [place] →
      library.characters[place]? = some character →
        ∀ scene ∈ character.scenes, scene.common ≠ descriptor.derived
  present : ∀ descriptor placement place character, (descriptor, placement) ∈ placed →
    library.own descriptor.linkage = [place] → library.characters[place]? = some character →
      ∃ scene ∈ (library.withCopies placed place character).scenes,
        scene.common = descriptor.derived

theorem consistent_nil (library : Library) : Consistent library [] where
  fresh := by
    intro _ _ _ _ member
    cases member
  present := by
    intro _ _ _ _ member
    cases member

section Step

variable {library : Library} {placed : List (Descriptor × Placement)}
  (consistent : Consistent library placed)
include consistent

/-- The events of a character are those it had and those placed with it. -/
theorem exists_scene_iff {place : Nat} {character : Character}
    (found : library.characters[place]? = some character) (event : UInt32) :
    (∃ scene ∈ (library.withCopies placed place character).scenes, scene.common = event) ↔
      library.isPresent (placed.map Prod.fst) place character event = true := by
  simp only [isPresent, Bool.or_eq_true, List.any_eq_true, beq_iff_eq, Bool.and_eq_true,
    List.mem_map, Prod.exists]
  constructor
  · rintro ⟨scene, member, rfl⟩
    rcases mem_withCopies.mp member with own | ⟨original, _, copy⟩
    · exact Or.inl ⟨scene, own, rfl⟩
    · obtain ⟨descriptor, placement, earlier, _, single, _, rfl⟩ := mem_copies.mp copy
      exact Or.inr ⟨descriptor, ⟨descriptor, placement, earlier, rfl⟩, single, rfl⟩
  · rintro (⟨scene, own, rfl⟩ | ⟨_, ⟨descriptor, placement, earlier, rfl⟩, single, rfl⟩)
    · exact ⟨scene, mem_withCopies.mpr (Or.inl own), rfl⟩
    · exact consistent.present descriptor placement place character earlier single found

/-- No copy plays the event of an original. -/
theorem common_ne_of_copy {place : Nat} {character : Character} {original copied copy : Scene}
    (found : library.characters[place]? = some character) (member : original ∈ character.scenes)
    (copyOf : copy ∈ library.copies placed place copied) : copy.common ≠ original.common := by
  obtain ⟨descriptor, placement, earlier, inserted, single, _, rfl⟩ := mem_copies.mp copyOf
  exact (consistent.fresh descriptor placement place character earlier inserted single found
    original member).symm

end Step

theorem findScene_eq_none_iff {character : Character} {event : UInt32} :
    character.findScene event = none ↔ ∀ scene ∈ character.scenes, scene.common ≠ event := by
  simp only [Character.findScene, List.findIdx?_eq_none_iff, beq_eq_false_iff_ne]

/-- The first scene of an event stands behind scenes of other events only. -/
theorem findScene_of_split {character : Character} {event : UInt32} {before after : List Scene}
    {scene : Scene} (spelled : character.scenes = before ++ scene :: after)
    (others : ∀ other ∈ before, other.common ≠ event) (played : scene.common = event) :
    character.findScene event = some before.length := by
  have absent : before.findIdx? (fun scene => scene.common == event) = none := by
    rw [List.findIdx?_eq_none_iff]
    intro other member
    exact beq_eq_false_iff_ne.mpr (others other member)
  rw [Character.findScene, spelled, List.findIdx?_append, absent, List.findIdx?_cons, played]
  simp

theorem insertIdx_after {α : Type} (before after : List α) (a new : α) :
    (before ++ a :: after).insertIdx (before.length + 1) new = before ++ a :: new :: after := by
  induction before with
  | nil => rfl
  | cons b before ih =>
      rw [List.cons_append, List.length_cons, List.insertIdx_succ_cons, ih, List.cons_append]

section Insertion

variable {library : Library} {placed : List (Descriptor × Placement)} {descriptor : Descriptor}
  {placement : Placement} {place : Nat}

theorem copies_concat_of_ne {scene : Scene} (other : scene.common ≠ descriptor.linkage) :
    library.copies (placed ++ [(descriptor, placement)]) place scene =
      library.copies placed place scene := by
  have differs : (descriptor.linkage == scene.common) = false := beq_eq_false_iff_ne.mpr other.symm
  rw [copies_concat, differs, Bool.and_false]
  rfl

theorem setCharacter_filled {character : Character}
    (found : library.characters[place]? = some character)
    (single : library.own descriptor.linkage = [place]) :
    (library.filled placed).setCharacter place
        (library.withCopies (placed ++ [(descriptor, placement)]) place character) =
      library.filled (placed ++ [(descriptor, placement)]) := by
  have elsewhere : ∀ other, place ≠ other → ∀ character,
      library.withCopies (placed ++ [(descriptor, placement)]) other character =
        library.withCopies placed other character := by
    intro other different character
    have unowned : (library.own descriptor.linkage == [other]) = false := by
      rw [single, beq_eq_false_iff_ne]
      intro same
      exact different (List.cons.inj same).1
    simp only [withCopies, copies_concat, unowned, Bool.and_false, Bool.false_and,
      Bool.false_eq_true, ↓reduceIte]
  have characters : (library.characters.mapIdx (library.withCopies placed)).set place
      (library.withCopies (placed ++ [(descriptor, placement)]) place character) =
        library.characters.mapIdx (library.withCopies (placed ++ [(descriptor, placement)])) := by
    apply List.ext_getElem?
    intro other
    rw [List.getElem?_set, List.getElem?_mapIdx, List.getElem?_mapIdx, List.length_mapIdx]
    by_cases here : place = other
    · subst here
      have inside : place < library.characters.length := (List.getElem?_eq_some_iff.mp found).1
      rw [if_pos rfl, if_pos inside, found, Option.map_some]
    · rw [if_neg here]
      cases library.characters[other]? with
      | none => rfl
      | some character => rw [Option.map_some, Option.map_some, elsewhere other here]
  rw [setCharacter, filled, filled, characters]

/-- The scene put in after an original is the first of its copies. -/
theorem insertAfter_withCopies {character : Character} {before after : List Scene}
    {original : Scene} (spelled : character.scenes = before ++ original :: after)
    (played : original.common = descriptor.linkage)
    (others : ∀ scene ∈ before ++ after, scene.common ≠ descriptor.linkage)
    (single : library.own descriptor.linkage = [place]) (inserted : placement.isInserted = true) :
    insertAfter (library.withCopies placed place character)
        (before.flatMap fun scene => scene :: library.copies placed place scene).length
        (deriveScene original descriptor.derived) =
      library.withCopies (placed ++ [(descriptor, placement)]) place character := by
  have unchanged : ∀ scenes : List Scene, (∀ scene ∈ scenes, scene.common ≠ descriptor.linkage) →
      (scenes.flatMap fun scene =>
          scene :: library.copies (placed ++ [(descriptor, placement)]) place scene) =
        scenes.flatMap fun scene => scene :: library.copies placed place scene := by
    intro scenes differ
    rw [List.flatMap_def, List.flatMap_def]
    congr 1
    apply List.map_congr_left
    intro scene member
    rw [copies_concat_of_ne (differ scene member)]
  have first : library.copies (placed ++ [(descriptor, placement)]) place original =
      deriveScene original descriptor.derived :: library.copies placed place original := by
    rw [copies_concat, inserted, single, played]
    simp only [beq_self_eq_true, Bool.and_self, ↓reduceIte]
  have front := unchanged before fun scene member => others scene (List.mem_append_left _ member)
  have back := unchanged after fun scene member => others scene (List.mem_append_right _ member)
  rw [insertAfter, withCopies, withCopies, spelled]
  simp only [List.flatMap_append, List.flatMap_cons, List.cons_append]
  rw [insertIdx_after, front, back, first, List.cons_append]

end Insertion

theorem placeWith_of_absent {library : Library} {placed : List (Descriptor × Placement)}
    (consistent : Consistent library placed) {descriptor : Descriptor} {place : Nat}
    {character : Character} {original : Scene}
    (single : library.owned descriptor.linkage = [⟨place, character, original⟩])
    (absent : library.isPresent (placed.map Prod.fst) place character descriptor.derived = false) :
    let placement := Placement.inserted character.name (seductionName original.name)
    (library.filled placed).placeWith place (library.withCopies placed place character) descriptor =
      (library.filled (placed ++ [(descriptor, placement)]), placement) := by
  intro placement
  obtain ⟨found, before, after, spelled, played, others⟩ := split_of_owned single
  have owner : library.own descriptor.linkage = [place] := own_of_owned single
  have member : original ∈ character.scenes := by
    rw [spelled]
    exact List.mem_append_right _ List.mem_cons_self
  have unplayed : (library.withCopies placed place character).findScene descriptor.derived =
      none := by
    rw [findScene_eq_none_iff]
    intro scene inside same
    have present := (exists_scene_iff consistent found _).mp ⟨scene, inside, same⟩
    rw [absent] at present
    cases present
  let front := before.flatMap fun scene => scene :: library.copies placed place scene
  have laidOut : (library.withCopies placed place character).scenes =
      front ++ original :: (library.copies placed place original ++
        after.flatMap fun scene => scene :: library.copies placed place scene) := by
    simp only [withCopies, spelled, List.flatMap_append, List.flatMap_cons, List.cons_append, front]
  have before_other : ∀ scene ∈ front, scene.common ≠ descriptor.linkage := by
    intro scene inside
    obtain ⟨source, there, copied⟩ := List.mem_flatMap.mp inside
    rcases List.mem_cons.mp copied with rfl | copy
    · exact others scene (List.mem_append_left _ there)
    · rw [← played]
      exact common_ne_of_copy consistent found member copy
  have position := findScene_of_split laidOut before_other played
  have there : (library.withCopies placed place character).scenes[front.length]? =
      some original := by
    rw [laidOut, List.getElem?_append_right (Nat.le_refl _), Nat.sub_self]
    rfl
  rw [placeWith, unplayed, position]
  simp only [there]
  have copied : insertAfter (library.withCopies placed place character) front.length
      (deriveScene original descriptor.derived) =
        library.withCopies (placed ++ [(descriptor, placement)]) place character :=
    insertAfter_withCopies spelled played others owner rfl
  rw [copied, setCharacter_filled found owner]
  rfl

theorem placeWith_of_present {library : Library} {placed : List (Descriptor × Placement)}
    (consistent : Consistent library placed) {descriptor : Descriptor} {place : Nat}
    {character : Character} (found : library.characters[place]? = some character)
    (present : library.isPresent (placed.map Prod.fst) place character descriptor.derived = true) :
    (library.filled placed).placeWith place (library.withCopies placed place character) descriptor =
      (library.filled placed, .alreadyPresent character.name) := by
  obtain ⟨scene, member, played⟩ := (exists_scene_iff consistent found _).mpr present
  rw [placeWith]
  cases position : (library.withCopies placed place character).findScene descriptor.derived with
  | none => exact absurd played (findScene_eq_none_iff.mp position scene member)
  | some _ => rfl

/-- Placing one more descriptor. -/
theorem place_filled {library : Library} {placed : List (Descriptor × Placement)}
    (consistent : Consistent library placed) (descriptor : Descriptor) :
    let placement := library.placementAfter (placed.map Prod.fst) descriptor
    place (.ofLibrary library) (library.filled placed) descriptor =
      (library.filled (placed ++ [(descriptor, placement)]), placement) := by
  intro placement
  have named : ∀ entry ∈ library.owned descriptor.linkage,
      ((library.filled placed).characters[entry.place]?.map fun character => character.name) =
        some entry.character.name := by
    intro entry member
    rw [characters_filled, (mem_owned.mp member).1]
    rfl
  have unfolded : placement = library.placementAfter (placed.map Prod.fst) descriptor := rfl
  rw [place, owners_ofLibrary]
  rw [placementAfter] at unfolded
  match spelled : library.owned descriptor.linkage with
  | [] =>
      rw [spelled] at unfolded
      rw [own_of_owned spelled, unfolded, filled_concat_of_not_inserted descriptor rfl]
      rfl
  | [⟨place, character, original⟩] =>
      have found := (split_of_owned spelled).1
      rw [spelled] at unfolded
      simp only at unfolded
      rw [own_of_owned spelled]
      simp only [List.map_cons, List.map_nil, characters_filled, found, Option.map_some]
      cases present :
          library.isPresent (placed.map Prod.fst) place character descriptor.derived with
      | true =>
          rw [present, if_pos rfl] at unfolded
          rw [unfolded, filled_concat_of_not_inserted descriptor rfl,
            placeWith_of_present consistent found present]
      | false =>
          rw [present, if_neg (by decide)] at unfolded
          rw [unfolded, placeWith_of_absent consistent spelled present]
  | first :: second :: rest =>
      rw [spelled] at unfolded
      simp only at unfolded
      have names : (((first :: second :: rest).map Owned.place).filterMap fun owner =>
          (library.filled placed).characters[owner]?.map fun character => character.name) =
            (first :: second :: rest).map fun owner => owner.character.name := by
        rw [List.filterMap_map, ← List.filterMap_eq_map]
        apply List.filterMap_congr
        intro entry member
        exact named entry (by rw [spelled]; exact member)
      rw [own_of_owned spelled, unfolded, filled_concat_of_not_inserted descriptor rfl, ← names]
      rfl

theorem placementAfter_of_own {library : Library} {earlier : List Descriptor}
    {descriptor : Descriptor} {place : Nat} {character : Character}
    (single : library.own descriptor.linkage = [place])
    (found : library.characters[place]? = some character) :
    (library.isPresent earlier place character descriptor.derived = true ∧
        library.placementAfter earlier descriptor = .alreadyPresent character.name) ∨
      library.isPresent earlier place character descriptor.derived = false ∧
        ∃ original ∈ character.scenes, original.common = descriptor.linkage ∧
          library.placementAfter earlier descriptor =
            .inserted character.name (seductionName original.name) := by
  obtain ⟨owner, original, spelled⟩ := exists_of_own single
  obtain ⟨there, before, after, scenes, played, _⟩ := split_of_owned spelled
  obtain rfl : owner = character := by
    rw [there] at found
    exact Option.some.inj found
  rw [placementAfter, spelled]
  cases present : library.isPresent earlier place owner descriptor.derived with
  | true => exact Or.inl ⟨rfl, by simp only [present, ↓reduceIte]⟩
  | false =>
      refine Or.inr ⟨rfl, original, ?_, played, ?_⟩
      · rw [scenes]
        exact List.mem_append_right _ List.mem_cons_self
      · simp only [present, Bool.false_eq_true, ↓reduceIte]

/-- One more placement keeps what holds of the placements. -/
theorem consistent_concat {library : Library} {placed : List (Descriptor × Placement)}
    (consistent : Consistent library placed) (descriptor : Descriptor) :
    Consistent library
      (placed ++ [(descriptor, library.placementAfter (placed.map Prod.fst) descriptor)]) where
  fresh := by
    intro other placement place character member inserted single found scene inside same
    rcases List.mem_append.mp member with earlier | last
    · exact consistent.fresh other placement place character earlier inserted single found scene
        inside same
    · obtain ⟨rfl, rfl⟩ := Prod.mk.inj (List.mem_singleton.mp last)
      rcases placementAfter_of_own single found with ⟨_, placed⟩ | ⟨absent, _⟩
      · rw [placed] at inserted
        cases inserted
      · have present := (exists_scene_iff consistent found other.derived).mp
          ⟨scene, mem_withCopies.mpr (Or.inl inside), same⟩
        rw [absent] at present
        cases present
  present := by
    intro other placement place character member single found
    rcases List.mem_append.mp member with earlier | last
    · obtain ⟨scene, inside, played⟩ :=
        consistent.present other placement place character earlier single found
      exact ⟨scene, mem_withCopies_concat inside _ _, played⟩
    · obtain ⟨rfl, rfl⟩ := Prod.mk.inj (List.mem_singleton.mp last)
      rcases placementAfter_of_own single found with
        ⟨present, _⟩ | ⟨_, original, inside, played, put⟩
      · obtain ⟨scene, inside, played⟩ := (exists_scene_iff consistent found _).mpr present
        exact ⟨scene, mem_withCopies_concat inside _ _, played⟩
      · refine ⟨deriveScene original other.derived, ?_, rfl⟩
        rw [mem_withCopies]
        refine Or.inr ⟨original, inside, mem_copies.mpr ?_⟩
        exact ⟨other, _, List.mem_append_right _ List.mem_cons_self, by rw [put]; rfl, single,
          played.symm, rfl⟩

/-- Placing descriptors after those that have been placed. -/
theorem mergeBy_filled {library : Library} {placed : List (Descriptor × Placement)}
    (consistent : Consistent library placed) (descriptors : List Descriptor) :
    let merged := mergeBy (.ofLibrary library) (library.filled placed) descriptors
    merged.1 = library.filled (placed ++ descriptors.zip merged.2) ∧
      ∀ k, merged.2[k]? = descriptors[k]?.map
        (library.placementAfter (placed.map Prod.fst ++ descriptors.take k)) := by
  induction descriptors generalizing placed with
  | nil =>
      refine ⟨?_, fun k => rfl⟩
      rw [mergeBy, List.zip_nil_left, List.append_nil]
  | cons descriptor rest ih =>
      obtain ⟨later, each⟩ := ih (consistent_concat consistent descriptor)
      rw [mergeBy, place_filled consistent descriptor]
      refine ⟨?_, ?_⟩
      · simp only [later, List.zip_cons_cons, List.append_assoc, List.cons_append, List.nil_append]
      · intro k
        cases k with
        | zero => simp only [List.getElem?_cons_zero, Option.map_some, List.take_zero,
            List.append_nil]
        | succ k =>
            rw [List.getElem?_cons_succ, List.getElem?_cons_succ, each k, List.map_append,
              List.append_assoc, List.take_succ_cons]
            rfl

theorem placementAfter_ne_missing (library : Library) (earlier : List Descriptor)
    (descriptor : Descriptor) (name : String) :
    library.placementAfter earlier descriptor ≠ .missingDefeat name := by
  rw [placementAfter]
  split
  · exact nofun
  · split <;> exact nofun
  · exact nofun

/-- What a merge returns: one placement for every descriptor, by the descriptors before it, and the
library with the copies of each scene behind it. -/
theorem merge_eq_filled (library : Library) (descriptors : List Descriptor) :
    (merge library descriptors).2.length = descriptors.length ∧
      (∀ k, (merge library descriptors).2[k]? =
        descriptors[k]?.map (library.placementAfter (descriptors.take k))) ∧
      (∀ name, .missingDefeat name ∉ (merge library descriptors).2) ∧
      (merge library descriptors).1 =
        library.filled (descriptors.zip (merge library descriptors).2) := by
  obtain ⟨whole, each⟩ := mergeBy_filled (consistent_nil library) descriptors
  rw [filled_nil] at whole each
  have placements : ∀ k, (merge library descriptors).2[k]? =
      descriptors[k]?.map (library.placementAfter (descriptors.take k)) := each
  refine ⟨merge_placements_length library descriptors, placements, ?_, whole⟩
  intro name member
  obtain ⟨k, found⟩ := List.mem_iff_getElem?.mp member
  rw [placements k] at found
  obtain ⟨descriptor, _, missing⟩ := Option.map_eq_some_iff.mp found
  exact placementAfter_ne_missing library _ descriptor name missing

end SceneGallery.Library
