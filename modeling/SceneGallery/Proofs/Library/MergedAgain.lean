import Mathlib.Data.List.Induction
import SceneGallery.Proofs.Library.Merged
set_option autoImplicit false

namespace SceneGallery.Library

/-- What becomes of a descriptor that is placed a second time. -/
def Placement.again : Placement → Placement
  | .inserted character _ => .alreadyPresent character
  | placement => placement

theorem Placement.isInserted_again (placement : Placement) :
    placement.again.isInserted = false := by
  cases placement <;> rfl

theorem filled_of_not_inserted {library : Library} {placed : List (Descriptor × Placement)}
    (kept : ∀ entry ∈ placed, entry.2.isInserted = false) : library.filled placed = library := by
  induction placed using List.reverseRecOn with
  | nil => exact filled_nil
  | append_singleton earlier last ih =>
      obtain ⟨descriptor, placement⟩ := last
      rw [filled_concat_of_not_inserted descriptor (kept (descriptor, placement) (by simp))]
      exact ih fun entry member => kept entry (List.mem_append_left _ member)

theorem consistent_mergeBy {library : Library} {placed : List (Descriptor × Placement)}
    (consistent : Consistent library placed) (descriptors : List Descriptor) :
    Consistent library (placed ++
      descriptors.zip (mergeBy (.ofLibrary library) (library.filled placed) descriptors).2) := by
  induction descriptors generalizing placed with
  | nil =>
      rw [List.zip_nil_left, List.append_nil]
      exact consistent
  | cons descriptor rest ih =>
      have later := ih (consistent_concat consistent descriptor)
      rw [List.append_assoc] at later
      rw [mergeBy, place_filled consistent descriptor]
      exact later

theorem consistent_merge (library : Library) (descriptors : List Descriptor) :
    Consistent library (descriptors.zip (merge library descriptors).2) ∧
      (merge library descriptors).1 =
        library.filled (descriptors.zip (merge library descriptors).2) ∧
      ∀ k, (merge library descriptors).2[k]? =
        descriptors[k]?.map (library.placementAfter (descriptors.take k)) := by
  have consistent := consistent_mergeBy (consistent_nil library) descriptors
  have filled := mergeBy_filled (consistent_nil library) descriptors
  rw [filled_nil] at consistent filled
  exact ⟨consistent, filled⟩

/-- An owner after a merge. -/
def Owned.filled (library : Library) (placed : List (Descriptor × Placement)) (entry : Owned) :
    Owned :=
  { entry with character := library.withCopies placed entry.place entry.character }

section Filled

variable {library : Library} {placed : List (Descriptor × Placement)}

theorem zipIdx_filled (library : Library) (placed : List (Descriptor × Placement)) :
    (library.filled placed).characters.zipIdx =
      library.characters.zipIdx.map fun entry =>
        (library.withCopies placed entry.2 entry.1, entry.2) := by
  apply List.ext_getElem?
  intro place
  simp only [filled, List.getElem?_zipIdx, List.getElem?_mapIdx, List.getElem?_map,
    Option.map_map, Nat.zero_add]
  rfl

theorem ownedBy_withCopies {event : UInt32}
    (unplayed : ∀ entry ∈ placed, entry.1.derived ≠ event) (character : Character) (place : Nat) :
    ownedBy event (library.withCopies placed place character) place =
      (ownedBy event character place).map (Owned.filled library placed) := by
  have none : ∀ scene : Scene,
      (library.copies placed place scene).filter (fun copy => copy.common = event) = [] := by
    intro scene
    rw [List.filter_eq_nil_iff]
    intro copy member played
    obtain ⟨descriptor, placement, earlier, _, _, _, rfl⟩ := mem_copies.mp member
    exact unplayed _ earlier (of_decide_eq_true played)
  have same : ∀ scenes : List Scene,
      (scenes.flatMap fun scene => scene :: library.copies placed place scene).filter
          (fun scene => scene.common = event) =
        scenes.filter fun scene => scene.common = event := by
    intro scenes
    induction scenes with
    | nil => rfl
    | cons scene rest ih =>
        rw [List.flatMap_cons, List.filter_append, ih, List.filter_cons, List.filter_cons, none]
        split <;> rfl
  rw [ownedBy, ownedBy, List.map_map]
  simp only [withCopies, same]
  rfl

/-- The scenes of an event that no copy plays have the same owners after a merge. -/
theorem owned_filled {event : UInt32} (unplayed : ∀ entry ∈ placed, entry.1.derived ≠ event) :
    (library.filled placed).owned event =
      (library.owned event).map (Owned.filled library placed) := by
  rw [owned, owned, zipIdx_filled, List.flatMap_map, List.map_flatMap]
  congr 1
  funext entry
  rcases entry with ⟨character, place⟩
  exact ownedBy_withCopies unplayed character place

/-- A descriptor that has been placed finds its event with its owner. -/
theorem placementAfter_filled (consistent : Consistent library placed) {descriptor : Descriptor}
    {placement : Placement} (member : (descriptor, placement) ∈ placed)
    (unplayed : ∀ entry ∈ placed, entry.1.derived ≠ descriptor.linkage)
    (earlier : List Descriptor) :
    (library.filled placed).placementAfter earlier descriptor =
      (library.placementAfter earlier descriptor).again := by
  rw [placementAfter, placementAfter, owned_filled unplayed]
  rcases spelled : library.owned descriptor.linkage with
    _ | ⟨⟨place, character, original⟩, _ | ⟨second, rest⟩⟩
  · rfl
  · have single : library.own descriptor.linkage = [place] := own_of_owned spelled
    obtain ⟨scene, inside, played⟩ := consistent.present descriptor placement place character
      member single (split_of_owned spelled).1
    have present : (library.filled placed).isPresent earlier place
        (library.withCopies placed place character) descriptor.derived = true := by
      rw [isPresent, Bool.or_eq_true, List.any_eq_true]
      exact Or.inl ⟨scene, inside, beq_iff_eq.mpr played⟩
    simp only [List.map_cons, List.map_nil, Owned.filled, present, ↓reduceIte]
    split <;> rfl
  · simp only [List.map_cons, Owned.filled, List.map_map]
    rfl

end Filled

/-- Merging the same descriptors once more inserts nothing, if none of them is linked to an event
that one of them plays. -/
theorem merge_merged (library : Library) {descriptors : List Descriptor}
    (apart : ∀ linked ∈ descriptors, ∀ derived ∈ descriptors, linked.linkage ≠ derived.derived) :
    merge (merge library descriptors).1 descriptors =
      ((merge library descriptors).1, (merge library descriptors).2.map Placement.again) := by
  obtain ⟨consistent, whole, each⟩ := consistent_merge library descriptors
  obtain ⟨_, wholeAgain, eachAgain⟩ := consistent_merge (merge library descriptors).1 descriptors
  have placements : (merge (merge library descriptors).1 descriptors).2 =
      (merge library descriptors).2.map Placement.again := by
    apply List.ext_getElem?
    intro k
    rw [eachAgain, List.getElem?_map, each, Option.map_map]
    cases given : descriptors[k]? with
    | none => rfl
    | some descriptor =>
        have place := each k
        rw [given, Option.map_some] at place
        have member : (descriptor, library.placementAfter (descriptors.take k) descriptor) ∈
            descriptors.zip (merge library descriptors).2 :=
          List.mem_iff_getElem?.mpr ⟨k, by
            rw [List.getElem?_zip_eq_some]
            exact ⟨given, place⟩⟩
        have unplayed : ∀ entry ∈ descriptors.zip (merge library descriptors).2,
            entry.1.derived ≠ descriptor.linkage := by
          intro entry there
          exact (apart descriptor (List.mem_of_getElem? given) entry.1
            (List.of_mem_zip there).1).symm
        rw [Option.map_some, Option.map_some, whole]
        exact congrArg some (placementAfter_filled consistent member unplayed _)
  refine Prod.ext ?_ placements
  rw [wholeAgain, placements]
  apply filled_of_not_inserted
  intro entry member
  obtain ⟨placement, _, same⟩ := List.mem_map.mp (List.of_mem_zip member).2
  rw [← same]
  exact placement.isInserted_again

end SceneGallery.Library
