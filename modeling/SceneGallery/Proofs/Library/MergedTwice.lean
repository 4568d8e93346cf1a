import SceneGallery.Proofs.Library.Copied
set_option autoImplicit false

namespace SceneGallery.Library

theorem map_fst_placements (library : Library) (descriptors : List Descriptor) :
    (descriptors.zip (merge library descriptors).2).map Prod.fst = descriptors :=
  List.map_fst_zip (Nat.le_of_eq (merge_placements_length library descriptors).symm)

theorem exists_placement {descriptors : List Descriptor} {descriptor : Descriptor}
    (library : Library) (member : descriptor ∈ descriptors) :
    ∃ placement, (descriptor, placement) ∈ descriptors.zip (merge library descriptors).2 := by
  rw [← map_fst_placements library descriptors] at member
  obtain ⟨⟨_, placement⟩, inside, rfl⟩ := List.mem_map.mp member
  exact ⟨placement, inside⟩

/-- A second merge of the same descriptors leaves the library as it is exactly if every descriptor
that had no owner, and has a single one among the copies of the first merge, has its event with that
owner by then. -/
theorem merge_twice_iff (library : Library) (descriptors : List Descriptor) :
    (merge (merge library descriptors).1 descriptors).1 = (merge library descriptors).1 ↔
      ∀ descriptor ∈ descriptors, library.own descriptor.linkage = [] →
        ∀ place character, library.characters[place]? = some character →
          library.gained (descriptors.zip (merge library descriptors).2) descriptor.linkage =
              [place] →
            library.isPresent descriptors place character descriptor.derived = true := by
  obtain ⟨consistent, whole, _⟩ := consistent_merge library descriptors
  obtain ⟨again, wholeAgain, _⟩ := consistent_merge (merge library descriptors).1 descriptors
  have owners := perm_own_filled (singleOriginals_merge library descriptors)
  have present : ∀ {place : Nat} {character : Character} (event : UInt32),
      library.characters[place]? = some character →
        ((∃ scene ∈ (library.withCopies (descriptors.zip (merge library descriptors).2) place
            character).scenes, scene.common = event) ↔
          library.isPresent descriptors place character event = true) := by
    intro place character event found
    rw [exists_scene_iff consistent found event, map_fst_placements]
  constructor
  · intro unchanged descriptor member unowned place character found copied
    have owner : (merge library descriptors).1.own descriptor.linkage = [place] := by
      have joined := owners descriptor.linkage
      rw [unowned, copied, List.nil_append, ← whole] at joined
      exact List.perm_singleton.mp joined
    obtain ⟨placement, placed⟩ := exists_placement (merge library descriptors).1 member
    have there : (merge library descriptors).1.characters[place]? =
        some (library.withCopies (descriptors.zip (merge library descriptors).2) place
          character) := by
      rw [whole, characters_filled, found, Option.map_some]
    obtain ⟨scene, inside, played⟩ :=
      again.present descriptor placement place _ placed owner there
    have same := there
    rw [← unchanged, wholeAgain, characters_filled, there, Option.map_some,
      Option.some.injEq] at same
    rw [same] at inside
    exact (present descriptor.derived found).mp ⟨scene, inside, played⟩
  · intro chained
    rw [wholeAgain]
    apply filled_of_not_inserted
    rintro ⟨descriptor, placement⟩ member
    by_contra inserted
    rw [Bool.not_eq_false] at inserted
    obtain ⟨place, owner⟩ := singleOriginals_merge _ descriptors _ member inserted
    obtain ⟨copiedTo, _, spelled⟩ := exists_of_own owner
    have there : (merge library descriptors).1.characters[place]? = some copiedTo :=
      (split_of_owned spelled).1
    have old := there
    rw [whole, characters_filled, Option.map_eq_some_iff] at old
    obtain ⟨character, found, rfl⟩ := old
    have joined := owners descriptor.linkage
    rw [← whole, owner] at joined
    have known : ∃ scene ∈ (library.withCopies (descriptors.zip (merge library descriptors).2)
        place character).scenes, scene.common = descriptor.derived := by
      rcases List.append_eq_singleton_iff.mp (List.perm_singleton.mp joined.symm) with
        ⟨unowned, copied⟩ | ⟨owned, _⟩
      · exact (present _ found).mpr
          (chained descriptor (List.of_mem_zip member).1 unowned place character found copied)
      · obtain ⟨first, placed⟩ := exists_placement library (List.of_mem_zip member).1
        exact consistent.present descriptor first place character placed owned found
    obtain ⟨scene, inside, played⟩ := known
    exact again.fresh descriptor placement place _ member inserted owner there scene inside played

/-- A library with a scene of a defeat. -/
def almaLibrary : Library where
  leading := ["H_SCENE_ITEMS"]
  characters := [⟨1, [], "Alma", [], [{ name := "Defeat 1", common := 3101 }]⟩]
  closer := "\x7d"
  trailing := []
  layout := ⟨.lf, true⟩

/-- Two converted events of which the second is linked to the first. -/
def chainedDescriptors : List Descriptor :=
  [⟨9200, 3101, "CommonEvent9200.txt"⟩, ⟨9201, 9200, "CommonEvent9201.txt"⟩]

/-- The second event finds no owner in the first merge and the copy of the first event in the
second merge. -/
theorem merge_twice_chainedDescriptors :
    let merged := (merge almaLibrary chainedDescriptors).1
    chainedDescriptors.map Descriptor.derived = [9200, 9201] ∧
      (∀ descriptor ∈ chainedDescriptors,
        3000 ≤ descriptor.linkage ∧ descriptor.linkage ≤ 9999) ∧
      (merge almaLibrary chainedDescriptors).2 = [.inserted "Alma" "Seduce 1", .unmatched] ∧
      (merge merged chainedDescriptors).2 =
        [.alreadyPresent "Alma", .inserted "Alma" "Seduce 1"] ∧
      (merge merged chainedDescriptors).1 ≠ merged := by
  decide

end SceneGallery.Library
