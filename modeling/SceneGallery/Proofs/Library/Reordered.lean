import SceneGallery.Proofs.Library.MergedAgain
set_option autoImplicit false

namespace SceneGallery.Library

theorem isPresent_of_new (library : Library) {earlier : List Descriptor} {event : UInt32}
    (new : ∀ descriptor ∈ earlier, descriptor.derived ≠ event) (place : Nat)
    (character : Character) :
    library.isPresent earlier place character event =
      library.isPresent [] place character event := by
  have absent : (earlier.any fun descriptor =>
      library.own descriptor.linkage == [place] && descriptor.derived == event) = false := by
    simp only [List.any_eq_false, Bool.and_eq_true, beq_iff_eq, not_and]
    intro descriptor member _
    exact new descriptor member
  rw [isPresent, isPresent, absent, List.any_nil]

/-- What becomes of a descriptor after others that play other events is what becomes of it alone. -/
theorem placementAfter_of_new (library : Library) {earlier : List Descriptor}
    {descriptor : Descriptor} (new : ∀ other ∈ earlier, other.derived ≠ descriptor.derived) :
    library.placementAfter earlier descriptor = library.placementAfter [] descriptor := by
  simp only [placementAfter, isPresent_of_new library new]

theorem placements_merge (library : Library) {descriptors : List Descriptor}
    (derived : (descriptors.map Descriptor.derived).Nodup) :
    (merge library descriptors).2 = descriptors.map (library.placementAfter []) := by
  have apart := List.pairwise_iff_getElem.mp (List.pairwise_map.mp derived)
  apply List.ext_getElem?
  intro k
  rw [(consistent_merge library descriptors).2.2 k, List.getElem?_map]
  cases found : descriptors[k]? with
  | none => rfl
  | some descriptor =>
      obtain ⟨inside, rfl⟩ := List.getElem?_eq_some_iff.mp found
      rw [Option.map_some, Option.map_some, placementAfter_of_new]
      intro other member
      obtain ⟨j, before, rfl⟩ := List.mem_take_iff_getElem.mp member
      exact apart j k (by omega) inside (by omega)

/-- Of placements that are linked to different events, one at most is linked to a given event, so
these are the same in every order. -/
theorem filter_linked_of_perm {placed reordered : List (Descriptor × Placement)}
    (linkages : (placed.map fun entry => entry.1.linkage).Nodup) (order : reordered.Perm placed)
    {picked : Descriptor × Placement → Bool} {event : UInt32}
    (linked : ∀ entry, picked entry = true → entry.1.linkage = event) :
    reordered.filter picked = placed.filter picked := by
  have short : (placed.filter picked).length ≤ 1 := by
    have distinct : ((placed.filter picked).map fun entry => entry.1.linkage).Nodup :=
      linkages.sublist (List.filter_sublist.map _)
    have same : ((placed.filter picked).map fun entry => entry.1.linkage) =
        List.replicate (placed.filter picked).length event := by
      rw [List.eq_replicate_iff, List.length_map]
      refine ⟨rfl, ?_⟩
      intro linkage member
      obtain ⟨entry, inside, rfl⟩ := List.mem_map.mp member
      exact linked entry (List.mem_filter.mp inside).2
    rw [same] at distinct
    exact List.nodup_replicate.mp distinct
  have alike := order.filter picked
  match found : placed.filter picked with
  | [] =>
      rw [found] at alike
      exact alike.eq_nil
  | [entry] =>
      rw [found] at alike
      exact List.perm_singleton.mp alike
  | first :: second :: rest =>
      rw [found] at short
      simp at short

theorem filled_of_perm (library : Library) {placed reordered : List (Descriptor × Placement)}
    (linkages : (placed.map fun entry => entry.1.linkage).Nodup) (order : reordered.Perm placed) :
    library.filled reordered = library.filled placed := by
  have distinct : (placed.reverse.map fun entry => entry.1.linkage).Nodup :=
    ((List.reverse_perm placed).map _).nodup_iff.mpr linkages
  have backwards : reordered.reverse.Perm placed.reverse :=
    (List.reverse_perm _).trans (order.trans (List.reverse_perm _).symm)
  have same : library.withCopies reordered = library.withCopies placed := by
    funext place character
    have copied : ∀ scene,
        library.copies reordered place scene = library.copies placed place scene := by
      intro scene
      have linked : ∀ entry : Descriptor × Placement,
          (entry.2.isInserted && library.own entry.1.linkage == [place] &&
            entry.1.linkage == scene.common) = true → entry.1.linkage = scene.common := by
        intro entry picked
        simp only [Bool.and_eq_true, beq_iff_eq] at picked
        exact picked.2
      exact congrArg (List.map _) (filter_linked_of_perm distinct backwards linked)
    simp only [withCopies, copied]
  rw [filled, filled, same]

/-- The order of descriptors does not matter, if their own events differ from each other and the
events that they are linked to do too. Every order makes the same library, and what becomes of each
descriptor is what becomes of it alone. -/
theorem merge_perm (library : Library) {descriptors reordered : List Descriptor}
    (derived : (descriptors.map Descriptor.derived).Nodup)
    (linkages : (descriptors.map Descriptor.linkage).Nodup)
    (order : reordered.Perm descriptors) :
    (merge library reordered).1 = (merge library descriptors).1 ∧
      (merge library reordered).2 = reordered.map (library.placementAfter []) ∧
      (merge library descriptors).2 = descriptors.map (library.placementAfter []) := by
  have placements := library.placements_merge derived
  have again := library.placements_merge ((order.map _).nodup_iff.mpr derived)
  refine ⟨?_, again, placements⟩
  rw [(consistent_merge library reordered).2.1, (consistent_merge library descriptors).2.1,
    placements, again, ← List.map_prod_left_eq_zip, ← List.map_prod_left_eq_zip]
  apply filled_of_perm
  · rw [List.map_map]
    exact linkages
  · exact order.map _

/-- A library with the scenes of two defeats, of which one plays an event that is going to be
added. -/
def collidingLibrary : Library where
  leading := ["H_SCENE_ITEMS"]
  characters :=
    [⟨1, [], "Alma", [], [{ name := "Defeat 1", common := 3101 }]⟩,
      ⟨2, [], "Tamamo", [], [{ name := "Defeat 1", common := 9200 }]⟩]
  closer := "\x7d"
  trailing := []
  layout := ⟨.lf, true⟩

/-- Each of these events is what the next one is linked to. -/
def collidingDescriptors : List Descriptor :=
  [⟨9200, 3101, "CommonEvent9200.txt"⟩, ⟨9201, 9200, "CommonEvent9201.txt"⟩,
    ⟨9202, 9201, "CommonEvent9202.txt"⟩]

theorem merge_perm_collidingLibrary :
    (collidingDescriptors.map Descriptor.derived).Nodup ∧
      (collidingDescriptors.map Descriptor.linkage).Nodup ∧
      collidingDescriptors.reverse.Perm collidingDescriptors ∧
      (merge collidingLibrary collidingDescriptors).2 =
        [.inserted "Alma" "Seduce 1", .inserted "Tamamo" "Seduce 1", .unmatched] ∧
      (merge collidingLibrary collidingDescriptors.reverse).1 =
        (merge collidingLibrary collidingDescriptors).1 ∧
      (merge collidingLibrary collidingDescriptors.reverse).2 =
        [.unmatched, .inserted "Tamamo" "Seduce 1", .inserted "Alma" "Seduce 1"] := by
  have derived : (collidingDescriptors.map Descriptor.derived).Nodup := by decide
  have linkages : (collidingDescriptors.map Descriptor.linkage).Nodup := by decide
  have order : collidingDescriptors.reverse.Perm collidingDescriptors := List.reverse_perm _
  have alone : collidingDescriptors.map (collidingLibrary.placementAfter []) =
      [.inserted "Alma" "Seduce 1", .inserted "Tamamo" "Seduce 1", .unmatched] := by decide
  obtain ⟨library, again, placements⟩ := merge_perm collidingLibrary derived linkages order
  rw [List.map_reverse] at again
  rw [alone] at again placements
  exact ⟨derived, linkages, order, placements, library, again⟩

end SceneGallery.Library
