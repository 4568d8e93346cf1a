import SceneGallery.Proofs.Library.MergedAgain
set_option autoImplicit false

namespace SceneGallery.Library

/-- Places converted events one by one, each by an index of the library that it is placed in. -/
def placeEach (library : Library) : List Descriptor → Library × List Placement
  | [] => (library, [])
  | descriptor :: rest =>
    let placed := place (.ofLibrary library) library descriptor
    let others := placeEach placed.1 rest
    (others.1, placed.2 :: others.2)

/-- Two merges, the second one into the library that the first one made. -/
def mergeBoth (library : Library) (front back : List Descriptor) : Library × List Placement :=
  let first := merge library front
  let second := merge first.1 back
  (second.1, first.2 ++ second.2)

/-- No descriptor is linked to an event that an earlier one plays. -/
def Unchained (descriptors : List Descriptor) : Prop :=
  descriptors.Pairwise fun earlier later => later.linkage ≠ earlier.derived

instance (descriptors : List Descriptor) : Decidable (Unchained descriptors) :=
  inferInstanceAs (Decidable (List.Pairwise _ _))

section Index

variable {index other : Index}

theorem place_congr {descriptor : Descriptor} (library : Library)
    (same : index.owners descriptor.linkage = other.owners descriptor.linkage) :
    place index library descriptor = place other library descriptor := by
  rw [place, place, same]

theorem mergeBy_congr {descriptors : List Descriptor} (library : Library)
    (same : ∀ descriptor ∈ descriptors,
      index.owners descriptor.linkage = other.owners descriptor.linkage) :
    mergeBy index library descriptors = mergeBy other library descriptors := by
  induction descriptors generalizing library with
  | nil => rfl
  | cons descriptor rest ih =>
      have first := place_congr library (same descriptor List.mem_cons_self)
      have later := ih (place other library descriptor).1 fun following member =>
        same following (List.mem_cons_of_mem _ member)
      rw [mergeBy, mergeBy, first, later]

theorem mergeBy_append (index : Index) (library : Library) (front back : List Descriptor) :
    mergeBy index library (front ++ back) =
      ((mergeBy index (mergeBy index library front).1 back).1,
        (mergeBy index library front).2 ++
          (mergeBy index (mergeBy index library front).1 back).2) := by
  induction front generalizing library with
  | nil => rfl
  | cons descriptor front ih => simp only [List.cons_append, mergeBy, ih]

end Index

theorem owners_merge (library : Library) {descriptors : List Descriptor} {event : UInt32}
    (unplayed : ∀ descriptor ∈ descriptors, event ≠ descriptor.derived) :
    (Index.ofLibrary (merge library descriptors).1).owners event =
      (Index.ofLibrary library).owners event := by
  have whole := (consistent_merge library descriptors).2.1
  have kept : ∀ entry ∈ descriptors.zip (merge library descriptors).2, entry.1.derived ≠ event := by
    intro entry member same
    exact unplayed entry.1 (List.of_mem_zip member).1 same.symm
  rw [owners_ofLibrary, owners_ofLibrary, own, own, whole, owned_filled kept, List.map_map]
  rfl

/-- A merge may be cut in two where no later descriptor is linked to an event that an earlier one
plays. -/
theorem merge_append (library : Library) {front back : List Descriptor}
    (apart : ∀ earlier ∈ front, ∀ later ∈ back, later.linkage ≠ earlier.derived) :
    merge library (front ++ back) = library.mergeBoth front back := by
  have same : ∀ descriptor ∈ back,
      (Index.ofLibrary library).owners descriptor.linkage =
        (Index.ofLibrary (merge library front).1).owners descriptor.linkage := by
    intro descriptor member
    symm
    apply owners_merge
    intro earlier before
    exact apart earlier before descriptor member
  calc merge library (front ++ back)
    _ = ((mergeBy (.ofLibrary library) (merge library front).1 back).1,
          (merge library front).2 ++
            (mergeBy (.ofLibrary library) (merge library front).1 back).2) :=
        mergeBy_append _ _ _ _
    _ = library.mergeBoth front back := by
        rw [mergeBy_congr (merge library front).1 same]
        rfl

theorem merge_singleton (library : Library) (descriptor : Descriptor) :
    merge library [descriptor] =
      ((place (.ofLibrary library) library descriptor).1,
        [(place (.ofLibrary library) library descriptor).2]) := rfl

/-- One index for a whole merge is as good as an index that is built again before each descriptor.
-/
theorem merge_eq_placeEach_of_unchained (library : Library) {descriptors : List Descriptor}
    (unchained : Unchained descriptors) :
    merge library descriptors = library.placeEach descriptors := by
  induction descriptors generalizing library with
  | nil => rfl
  | cons descriptor rest ih =>
      obtain ⟨first, later⟩ := List.pairwise_cons.mp unchained
      have cut : merge library ([descriptor] ++ rest) = library.mergeBoth [descriptor] rest := by
        apply merge_append
        intro earlier member following behind
        rw [List.mem_singleton.mp member]
        exact first following behind
      rw [List.singleton_append] at cut
      rw [cut, mergeBoth, merge_singleton, ih _ later]
      rfl

/-- Building the index once is as good as building it again before each descriptor, if no descriptor
is linked to an event that an earlier one plays. Then merging a list that is cut in two is merging
its front and after that its back. -/
theorem merge_one_by_one (library : Library) {descriptors : List Descriptor}
    (unchained : Unchained descriptors) :
    merge library descriptors = library.placeEach descriptors ∧
      ∀ front back, descriptors = front ++ back →
        merge library descriptors = library.mergeBoth front back := by
  constructor
  · exact merge_eq_placeEach_of_unchained library unchained
  · intro front back cut
    have apart : ∀ earlier ∈ front, ∀ later ∈ back, later.linkage ≠ earlier.derived := by
      unfold Unchained at unchained
      rw [cut, List.pairwise_append] at unchained
      exact unchained.2.2
    rw [cut]
    exact merge_append library apart

/-- A library in which an event that is going to be added is played already. -/
def sharedLibrary : Library where
  leading := ["H_SCENE_ITEMS"]
  characters :=
    [⟨1, [], "Alma", [], [{ name := "Defeat 1", common := 3101 }]⟩,
      ⟨2, [], "Tamamo", [], [{ name := "Defeat 1", common := 9200 },
        { name := "Defeat 2", common := 3102 }]⟩]
  closer := "\x7d"
  trailing := []
  layout := ⟨.lf, true⟩

/-- Two copies of one scene, an event that is there already, and an event without an owner. -/
def unchainedDescriptors : List Descriptor :=
  [⟨9200, 3101, "CommonEvent9200.txt"⟩, ⟨9201, 3101, "CommonEvent9201.txt"⟩,
    ⟨9200, 3102, "CommonEvent9202.txt"⟩, ⟨9203, 3103, "CommonEvent9203.txt"⟩]

theorem merge_one_by_one_sharedLibrary :
    Unchained unchainedDescriptors ∧
      (sharedLibrary.placeEach unchainedDescriptors).2 =
        [.inserted "Alma" "Seduce 1", .inserted "Alma" "Seduce 1", .alreadyPresent "Tamamo",
          .unmatched] ∧
      merge sharedLibrary unchainedDescriptors = sharedLibrary.placeEach unchainedDescriptors ∧
      merge sharedLibrary unchainedDescriptors =
        sharedLibrary.mergeBoth (unchainedDescriptors.take 1) (unchainedDescriptors.drop 1) := by
  have unchained : Unchained unchainedDescriptors := by decide
  obtain ⟨each, both⟩ := merge_one_by_one sharedLibrary unchained
  exact ⟨unchained, by decide, each, both _ _ (List.take_append_drop 1 _).symm⟩

/-- An index that is built again finds the copy that was made before. -/
example :
    let chained := [⟨9204, 3101, "CommonEvent9204.txt"⟩, ⟨9205, 9204, "CommonEvent9205.txt"⟩]
    (merge sharedLibrary chained).2 = [.inserted "Alma" "Seduce 1", .unmatched] ∧
      (sharedLibrary.placeEach chained).2 =
        [.inserted "Alma" "Seduce 1", .inserted "Alma" "Seduce 1"] := by
  decide

end SceneGallery.Library
