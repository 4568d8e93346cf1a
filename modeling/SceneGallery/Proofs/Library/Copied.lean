import Mathlib.Data.Multiset.Bind
import SceneGallery.Proofs.Library.MergedAgain
set_option autoImplicit false

namespace SceneGallery.Library

/-- All scenes with their characters, in the order of the library. -/
def everyScene (library : Library) : List Owned :=
  library.characters.zipIdx.flatMap fun (character, place) =>
    character.scenes.map fun scene => ⟨place, character, scene⟩

/-- The placements that a scene was copied for, the last one first. -/
def copiers (library : Library) (placed : List (Descriptor × Placement)) (place : Nat)
    (scene : Scene) : List (Descriptor × Placement) :=
  placed.reverse.filter fun (descriptor, placement) =>
    placement.isInserted && library.own descriptor.linkage == [place] &&
      descriptor.linkage == scene.common

/-- The places of the characters that got a copy that plays an event, one for each copy. -/
def gained (library : Library) (placed : List (Descriptor × Placement)) (event : UInt32) :
    List Nat :=
  (placed.filter fun (descriptor, placement) =>
    placement.isInserted && descriptor.derived == event).flatMap fun (descriptor, _) =>
      library.own descriptor.linkage

theorem copies_eq_map (library : Library) (placed : List (Descriptor × Placement)) (place : Nat)
    (scene : Scene) :
    library.copies placed place scene =
      (library.copiers placed place scene).map fun (descriptor, _) =>
        deriveScene scene descriptor.derived := rfl

theorem owned_eq_filter (library : Library) (event : UInt32) :
    library.owned event = library.everyScene.filter fun entry => entry.scene.common = event := by
  rw [owned, everyScene, List.filter_flatMap]
  congr 1
  funext entry
  rw [List.filter_map]
  rfl

theorem mem_everyScene {library : Library} {entry : Owned} :
    entry ∈ library.everyScene ↔
      library.characters[entry.place]? = some entry.character ∧
        entry.scene ∈ entry.character.scenes := by
  have owned : entry ∈ library.everyScene ↔ entry ∈ library.owned entry.scene.common := by
    rw [owned_eq_filter, List.mem_filter, decide_eq_true_eq]
    exact (and_iff_left rfl).symm
  rw [owned, mem_owned]
  simp only [and_true]

theorem flatMap_filter_eq {α β : Type} (keep : α → Bool) (f : α → List β) (items : List α) :
    (items.filter keep).flatMap f = items.flatMap fun item => if keep item then f item else [] := by
  induction items with
  | nil => rfl
  | cons item rest ih =>
      rw [List.filter_cons, List.flatMap_cons, ← ih]
      split <;> rfl

theorem perm_flatMap_filter {α β γ : Type} (items : List α) (others : List β)
    (picked : α → β → Bool) (f : α → β → γ) :
    (items.flatMap fun item => (others.filter (picked item)).map (f item)).Perm
      (others.flatMap fun other => (items.filter (picked · other)).map (f · other)) := by
  simp only [List.map_eq_flatMap, flatMap_filter_eq]
  rw [← Multiset.coe_eq_coe]
  simp only [← Multiset.coe_bind]
  exact Multiset.bind_bind _ _

/-- Whoever is placed with an added scene has a single original. -/
def SingleOriginals (library : Library) (placed : List (Descriptor × Placement)) : Prop :=
  ∀ entry ∈ placed, entry.2.isInserted = true → ∃ place, library.own entry.1.linkage = [place]

theorem singleOriginals_merge (library : Library) (descriptors : List Descriptor) :
    SingleOriginals library (descriptors.zip (merge library descriptors).2) := by
  rintro ⟨descriptor, placement⟩ member inserted
  obtain ⟨k, found⟩ := List.mem_iff_getElem?.mp member
  obtain ⟨given, placed⟩ := List.getElem?_zip_eq_some.mp found
  rw [(consistent_merge library descriptors).2.2 k, given, Option.map_some, Option.some.injEq]
    at placed
  rw [← placed, placementAfter] at inserted
  rcases spelled : library.owned descriptor.linkage with _ | ⟨owner, _ | ⟨second, rest⟩⟩
  · simp only [spelled, Placement.isInserted, Bool.false_eq_true] at inserted
  · exact ⟨owner.place, own_of_owned spelled⟩
  · simp only [spelled, Placement.isInserted, Bool.false_eq_true] at inserted

section Originals

variable {library : Library} {placed : List (Descriptor × Placement)}
  (single : SingleOriginals library placed)
include single

theorem originals_eq {descriptor : Descriptor} {placement : Placement}
    (member : (descriptor, placement) ∈ placed) :
    (library.everyScene.filter fun entry =>
      placement.isInserted && library.own descriptor.linkage == [entry.place] &&
        descriptor.linkage == entry.scene.common) =
      if placement.isInserted then library.owned descriptor.linkage else [] := by
  cases inserted : placement.isInserted with
  | false =>
      simp only [Bool.false_and, Bool.false_eq_true, ↓reduceIte, List.filter_false]
  | true =>
      obtain ⟨place, owner⟩ := single _ member inserted
      rw [if_pos rfl, owned_eq_filter]
      apply List.filter_congr
      intro entry inside
      by_cases played : entry.scene.common = descriptor.linkage
      · have own : entry.place ∈ library.own descriptor.linkage := by
          rw [own, owned_eq_filter]
          exact List.mem_map_of_mem (List.mem_filter.mpr ⟨inside, decide_eq_true played⟩)
        rw [owner] at own
        rw [owner, List.mem_singleton.mp own, played]
        simp only [beq_self_eq_true, decide_true, Bool.and_self]
      · have differs : (descriptor.linkage == entry.scene.common) = false :=
          beq_eq_false_iff_ne.mpr (Ne.symm played)
        rw [differs, Bool.and_false, decide_eq_false played]

/-- What is put next to the originals of all placements, gathered by the originals and by the
placements. -/
theorem perm_copiers {γ : Type} (f : Owned → Descriptor × Placement → γ) :
    (library.everyScene.flatMap fun entry =>
      (library.copiers placed entry.place entry.scene).map (f entry)).Perm
      ((placed.filter fun entry => entry.2.isInserted).flatMap fun entry =>
        (library.owned entry.1.linkage).map (f · entry)) := by
  have each : ∀ entry ∈ placed.reverse,
      ((library.everyScene.filter fun owner => entry.2.isInserted &&
        library.own entry.1.linkage == [owner.place] &&
          entry.1.linkage == owner.scene.common).map (f · entry)) =
        if entry.2.isInserted then (library.owned entry.1.linkage).map (f · entry) else [] := by
    rintro ⟨descriptor, placement⟩ member
    rw [originals_eq single (List.mem_reverse.mp member), apply_ite (List.map _), List.map_nil]
  rw [flatMap_filter_eq]
  refine (perm_flatMap_filter _ _ _ _).trans ?_
  rw [List.flatMap_congr each]
  exact (List.reverse_perm placed).flatMap_right _

/-- Every placement that adds a scene has its copy next to one original. -/
theorem perm_inserted :
    (library.everyScene.flatMap fun entry => library.copiers placed entry.place entry.scene).Perm
      (placed.filter fun entry => entry.2.isInserted) := by
  have once : ∀ entry ∈ placed.filter (fun entry => entry.2.isInserted),
      (library.owned entry.1.linkage).map (fun _ => entry) = [entry] := by
    intro entry member
    obtain ⟨inside, inserted⟩ := List.mem_filter.mp member
    obtain ⟨place, owner⟩ := single entry inside inserted
    obtain ⟨character, original, spelled⟩ := exists_of_own owner
    rw [spelled, List.map_singleton]
  have gathered := perm_copiers single fun _ entry => entry
  rw [List.flatMap_congr once, List.flatMap_singleton'] at gathered
  simpa only [List.map_id'] using gathered

/-- The owners of an event after a merge are those before it and those that got a copy. -/
theorem perm_own_filled (event : UInt32) :
    ((library.filled placed).own event).Perm
      (library.own event ++ library.gained placed event) := by
  have copied : (library.everyScene.flatMap fun entry =>
      ((library.copies placed entry.place entry.scene).filter fun scene =>
        scene.common = event).map fun _ => entry.place).Perm (library.gained placed event) := by
    have gathered := ((perm_copiers single fun entry earlier =>
      (entry.place, earlier.1.derived)).filter fun copy => copy.2 = event).map Prod.fst
    simp only [List.filter_flatMap, List.map_flatMap, List.filter_map, List.map_map] at gathered
    simp only [copies_eq_map, List.filter_map, List.map_map]
    refine gathered.trans (List.Perm.of_eq ?_)
    have twice : library.gained placed event =
        ((placed.filter fun entry => entry.2.isInserted).filter fun entry =>
          entry.1.derived == event).flatMap fun entry => library.own entry.1.linkage := by
      simp only [gained, List.filter_filter, Bool.and_comm]
    rw [twice]
    induction placed.filter fun entry => entry.2.isInserted with
    | nil => rfl
    | cons entry rest ih =>
        rw [List.flatMap_cons, List.filter_cons, ih]
        by_cases played : entry.1.derived = event
        · simp only [played, Function.comp_def, decide_true, List.filter_true, beq_self_eq_true,
            ↓reduceIte, List.flatMap_cons, own]
        · simp only [played, Function.comp_def, decide_false, List.filter_false, List.map_nil,
            List.nil_append, beq_eq_false_iff_ne.mpr played, Bool.false_eq_true, ↓reduceIte]
  have scenes : (library.filled placed).own event =
      library.everyScene.flatMap fun entry =>
        ((entry.scene :: library.copies placed entry.place entry.scene).filter fun scene =>
          scene.common = event).map fun _ => entry.place := by
    simp only [own, owned, zipIdx_filled, everyScene, ownedBy, withCopies, List.flatMap_map,
      List.map_flatMap, List.flatMap_assoc, List.filter_flatMap, List.map_map]
    rfl
  have each : ∀ entry ∈ library.everyScene,
      ((entry.scene :: library.copies placed entry.place entry.scene).filter fun scene =>
          scene.common = event).map (fun _ => entry.place) =
        ([entry].filter fun owner => owner.scene.common = event).map Owned.place ++
        ((library.copies placed entry.place entry.scene).filter fun scene =>
          scene.common = event).map fun _ => entry.place := by
    intro entry _
    rw [List.filter_cons, List.filter_cons, List.filter_nil]
    split <;> rfl
  rw [scenes, List.flatMap_congr each, own, owned_eq_filter]
  refine (List.flatMap_append_perm _ _ _).symm.trans (List.Perm.append (List.Perm.of_eq ?_) copied)
  rw [← List.map_flatMap, ← List.filter_flatMap, List.flatMap_singleton']

end Originals

end SceneGallery.Library
