import SceneGallery.Proofs.Library.SecondRun
set_option autoImplicit false

namespace SceneGallery.Library

open SceneGallery.Field

theorem common_rereadScene {scene : Scene} (unquoted : '"' ∉ scene.name.toList)
    (mapped : ∀ text ∈ scene.map, ofLine? (mapLine text) = some (.map text)) :
    (rereadScene scene).common = scene.common := by
  rw [rereadScene_eq_front (putSceneLine_sceneNameLine unquoted)]
  cases given : scene.map with
  | none => rfl
  | some text =>
      rw [Option.toList_some, List.foldl_cons, List.foldl_nil,
        putSceneLine_mapLine (mapped text given)]
      rfl

/-- A library whose scenes keep their events when they are read from their lines. -/
def KeepsEvents (library : Library) : Prop :=
  ∀ character ∈ library.characters, ∀ scene ∈ character.scenes,
    (rereadScene scene).common = scene.common

/-- An owner when the library is read from its text. -/
def Owned.reread (entry : Owned) : Owned :=
  ⟨entry.place, rereadCharacter entry.character, rereadScene entry.scene⟩

section Reread

variable {library : Library} (kept : KeepsEvents library)
include kept

theorem owned_reread (event : UInt32) :
    (reread library).owned event = (library.owned event).map Owned.reread := by
  rw [owned, owned, reread, List.zipIdx_map, List.flatMap_map, List.map_flatMap]
  refine List.flatMap_congr fun entry member => ?_
  obtain ⟨character, place⟩ := entry
  have inside : character ∈ library.characters := List.fst_mem_of_mem_zipIdx member
  have same : (character.scenes.map rereadScene).filter (fun scene => scene.common = event) =
      (character.scenes.filter fun scene => scene.common = event).map rereadScene := by
    rw [List.filter_map]
    refine congrArg _ (List.filter_congr fun scene there => ?_)
    rw [Function.comp_apply, kept character inside scene there]
  simp only [Prod.map, ownedBy, rereadCharacter, same, List.map_map]
  rfl

theorem own_reread (event : UInt32) : (reread library).own event = library.own event := by
  rw [own, own, owned_reread kept, List.map_map]
  rfl

theorem isPresent_reread {character : Character} (inside : character ∈ library.characters)
    (earlier : List Descriptor) (place : Nat) (event : UInt32) :
    (reread library).isPresent earlier place (rereadCharacter character) event =
      library.isPresent earlier place character event := by
  have scenes : ((rereadCharacter character).scenes.any fun scene => scene.common == event) =
      character.scenes.any fun scene => scene.common == event := by
    have events : (rereadCharacter character).scenes.map (·.common) =
        character.scenes.map (·.common) := by
      rw [rereadCharacter, List.map_map]
      exact List.map_congr_left (kept character inside)
    have any := congrArg (List.any · (· == event)) events
    simp only [List.any_map] at any
    exact any
  simp only [isPresent, scenes, own_reread kept]

theorem placementAfter_reread {earlier : List Descriptor} {descriptor : Descriptor}
    (nothing : (library.placementAfter earlier descriptor).isInserted = false) :
    (reread library).placementAfter earlier descriptor =
      library.placementAfter earlier descriptor := by
  rw [placementAfter, owned_reread kept]
  rw [placementAfter] at nothing ⊢
  rcases spelled : library.owned descriptor.linkage with
    _ | ⟨⟨place, character, original⟩, _ | ⟨second, rest⟩⟩
  · rfl
  · have inside := List.mem_of_getElem? (split_of_owned spelled).1
    simp only [spelled] at nothing
    simp only [List.map_cons, List.map_nil, Owned.reread, isPresent_reread kept inside]
    split
    · rfl
    · rename_i absent
      rw [if_neg absent] at nothing
      cases nothing
  · simp only [List.map_cons, Owned.reread, List.map_map]
    rfl

/-- A merge that adds nothing to a library adds nothing to the library read from its text. -/
theorem merge_reread {descriptors : List Descriptor}
    (nothing : ∀ placement ∈ (merge library descriptors).2, placement.isInserted = false) :
    (merge (reread library) descriptors).2 = (merge library descriptors).2 := by
  obtain ⟨_, _, each⟩ := consistent_merge library descriptors
  obtain ⟨_, _, again⟩ := consistent_merge (reread library) descriptors
  apply List.ext_getElem?
  intro k
  rw [again, each]
  cases given : descriptors[k]? with
  | none => rfl
  | some descriptor =>
      have placed := each k
      rw [given, Option.map_some] at placed
      exact congrArg some (placementAfter_reread kept (nothing _ (List.mem_of_getElem? placed)))

end Reread

/-- The scenes of a merged library keep their events, if the library before it comes back. -/
theorem keepsEvents_filled {library : Library} (sound : Sound library)
    (legible : ∀ character ∈ library.characters, ∀ scene ∈ character.scenes, LegibleScene scene)
    (placed : List (Descriptor × Placement)) : KeepsEvents (library.filled placed) := by
  refine forall_characters_filled fun place character member => ?_
  have known := sound.characters character member
  refine forall_scenes_withCopies (fun scene inside => ?_) fun scene inside derived => ?_
  · exact common_rereadScene (known.scenes scene inside).unquoted
      (legible character member scene inside).map
  · have copied := soundScene_copy derived (known.scenes scene inside)
    exact common_rereadScene copied.unquoted (legible character member scene inside).map

theorem any_isInserted_again (placements : List Placement) :
    (placements.map Placement.again).any (·.isInserted) = false := by
  rw [List.any_map, List.any_eq_false]
  intro placement _
  rw [Function.comp_apply, placement.isInserted_again]
  exact Bool.false_ne_true

theorem map_again_of_nothing {placements : List Placement}
    (nothing : placements.any (·.isInserted) = false) :
    placements.map Placement.again = placements := by
  rw [map_eq_self_iff]
  intro placement member
  have kept := List.any_eq_false.mp nothing placement member
  cases placement with
  | inserted => exact absurd rfl kept
  | _ => rfl

/-- Whatever the names of scenes are: if a library is written as it was read, the library that is
read from the text of a merge has the places of all descriptors, so they add nothing to it. -/
theorem parse_merged {content : String} {library : Library}
    (parsed : parse content = .ok library) (identical : serialize library = content)
    {descriptors : List Descriptor}
    (apart : ∀ linked ∈ descriptors, ∀ derived ∈ descriptors, linked.linkage ≠ derived.derived)
    (counted : ∀ character ∈ (merge library descriptors).1.characters,
      character.scenes.length ≤ 4294967295) :
    ∃ read, parse (serialize (merge library descriptors).1) = .ok read ∧
      (merge read descriptors).2 = (merge library descriptors).2.map Placement.again := by
  obtain ⟨_, whole, _⟩ := consistent_merge library descriptors
  have second := congrArg Prod.snd (merge_merged library apart)
  rw [whole] at counted second ⊢
  obtain ⟨sound, visible⟩ := sound_of_parse parsed
  obtain ⟨legible, clear⟩ := legible_of_parse_serialize sound (counted_of_filled counted) visible
    (by rw [identical, parsed])
  refine ⟨_, parse_serialize_reread (sound_filled sound) counted visible
    (unambiguous_filled sound clear), ?_⟩
  rw [merge_reread (keepsEvents_filled sound legible _), second]
  rw [second]
  intro placement member
  obtain ⟨first, _, rfl⟩ := List.mem_map.mp member
  exact first.isInserted_again

end SceneGallery.Library
