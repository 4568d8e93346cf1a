import SceneGallery.Proofs.Library.MergedAgain
import SceneGallery.Proofs.Library.NormalForm
set_option autoImplicit false

namespace SceneGallery.Library

open SceneGallery.Field Text Text.Pattern

section WrittenOnce

variable {layout : Layout}

theorem keeps_of_withMark {mark : String} {lines : List String}
    (last : ∀ line ∈ lines.getLast?, layout.Keeps line)
    (kept : ∀ line ∈ withMark mark lines, layout.Keeps line) :
    ∀ line ∈ lines, layout.Keeps line := by
  rcases List.eq_nil_or_concat' lines with rfl | ⟨front, final, rfl⟩
  · exact List.forall_mem_nil _
  · rw [withMark_concat, List.forall_mem_append] at kept
    rw [List.forall_mem_append, List.forall_mem_singleton]
    exact ⟨kept.1, last final List.getLast?_concat⟩

/-- The lines of blocks keep their ends if they do so when the blocks are separated, and the last
line of each block keeps its end without the comma too. -/
theorem keeps_of_separated {blocks : List (List String)}
    (lasts : ∀ block ∈ blocks, ∀ line ∈ block.getLast?, layout.Keeps line)
    (kept : ∀ line ∈ separated blocks, layout.Keeps line) :
    ∀ block ∈ blocks, ∀ line ∈ block, layout.Keeps line := by
  induction blocks with
  | nil => exact List.forall_mem_nil _
  | cons block rest ih =>
      obtain ⟨last, lastsLater⟩ := List.forall_mem_cons.mp lasts
      cases rest with
      | nil =>
          rw [List.forall_mem_singleton]
          exact kept
      | cons next rest =>
          rw [separated, List.forall_mem_append] at kept
          rw [List.forall_mem_cons]
          exact ⟨keeps_of_withMark last kept.1, ih lastsLater kept.2⟩

theorem keeps_bracketed {text : String} (bracketed : IsBracketed text.toList)
    (plain : '\n' ∉ text.toList) : layout.Keeps text := by
  obtain ⟨body, _, _, spelled⟩ := bracketed
  apply Layout.keeps_of_last plain
  rw [spelled, List.getLast?_concat]
  decide

theorem keepsScene_of_block {scene : Scene} (sound : SoundScene scene)
    (plain : ∀ text ∈ sceneTexts scene, '\n' ∉ text.toList) {ordinal : Nat}
    (kept : ∀ line ∈ sceneBlock scene ordinal, layout.Keeps line) : KeepsScene layout scene := by
  obtain ⟨name, _, _, maps⟩ := forall_sceneTexts.mp plain
  have keptMap : ∀ text ∈ scene.map, layout.Keeps text :=
    fun text given => keeps_bracketed (sound.map text given) (maps text given)
  have closer : layout.Keeps "          \x7d" := Layout.keeps_of_last (by decide) (by decide)
  have lasts : ∀ block ∈ sceneItems scene, ∀ line ∈ block.getLast?, layout.Keeps line := by
    intro block member line final
    rw [sceneItems, List.reduceOption_mem_iff] at member
    simp only [List.mem_cons, List.not_mem_nil, or_false, Option.some.injEq] at member
    rcases member with rfl | rfl | fading | conditional | behind | mapped
    · cases final
      exact keeps_sceneNameLine name
    · cases final
      exact keeps_sceneLine (by decide) (keeps_number _)
    · obtain ⟨number, _, rfl⟩ := Option.map_eq_some_iff.mp fading.symm
      cases final
      exact keeps_sceneLine (by decide) (keeps_number _)
    · obtain ⟨condition, _, rfl⟩ := Option.map_eq_some_iff.mp conditional.symm
      rw [conditionBlock, List.getLast?_concat] at final
      cases final
      exact closer
    · obtain ⟨background, _, rfl⟩ := Option.map_eq_some_iff.mp behind.symm
      cases final
      exact closer
    · obtain ⟨text, given, rfl⟩ := Option.map_eq_some_iff.mp mapped.symm
      cases final
      exact keeps_mapLine (keptMap text given)
  have items := keeps_of_separated lasts fun line inside => kept line (by simp [sceneBlock, inside])
  refine ⟨name, ?_, ?_, keptMap⟩
  · intro condition given
    apply items
    rw [sceneItems, List.reduceOption_mem_iff, Option.mem_def.mp given]
    simp
  · intro background given
    apply items
    rw [sceneItems, List.reduceOption_mem_iff, Option.mem_def.mp given]
    simp

theorem keepsCharacter_of_block {character : Character} (sound : SoundCharacter character)
    (plainName : '\n' ∉ character.name.toList)
    (plain : ∀ scene ∈ character.scenes, ∀ text ∈ sceneTexts scene, '\n' ∉ text.toList)
    (kept : ∀ line ∈ characterBlock character, layout.Keeps line) :
    KeepsCharacter layout character := by
  have closer : layout.Keeps "        \x7d" := Layout.keeps_of_last (by decide) (by decide)
  have lasts : ∀ block ∈ sceneBlocks 1 character.scenes,
      ∀ line ∈ block.getLast?, layout.Keeps line := by
    intro block member line final
    obtain ⟨⟨scene, ordinal⟩, _, rfl⟩ := List.mem_map.mp member
    simp only [sceneBlock, List.getLast?_concat] at final
    cases final
    exact closer
  have blocks := keeps_of_separated lasts fun line inside =>
    kept line (by simp [characterBlock, inside])
  refine ⟨plainName, fun line inside => kept line ?_, fun scene inside => ?_⟩
  · rcases List.mem_append.mp inside with heading | preamble
    · simp [characterBlock, heading]
    · simp [characterBlock, preamble]
  · obtain ⟨place, found⟩ := List.mem_iff_getElem?.mp inside
    have numbered : (scene, 1 + place) ∈ character.scenes.zipIdx 1 :=
      List.mem_iff_getElem?.mpr ⟨place, by rw [List.getElem?_zipIdx, found]; rfl⟩
    have block : sceneBlock scene (1 + place) ∈ sceneBlocks 1 character.scenes :=
      List.mem_map.mpr ⟨_, numbered, rfl⟩
    exact keepsScene_of_block (sound.scenes scene inside) (plain scene inside) (blocks _ block)

theorem keepsCharacter_of_unambiguous {library : Library} (sound : Sound library)
    (clear : library.layout.Unambiguous library.toLines) :
    ∀ character ∈ library.characters, KeepsCharacter library.layout character := by
  obtain ⟨_, characters, _⟩ := forall_texts.mp sound.plain
  have records := ((unambiguous_toLines_iff (plain_toLines_of_texts sound.plain)).mp clear).2
  have closer : library.layout.Keeps "    \x7d" := Layout.keeps_of_last (by decide) (by decide)
  have lasts : ∀ block ∈ library.characters.map characterBlock,
      ∀ line ∈ block.getLast?, library.layout.Keeps line := by
    intro block member line final
    obtain ⟨character, _, rfl⟩ := List.mem_map.mp member
    rw [characterBlock, List.getLast?_append_of_ne_nil _ (List.cons_ne_nil _ _)] at final
    cases final
    exact closer
  have blocks := keeps_of_separated lasts records
  intro character member
  obtain ⟨_, name, scenes⟩ := characters character member
  exact keepsCharacter_of_block (sound.characters character member) name scenes
    (blocks _ (List.mem_map_of_mem member))

end WrittenOnce

section Copy

variable {scene : Scene} (derived : UInt32)

theorem toList_seductionName (name : String) :
    (seductionName name).toList = "Seduce".toList ++ name.toList.drop defeatWordLength := by
  rw [seductionName, String.toList_append,
    String.toList_ofList (l := name.toList.drop defeatWordLength)]

theorem mem_seductionName {name : String} {c : Char} (member : c ∈ (seductionName name).toList) :
    c ∈ "Seduce".toList ∨ c ∈ name.toList := by
  rw [toList_seductionName] at member
  exact (List.mem_append.mp member).imp_right List.mem_of_mem_drop

theorem noArrow_seductionName {name : String} (arrowless : ¬ HasArrow name.toList) :
    ¬ HasArrow (seductionName name).toList := by
  rw [toList_seductionName]
  exact noArrow_append_of_unequal (by decide) fun present =>
    arrowless (present.trans (List.drop_suffix _ _).isInfix)

theorem unquoted_seductionName {name : String} (unquoted : '"' ∉ name.toList) :
    '"' ∉ (seductionName name).toList := by
  intro member
  rcases mem_seductionName member with word | kept
  · exact absurd word (by decide)
  · exact unquoted kept

theorem plain_seductionName {name : String} (plain : '\n' ∉ name.toList) :
    '\n' ∉ (seductionName name).toList := by
  intro member
  rcases mem_seductionName member with word | kept
  · exact absurd word (by decide)
  · exact plain kept

theorem soundScene_copy (sound : SoundScene scene) : SoundScene (deriveScene scene derived) :=
  { sound with unquoted := unquoted_seductionName sound.unquoted }

theorem keepsScene_copy {layout : Layout} (kept : KeepsScene layout scene) :
    KeepsScene layout (deriveScene scene derived) :=
  { kept with name := plain_seductionName kept.name }

theorem plain_copy (plain : ∀ text ∈ sceneTexts scene, '\n' ∉ text.toList) :
    ∀ text ∈ sceneTexts (deriveScene scene derived), '\n' ∉ text.toList := by
  obtain ⟨name, others⟩ := forall_sceneTexts.mp plain
  exact forall_sceneTexts.mpr ⟨plain_seductionName name, others⟩

/-- A copy reads back if its original does and has no arrow in its name. -/
theorem legibleScene_copy (legible : LegibleScene scene) (unquoted : '"' ∉ scene.name.toList)
    (arrowless : ¬ HasArrow scene.name.toList) : LegibleScene (deriveScene scene derived) :=
  { legible with
    name := ofLine?_sceneNameLine (unquoted_seductionName unquoted)
      (search_recordPattern_of_noArrow (noArrow_seductionName arrowless)) }

end Copy

section Filled

variable {library : Library} {placed : List (Descriptor × Placement)}

/-- Every character of a merged library is one of the library before it with its copies. -/
theorem forall_characters_filled {holds : Character → Prop}
    (each : ∀ place, ∀ character ∈ library.characters,
      holds (library.withCopies placed place character)) :
    ∀ character ∈ (library.filled placed).characters, holds character := by
  intro character member
  obtain ⟨place, found⟩ := List.mem_iff_getElem?.mp member
  rw [characters_filled, Option.map_eq_some_iff] at found
  obtain ⟨source, there, rfl⟩ := found
  exact each place source (List.mem_of_getElem? there)

theorem forall_scenes_withCopies {holds : Scene → Prop} {place : Nat} {character : Character}
    (originals : ∀ scene ∈ character.scenes, holds scene)
    (copied : ∀ scene ∈ character.scenes, ∀ derived, holds (deriveScene scene derived)) :
    ∀ scene ∈ (library.withCopies placed place character).scenes, holds scene := by
  intro scene member
  rcases mem_withCopies.mp member with own | ⟨original, there, copy⟩
  · exact originals scene own
  · obtain ⟨descriptor, _, _, _, _, _, rfl⟩ := mem_copies.mp copy
    exact copied original there descriptor.derived

theorem sound_filled (sound : Sound library) : Sound (library.filled placed) where
  marked := sound.marked
  outside := sound.outside
  closed := sound.closed
  unopened := sound.unopened
  characters := by
    apply forall_characters_filled
    intro place character member
    have known := sound.characters character member
    exact { known with
      scenes := forall_scenes_withCopies known.scenes fun scene inside derived =>
        soundScene_copy derived (known.scenes scene inside) }
  plain := by
    obtain ⟨leading, characters, last⟩ := forall_texts.mp sound.plain
    refine forall_texts.mpr ⟨leading, forall_characters_filled fun place character member => ?_,
      last⟩
    obtain ⟨lines, name, scenes⟩ := characters character member
    exact ⟨lines, name, forall_scenes_withCopies scenes fun scene inside derived =>
      plain_copy derived (scenes scene inside)⟩

/-- The lines of a merged library bring nothing to their endings if those before it do not. -/
theorem unambiguous_filled (sound : Sound library)
    (clear : library.layout.Unambiguous library.toLines) :
    (library.filled placed).layout.Unambiguous (library.filled placed).toLines := by
  have around := ((unambiguous_toLines_iff (plain_toLines_of_texts sound.plain)).mp clear).1
  have kept := keepsCharacter_of_unambiguous sound clear
  rw [unambiguous_toLines_iff (plain_toLines_of_texts (sound_filled sound).plain)]
  refine ⟨around, keeps_records (forall_characters_filled fun place character member => ?_)⟩
  have known := kept character member
  exact { known with
    scenes := forall_scenes_withCopies known.scenes fun scene inside derived =>
      keepsScene_copy derived (known.scenes scene inside) }

theorem length_scenes_le (place : Nat) (character : Character) :
    character.scenes.length ≤ (library.withCopies placed place character).scenes.length := by
  simp only [withCopies]
  induction character.scenes with
  | nil => exact Nat.le_refl _
  | cons scene rest ih =>
      rw [List.flatMap_cons, List.length_append, List.length_cons, List.length_cons]
      omega

theorem counted_of_filled {count : Nat}
    (counted : ∀ character ∈ (library.filled placed).characters,
      character.scenes.length ≤ count) :
    ∀ character ∈ library.characters, character.scenes.length ≤ count := by
  intro character member
  obtain ⟨place, found⟩ := List.mem_iff_getElem?.mp member
  have there : library.withCopies placed place character ∈
      (library.filled placed).characters := by
    apply List.mem_of_getElem?
    rw [characters_filled, found, Option.map_some]
  exact Nat.le_trans (length_scenes_le place character) (counted _ there)

/-- A library that was read and comes back from its text comes back with the copies too. -/
theorem parse_serialize_filled {content : String} (parsed : parse content = .ok library)
    (again : parse (serialize library) = .ok library)
    (arrowless : ∀ character ∈ library.characters, ∀ scene ∈ character.scenes,
      ¬ HasArrow scene.name.toList)
    (counted : ∀ character ∈ (library.filled placed).characters,
      character.scenes.length ≤ 4294967295) :
    parse (serialize (library.filled placed)) = .ok (library.filled placed) := by
  obtain ⟨sound, visible⟩ := sound_of_parse parsed
  obtain ⟨legible, clear⟩ :=
    legible_of_parse_serialize sound (counted_of_filled counted) visible again
  apply parse_serialize_of_legible (sound_filled sound) counted visible
  · refine forall_characters_filled fun place character member => ?_
    have known := sound.characters character member
    exact forall_scenes_withCopies (legible character member) fun scene inside derived =>
      legibleScene_copy derived (legible character member scene inside)
        (known.scenes scene inside).unquoted (arrowless character member scene inside)
  · exact unambiguous_filled sound clear

end Filled

/-- A library that is written as it was read, with no arrow in the name of a scene, is read back
from its text after a merge; and if no descriptor is linked to an event that a descriptor plays,
merging the same descriptors once more inserts nothing and leaves the library and its text alone. -/
theorem parse_merge_again {content : String} {library : Library}
    (parsed : parse content = .ok library) (identical : serialize library = content)
    (arrowless : ∀ character ∈ library.characters, ∀ scene ∈ character.scenes,
      ¬ HasArrow scene.name.toList)
    {descriptors : List Descriptor}
    (apart : ∀ linked ∈ descriptors, ∀ derived ∈ descriptors, linked.linkage ≠ derived.derived)
    (counted : ∀ character ∈ (merge library descriptors).1.characters,
      character.scenes.length ≤ 4294967295) :
    let merged := (merge library descriptors).1
    let text := serialize merged
    ∃ reread, parse text = .ok reread ∧ reread = merged ∧ serialize reread = text ∧
      (merge reread descriptors).1 = merged ∧
      serialize (merge reread descriptors).1 = text ∧
      (∀ placement ∈ (merge reread descriptors).2, placement.isInserted = false) ∧
      (merge reread descriptors).2 = (merge library descriptors).2.map Placement.again := by
  intro merged text
  obtain ⟨_, whole, _⟩ := consistent_merge library descriptors
  have again : parse (serialize library) = .ok library := by
    rw [identical]
    exact parsed
  have reparsed : parse text = .ok merged := by
    simp only [text, merged]
    rw [whole] at counted ⊢
    exact parse_serialize_filled parsed again arrowless counted
  have second := merge_merged library apart
  refine ⟨merged, reparsed, rfl, rfl, ?_⟩
  simp only [merged, second]
  refine ⟨trivial, rfl, ?_, trivial⟩
  intro placement member
  obtain ⟨first, _, rfl⟩ := List.mem_map.mp member
  exact first.isInserted_again

/-- A library with one scene of a defeat. -/
def defeatLibrary : Library where
  leading := ["H_SCENE_ITEMS"]
  characters := [⟨1, [], "Anna", [], [{ name := "Defeat at dawn", common := 12 }]⟩]
  closer := "\x7d"
  trailing := []
  layout := ⟨.lf, true⟩

theorem arrowless_defeatLibrary : ∀ character ∈ defeatLibrary.characters,
    ∀ scene ∈ character.scenes, ¬ HasArrow scene.name.toList := by
  simp only [defeatLibrary, List.forall_mem_singleton]
  exact noArrow_of_unequal (by decide)

theorem sound_defeatLibrary : Sound defeatLibrary := by
  refine ⟨by decide, by decide, by decide, by decide, ?_, by decide⟩
  simp only [defeatLibrary, List.forall_mem_singleton]
  refine ⟨by decide, by decide, by decide, by decide, ?_⟩
  rw [List.forall_mem_singleton]
  exact ⟨by decide, nofun, nofun, nofun⟩

theorem parse_defeatLibrary : parse (serialize defeatLibrary) = .ok defeatLibrary := by
  apply parse_serialize_of_legible sound_defeatLibrary (by decide) (by decide)
  · intro character member scene inside
    have name := ofLine?_sceneNameLine
      ((sound_defeatLibrary.characters character member).scenes scene inside).unquoted
      (search_recordPattern_of_noArrow (arrowless_defeatLibrary character member scene inside))
    simp only [defeatLibrary, List.mem_singleton] at member
    subst member
    rw [List.mem_singleton.mp inside] at name ⊢
    exact ⟨name, nofun, nofun, nofun⟩
  · intro _
    decide

theorem parse_merge_again_defeatLibrary :
    let merged := (merge defeatLibrary [⟨9200, 12, "event"⟩]).1
    (merge defeatLibrary [⟨9200, 12, "event"⟩]).2 = [.inserted "Anna" "Seduce at dawn"] ∧
      parse (serialize merged) = .ok merged ∧
      (merge merged [⟨9200, 12, "event"⟩]).2 = [.alreadyPresent "Anna"] := by
  intro merged
  have inserted : (merge defeatLibrary [⟨9200, 12, "event"⟩]).2 =
      [.inserted "Anna" "Seduce at dawn"] := by decide
  have apart : ∀ linked ∈ [(⟨9200, 12, "event"⟩ : Descriptor)],
      ∀ derived ∈ [(⟨9200, 12, "event"⟩ : Descriptor)], linked.linkage ≠ derived.derived := by
    decide
  obtain ⟨_, reparsed, rfl, _, _, _, _, placements⟩ :=
    parse_merge_again parse_defeatLibrary rfl arrowless_defeatLibrary apart (by decide)
  rw [inserted] at placements
  exact ⟨inserted, reparsed, placements⟩

end SceneGallery.Library
