import SceneGallery.Proofs.Library.Invariant
set_option autoImplicit false

namespace SceneGallery.Library

open SceneGallery.Field

/-- The lines of scenes as they are written, up to the closer of their record. -/
def WrittenScenes (scenes : List Scene) (lines : List String) : Prop :=
  ∃ mark, IsMark mark ∧
    lines = separated (sceneBlocks 1 scenes) ++ ["      \x7d", "    \x7d" ++ mark]

/-- The lines of characters as they are written. -/
def renderedLines (characters : List Character) : List String :=
  (Sheet.addSeparated Sheet.addCharacter Sheet.empty characters).toList

theorem renderedLines_eq_separated (characters : List Character) :
    renderedLines characters = separated (characters.map characterBlock) := by
  have adds : ∀ character : Character,
      Sheet.Adds (fun sheet => sheet.addCharacter character) (characterBlock character) :=
    fun character => ⟨List.cons_ne_nil _ _, fun sheet => Sheet.toList_addCharacter sheet character⟩
  rw [renderedLines, Sheet.toList_addSeparated_map adds, Sheet.toList_empty, List.nil_append]

/-- A written record has the heading and the preamble of its character. -/
theorem isRecord_characterBlock {character : Character} (sound : SoundCharacter character)
    {mark : String} (closing : IsMark mark) :
    IsRecord WrittenScenes character (withMark mark (characterBlock character)) := by
  have opened := recordStart?_recordOpener character.id
  have spelled := withMark_characterBlock_append character mark []
  rw [List.append_nil] at spelled
  rw [spelled]
  exact .parts opened sound.heading (name?_characterNameLine sound.nonempty sound.unquoted)
    sound.preamble (by decide) ⟨mark, closing, rfl⟩

theorem laidOut_separated {characters : List Character}
    (sound : ∀ character ∈ characters, SoundCharacter character) :
    LaidOut WrittenScenes characters (separated (characters.map characterBlock)) := by
  match characters with
  | [] => exact .nil
  | [character] =>
      have record := isRecord_characterBlock (sound character List.mem_cons_self) (Or.inl rfl)
      rw [withMark_empty] at record
      have whole := LaidOut.record record .nil
      rw [List.append_nil] at whole
      exact whole
  | character :: next :: others =>
      obtain ⟨first, later⟩ := List.forall_mem_cons.mp sound
      exact .record (isRecord_characterBlock first (Or.inr rfl)) (laidOut_separated later)

/-- A text that is read is the lines of its records between lines that are kept, and the text of its
library has the written records between the same lines. Each character has its heading and its
preamble as whole blocks in the one and in the other. -/
theorem parse_verbatim {content : String} {library : Library}
    (parsed : parse content = .ok library) :
    library.layout = Text.layoutOf content ∧
      ∃ records,
        Text.lines content =
            library.leading ++ records ++ [library.closer] ++ library.trailing ∧
          serialize library = library.layout.join
            (library.leading ++ renderedLines library.characters ++ [library.closer] ++
              library.trailing) ∧
          LaidOut (ScenesBlock false) library.characters records ∧
          LaidOut WrittenScenes library.characters (renderedLines library.characters) := by
  obtain ⟨layout, records, read⟩ := isLibrary_of_parse parsed
  have sound := sound_of_isLibrary read (Text.plain_lines content)
  refine ⟨layout, records, ?_, ?_, read.records, ?_⟩
  · rw [read.spelled]
    simp only [List.append_assoc, List.cons_append, List.nil_append]
  · rw [serialize, toLines_eq_blocks, renderedLines_eq_separated]
    simp only [List.append_assoc, List.cons_append, List.nil_append]
  · rw [renderedLines_eq_separated]
    exact laidOut_separated sound.characters

theorem parse_verbatim_shortText :
    ∃ records, Text.lines shortText =
      ["H_SCENE_ITEMS"] ++ records ++ ["\x7d"] ++ ["end"] ∧
        LaidOut (ScenesBlock false) shortLibrary.characters records := by
  obtain ⟨_, records, spelled, _, laidOut, _⟩ := parse_verbatim parse_shortText
  exact ⟨records, spelled, laidOut⟩

end SceneGallery.Library
