import SceneGallery.Proofs.Library.Captured
import SceneGallery.Proofs.Library.LaidOut
import SceneGallery.Proofs.Library.RoundTrip
import SceneGallery.Proofs.Text.Splitting
set_option autoImplicit false

namespace SceneGallery.Library

open SceneGallery.Field

/-- A scene whose texts have none of the characters that end them. -/
structure SoundScene (scene : Scene) : Prop where
  unquoted : '"' ∉ scene.name.toList
  condition : ∀ condition ∈ scene.condition, ∀ text ∈ condition.id, IsUnbroken text.toList
  background : ∀ background ∈ scene.background,
    ' ' ∉ background.id.toList ∧ ',' ∉ background.id.toList
  map : ∀ text ∈ scene.map, IsBracketed text.toList

/-- A character whose lines stand where they are looked for. -/
structure SoundCharacter (character : Character) : Prop where
  heading : ∀ line ∈ character.heading, name? line = none
  preamble : ∀ line ∈ character.preamble, isItemsMarker line = false
  nonempty : character.name ≠ ""
  unquoted : '"' ∉ character.name.toList
  scenes : ∀ scene ∈ character.scenes, SoundScene scene

/-- A library whose lines stand where they are looked for. -/
structure Sound (library : Library) : Prop where
  marked : ∃ line ∈ library.leading, isSectionMarker line = true
  outside : ∀ line ∈ (library.leading.dropWhile fun line => !isSectionMarker line).tail,
    recordStart? line = none ∧ isCloser line = false
  closed : isCloser library.closer = true
  unopened : recordStart? library.closer = none
  characters : ∀ character ∈ library.characters, SoundCharacter character
  plain : ∀ text ∈ library.texts, '\n' ∉ text.toList

/-- Lines whose section has an opener of a record that does not end, and the number of the line
after the section's marker. Whole records and stray lines may stand before the opener. -/
inductive CutOff : Nat → List String → Prop
  | record {before : List String} {marker opener : String} {characters : List Character}
      {records rest : List String} (unmarked : ∀ line ∈ before, isSectionMarker line = false)
      (marked : isSectionMarker marker = true)
      (laidOut : LaidOut (ScenesBlock false) characters records)
      (opened : (recordStart? opener).isSome = true)
      (endless : ∀ character block, block <+: opener :: rest →
        ¬ IsRecord (ScenesBlock false) character block) :
      CutOff (before.length + 1) (before ++ marker :: (records ++ opener :: rest))

theorem startsRecords_eq_false_iff {line : String} :
    startsRecords line = false ↔ recordStart? line = none ∧ isCloser line = false := by
  rw [startsRecords, Bool.or_eq_false_iff, Option.isSome_eq_false_iff, Option.isNone_iff_eq_none]

section Drawn

variable {scene : Scene} {lines : List String}

theorem soundScene_of_drawn (drawn : DrawnScene lines scene) : SoundScene scene where
  unquoted := by
    rcases drawn.name with empty | ⟨line, _, read⟩
    · rw [empty]
      exact List.not_mem_nil
    · exact (captured_of_name? read).1.2
  condition := by
    intro condition given text present
    obtain ⟨line, _, read⟩ := drawn.condition condition given text present
    exact (captured_of_id? read).1
  background := by
    intro background given
    rcases drawn.background background given with empty | ⟨line, _, read⟩
    · rw [empty]
      exact ⟨List.not_mem_nil, List.not_mem_nil⟩
    · exact (captured_of_id? read).1.2
  map := by
    intro text given
    obtain ⟨line, _, read⟩ := drawn.map text given
    exact (captured_of_map? read).1

theorem plain_of_drawn (drawn : DrawnScene lines scene)
    (plain : ∀ line ∈ lines, '\n' ∉ line.toList) :
    ∀ text ∈ sceneTexts scene, '\n' ∉ text.toList := by
  have inherited : ∀ {text line : String}, line ∈ lines → text.toList <:+: line.toList →
      '\n' ∉ text.toList :=
    fun member inside fed => plain _ member (inside.subset fed)
  refine forall_sceneTexts.mpr ⟨?_, ?_, ?_, ?_⟩
  · rcases drawn.name with empty | ⟨line, there, read⟩
    · rw [empty]
      exact List.not_mem_nil
    · exact inherited there (captured_of_name? read).2
  · intro condition given text present
    obtain ⟨line, there, read⟩ := drawn.condition condition given text present
    exact inherited there (captured_of_id? read).2
  · intro background given
    rcases drawn.background background given with empty | ⟨line, there, read⟩
    · rw [empty]
      exact List.not_mem_nil
    · exact inherited there (captured_of_id? read).2
  · intro text given
    obtain ⟨line, there, read⟩ := drawn.map text given
    exact inherited there (captured_of_map? read).2

end Drawn

theorem drawn_of_scenesBlock {closed : Bool} {scenes : List Scene} {lines : List String}
    (block : ScenesBlock closed scenes lines) : ∀ scene ∈ scenes, DrawnScene lines scene := by
  induction block with
  | recordCloser closer => exact List.forall_mem_nil _
  | blockCloser closer _ ih =>
      exact fun scene member => drawnScene_mono (List.subset_cons_self _ _) (ih scene member)
  | @scene closed line number block scene scenes lines unclosed opened read _ ih =>
      have first : block ⊆ line :: (block ++ lines) :=
        List.subset_cons_of_subset _ (List.subset_append_left _ _)
      have others : lines ⊆ line :: (block ++ lines) :=
        List.subset_cons_of_subset _ (List.subset_append_right _ _)
      rw [List.forall_mem_cons]
      exact ⟨drawnScene_mono first (drawnScene_of_readsAs read), fun scene member =>
        drawnScene_mono others (ih scene member)⟩
  | stray unclosed unopened _ ih =>
      exact fun scene member => drawnScene_mono (List.subset_cons_self _ _) (ih scene member)

theorem isRecord_of_laidOut {scenesAre : List Scene → List String → Prop}
    {characters : List Character} {lines : List String}
    (laidOut : LaidOut scenesAre characters lines) :
    ∀ character ∈ characters, ∃ block, block ⊆ lines ∧ IsRecord scenesAre character block := by
  induction laidOut with
  | nil => exact List.forall_mem_nil _
  | stray unopened unclosed _ ih =>
      intro character member
      obtain ⟨block, inside, record⟩ := ih character member
      exact ⟨block, List.subset_cons_of_subset _ inside, record⟩
  | record record _ ih =>
      intro character member
      rcases List.mem_cons.mp member with rfl | later
      · exact ⟨_, List.subset_append_left _ _, record⟩
      · obtain ⟨block, inside, record⟩ := ih character later
        exact ⟨block, List.subset_append_of_subset_right _ inside, record⟩

section Record

variable {character : Character} {block : List String}
  (record : IsRecord (ScenesBlock false) character block)
include record

theorem soundCharacter_of_record : SoundCharacter character := by
  cases record with
  | parts opened unnamed named unmarked marked scenes =>
      have quotable := (captured_of_name? named).1
      refine ⟨unnamed, unmarked, ?_, quotable.2, ?_⟩
      · exact fun empty => quotable.1 (String.toList_eq_nil_iff.mpr empty)
      · intro scene member
        exact soundScene_of_drawn (drawn_of_scenesBlock scenes scene member)

theorem plain_of_record (plain : ∀ line ∈ block, '\n' ∉ line.toList) :
    (∀ line ∈ character.heading ++ character.preamble, '\n' ∉ line.toList) ∧
      '\n' ∉ character.name.toList ∧
        ∀ scene ∈ character.scenes, ∀ text ∈ sceneTexts scene, '\n' ∉ text.toList := by
  cases record with
  | @parts opener naming marker items opened unnamed named unmarked marked scenes =>
      simp only [List.forall_mem_cons, List.forall_mem_append] at plain ⊢
      obtain ⟨_, plainHeading, plainNaming, plainPreamble, _, plainItems⟩ := plain
      refine ⟨⟨plainHeading, plainPreamble⟩,
        fun fed => plainNaming ((captured_of_name? named).2.subset fed), fun scene inside => ?_⟩
      exact plain_of_drawn (drawn_of_scenesBlock scenes scene inside) plainItems

end Record

/-- A library that was read from lines without a line feed is sound. -/
theorem sound_of_isLibrary {library : Library} {records lines : List String}
    (read : IsLibrary library records lines) (plain : ∀ line ∈ lines, '\n' ∉ line.toList) :
    Sound library := by
  rw [read.spelled] at plain
  simp only [List.forall_mem_append] at plain
  obtain ⟨plainLeading, plainRecords, plainLast⟩ := plain
  refine ⟨read.marked, ?_, read.closed, read.unopened, ?_,
    forall_texts.mpr ⟨plainLeading, ?_, plainLast⟩⟩
  · intro line member
    exact startsRecords_eq_false_iff.mp (read.outside line member)
  · intro character member
    obtain ⟨block, _, record⟩ := isRecord_of_laidOut read.records character member
    exact soundCharacter_of_record record
  · intro character member
    obtain ⟨block, inside, record⟩ := isRecord_of_laidOut read.records character member
    exact plain_of_record record fun line there => plainRecords line (inside there)

theorem isLibrary_of_parse {content : String} {library : Library}
    (parsed : parse content = .ok library) :
    library.layout = Text.layoutOf content ∧
      ∃ records, IsLibrary library records (Text.lines content) :=
  isLibrary_of_readLibrary parsed

theorem recordsOutcome_append_stray {strays : List String}
    (outside : ∀ line ∈ strays, startsRecords line = false) (later : List String) :
    recordsOutcome (strays ++ later) = recordsOutcome later := by
  induction strays with
  | nil => rfl
  | cons line strays ih =>
      obtain ⟨stray, others⟩ := List.forall_mem_cons.mp outside
      obtain ⟨unopened, unclosed⟩ := startsRecords_eq_false_iff.mp stray
      rw [List.cons_append, recordsOutcome_stray _ unopened unclosed, ih others]

/-- A section whose records do not come to its closer is an error. -/
theorem readLibrary_unterminated (layout : Text.Layout) (offset : Nat) {before body : List String}
    {marker : String} (unmarked : ∀ line ∈ before, isSectionMarker line = false)
    (marked : isSectionMarker marker = true) (unread : (recordsOutcome body).1 = none) :
    (readLibrary layout offset (before ++ marker :: body)).value =
      .error (.unterminatedSection (offset + before.length + 1)) := by
  obtain ⟨between, records, rfl, outside, inside⟩ := exists_strays body
  rw [recordsOutcome_append_stray outside] at unread
  rw [readLibrary_parts layout offset unmarked marked outside inside]
  rcases found : recordsOutcome records with ⟨_ | _, _⟩
  · rfl
  · rw [found] at unread
    cases unread

/-- A record that does not end takes all lines that are left. -/
theorem recordsOutcome_endless {opener : String} {rest : List String}
    (opened : (recordStart? opener).isSome = true)
    (endless : ∀ character block, block <+: opener :: rest →
      ¬ IsRecord (ScenesBlock false) character block) :
    (recordsOutcome (opener :: rest)).1 = none := by
  obtain ⟨id, opens⟩ := Option.isSome_iff_exists.mp opened
  have none : (characterOutcome id rest).2 = [] := by
    by_contra remain
    obtain ⟨block, spelled, record⟩ := exists_isRecord opens remain
    exact endless _ block ⟨_, spelled.symm⟩ record
  rw [recordsOutcome_record rest opens, none, recordsOutcome_nil]
  rfl

theorem parse_of_cutOff {content : String} {start : Nat}
    (cutOff : CutOff start (Text.lines content)) :
    parse content = .error (.unterminatedSection start) := by
  generalize spelled : Text.lines content = lines at cutOff
  cases cutOff with
  | @record before marker opener characters records rest unmarked marked laidOut opened endless =>
      have unread : (recordsOutcome (records ++ opener :: rest)).1 = none := by
        rw [recordsOutcome_laidOut laidOut, recordsOutcome_endless opened endless]
        rfl
      have value := readLibrary_unterminated (Text.layoutOf content) 0 unmarked marked unread
      rw [Nat.zero_add] at value
      rw [parse, read, spelled]
      exact value

/-- A text with one record, with lines before its name and its scenes and after the section. -/
def shortText : String :=
  "H_SCENE_ITEMS\n1 => \x7b\n# first\n:name => \"Anna\"\n# note\n:items\n1 => \x7b\n" ++
    "\x7d\n\x7d\n\x7d\n\x7d\nend"

/-- The library of the short text. -/
def shortLibrary : Library where
  leading := ["H_SCENE_ITEMS"]
  characters := [⟨1, ["# first"], "Anna", ["# note"], [{}]⟩]
  closer := "\x7d"
  trailing := ["end"]
  layout := ⟨.lf, false⟩

theorem parse_shortText : parse shortText = .ok shortLibrary := by
  decide +kernel

/-- Every library that is read is sound and was read from whole records, each to its second closer,
and a text whose section ends in the middle of a record is an error. -/
theorem parse_sound (content : String) :
    (∀ library, parse content = .ok library →
      Sound library ∧ ∃ records, IsLibrary library records (Text.lines content)) ∧
      ∀ start, CutOff start (Text.lines content) →
        parse content = .error (.unterminatedSection start) := by
  refine ⟨?_, fun start cutOff => parse_of_cutOff cutOff⟩
  intro library parsed
  obtain ⟨_, records, read⟩ := isLibrary_of_parse parsed
  exact ⟨sound_of_isLibrary read (Text.plain_lines content), records, read⟩

theorem parse_sound_shortText :
    Sound shortLibrary ∧ parse "H_SCENE_ITEMS\n1 => \x7b" = .error (.unterminatedSection 1) := by
  have sound := ((parse_sound shortText).1 shortLibrary parse_shortText).1
  have lines : Text.lines "H_SCENE_ITEMS\n1 => \x7b" = ["H_SCENE_ITEMS", "1 => \x7b"] := by
    decide +kernel
  have cutOff : CutOff 1 ["H_SCENE_ITEMS", "1 => \x7b"] := by
    refine @CutOff.record [] "H_SCENE_ITEMS" "1 => \x7b" [] [] [] nofun (by decide) .nil
      (by decide) ?_
    rintro character block front ⟨⟩
    have short := front.length_le
    simp only [List.length_cons, List.length_append, List.length_nil] at short
    omega
  rw [← lines] at cutOff
  exact ⟨sound, (parse_sound "H_SCENE_ITEMS\n1 => \x7b").2 1 cutOff⟩

end SceneGallery.Library
