import SceneGallery.Proofs.Library.ReadBack
import SceneGallery.Proofs.Text.Lines
set_option autoImplicit false

namespace SceneGallery.Library

open Text Text.Pattern SceneGallery.Field

/-- The texts of a scene. -/
def sceneTexts (scene : Scene) : List String :=
  scene.name :: ((scene.condition.bind Condition.id).toList ++
    (scene.background.map Background.id).toList ++ scene.map.toList)

theorem forall_sceneTexts {scene : Scene} {holds : String → Prop} :
    (∀ text ∈ sceneTexts scene, holds text) ↔
      holds scene.name ∧
        (∀ condition ∈ scene.condition, ∀ text ∈ condition.id, holds text) ∧
        (∀ background ∈ scene.background, holds background.id) ∧
        ∀ text ∈ scene.map, holds text := by
  obtain ⟨name, common, fadeout, _ | condition, background, map⟩ := scene <;>
    simp [sceneTexts, or_imp, forall_and]

/-- The lines that are kept as they were found. -/
def keptLines (library : Library) : List String :=
  library.leading ++ (library.characters.flatMap fun character =>
    character.heading ++ character.preamble) ++ library.closer :: library.trailing

/-- All texts of a library. -/
def texts (library : Library) : List String :=
  library.keptLines ++ library.characters.flatMap fun character =>
    character.name :: character.scenes.flatMap sceneTexts

theorem forall_texts {library : Library} {holds : String → Prop} :
    (∀ text ∈ library.texts, holds text) ↔
      (∀ line ∈ library.leading, holds line) ∧
        (∀ character ∈ library.characters,
          (∀ line ∈ character.heading ++ character.preamble, holds line) ∧
            holds character.name ∧
            ∀ scene ∈ character.scenes, ∀ text ∈ sceneTexts scene, holds text) ∧
        ∀ line ∈ library.closer :: library.trailing, holds line := by
  simp only [texts, keptLines, List.forall_mem_append, List.forall_mem_flatMap,
    List.forall_mem_cons, forall_and]
  tauto

/-- A scene whose texts can stand in their fields. -/
structure WellFormedScene (scene : Scene) : Prop where
  unquoted : '"' ∉ scene.name.toList
  unopened : search recordPattern scene.name.toList = none
  condition : ∀ condition ∈ scene.condition, ∀ text ∈ condition.id, IsIdentifier text
  background : ∀ background ∈ scene.background,
    background.id = "" ∨ IsIdentifier background.id
  map : ∀ text ∈ scene.map, IsMap text

/-- A character whose lines can stand in its record. -/
structure WellFormedCharacter (character : Character) : Prop where
  heading : ∀ line ∈ character.heading, name? line = none
  preamble : ∀ line ∈ character.preamble, isItemsMarker line = false
  nonempty : character.name ≠ ""
  unquoted : '"' ∉ character.name.toList
  counted : character.scenes.length ≤ 4294967295
  scenes : ∀ scene ∈ character.scenes, WellFormedScene scene

/-- A library whose texts can all stand where the writer puts them. -/
structure WellFormed (library : Library) : Prop where
  marked : ∃ line ∈ library.leading, isSectionMarker line = true
  outside : ∀ line ∈ (library.leading.dropWhile fun line => !isSectionMarker line).tail,
    recordStart? line = none ∧ isCloser line = false
  closed : isCloser library.closer = true
  unopened : recordStart? library.closer = none
  characters : ∀ character ∈ library.characters, WellFormedCharacter character
  plain : ∀ text ∈ library.texts, '\n' ∉ text.toList
  /-- The last line of an unterminated text may end in a carriage return, the others not. -/
  clear : library.layout.Unambiguous library.keptLines
  visible : library.layout.terminated = false → library.keptLines.getLast? ≠ some ""

theorem legibleScene {scene : Scene} (sound : WellFormedScene scene) : LegibleScene scene where
  name := ofLine?_sceneNameLine sound.unquoted sound.unopened
  condition := by
    intro condition given text present
    exact ofLine?_idLine innerIndent_blank (sound.condition condition given text present)
  background := by
    intro background given
    rcases sound.background background given with empty | identifier
    · rw [empty]
      decide
    · have entry : IsEntry (innerLine ":id" background.id) ":id" background.id.toList :=
        entryLine_entry (by decide) innerIndent_blank identifier.plain
      rw [id?_of_entry identifier entry, Option.getD_some]
  map := fun text given => ofLine?_mapLine (sound.map text given)

theorem shapedCharacter {character : Character} (sound : WellFormedCharacter character) :
    ShapedCharacter character where
  unnamed := sound.heading
  named := name?_characterNameLine sound.nonempty sound.unquoted
  unmarked := sound.preamble
  counted := by
    have := sound.counted
    rw [UInt32.size]
    omega

/-- What can stand in its place reads back. -/
theorem legible_of_wellFormed {library : Library} (sound : WellFormed library) :
    Legible library where
  marked := sound.marked
  outside := by
    intro line member
    obtain ⟨unopened, unclosed⟩ := sound.outside line member
    rw [startsRecords, unopened, unclosed]
    rfl
  characters := fun character member => shapedCharacter (sound.characters character member)
  unopened := sound.unopened
  closed := sound.closed
  scenes := fun character member scene inside =>
    legibleScene ((sound.characters character member).scenes scene inside)

section Kept

variable {layout : Layout}

theorem keeps_withMark {mark : String} (closing : IsMark mark) {lines : List String}
    (kept : ∀ line ∈ lines, layout.Keeps line) :
    ∀ line ∈ withMark mark lines, layout.Keeps line := by
  have keepsMark : layout.Keeps mark := by
    rcases closing with rfl | rfl <;> exact Layout.keeps_of_last (by decide) (by decide)
  rcases List.eq_nil_or_concat' lines with rfl | ⟨front, last, rfl⟩
  · exact kept
  · rw [withMark_concat]
    intro line member
    rcases List.mem_append.mp member with inside | final
    · exact kept line (List.mem_append_left _ inside)
    · rw [List.mem_singleton.mp final]
      exact Layout.keeps_append (kept last (by simp)) keepsMark

theorem keeps_separated {blocks : List (List String)}
    (kept : ∀ block ∈ blocks, ∀ line ∈ block, layout.Keeps line) :
    ∀ line ∈ separated blocks, layout.Keeps line := by
  induction blocks with
  | nil => exact List.forall_mem_nil _
  | cons block rest ih =>
      have first := kept block List.mem_cons_self
      have others := ih fun other member => kept other (List.mem_cons_of_mem _ member)
      cases rest with
      | nil => exact first
      | cons next rest =>
          intro line member
          rcases List.mem_append.mp member with inside | later
          · exact keeps_withMark (Or.inr rfl) first line inside
          · exact others line later

theorem keeps_number (n : Nat) : layout.Keeps (toString n) := by
  have decimal : ∀ c ∈ (toString n).toList, isDecimal c = true := by
    intro c member
    rw [Nat.toString_eq_repr, Nat.toList_repr] at member
    exact isDecimal_of_mem_toDigits member
  apply Layout.keeps_of_last
  · intro member
    exact absurd (decimal _ member) (by decide)
  · intro last
    exact absurd (decimal _ (List.mem_of_getLast? last)) (by decide)

theorem keeps_numeral (i : Int) : layout.Keeps (toString i) := by
  have known : ∀ c ∈ (toString i).toList, c = '-' ∨ isDecimal c = true := by
    intro c member
    rw [Int.toString_eq_repr, toList_repr_int] at member
    by_cases negative : i < 0
    · simp only [negative, ↓reduceIte, List.cons_append, List.nil_append, List.mem_cons] at member
      exact member.imp_right isDecimal_of_mem_toDigits
    · simp only [negative, ↓reduceIte, List.nil_append] at member
      exact Or.inr (isDecimal_of_mem_toDigits member)
  apply Layout.keeps_of_last
  · intro member
    exact absurd (known _ member) (by decide)
  · intro last
    exact absurd (known _ (List.mem_of_getLast? last)) (by decide)

theorem keeps_openerLine {indent : String} (plain : '\n' ∉ indent.toList) (n : Nat) :
    layout.Keeps (openerLine indent n) := by
  have number : layout.Keeps (toString n) := keeps_number n
  rw [openerLine]
  refine Layout.keeps_append_of_plain ?_ (by decide)
    (Layout.keeps_of_last (by decide) (by decide))
  rw [String.toList_append, List.mem_append, not_or]
  exact ⟨plain, number.plain⟩

theorem keeps_identifier {text : String} (identifier : IsIdentifier text) : layout.Keeps text := by
  apply Layout.keeps_of_last
  · intro member
    exact absurd (identifier.solid _ member) (by decide)
  · intro last
    exact absurd (identifier.solid _ (List.mem_of_getLast? last)) (by decide)

theorem keeps_map {text : String} (valid : IsMap text) (plain : '\n' ∉ text.toList) :
    layout.Keeps text := by
  obtain ⟨body, _, _, spelled⟩ := valid.spelled
  apply Layout.keeps_of_last plain
  rw [spelled, List.getLast?_concat]
  decide

theorem keeps_entryLine {indent key value : String} (known : key ∈ keys)
    (keptIndent : layout.Keeps indent) (kept : layout.Keeps value) :
    layout.Keeps (entryLine indent key value) := by
  have keyEnds : ∀ key ∈ keys, '\n' ∉ key.toList ∧ key.toList.getLast? ≠ some '\r' := by decide
  have keptKey : layout.Keeps key :=
    Layout.keeps_of_last (keyEnds key known).1 (keyEnds key known).2
  have arrow : layout.Keeps " => " := Layout.keeps_of_last (by decide) (by decide)
  exact Layout.keeps_append keptIndent
    (Layout.keeps_append keptKey (Layout.keeps_append arrow kept))

theorem keeps_sceneLine {key value : String} (known : key ∈ keys) (kept : layout.Keeps value) :
    layout.Keeps (sceneLine key value) :=
  keeps_entryLine known (Layout.keeps_of_last (by decide) (by decide)) kept

theorem keeps_innerLine {key value : String} (known : key ∈ keys) (kept : layout.Keeps value) :
    layout.Keeps (innerLine key value) :=
  keeps_entryLine known (Layout.keeps_of_last (by decide) (by decide)) kept

theorem keeps_conditionBlock {condition : Condition}
    (kept : ∀ text ∈ condition.id, layout.Keeps text) :
    ∀ line ∈ conditionBlock condition, layout.Keeps line := by
  have items : ∀ line ∈ conditionItems condition, layout.Keeps line := by
    intro line member
    rw [conditionItems, List.reduceOption_mem_iff] at member
    simp only [List.mem_cons, List.not_mem_nil, or_false] at member
    rcases member with kind | id | op | value
    · obtain ⟨value, _, rfl⟩ := Option.map_eq_some_iff.mp kind.symm
      exact keeps_innerLine (by decide) (keeps_numeral _)
    · obtain ⟨text, present, rfl⟩ := Option.map_eq_some_iff.mp id.symm
      exact keeps_innerLine (by decide) (kept text present)
    · obtain ⟨value, _, rfl⟩ := Option.map_eq_some_iff.mp op.symm
      exact keeps_innerLine (by decide) (keeps_numeral _)
    · obtain ⟨value, _, rfl⟩ := Option.map_eq_some_iff.mp value.symm
      exact keeps_innerLine (by decide) (keeps_numeral _)
  have inner : ∀ line ∈ separated ((conditionItems condition).map fun line => [line]),
      layout.Keeps line := by
    apply keeps_separated
    intro block member line inside
    obtain ⟨item, present, rfl⟩ := List.mem_map.mp member
    rw [List.mem_singleton.mp inside]
    exact items item present
  intro line member
  simp only [conditionBlock, List.cons_append, List.mem_cons, List.mem_append, List.not_mem_nil,
    or_false] at member
  rcases member with rfl | inside | rfl
  · exact Layout.keeps_of_last (by decide) (by decide)
  · exact inner line inside
  · exact Layout.keeps_of_last (by decide) (by decide)

theorem keeps_backgroundBlock {background : Background} (kept : layout.Keeps background.id) :
    ∀ line ∈ backgroundBlock background, layout.Keeps line := by
  intro line member
  simp only [backgroundBlock, List.mem_cons, List.not_mem_nil, or_false] at member
  rcases member with rfl | rfl | rfl
  · exact Layout.keeps_of_last (by decide) (by decide)
  · exact keeps_innerLine (by decide) kept
  · exact Layout.keeps_of_last (by decide) (by decide)

theorem keeps_sceneNameLine {text : String} (plain : '\n' ∉ text.toList) :
    layout.Keeps (sceneNameLine text) := by
  rw [sceneNameLine_eq]
  refine Layout.keeps_append_of_plain ?_ (by decide)
    (Layout.keeps_of_last (by decide) (by decide))
  rw [String.toList_append, List.mem_append, not_or]
  exact ⟨by decide, plain⟩

theorem keeps_mapLine {text : String} (kept : layout.Keeps text) :
    layout.Keeps (mapLine text) := by
  rw [mapLine_eq]
  exact Layout.keeps_append (Layout.keeps_of_last (by decide) (by decide)) kept

/-- A scene whose lines keep their ends. -/
structure KeepsScene (layout : Layout) (scene : Scene) : Prop where
  name : '\n' ∉ scene.name.toList
  condition : ∀ condition ∈ scene.condition,
    ∀ line ∈ conditionBlock condition, layout.Keeps line
  background : ∀ background ∈ scene.background,
    ∀ line ∈ backgroundBlock background, layout.Keeps line
  map : ∀ text ∈ scene.map, layout.Keeps text

theorem keepsScene {scene : Scene} (sound : WellFormedScene scene)
    (plain : ∀ text ∈ sceneTexts scene, '\n' ∉ text.toList) : KeepsScene layout scene where
  name := (forall_sceneTexts.mp plain).1
  condition := fun condition given => keeps_conditionBlock fun text present =>
    keeps_identifier (sound.condition condition given text present)
  background := by
    intro background given
    apply keeps_backgroundBlock
    rcases sound.background background given with empty | identifier
    · rw [empty]
      exact Layout.keeps_of_last (by decide) (by decide)
    · exact keeps_identifier identifier
  map := fun text given =>
    keeps_map (sound.map text given) ((forall_sceneTexts.mp plain).2.2.2 text given)

theorem keeps_sceneBlock {scene : Scene} (kept : KeepsScene layout scene) (ordinal : Nat) :
    ∀ line ∈ sceneBlock scene ordinal, layout.Keeps line := by
  have items : ∀ block ∈ sceneItems scene, ∀ line ∈ block, layout.Keeps line := by
    intro block member line inside
    rw [sceneItems, List.reduceOption_mem_iff] at member
    simp only [List.mem_cons, List.not_mem_nil, or_false, Option.some.injEq] at member
    rcases member with rfl | rfl | fading | conditional | behind | mapped
    · rw [List.mem_singleton.mp inside]
      exact keeps_sceneNameLine kept.name
    · rw [List.mem_singleton.mp inside]
      exact keeps_sceneLine (by decide) (keeps_number _)
    · obtain ⟨number, _, rfl⟩ := Option.map_eq_some_iff.mp fading.symm
      rw [List.mem_singleton.mp inside]
      exact keeps_sceneLine (by decide) (keeps_number _)
    · obtain ⟨condition, given, rfl⟩ := Option.map_eq_some_iff.mp conditional.symm
      exact kept.condition condition given line inside
    · obtain ⟨background, given, rfl⟩ := Option.map_eq_some_iff.mp behind.symm
      exact kept.background background given line inside
    · obtain ⟨text, given, rfl⟩ := Option.map_eq_some_iff.mp mapped.symm
      rw [List.mem_singleton.mp inside]
      exact keeps_mapLine (kept.map text given)
  intro line member
  simp only [sceneBlock, List.cons_append, List.mem_cons, List.mem_append, List.not_mem_nil,
    or_false] at member
  rcases member with rfl | inside | rfl
  · exact keeps_openerLine (by decide) ordinal
  · exact keeps_separated items line inside
  · exact Layout.keeps_of_last (by decide) (by decide)

/-- A character whose lines keep their ends. -/
structure KeepsCharacter (layout : Layout) (character : Character) : Prop where
  name : '\n' ∉ character.name.toList
  lines : ∀ line ∈ character.heading ++ character.preamble, layout.Keeps line
  scenes : ∀ scene ∈ character.scenes, KeepsScene layout scene

theorem keeps_characterBlock {character : Character} (kept : KeepsCharacter layout character) :
    ∀ line ∈ characterBlock character, layout.Keeps line := by
  have quote : layout.Keeps "\"," := Layout.keeps_of_last (by decide) (by decide)
  have blocks : ∀ block ∈ sceneBlocks 1 character.scenes, ∀ line ∈ block, layout.Keeps line := by
    intro block member
    obtain ⟨⟨scene, ordinal⟩, numbered, rfl⟩ := List.mem_map.mp member
    exact keeps_sceneBlock (kept.scenes scene (List.fst_mem_of_mem_zipIdx numbered)) ordinal
  intro line member
  simp only [characterBlock, List.cons_append, List.append_assoc, List.mem_cons, List.mem_append,
    List.not_mem_nil, or_false] at member
  rcases member with rfl | heading | rfl | preamble | rfl | inside | rfl | rfl
  · exact keeps_openerLine (by decide) _
  · exact kept.lines line (List.mem_append_left _ heading)
  · rw [characterNameLine_eq]
    refine Layout.keeps_append_of_plain ?_ (by decide) quote
    rw [String.toList_append, List.mem_append, not_or]
    exact ⟨by decide, kept.name⟩
  · exact kept.lines line (List.mem_append_right _ preamble)
  · exact Layout.keeps_of_last (by decide) (by decide)
  · exact keeps_separated blocks line inside
  · exact Layout.keeps_of_last (by decide) (by decide)
  · exact Layout.keeps_of_last (by decide) (by decide)

theorem keeps_records {characters : List Character}
    (kept : ∀ character ∈ characters, KeepsCharacter layout character) :
    ∀ line ∈ separated (characters.map characterBlock), layout.Keeps line := by
  apply keeps_separated
  intro block member
  obtain ⟨character, present, rfl⟩ := List.mem_map.mp member
  exact keeps_characterBlock (kept character present)

end Kept

section WrittenLines

variable {library : Library}

/-- The lines that are written have no line feed if the texts have none. -/
theorem plain_toLines_of_texts (plain : ∀ text ∈ library.texts, '\n' ∉ text.toList) :
    ∀ line ∈ library.toLines, '\n' ∉ line.toList := by
  obtain ⟨leading, characters, last⟩ := forall_texts.mp plain
  -- Where every ending brings its own carriage return, a line keeps its end if it is plain.
  have keeps : ∀ {text : String}, '\n' ∉ text.toList → Layout.Keeps ⟨.crlf, true⟩ text :=
    fun plainText => ⟨plainText, nofun⟩
  have kept : ∀ character ∈ library.characters, KeepsCharacter ⟨.crlf, true⟩ character := by
    intro character member
    obtain ⟨lines, name, scenes⟩ := characters character member
    refine ⟨name, fun line inside => keeps (lines line inside), fun scene inside => ?_⟩
    obtain ⟨sceneName, conditions, backgrounds, maps⟩ :=
      forall_sceneTexts.mp (scenes scene inside)
    exact {
      name := sceneName
      condition := fun condition given =>
        keeps_conditionBlock fun text present => keeps (conditions condition given text present)
      background := fun background given =>
        keeps_backgroundBlock (keeps (backgrounds background given))
      map := fun text given => keeps (maps text given) }
  rw [toLines_eq_blocks]
  simp only [List.forall_mem_append]
  exact ⟨leading, fun line record => (keeps_records kept line record).plain, last⟩

/-- The last line that is written is a kept one. -/
theorem getLast?_toLines (library : Library) :
    library.toLines.getLast? = (library.closer :: library.trailing).getLast? := by
  rw [toLines_eq_blocks, ← List.append_assoc,
    List.getLast?_append_of_ne_nil _ (List.cons_ne_nil _ _)]

/-- The line that opens the section is followed by an ending, since the closer comes later. -/
theorem ended_toLines_of_marked (marked : ∃ line ∈ library.leading, isSectionMarker line = true) :
    library.layout.ended library.toLines ≠ [] := by
  obtain ⟨line, member, _⟩ := marked
  rw [toLines_eq_blocks, ← List.append_assoc, Layout.ended_append _ _ (List.cons_ne_nil _ _)]
  intro empty
  have front := (List.append_eq_nil_iff.mp empty).1
  have none := (List.append_eq_nil_iff.mp front).1
  rw [none] at member
  cases member

/-- No written line adds to the ending behind it exactly if the lines around the records do not and
the lines of the records keep their ends. -/
theorem unambiguous_toLines_iff (plain : ∀ line ∈ library.toLines, '\n' ∉ line.toList) :
    library.layout.Unambiguous library.toLines ↔
      (library.layout.ending = .lf →
        ∀ line ∈ library.leading ++ library.layout.ended (library.closer :: library.trailing),
          line.toList.getLast? ≠ some '\r') ∧
        ∀ line ∈ separated (library.characters.map characterBlock), library.layout.Keeps line := by
  have ended : library.layout.ended library.toLines =
      library.leading ++ (separated (library.characters.map characterBlock) ++
        library.layout.ended (library.closer :: library.trailing)) := by
    rw [toLines_eq_blocks, ← List.append_assoc, Layout.ended_append _ _ (List.cons_ne_nil _ _),
      List.append_assoc]
  rw [Layout.Unambiguous, ended]
  simp only [List.forall_mem_append]
  constructor
  · intro bare
    refine ⟨fun lf => ⟨(bare lf).1, (bare lf).2.2⟩, fun line record => ⟨plain line ?_, fun lf =>
      (bare lf).2.1 line record⟩⟩
    rw [toLines_eq_blocks]
    exact List.mem_append_right _ (List.mem_append_left _ record)
  · rintro ⟨around, records⟩ lf
    exact ⟨(around lf).1, fun line record => (records line record).bare lf, (around lf).2⟩

end WrittenLines

section WellFormedLines

variable {library : Library} (sound : WellFormed library)
include sound

theorem plain_toLines : ∀ line ∈ library.toLines, '\n' ∉ line.toList :=
  plain_toLines_of_texts sound.plain

theorem unambiguous_toLines : library.layout.Unambiguous library.toLines := by
  obtain ⟨_, characters, _⟩ := forall_texts.mp sound.plain
  have clear := sound.clear
  rw [Layout.Unambiguous, keptLines, Layout.ended_append _ _ (List.cons_ne_nil _ _)] at clear
  simp only [List.forall_mem_append, List.forall_mem_flatMap] at clear
  rw [unambiguous_toLines_iff (plain_toLines sound)]
  refine ⟨fun lf => ?_, keeps_records fun character member => ?_⟩
  · rw [List.forall_mem_append]
    exact ⟨(clear lf).1.1, (clear lf).2⟩
  · obtain ⟨lines, name, scenes⟩ := characters character member
    refine ⟨name, fun line inside => ⟨lines line inside, fun lf => ?_⟩, fun scene inside =>
      keepsScene ((sound.characters character member).scenes scene inside) (scenes scene inside)⟩
    exact List.forall_mem_append.mpr ((clear lf).1.2 character member) line inside

theorem visible_toLines (unended : library.layout.terminated = false) :
    library.toLines.getLast? ≠ some "" := by
  have last := sound.visible unended
  rw [keptLines, List.getLast?_append_of_ne_nil _ (List.cons_ne_nil _ _)] at last
  rw [getLast?_toLines]
  exact last

theorem ended_toLines : library.layout.ended library.toLines ≠ [] :=
  ended_toLines_of_marked sound.marked

end WellFormedLines

/-- A well-formed library comes back from its own text. -/
theorem parse_serialize {library : Library} (sound : WellFormed library) :
    parse (serialize library) = .ok library := by
  have nonempty : library.toLines ≠ [] := by
    rw [toLines_eq_blocks]
    simp
  have plain := plain_toLines sound
  have clear := unambiguous_toLines sound
  have visible := visible_toLines sound
  have split : Text.lines (serialize library) = library.toLines := lines_join plain clear visible
  have layout : layoutOf (serialize library) = library.layout :=
    layoutOf_join nonempty plain clear visible fun _ => ended_toLines sound
  rw [parse, read, split, layout]
  exact readLibrary_toLines (legible_of_wellFormed sound)

/-- A library with a scene of every field and a scene of none. -/
def smallLibrary : Library where
  leading := ["module Gallery", "  H_SCENE_ITEMS = \x7b"]
  characters := [⟨7, ["      # first"], "Anna", [],
    [⟨"At the \u2192 gate", 12, some 30, some ⟨some 1, some "42", some 0, some (-5)⟩,
      some ⟨"bg_gate"⟩, some "[3, 4]"⟩, {}]⟩]
  closer := "  \x7d"
  trailing := ["end\r"]
  layout := ⟨.lf, false⟩

theorem parse_serialize_smallLibrary :
    WellFormed smallLibrary ∧ parse (serialize smallLibrary) = .ok smallLibrary := by
  have numeric : IsIdentifier "42" :=
    ⟨by decide, forall_of_all (by decide), by decide, noArrow_of_unequal (by decide)⟩
  have symbolic : IsIdentifier "bg_gate" :=
    ⟨by decide, forall_of_all (by decide), by decide, noArrow_of_unequal (by decide)⟩
  have place : IsMap "[3, 4]" :=
    ⟨⟨"[3, 4".toList, by decide⟩, forall_head?_cons (by decide), noArrow_of_unequal (by decide)⟩
  have full : WellFormedScene ⟨"At the \u2192 gate", 12, some 30,
      some ⟨some 1, some "42", some 0, some (-5)⟩, some ⟨"bg_gate"⟩, some "[3, 4]"⟩ := by
    refine ⟨by decide, by decide, ?_, ?_, ?_⟩
    · rintro _ ⟨⟩ _ ⟨⟩
      exact numeric
    · rintro _ ⟨⟩
      exact Or.inr symbolic
    · rintro _ ⟨⟩
      exact place
  have bare : WellFormedScene {} := by
    refine ⟨by decide, by decide, ?_, ?_, ?_⟩ <;> exact nofun
  have sound : WellFormed smallLibrary := by
    refine ⟨by decide, by decide, by decide, by decide, ?_, by decide, ?_, by decide⟩
    · intro character member
      rw [List.mem_singleton.mp member]
      refine ⟨by decide, by decide, by decide, by decide, by decide, ?_⟩
      simp only [List.forall_mem_cons, List.not_mem_nil, false_imp_iff, implies_true, and_true]
      exact ⟨full, bare⟩
    · intro _
      decide
  exact ⟨sound, parse_serialize sound⟩

end SceneGallery.Library
