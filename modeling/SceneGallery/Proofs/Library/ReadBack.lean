import SceneGallery.Proofs.Library.LastComma
import SceneGallery.Proofs.Library.Outcome
import SceneGallery.Proofs.Library.WrittenField
set_option autoImplicit false

/- Written blocks read back. The comma that a neighbour puts at the end of a block changes nothing
in what is read, so separated blocks are read one after the other, whatever texts stand in them.
What comes back is the library with the texts of its scenes read once more, and it is the same
library exactly if each of these texts reads back from its own line. -/
namespace SceneGallery.Library

open Text Text.Pattern SceneGallery.Field

/-- Whether reading from a state takes in the lines of a block, with a comma at its end or not, by
changing the state. -/
def Takes {σ β : Type} (read : σ → List String → β) (step : σ → σ) (block : List String) : Prop :=
  ∀ state mark rest, IsMark mark →
    read state (withMark mark block ++ rest) = read (step state) rest

/-- Separated blocks are taken in one after the other. -/
theorem read_separated {σ β : Type} {read : σ → List String → β} {steps : List (σ → σ)}
    {blocks : List (List String)} (taken : List.Forall₂ (Takes read) steps blocks)
    (state : σ) (rest : List String) :
    read state (separated blocks ++ rest) =
      read (steps.foldl (fun state step => step state) state) rest := by
  induction taken generalizing state with
  | nil => rfl
  | @cons step block steps blocks first others ih =>
      cases others with
      | nil =>
          have whole := first state "" rest (Or.inl rfl)
          rw [withMark_empty] at whole
          exact whole
      | cons second others =>
          rw [separated, List.append_assoc, first state "," _ (Or.inr rfl), ih (step state)]
          rfl

/-- A line of a scene that opens and closes nothing. -/
structure Unmarked (line : String) : Prop where
  noCondition : isConditionOpener line = false
  noBackground : isBackgroundOpener line = false
  unclosed : isCloser line = false

/-- The words that a line of a field starts with. -/
def words : List String :=
  "map:" :: keys

theorem word_unmarked : ∀ word ∈ words, ∀ rest : List Char,
    (word.toList ++ rest).dropWhile isBlank = word.toList ++ rest ∧
      ":condition".toList.isPrefixOf (word.toList ++ rest) = false ∧
      ":background".toList.isPrefixOf (word.toList ++ rest) = false ∧
      ((word.toList ++ rest).head? == some '\x7d') = false := by
  simp only [words, keys, List.forall_mem_cons, List.not_mem_nil, false_imp_iff, implies_true,
    and_true]
  exact ⟨fun _ => ⟨rfl, rfl, rfl, rfl⟩, fun _ => ⟨rfl, rfl, rfl, rfl⟩,
    fun _ => ⟨rfl, rfl, rfl, rfl⟩, fun _ => ⟨rfl, rfl, rfl, rfl⟩, fun _ => ⟨rfl, rfl, rfl, rfl⟩,
    fun _ => ⟨rfl, rfl, rfl, rfl⟩, fun _ => ⟨rfl, rfl, rfl, rfl⟩, fun _ => ⟨rfl, rfl, rfl, rfl⟩⟩

theorem unmarked_of_word {line word : String} {indent rest : List Char} (known : word ∈ words)
    (allBlank : ∀ c ∈ indent, isBlank c = true)
    (spelled : line.toList = indent ++ (word.toList ++ rest)) : Unmarked line := by
  obtain ⟨solid, noCondition, noBackground, unclosed⟩ := word_unmarked word known rest
  have trimmed : trimStart line.toList = word.toList ++ rest := by
    rw [spelled, trimStart, List.dropWhile_append_of_pos allBlank, solid]
  constructor
  · rw [isConditionOpener, trimmed, noCondition]
  · rw [isBackgroundOpener, trimmed, noBackground]
  · rw [isCloser, trimmed, unclosed]

theorem unmarked_sceneNameLine (text mark : String) : Unmarked (sceneNameLine text ++ mark) := by
  have spelled : (sceneNameLine text ++ mark).toList = _ := String.toList_append
  rw [toList_sceneNameLine, List.append_assoc, List.append_assoc] at spelled
  exact unmarked_of_word (by decide) (forall_of_all (by decide)) spelled

theorem unmarked_mapLine (text mark : String) : Unmarked (mapLine text ++ mark) := by
  have spelled : (mapLine text ++ mark).toList = _ := String.toList_append
  rw [toList_mapLine, List.append_assoc, List.append_assoc] at spelled
  exact unmarked_of_word (by decide) (forall_of_all (by decide)) spelled

theorem unmarked_entryLine {indent key : String} (known : key ∈ words)
    (allBlank : ∀ c ∈ indent.toList, isBlank c = true) (value mark : String) :
    Unmarked (entryLine indent key value ++ mark) := by
  have spelled : (entryLine indent key value ++ mark).toList = _ := String.toList_append
  rw [toList_entryLine, List.append_assoc, List.append_assoc] at spelled
  exact unmarked_of_word known allBlank spelled

theorem sceneIndent_blank : ∀ c ∈ "          ".toList, isBlank c = true :=
  forall_of_all (by decide)

theorem innerIndent_blank : ∀ c ∈ "            ".toList, isBlank c = true :=
  forall_of_all (by decide)

/-- A closing brace is a closer with a comma and without it. -/
theorem isCloser_withMark {mark : String} (closing : IsMark mark) {line : String}
    (closer : line ∈ ["          \x7d", "        \x7d", "    \x7d"]) :
    isCloser (line ++ mark) = true ∧ isConditionOpener (line ++ mark) = false ∧
      isBackgroundOpener (line ++ mark) = false := by
  revert line
  rcases closing with rfl | rfl <;> decide

theorem ofLine?_append_mark {mark : String} (closing : IsMark mark) (line : String) :
    ofLine? (line ++ mark) = ofLine? line := by
  rcases closing with rfl | rfl
  · rw [String.append_empty]
  · exact ofLine?_append_comma line

/-- The condition with what a line says about it. -/
def putConditionLine (condition : Condition) (line : String) : Condition :=
  (putCondition? condition (ofLine? line)).getD condition

/-- The scene with what a line says about it. -/
def putSceneLine (scene : Scene) (line : String) : Scene :=
  (putScene? scene (ofLine? line)).getD scene

/-- What the lines of a condition do to a condition that is read from them. -/
def conditionSteps (condition : Condition) : List (Option (Condition → Condition)) :=
  [condition.kind.map fun value read => { read with kind := some value },
    condition.id.map fun text read => putConditionLine read (innerLine ":id" text),
    condition.op.map fun value read => { read with op := some value },
    condition.value.map fun value read => { read with value := some value }]

/-- What is read from the lines of a condition. -/
def rereadCondition (condition : Condition) : Condition :=
  (conditionSteps condition).reduceOption.foldl (fun read step => step read) {}

/-- What is read from the lines of a background. -/
def rereadBackground (background : Background) : Background :=
  ⟨(id? (innerLine ":id" background.id)).getD ""⟩

/-- What the lines of a scene do to a scene that is read from them. -/
def sceneSteps (scene : Scene) : List (Option (Scene → Scene)) :=
  [some fun read => putSceneLine read (sceneNameLine scene.name),
    some fun read => { read with common := scene.common },
    scene.fadeout.map fun number read => { read with fadeout := some number },
    scene.condition.map fun condition read =>
      { read with condition := some (rereadCondition condition) },
    scene.background.map fun background read =>
      { read with background := some (rereadBackground background) },
    scene.map.map fun text read => putSceneLine read (mapLine text)]

/-- What is read from the lines of a scene. -/
def rereadScene (scene : Scene) : Scene :=
  (sceneSteps scene).reduceOption.foldl (fun read step => step read) {}

/-- What is read from the lines of a record. -/
def rereadCharacter (character : Character) : Character :=
  { character with scenes := character.scenes.map rereadScene }

/-- What is read from the lines of a library. -/
def reread (library : Library) : Library :=
  { library with characters := library.characters.map rereadCharacter }

theorem conditionOutcome_takes {line : String} (unmarked : ∀ mark, Unmarked (line ++ mark)) :
    Takes conditionOutcome (fun condition => putConditionLine condition line) [line] := by
  intro condition mark rest closing
  rw [withMark_singleton, List.singleton_append,
    conditionOutcome_line condition rest (unmarked mark).unclosed, ofLine?_append_mark closing]
  rfl

theorem conditionOutcome_takes_numeral {key : String} {field : Int64 → Field}
    {step : Condition → Condition} (known : key ∈ keys) (value : Int64)
    (signed : ∀ line, ofKey? key line = (signed? key line).map field)
    (put : ∀ condition, putCondition? condition (some (field value)) = some (step condition)) :
    Takes conditionOutcome step [innerLine key (toString value.toInt)] := by
  have taken := conditionOutcome_takes (unmarked_entryLine (List.mem_cons_of_mem _ known)
    innerIndent_blank (toString value.toInt))
  have same : (fun condition => putConditionLine condition (innerLine key (toString value.toInt))) =
      step := by
    funext condition
    rw [putConditionLine, ofLine?_numeralLine innerIndent_blank known signed, put]
    rfl
  rw [same] at taken
  exact taken

theorem conditionSteps_taken (condition : Condition) :
    List.Forall₂ (Takes conditionOutcome) (conditionSteps condition).reduceOption
      ((conditionItems condition).map fun line => [line]) := by
  rw [conditionItems, ← List.reduceOption_map]
  apply forall₂_reduceOption
  simp only [List.map_cons, List.map_nil, Option.map_map]
  refine .cons ?kind (.cons ?id (.cons ?op (.cons ?value .nil)))
  case kind =>
    apply rel_map
    intro value
    exact conditionOutcome_takes_numeral (by decide) value (fun _ => rfl) fun _ => rfl
  case id =>
    apply rel_map
    intro text
    exact conditionOutcome_takes (unmarked_entryLine (by decide) innerIndent_blank text)
  case op =>
    apply rel_map
    intro value
    exact conditionOutcome_takes_numeral (by decide) value (fun _ => rfl) fun _ => rfl
  case value =>
    apply rel_map
    intro value
    exact conditionOutcome_takes_numeral (by decide) value (fun _ => rfl) fun _ => rfl

/-- The lines after the opener of a condition are read to its closer. -/
theorem conditionOutcome_items (condition : Condition) {mark : String} (closing : IsMark mark)
    (rest : List String) :
    conditionOutcome {} (separated ((conditionItems condition).map fun line => [line]) ++
      ("          \x7d" ++ mark) :: rest) = (rereadCondition condition, rest) := by
  rw [read_separated (conditionSteps_taken condition), conditionOutcome_closer]
  · rfl
  · exact (isCloser_withMark closing (by decide)).1

theorem backgroundOutcome_item (background : Background) {mark : String} (closing : IsMark mark)
    (rest : List String) :
    backgroundOutcome {} (innerLine ":id" background.id :: ("          \x7d" ++ mark) :: rest) =
      (rereadBackground background, rest) := by
  have unmarked := unmarked_entryLine (by decide : ":id" ∈ words) innerIndent_blank background.id
    ""
  rw [String.append_empty] at unmarked
  rw [backgroundOutcome_line {} _ unmarked.unclosed,
    backgroundOutcome_closer _ _ (isCloser_withMark closing (by decide)).1]
  rfl

theorem sceneOutcome_takes {line : String} (unmarked : ∀ mark, Unmarked (line ++ mark)) :
    Takes sceneOutcome (fun scene => putSceneLine scene line) [line] := by
  intro scene mark rest closing
  rw [withMark_singleton, List.singleton_append,
    sceneOutcome_line scene rest (unmarked mark).noCondition (unmarked mark).noBackground
      (unmarked mark).unclosed, ofLine?_append_mark closing]
  rfl

theorem sceneOutcome_takes_number {key : String} {field : Field} {step : Scene → Scene}
    (known : key ∈ keys) {value : String} (read : ofLine? (sceneLine key value) = some field)
    (put : ∀ scene, putScene? scene (some field) = some (step scene)) :
    Takes sceneOutcome step [sceneLine key value] := by
  have taken := sceneOutcome_takes (unmarked_entryLine (List.mem_cons_of_mem _ known)
    sceneIndent_blank value)
  have same : (fun scene => putSceneLine scene (sceneLine key value)) = step := by
    funext scene
    rw [putSceneLine, read, put]
    rfl
  rw [same] at taken
  exact taken

theorem sceneOutcome_takes_condition (condition : Condition) :
    Takes sceneOutcome (fun scene => { scene with condition := some (rereadCondition condition) })
      (conditionBlock condition) := by
  intro scene mark rest closing
  have opener : isConditionOpener "          :condition => \x7b" = true := by decide
  rw [conditionBlock, withMark_concat, List.cons_append, List.cons_append, List.append_assoc,
    List.singleton_append, sceneOutcome_condition scene _ opener,
    conditionOutcome_items condition closing]

theorem sceneOutcome_takes_background (background : Background) :
    Takes sceneOutcome
      (fun scene => { scene with background := some (rereadBackground background) })
      (backgroundBlock background) := by
  intro scene mark rest closing
  have opener : isBackgroundOpener "          :background => \x7b" = true := by decide
  have noCondition : isConditionOpener "          :background => \x7b" = false := by decide
  have block : withMark mark (backgroundBlock background) ++ rest =
      "          :background => \x7b" :: innerLine ":id" background.id ::
        ("          \x7d" ++ mark) :: rest := rfl
  rw [block, sceneOutcome_background scene _ noCondition opener,
    backgroundOutcome_item background closing]

theorem sceneSteps_taken (scene : Scene) :
    List.Forall₂ (Takes sceneOutcome) (sceneSteps scene).reduceOption (sceneItems scene) := by
  apply forall₂_reduceOption
  refine .cons (.some ?name) (.cons (.some ?common) (.cons ?fadeout (.cons ?condition
    (.cons ?background (.cons ?map .nil)))))
  case name => exact sceneOutcome_takes (unmarked_sceneNameLine scene.name)
  case common =>
    exact sceneOutcome_takes_number (by decide) (ofLine?_commonLine sceneIndent_blank _)
      fun _ => rfl
  case fadeout =>
    apply rel_map
    intro number
    exact sceneOutcome_takes_number (by decide) (ofLine?_fadeoutLine sceneIndent_blank _)
      fun _ => rfl
  case condition =>
    apply rel_map
    exact sceneOutcome_takes_condition
  case background =>
    apply rel_map
    exact sceneOutcome_takes_background
  case map =>
    apply rel_map
    intro text
    exact sceneOutcome_takes (unmarked_mapLine text)

theorem sceneOutcome_items (scene : Scene) {mark : String} (closing : IsMark mark)
    (rest : List String) :
    sceneOutcome {} (separated (sceneItems scene) ++ ("        \x7d" ++ mark) :: rest) =
      (rereadScene scene, rest) := by
  obtain ⟨closer, noCondition, noBackground⟩ :=
    isCloser_withMark closing (by decide : "        \x7d" ∈ _)
  rw [read_separated (sceneSteps_taken scene),
    sceneOutcome_closer _ _ noCondition noBackground closer]
  rfl

/-- Reads scenes after those that have been read. -/
def scenesAfter (closed : Bool) (read : List Scene) (lines : List String) :
    List Scene × List String :=
  (read ++ (scenesOutcome closed lines).1, (scenesOutcome closed lines).2)

theorem isCloser_sceneOpener (ordinal : Nat) : isCloser (sceneOpener ordinal) = false := by
  obtain ⟨digit, others, spelled⟩ :=
    List.exists_cons_of_ne_nil (Nat.toDigits_ne_nil (n := ordinal) (b := 10))
  have decimal : isDecimal digit = true :=
    isDecimal_of_mem_toDigits (n := ordinal) (by rw [spelled]; exact List.mem_cons_self)
  have solid : isBlank digit = false := isBlank_of_isDecimal decimal
  have other : digit ≠ '\x7d' := by
    rintro rfl
    exact absurd decimal (by decide)
  have written : (sceneOpener ordinal).toList =
      "        ".toList ++ digit :: (others ++ " => \x7b".toList) := by
    simp only [sceneOpener, String.toList_append, Nat.toString_eq_repr, Nat.toList_repr, spelled,
      List.append_assoc, List.cons_append]
  rw [isCloser, written, trimStart, List.dropWhile_append_of_pos (forall_of_all (by decide)),
    List.dropWhile_cons]
  simp [solid, other]

theorem scenesAfter_takes (scene : Scene) {ordinal : Nat} (small : ordinal < UInt32.size)
    (closed : Bool) :
    Takes (scenesAfter closed) (fun read => read ++ [rereadScene scene])
      (sceneBlock scene ordinal) := by
  intro read mark rest closing
  have opened := recordStart?_sceneOpener small
  have unclosed := isCloser_sceneOpener ordinal
  simp only [scenesAfter]
  rw [sceneBlock, withMark_concat, List.cons_append, List.cons_append, List.append_assoc,
    List.singleton_append, scenesOutcome_scene closed _ unclosed opened,
    sceneOutcome_items scene closing, List.append_assoc, List.singleton_append]

theorem foldl_concat_map {α β : Type} (f : α → β) (items : List α) :
    (items.map fun item (read : List β) => read ++ [f item]).foldl
      (fun read step => step read) [] = items.map f := by
  rw [List.foldl_map, List.foldl_append_eq_append, ← List.flatMap_def, ← List.map_eq_flatMap,
    List.nil_append]

/-- Numbered scenes are read up to the two closers behind them. -/
theorem scenesOutcome_items {scenes : List Scene} (counted : scenes.length < UInt32.size)
    {mark : String} (closing : IsMark mark) (rest : List String) :
    scenesOutcome false (separated (sceneBlocks 1 scenes) ++
      "      \x7d" :: ("    \x7d" ++ mark) :: rest) = (scenes.map rereadScene, rest) := by
  have taken : List.Forall₂ (Takes (scenesAfter false))
      ((scenes.zipIdx 1).map fun numbered read => read ++ [rereadScene numbered.1])
      (sceneBlocks 1 scenes) := by
    rw [sceneBlocks, List.forall₂_map_left_iff, List.forall₂_map_right_iff, List.forall₂_same]
    rintro ⟨scene, ordinal⟩ member
    have below := List.snd_lt_of_mem_zipIdx member
    exact scenesAfter_takes scene (by omega) false
  have all := read_separated taken [] ("      \x7d" :: ("    \x7d" ++ mark) :: rest)
  have recordCloser := (isCloser_withMark closing (by decide : "    \x7d" ∈ _)).1
  rw [foldl_concat_map fun numbered : Scene × Nat => rereadScene numbered.1, scenesAfter,
    scenesAfter, scenesOutcome_block_closer _ (by decide),
    scenesOutcome_record_closer _ recordCloser, List.append_nil, List.nil_append] at all
  have numbered : (scenes.zipIdx 1).map (fun numbered => rereadScene numbered.1) =
      scenes.map rereadScene := by
    have first := congrArg (List.map rereadScene) (List.zipIdx_map_fst 1 scenes)
    simp only [List.map_map, Function.comp_def] at first
    exact first
  rw [numbered] at all
  exact all

/-- A character whose lines are read as those of a record. -/
structure ShapedCharacter (character : Character) : Prop where
  unnamed : ∀ line ∈ character.heading, name? line = none
  named : name? (characterNameLine character.name) = some character.name
  unmarked : ∀ line ∈ character.preamble, isItemsMarker line = false
  counted : character.scenes.length < UInt32.size

/-- A library whose lines are read as those of a library. -/
structure Shaped (library : Library) : Prop where
  marked : ∃ line ∈ library.leading, isSectionMarker line = true
  outside : ∀ line ∈ (library.leading.dropWhile fun line => !isSectionMarker line).tail,
    startsRecords line = false
  characters : ∀ character ∈ library.characters, ShapedCharacter character
  unopened : recordStart? library.closer = none
  closed : isCloser library.closer = true

/-- The lines after the opener of a record are read to its closer. -/
theorem characterOutcome_block {character : Character} (shaped : ShapedCharacter character)
    {mark : String} (closing : IsMark mark) (rest : List String) :
    characterOutcome character.id (character.heading ++ characterNameLine character.name ::
      (character.preamble ++ "      :items => \x7b" ::
        (separated (sceneBlocks 1 character.scenes) ++
          "      \x7d" :: ("    \x7d" ++ mark) :: rest))) = (rereadCharacter character, rest) := by
  have marked : isItemsMarker "      :items => \x7b" = true := by decide
  rw [characterOutcome_parts character.id _ shaped.unnamed shaped.named shaped.unmarked marked,
    scenesOutcome_items shaped.counted closing]
  rfl

/-- Reads records after the characters that have been read. -/
def recordsAfter (read : List Character) (lines : List String) :
    Option (List Character × String) × List String :=
  ((recordsOutcome lines).1.map fun found => (read ++ found.1, found.2), (recordsOutcome lines).2)

theorem withMark_characterBlock_append (character : Character) (mark : String)
    (rest : List String) :
    withMark mark (characterBlock character) ++ rest =
      recordOpener character.id :: (character.heading ++
        characterNameLine character.name :: (character.preamble ++ "      :items => \x7b" ::
          (separated (sceneBlocks 1 character.scenes) ++
            "      \x7d" :: ("    \x7d" ++ mark) :: rest))) := by
  rw [withMark_characterBlock]
  simp only [List.append_assoc, List.cons_append, List.nil_append]

theorem recordsAfter_takes {character : Character} (shaped : ShapedCharacter character) :
    Takes recordsAfter (fun read => read ++ [rereadCharacter character])
      (characterBlock character) := by
  intro read mark rest closing
  have opened := recordStart?_recordOpener character.id
  simp only [recordsAfter]
  rw [withMark_characterBlock_append, recordsOutcome_record _ opened,
    characterOutcome_block shaped closing]
  simp only [Option.map_map, Function.comp_def, List.append_assoc, List.singleton_append]

theorem recordsOutcome_blocks {characters : List Character} {closer : String}
    (shaped : ∀ character ∈ characters, ShapedCharacter character)
    (unopened : recordStart? closer = none) (closed : isCloser closer = true)
    (trailing : List String) :
    recordsOutcome (separated (characters.map characterBlock) ++ closer :: trailing) =
      (some (characters.map rereadCharacter, closer), trailing) := by
  have taken : List.Forall₂ (Takes recordsAfter)
      (characters.map fun character read => read ++ [rereadCharacter character])
      (characters.map characterBlock) := by
    rw [List.forall₂_map_left_iff, List.forall₂_map_right_iff, List.forall₂_same]
    intro character member
    exact recordsAfter_takes (shaped character member)
  have all := read_separated taken [] (closer :: trailing)
  rw [foldl_concat_map rereadCharacter] at all
  simp only [recordsAfter, recordsOutcome_closer _ unopened closed, List.nil_append,
    List.append_nil, Option.map_some, Option.map_id_fun'] at all
  exact all

theorem startsRecords_head (characters : List Character) {closer : String}
    (closed : isCloser closer = true) (trailing : List String) :
    ∀ line ∈ (separated (characters.map characterBlock) ++ closer :: trailing).head?,
      startsRecords line = true := by
  have opened : ∀ character : Character,
      startsRecords (recordOpener character.id) = true := by
    intro character
    rw [startsRecords, recordStart?_recordOpener]
    rfl
  match characters with
  | [] =>
      rintro _ ⟨⟩
      rw [startsRecords, closed, Bool.or_true]
  | [character] =>
      rintro _ ⟨⟩
      exact opened character
  | character :: next :: others =>
      rw [List.map_cons, List.map_cons, separated, List.append_assoc,
        withMark_characterBlock_append]
      rintro _ ⟨⟩
      exact opened character

/-- What comes back from the lines of a library is the library with its texts read once more. -/
theorem readLibrary_toLines_reread {library : Library} (shaped : Shaped library) :
    (readLibrary library.layout 0 library.toLines).value = .ok (reread library) := by
  obtain ⟨leading, characters, closer, trailing, layout⟩ := library
  have whole := List.takeWhile_append_dropWhile (p := fun line => !isSectionMarker line)
    (l := leading)
  have before : ∀ line ∈ leading.takeWhile fun line => !isSectionMarker line,
      isSectionMarker line = false := by
    intro line member
    simpa using List.mem_takeWhile_imp member
  have outside := shaped.outside
  have read := recordsOutcome_blocks shaped.characters shaped.unopened shaped.closed trailing
  rw [toLines_eq_blocks]
  cases spelled : leading.dropWhile fun line => !isSectionMarker line with
  | nil =>
      obtain ⟨line, member, marked⟩ := shaped.marked
      have unmarked := List.dropWhile_eq_nil_iff.mp spelled line member
      rw [marked] at unmarked
      cases unmarked
  | cons marker between =>
      have marked : isSectionMarker marker = true := by
        have first := List.head?_dropWhile_not (fun line => !isSectionMarker line) leading
        rw [spelled] at first
        simpa using first
      simp only [spelled, List.tail_cons] at outside
      rw [spelled] at whole
      have value := readLibrary_parts layout 0 before marked outside
        (startsRecords_head characters shaped.closed trailing)
      rw [read] at value
      simp only [reread] at value ⊢
      rw [← whole, List.append_assoc, List.cons_append]
      exact value

/-- A condition whose identifier reads back from its line. -/
def LegibleCondition (condition : Condition) : Prop :=
  ∀ text ∈ condition.id, ofLine? (innerLine ":id" text) = some (.id text)

/-- A scene whose texts read back from their lines. An empty name is no name. -/
structure LegibleScene (scene : Scene) : Prop where
  name : ofLine? (sceneNameLine scene.name) =
    if scene.name = "" then none else some (.name scene.name)
  condition : ∀ condition ∈ scene.condition, LegibleCondition condition
  background : ∀ background ∈ scene.background,
    (id? (innerLine ":id" background.id)).getD "" = background.id
  map : ∀ text ∈ scene.map, ofLine? (mapLine text) = some (.map text)

/-- A library whose lines and texts read back. -/
structure Legible (library : Library) : Prop extends Shaped library where
  scenes : ∀ character ∈ library.characters, ∀ scene ∈ character.scenes, LegibleScene scene

theorem ofLine?_of_putConditionLine {condition : Condition} {line text : String}
    (absent : condition.id = none) (put : (putConditionLine condition line).id = some text) :
    ofLine? line = some (.id text) := by
  rw [putConditionLine] at put
  cases read : ofLine? line with
  | none =>
      rw [read] at put
      exact absurd (absent.symm.trans put) nofun
  | some field =>
      rw [read] at put
      cases field <;> simp_all [putCondition?]

/-- The identifier that is read from the lines of a condition is the one on its own line. -/
theorem id_rereadCondition {condition : Condition} {text : String}
    (given : condition.id = some text) :
    (rereadCondition condition).id =
      (putConditionLine { kind := condition.kind } (innerLine ":id" text)).id := by
  obtain ⟨_ | kind, _, _ | op, _ | value⟩ := condition <;> cases given <;>
    simp only [rereadCondition, conditionSteps, Option.map_some, Option.map_none,
      List.reduceOption_cons_of_some, List.reduceOption_cons_of_none, List.reduceOption_nil,
      List.foldl_cons, List.foldl_nil]

theorem rereadCondition_eq_self_iff {condition : Condition} :
    rereadCondition condition = condition ↔ LegibleCondition condition := by
  constructor
  · intro same text given
    have read := id_rereadCondition given
    rw [same, Option.mem_def.mp given] at read
    exact ofLine?_of_putConditionLine rfl read.symm
  · intro legible
    have put : ∀ text ∈ condition.id, ∀ read,
        putConditionLine read (innerLine ":id" text) = { read with id := some text } := by
      intro text given read
      rw [putConditionLine, legible text given]
      rfl
    obtain ⟨_ | kind, _ | text, _ | op, _ | value⟩ := condition <;>
      simp_all [rereadCondition, conditionSteps]

/-- The name that is read from a scene's line for it. -/
def rereadName (text : String) : String :=
  (putSceneLine {} (sceneNameLine text)).name

theorem ofLine?_of_rereadName {text : String} (nonempty : text ≠ "")
    (same : rereadName text = text) : ofLine? (sceneNameLine text) = some (.name text) := by
  rw [rereadName, putSceneLine] at same
  cases read : ofLine? (sceneNameLine text) with
  | none =>
      rw [read] at same
      exact absurd same.symm nonempty
  | some field =>
      rw [read] at same
      cases field <;> simp_all [putScene?]

theorem rereadName_eq_self_iff {text : String} :
    rereadName text = text ↔
      ofLine? (sceneNameLine text) = if text = "" then none else some (.name text) := by
  by_cases empty : text = ""
  · subst empty
    decide
  · rw [if_neg empty]
    constructor
    · exact ofLine?_of_rereadName empty
    · intro read
      rw [rereadName, putSceneLine, read]
      rfl

theorem putSceneLine_sceneNameLine {text : String} (unquoted : '"' ∉ text.toList) :
    putSceneLine {} (sceneNameLine text) = { name := rereadName text } := by
  by_cases empty : text = ""
  · subst empty
    decide
  · have named := name?_of_quoted (by decide) empty unquoted (toList_sceneNameLine text)
    have read : ofLine? (sceneNameLine text) =
        ((recordStart? (sceneNameLine text)).map .recordStart).or (some (.name text)) := by
      rw [ofLine?, named]
      cases recordStart? (sceneNameLine text) <;> rfl
    rw [rereadName, putSceneLine, read]
    cases recordStart? (sceneNameLine text) <;> rfl

/-- What is read from the lines of a scene before its map. -/
def rereadFront (scene : Scene) : Scene where
  name := rereadName scene.name
  common := scene.common
  fadeout := scene.fadeout
  condition := scene.condition.map rereadCondition
  background := scene.background.map rereadBackground

theorem rereadScene_eq_front {scene : Scene}
    (named : putSceneLine {} (sceneNameLine scene.name) = { name := rereadName scene.name }) :
    rereadScene scene =
      scene.map.toList.foldl (fun read text => putSceneLine read (mapLine text))
        (rereadFront scene) := by
  obtain ⟨name, common, _ | fadeout, _ | condition, _ | background, _ | map⟩ := scene <;>
    simp_all [rereadScene, sceneSteps, rereadFront]

theorem ofLine?_of_putSceneLine {scene : Scene} {line text : String} (absent : scene.map = none)
    (put : (putSceneLine scene line).map = some text) : ofLine? line = some (.map text) := by
  rw [putSceneLine] at put
  cases read : ofLine? line with
  | none =>
      rw [read] at put
      exact absurd (absent.symm.trans put) nofun
  | some field =>
      rw [read] at put
      cases field <;> simp_all [putScene?]

theorem putSceneLine_mapLine {text : String} (read : ofLine? (mapLine text) = some (.map text))
    (scene : Scene) : putSceneLine scene (mapLine text) = { scene with map := some text } := by
  rw [putSceneLine, read]
  rfl

/-- A scene comes back only if its texts read back. -/
theorem legibleScene_of_reread {scene : Scene} (unquoted : '"' ∉ scene.name.toList)
    (same : rereadScene scene = scene) : LegibleScene scene := by
  rw [rereadScene_eq_front (putSceneLine_sceneNameLine unquoted)] at same
  have mapped : ∀ text ∈ scene.map, ofLine? (mapLine text) = some (.map text) := by
    intro text given
    rw [Option.mem_def.mp given] at same
    have put : (putSceneLine (rereadFront scene) (mapLine text)).map = some text :=
      (congrArg Scene.map same).trans given
    exact ofLine?_of_putSceneLine rfl put
  have whole : { rereadFront scene with map := scene.map } = scene := by
    cases given : scene.map with
    | none =>
        simp only [given, Option.toList_none, List.foldl_nil, rereadFront] at same ⊢
        exact same
    | some text =>
        rw [given] at same
        rw [← putSceneLine_mapLine (mapped text given)]
        exact same
  have names : rereadName scene.name = scene.name := by
    simpa only [rereadFront] using congrArg Scene.name whole
  refine ⟨rereadName_eq_self_iff.mp names, ?_, ?_, mapped⟩
  · intro condition given
    have conditions := congrArg Scene.condition whole
    simp only [rereadFront, Option.mem_def.mp given, Option.map_some, Option.some.injEq]
      at conditions
    exact rereadCondition_eq_self_iff.mp conditions
  · intro background given
    have backgrounds := congrArg Scene.background whole
    simp only [rereadFront, Option.mem_def.mp given, Option.map_some, Option.some.injEq]
      at backgrounds
    exact congrArg Background.id backgrounds

theorem rereadScene_eq_self {scene : Scene} (legible : LegibleScene scene) :
    rereadScene scene = scene := by
  have names : rereadName scene.name = scene.name := rereadName_eq_self_iff.mpr legible.name
  have named : putSceneLine {} (sceneNameLine scene.name) = { name := rereadName scene.name } := by
    rw [names, putSceneLine, legible.name]
    by_cases empty : scene.name = ""
    · rw [if_pos empty, empty]
      rfl
    · rw [if_neg empty]
      rfl
  have conditions : scene.condition.map rereadCondition = scene.condition := by
    cases given : scene.condition with
    | none => rfl
    | some condition =>
        have same := rereadCondition_eq_self_iff.mpr (legible.condition condition given)
        rw [Option.map_some, same]
  have backgrounds : scene.background.map rereadBackground = scene.background := by
    cases given : scene.background with
    | none => rfl
    | some background =>
        rw [Option.map_some, rereadBackground, legible.background background given]
  have front : rereadFront scene = { scene with map := none } := by
    rw [rereadFront, names, conditions, backgrounds]
  rw [rereadScene_eq_front named, front]
  obtain ⟨name, common, fadeout, condition, background, _ | text⟩ := scene
  · rfl
  · exact putSceneLine_mapLine (legible.map text rfl) _

theorem map_eq_self_iff {α : Type} {f : α → α} {items : List α} :
    items.map f = items ↔ ∀ item ∈ items, f item = item := by
  have same := List.map_inj_left (f := f) (g := fun item => item) (l := items)
  rw [List.map_id'] at same
  exact same

/-- A library comes back exactly if its scenes do. -/
theorem reread_eq_self_iff {library : Library} :
    reread library = library ↔
      ∀ character ∈ library.characters, ∀ scene ∈ character.scenes, rereadScene scene = scene := by
  have characters : reread library = library ↔
      library.characters.map rereadCharacter = library.characters :=
    ⟨congrArg Library.characters, fun same => by rw [reread, same]⟩
  have scenes : ∀ character : Character, rereadCharacter character = character ↔
      character.scenes.map rereadScene = character.scenes :=
    fun character => ⟨congrArg Character.scenes, fun same => by rw [rereadCharacter, same]⟩
  rw [characters, map_eq_self_iff]
  refine forall₂_congr fun character _ => ?_
  rw [scenes, map_eq_self_iff]

/-- A library whose lines and texts read back comes back whole. -/
theorem readLibrary_toLines {library : Library} (legible : Legible library) :
    (readLibrary library.layout 0 library.toLines).value = .ok library := by
  rw [readLibrary_toLines_reread legible.toShaped]
  exact congrArg Except.ok (reread_eq_self_iff.mpr fun character member scene inside =>
    rereadScene_eq_self (legible.scenes character member scene inside))

end SceneGallery.Library
