import Mathlib.Data.List.TakeWhile
import SceneGallery.Library.Reader
set_option autoImplicit false

namespace SceneGallery.Library

theorem forall_not {p : String → Bool} {lines : List String}
    (none : ∀ line ∈ lines, p line = false) : ∀ line ∈ lines, (!p line) = true := by
  intro line member
  rw [none line member]
  rfl

theorem forall_isNone {lines : List String} (unnamed : ∀ line ∈ lines, Field.name? line = none) :
    ∀ line ∈ lines, (Field.name? line).isNone = true := by
  intro line member
  rw [unnamed line member]
  rfl

/-- The value of a reading and the lines after it. -/
def Reading.outcome {α : Type} (reading : Reading α) : α × List String :=
  (reading.value, reading.rest)

@[simp] theorem Reading.outcome_after {α : Type} (remarks : List Remark) (reading : Reading α) :
    (reading.after remarks).outcome = reading.outcome := rfl

/-- The outcome of reading on in a condition. -/
def conditionOutcome (condition : Condition) (lines : List String) : Condition × List String :=
  (readCondition condition 0 lines).outcome

/-- The outcome of reading on in a background. -/
def backgroundOutcome (background : Background) (lines : List String) :
    Background × List String :=
  (readBackground background 0 lines).outcome

/-- The outcome of reading on in a scene. -/
def sceneOutcome (scene : Scene) (lines : List String) : Scene × List String :=
  (readScene scene 0 lines).outcome

/-- The outcome of reading scenes up to the closer of the record. -/
def scenesOutcome (closed : Bool) (lines : List String) : List Scene × List String :=
  (readScenes closed 0 lines).outcome

/-- The outcome of reading the record of a character. -/
def characterOutcome (id : UInt32) (lines : List String) : Character × List String :=
  (readCharacter id 0 lines).outcome

/-- The outcome of reading records up to the closer of the section. -/
def recordsOutcome (lines : List String) : Option (List Character × String) × List String :=
  (readRecords 0 lines).outcome

theorem outcome_readCondition (condition : Condition) (offset : Nat) (lines : List String) :
    (readCondition condition offset lines).outcome = conditionOutcome condition lines := by
  have same : ∀ first second, (readCondition condition first lines).outcome =
      (readCondition condition second lines).outcome := by
    induction lines generalizing condition with
    | nil =>
        intro first second
        rfl
    | cons line rest ih =>
        intro first second
        rw [readCondition, readCondition]
        by_cases closer : isCloser line = true
        · simp only [closer, ↓reduceIte, Reading.outcome]
        · simp only [closer, Bool.false_eq_true, ↓reduceIte]
          cases putCondition? condition (Field.ofLine? line) with
          | some next => exact ih next _ _
          | none => exact ih condition _ _
  exact same offset 0

theorem outcome_readBackground (background : Background) (offset : Nat) (lines : List String) :
    (readBackground background offset lines).outcome = backgroundOutcome background lines := by
  have same : ∀ first second, (readBackground background first lines).outcome =
      (readBackground background second lines).outcome := by
    induction lines generalizing background with
    | nil =>
        intro first second
        rfl
    | cons line rest ih =>
        intro first second
        rw [readBackground, readBackground]
        by_cases closer : isCloser line = true
        · simp only [closer, ↓reduceIte, Reading.outcome]
        · simp only [closer, Bool.false_eq_true, ↓reduceIte]
          cases Field.id? line with
          | some text => exact ih { background with id := text } _ _
          | none => exact ih background _ _
  exact same offset 0

theorem conditionOutcome_closer (condition : Condition) {line : String} (rest : List String)
    (closer : isCloser line = true) :
    conditionOutcome condition (line :: rest) = (condition, rest) := by
  simp only [conditionOutcome, readCondition, closer, ↓reduceIte, Reading.outcome]

/-- A line of a condition puts its field in, or changes nothing. -/
theorem conditionOutcome_line (condition : Condition) {line : String} (rest : List String)
    (unclosed : isCloser line = false) :
    conditionOutcome condition (line :: rest) =
      conditionOutcome ((putCondition? condition (Field.ofLine? line)).getD condition) rest := by
  rw [conditionOutcome, readCondition]
  simp only [unclosed, Bool.false_eq_true, ↓reduceIte]
  cases putCondition? condition (Field.ofLine? line) with
  | some next => exact outcome_readCondition next _ rest
  | none => exact outcome_readCondition condition _ rest

theorem backgroundOutcome_closer (background : Background) {line : String} (rest : List String)
    (closer : isCloser line = true) :
    backgroundOutcome background (line :: rest) = (background, rest) := by
  simp only [backgroundOutcome, readBackground, closer, ↓reduceIte, Reading.outcome]

theorem backgroundOutcome_line (background : Background) {line : String} (rest : List String)
    (unclosed : isCloser line = false) :
    backgroundOutcome background (line :: rest) =
      backgroundOutcome ⟨(Field.id? line).getD background.id⟩ rest := by
  rw [backgroundOutcome, readBackground]
  simp only [unclosed, Bool.false_eq_true, ↓reduceIte]
  cases Field.id? line with
  | some text => exact outcome_readBackground _ _ rest
  | none => exact outcome_readBackground background _ rest

theorem readCondition_value (condition : Condition) (offset : Nat) (lines : List String) :
    (readCondition condition offset lines).value = (conditionOutcome condition lines).1 :=
  congrArg Prod.fst (outcome_readCondition condition offset lines)

theorem readCondition_rest (condition : Condition) (offset : Nat) (lines : List String) :
    (readCondition condition offset lines).rest = (conditionOutcome condition lines).2 :=
  congrArg Prod.snd (outcome_readCondition condition offset lines)

theorem readBackground_value (background : Background) (offset : Nat) (lines : List String) :
    (readBackground background offset lines).value = (backgroundOutcome background lines).1 :=
  congrArg Prod.fst (outcome_readBackground background offset lines)

theorem readBackground_rest (background : Background) (offset : Nat) (lines : List String) :
    (readBackground background offset lines).rest = (backgroundOutcome background lines).2 :=
  congrArg Prod.snd (outcome_readBackground background offset lines)

theorem outcome_readScene (scene : Scene) (offset : Nat) (lines : List String) :
    (readScene scene offset lines).outcome = sceneOutcome scene lines := by
  have same : ∀ second, (readScene scene offset lines).outcome =
      (readScene scene second lines).outcome := by
    fun_induction readScene scene offset lines with
    | case1 scene offset =>
        intro second
        rw [readScene_nil]
        rfl
    | case2 scene offset line rest opener inner ih =>
        intro second
        rw [readScene]
        simp only [opener, ↓reduceIte, Reading.outcome_after, readCondition_value,
          readCondition_rest, inner] at ih ⊢
        exact ih _
    | case3 scene offset line rest noCondition opener inner ih =>
        intro second
        rw [readScene]
        simp only [noCondition, opener, Bool.false_eq_true, ↓reduceIte, Reading.outcome_after,
          readBackground_value, readBackground_rest, inner] at ih ⊢
        exact ih _
    | case4 scene offset line rest noCondition noBackground closer =>
        intro second
        rw [readScene]
        simp only [noCondition, noBackground, closer, Bool.false_eq_true, ↓reduceIte,
          Reading.outcome]
    | case5 scene offset line rest noCondition noBackground noCloser next put ih =>
        intro second
        rw [readScene]
        simp only [noCondition, noBackground, noCloser, put, Bool.false_eq_true, ↓reduceIte]
        exact ih _
    | case6 scene offset line rest noCondition noBackground noCloser put ih =>
        intro second
        rw [readScene]
        simp only [noCondition, noBackground, noCloser, put, Bool.false_eq_true, ↓reduceIte,
          Reading.outcome_after]
        exact ih _
  exact same 0

/-- A condition is read to its end before the scene goes on. -/
theorem sceneOutcome_condition (scene : Scene) {line : String} (rest : List String)
    (opener : isConditionOpener line = true) :
    sceneOutcome scene (line :: rest) =
      sceneOutcome { scene with condition := some (conditionOutcome {} rest).1 }
        (conditionOutcome {} rest).2 := by
  rw [sceneOutcome, readScene]
  simp only [opener, ↓reduceIte, Reading.outcome_after, readCondition_value, readCondition_rest]
  exact outcome_readScene _ _ _

theorem sceneOutcome_background (scene : Scene) {line : String} (rest : List String)
    (noCondition : isConditionOpener line = false) (opener : isBackgroundOpener line = true) :
    sceneOutcome scene (line :: rest) =
      sceneOutcome { scene with background := some (backgroundOutcome {} rest).1 }
        (backgroundOutcome {} rest).2 := by
  rw [sceneOutcome, readScene]
  simp only [noCondition, opener, Bool.false_eq_true, ↓reduceIte, Reading.outcome_after,
    readBackground_value, readBackground_rest]
  exact outcome_readScene _ _ _

theorem sceneOutcome_closer (scene : Scene) {line : String} (rest : List String)
    (noCondition : isConditionOpener line = false) (noBackground : isBackgroundOpener line = false)
    (closer : isCloser line = true) : sceneOutcome scene (line :: rest) = (scene, rest) := by
  rw [sceneOutcome, readScene]
  simp only [noCondition, noBackground, closer, Bool.false_eq_true, ↓reduceIte, Reading.outcome]

theorem sceneOutcome_line (scene : Scene) {line : String} (rest : List String)
    (noCondition : isConditionOpener line = false) (noBackground : isBackgroundOpener line = false)
    (unclosed : isCloser line = false) :
    sceneOutcome scene (line :: rest) =
      sceneOutcome ((putScene? scene (Field.ofLine? line)).getD scene) rest := by
  rw [sceneOutcome, readScene]
  simp only [noCondition, noBackground, unclosed, Bool.false_eq_true, ↓reduceIte]
  cases putScene? scene (Field.ofLine? line) with
  | some next => exact outcome_readScene next _ rest
  | none => exact outcome_readScene scene _ rest

theorem readScene_value (scene : Scene) (offset : Nat) (lines : List String) :
    (readScene scene offset lines).value = (sceneOutcome scene lines).1 :=
  congrArg Prod.fst (outcome_readScene scene offset lines)

theorem readScene_rest (scene : Scene) (offset : Nat) (lines : List String) :
    (readScene scene offset lines).rest = (sceneOutcome scene lines).2 :=
  congrArg Prod.snd (outcome_readScene scene offset lines)

theorem outcome_readScenes (closed : Bool) (offset : Nat) (lines : List String) :
    (readScenes closed offset lines).outcome = scenesOutcome closed lines := by
  have same : ∀ second, (readScenes closed offset lines).outcome =
      (readScenes closed second lines).outcome := by
    fun_induction readScenes closed offset lines with
    | case1 closed offset =>
        intro second
        rw [readScenes]
        rfl
    | case2 offset line rest closer =>
        intro second
        rw [readScenes]
        simp only [closer, ↓reduceIte, Reading.outcome]
    | case3 closed offset line rest closer isClosed ih =>
        intro second
        rw [readScenes]
        simp only [closer, isClosed, Bool.false_eq_true, ↓reduceIte]
        exact ih _
    | case4 closed offset line rest unclosed number opened inner ih =>
        intro second
        rw [readScenes]
        simp only [unclosed, opened, Bool.false_eq_true, ↓reduceIte, Reading.outcome,
          Reading.after_value, Reading.after_rest, Reading.map_value, Reading.map_rest,
          readScene_value, readScene_rest, inner, Prod.mk.injEq, List.cons.injEq, true_and]
          at ih ⊢
        exact ih _
    | case5 closed offset line rest unclosed opened ih =>
        intro second
        rw [readScenes]
        simp only [unclosed, opened, Bool.false_eq_true, ↓reduceIte, Reading.outcome_after]
        exact ih _
  exact same 0

/-- The first closer among the scenes closes their block. -/
theorem scenesOutcome_block_closer {line : String} (rest : List String)
    (closer : isCloser line = true) :
    scenesOutcome false (line :: rest) = scenesOutcome true rest := by
  rw [scenesOutcome, readScenes]
  simp only [closer, Bool.false_eq_true, ↓reduceIte]
  exact outcome_readScenes true _ rest

/-- The second closer among the scenes closes the record. -/
theorem scenesOutcome_record_closer {line : String} (rest : List String)
    (closer : isCloser line = true) : scenesOutcome true (line :: rest) = ([], rest) := by
  rw [scenesOutcome, readScenes]
  simp only [closer, ↓reduceIte, Reading.outcome]

/-- A scene is read to its end before the scenes go on. -/
theorem scenesOutcome_scene (closed : Bool) {line : String} (rest : List String) {number : UInt32}
    (unclosed : isCloser line = false) (opened : Field.recordStart? line = some number) :
    scenesOutcome closed (line :: rest) =
      ((sceneOutcome {} rest).1 :: (scenesOutcome closed (sceneOutcome {} rest).2).1,
        (scenesOutcome closed (sceneOutcome {} rest).2).2) := by
  have later := outcome_readScenes closed (readScene {} 1 rest).offset (sceneOutcome {} rest).2
  rw [← later, scenesOutcome, readScenes]
  simp only [unclosed, opened, Bool.false_eq_true, ↓reduceIte, Reading.outcome,
    Reading.after_value, Reading.after_rest, Reading.map_value, Reading.map_rest,
    readScene_value, readScene_rest]

theorem scenesOutcome_stray (closed : Bool) {line : String} (rest : List String)
    (unclosed : isCloser line = false) (unopened : Field.recordStart? line = none) :
    scenesOutcome closed (line :: rest) = scenesOutcome closed rest := by
  rw [scenesOutcome, readScenes]
  simp only [unclosed, unopened, Bool.false_eq_true, ↓reduceIte, Reading.outcome_after]
  exact outcome_readScenes closed _ rest

theorem readScenes_value (closed : Bool) (offset : Nat) (lines : List String) :
    (readScenes closed offset lines).value = (scenesOutcome closed lines).1 :=
  congrArg Prod.fst (outcome_readScenes closed offset lines)

theorem readScenes_rest (closed : Bool) (offset : Nat) (lines : List String) :
    (readScenes closed offset lines).rest = (scenesOutcome closed lines).2 :=
  congrArg Prod.snd (outcome_readScenes closed offset lines)

theorem outcome_readCharacter (id : UInt32) (offset : Nat) (lines : List String) :
    (readCharacter id offset lines).outcome = characterOutcome id lines := by
  rw [characterOutcome, readCharacter, readCharacter]
  split
  · rfl
  · dsimp only
    split
    · rfl
    · simp only [Reading.outcome, Reading.after_value, Reading.after_rest, Reading.map_value,
        Reading.map_rest, readScenes_value, readScenes_rest]

section Record

variable (id : UInt32) (offset : Nat) {heading : List String} {naming name : String}

/-- A record without a name takes all lines that are left. -/
theorem readCharacter_of_unnamed {lines : List String}
    (unnamed : ∀ line ∈ lines, Field.name? line = none) :
    readCharacter id offset lines =
      ⟨⟨id, lines, "", [], []⟩, offset + lines.length, [], []⟩ := by
  have headed := forall_isNone unnamed
  rw [readCharacter]
  simp only [List.takeWhile_eq_self_iff.mpr headed, List.dropWhile_eq_nil_iff.mpr headed]

theorem readCharacter_of_unmarked {body : List String}
    (unnamed : ∀ line ∈ heading, Field.name? line = none) (named : Field.name? naming = some name)
    (unmarked : ∀ line ∈ body, isItemsMarker line = false) :
    readCharacter id offset (heading ++ naming :: body) =
      ⟨⟨id, heading, name, body, []⟩, offset + heading.length + 1 + body.length, [],
        [.character name]⟩ := by
  have headed := forall_isNone unnamed
  have before := forall_not unmarked
  rw [readCharacter]
  simp only [List.takeWhile_append_of_pos headed, List.dropWhile_append_of_pos headed, named,
    List.takeWhile_cons, List.dropWhile_cons, Option.isNone_some, Bool.false_eq_true, ↓reduceIte,
    List.append_nil, Option.getD_some, List.takeWhile_eq_self_iff.mpr before,
    List.dropWhile_eq_nil_iff.mpr before]

/-- A record with a name and a block of scenes is read in four parts. -/
theorem readCharacter_parts {preamble : List String} {marker : String} (items : List String)
    (unnamed : ∀ line ∈ heading, Field.name? line = none) (named : Field.name? naming = some name)
    (unmarked : ∀ line ∈ preamble, isItemsMarker line = false)
    (marked : isItemsMarker marker = true) :
    readCharacter id offset (heading ++ naming :: (preamble ++ marker :: items)) =
      ((readScenes false (offset + heading.length + 1 + preamble.length + 1) items).map
        fun scenes => ⟨id, heading, name, preamble, scenes⟩).after [.character name] := by
  have headed := forall_isNone unnamed
  have before := forall_not unmarked
  rw [readCharacter]
  simp only [List.takeWhile_append_of_pos headed, List.dropWhile_append_of_pos headed,
    List.takeWhile_append_of_pos before, List.dropWhile_append_of_pos before, named, marked,
    List.takeWhile_cons, List.dropWhile_cons, Option.isNone_some, Bool.not_true,
    Bool.false_eq_true, ↓reduceIte, List.append_nil, Option.getD_some]

theorem characterOutcome_of_unnamed {lines : List String}
    (unnamed : ∀ line ∈ lines, Field.name? line = none) : (characterOutcome id lines).2 = [] := by
  rw [characterOutcome, readCharacter_of_unnamed id 0 unnamed, Reading.outcome]

theorem characterOutcome_of_unmarked {body : List String}
    (unnamed : ∀ line ∈ heading, Field.name? line = none) (named : Field.name? naming = some name)
    (unmarked : ∀ line ∈ body, isItemsMarker line = false) :
    (characterOutcome id (heading ++ naming :: body)).2 = [] := by
  rw [characterOutcome, readCharacter_of_unmarked id 0 unnamed named unmarked, Reading.outcome]

theorem characterOutcome_parts {preamble : List String} {marker : String} (items : List String)
    (unnamed : ∀ line ∈ heading, Field.name? line = none) (named : Field.name? naming = some name)
    (unmarked : ∀ line ∈ preamble, isItemsMarker line = false)
    (marked : isItemsMarker marker = true) :
    characterOutcome id (heading ++ naming :: (preamble ++ marker :: items)) =
      (⟨id, heading, name, preamble, (scenesOutcome false items).1⟩,
        (scenesOutcome false items).2) := by
  rw [characterOutcome, readCharacter_parts id 0 items unnamed named unmarked marked,
    Reading.outcome_after, Reading.outcome, Reading.map_value, Reading.map_rest, readScenes_value,
    readScenes_rest]

end Record

theorem readCharacter_value (id : UInt32) (offset : Nat) (lines : List String) :
    (readCharacter id offset lines).value = (characterOutcome id lines).1 :=
  congrArg Prod.fst (outcome_readCharacter id offset lines)

theorem readCharacter_rest (id : UInt32) (offset : Nat) (lines : List String) :
    (readCharacter id offset lines).rest = (characterOutcome id lines).2 :=
  congrArg Prod.snd (outcome_readCharacter id offset lines)

theorem outcome_readRecords (offset : Nat) (lines : List String) :
    (readRecords offset lines).outcome = recordsOutcome lines := by
  have same : ∀ second, (readRecords offset lines).outcome =
      (readRecords second lines).outcome := by
    fun_induction readRecords offset lines with
    | case1 offset =>
        intro second
        rw [readRecords]
        rfl
    | case2 offset line rest id opened inner ih =>
        intro second
        rw [readRecords]
        simp only [opened, Reading.outcome, Reading.after_value, Reading.after_rest,
          Reading.map_value, Reading.map_rest, readCharacter_value, readCharacter_rest, inner,
          Prod.mk.injEq] at ih ⊢
        rw [(ih _).1, (ih _).2]
        exact ⟨rfl, rfl⟩
    | case3 offset line rest unopened closer =>
        intro second
        rw [readRecords]
        simp only [unopened, closer, ↓reduceIte, Reading.outcome]
    | case4 offset line rest unopened unclosed ih =>
        intro second
        rw [readRecords]
        simp only [unopened, unclosed, Bool.false_eq_true, ↓reduceIte, Reading.outcome_after]
        exact ih _
  exact same 0

/-- A record is read to its end before the records go on. -/
theorem recordsOutcome_record {line : String} (rest : List String) {id : UInt32}
    (opened : Field.recordStart? line = some id) :
    recordsOutcome (line :: rest) =
      ((recordsOutcome (characterOutcome id rest).2).1.map
          (fun found => ((characterOutcome id rest).1 :: found.1, found.2)),
        (recordsOutcome (characterOutcome id rest).2).2) := by
  have later := outcome_readRecords (readCharacter id 1 rest).offset (characterOutcome id rest).2
  rw [← later, recordsOutcome, readRecords]
  simp only [opened, Reading.outcome, Reading.after_value, Reading.after_rest, Reading.map_value,
    Reading.map_rest, readCharacter_value, readCharacter_rest]

/-- A closer between the records closes the section. -/
theorem recordsOutcome_closer {line : String} (rest : List String)
    (unopened : Field.recordStart? line = none) (closer : isCloser line = true) :
    recordsOutcome (line :: rest) = (some ([], line), rest) := by
  rw [recordsOutcome, readRecords]
  simp only [unopened, closer, ↓reduceIte, Reading.outcome]

theorem recordsOutcome_stray {line : String} (rest : List String)
    (unopened : Field.recordStart? line = none) (unclosed : isCloser line = false) :
    recordsOutcome (line :: rest) = recordsOutcome rest := by
  rw [recordsOutcome, readRecords]
  simp only [unopened, unclosed, Bool.false_eq_true, ↓reduceIte, Reading.outcome_after]
  exact outcome_readRecords _ rest

theorem readRecords_value (offset : Nat) (lines : List String) :
    (readRecords offset lines).value = (recordsOutcome lines).1 :=
  congrArg Prod.fst (outcome_readRecords offset lines)

theorem readRecords_rest (offset : Nat) (lines : List String) :
    (readRecords offset lines).rest = (recordsOutcome lines).2 :=
  congrArg Prod.snd (outcome_readRecords offset lines)

/-- Lines with a section: the lines above its marker, the marker, the lines up to the first that
opens a record or closes the section, and the lines from there. -/
structure HasSection (before : List String) (marker : String)
    (between records lines : List String) : Prop where
  spelled : lines = before ++ marker :: (between ++ records)
  unmarked : ∀ line ∈ before, isSectionMarker line = false
  marked : isSectionMarker marker = true
  outside : ∀ line ∈ between, startsRecords line = false
  inside : ∀ line ∈ records.head?, startsRecords line = true

/-- A library with a section is read in four parts, if the section is closed. -/
theorem readLibrary_section (layout : Text.Layout) (offset : Nat) {before between : List String}
    {marker : String} {records lines : List String}
    (cut : HasSection before marker between records lines) :
    readLibrary layout offset lines =
      let leading := before ++ marker :: between
      let inner := readRecords (offset + leading.length) records
      ⟨match inner.value with
        | none => .error (.unterminatedSection (offset + before.length + 1))
        | some (characters, closer) => .ok ⟨leading, characters, closer, inner.rest, layout⟩,
        offset + lines.length, [], inner.remarks⟩ := by
  have start : offset + (before ++ marker :: between).length =
      offset + before.length + 1 + between.length := by
    simp only [List.length_append, List.length_cons]
    omega
  have above := forall_not cut.unmarked
  have strays := forall_not cut.outside
  have stopped : records.takeWhile (fun line => !startsRecords line) = [] ∧
      records.dropWhile (fun line => !startsRecords line) = records := by
    cases records with
    | nil => exact ⟨rfl, rfl⟩
    | cons line others =>
        have starts : startsRecords line = true := cut.inside line rfl
        simp [starts]
  rw [cut.spelled, readLibrary]
  simp only [List.takeWhile_append_of_pos above, List.dropWhile_append_of_pos above,
    List.takeWhile_append_of_pos strays, List.dropWhile_append_of_pos strays, cut.marked,
    stopped, List.takeWhile_cons, List.dropWhile_cons, Bool.not_true, Bool.false_eq_true,
    ↓reduceIte, List.append_nil, start]
  rcases (readRecords (offset + before.length + 1 + between.length) records).value with
    _ | ⟨characters, closer⟩ <;> rfl

/-- The value of a library depends on the outcome of its records alone. -/
theorem readLibrary_parts (layout : Text.Layout) (offset : Nat) {before between : List String}
    {marker : String} {records : List String}
    (unmarked : ∀ line ∈ before, isSectionMarker line = false)
    (marked : isSectionMarker marker = true)
    (outside : ∀ line ∈ between, startsRecords line = false)
    (inside : ∀ line ∈ records.head?, startsRecords line = true) :
    (readLibrary layout offset (before ++ marker :: (between ++ records))).value =
      match recordsOutcome records with
      | (none, _) => .error (.unterminatedSection (offset + before.length + 1))
      | (some (characters, closer), trailing) =>
        .ok ⟨before ++ marker :: between, characters, closer, trailing, layout⟩ := by
  rw [readLibrary_section layout offset ⟨rfl, unmarked, marked, outside, inside⟩]
  simp only [readRecords_value, readRecords_rest]
  rcases recordsOutcome records with ⟨_ | ⟨characters, closer⟩, trailing⟩ <;> rfl

theorem readLibrary_of_unmarked (layout : Text.Layout) (offset : Nat) {lines : List String}
    (unmarked : ∀ line ∈ lines, isSectionMarker line = false) :
    (readLibrary layout offset lines).value = .error .missingSection := by
  rw [readLibrary, List.dropWhile_eq_nil_iff.mpr (forall_not unmarked)]

end SceneGallery.Library
