import SceneGallery.Proofs.Library.LaidOut
set_option autoImplicit false

/- Reading line by line. Between two lines of the section some parts are open, one inside the other,
and each line is read in that context alone. Here the context is passed from line to line, and the
nested readers come to the same: to read a part to its end and then to go on around it is to go on
with the part open, whatever is open around it. -/
namespace SceneGallery.Library

/-- A record whose scenes are being read, with the characters above it. -/
structure OpenRecord where
  above : List Character
  character : Character
  /-- Whether the block of its scenes is closed. -/
  closed : Bool

/-- The characters down to a record that ends. -/
def OpenRecord.ended (record : OpenRecord) : List Character :=
  record.above ++ [record.character]

/-- The record with one more scene. -/
def OpenRecord.add (record : OpenRecord) (scene : Scene) : OpenRecord :=
  { record with
    character := { record.character with scenes := record.character.scenes ++ [scene] } }

/-- What is open between two lines of the section, with what has been read of it. -/
inductive Context where
  | inRecords (characters : List Character)
  /-- A record without a name so far. -/
  | inHeading (above : List Character) (id : UInt32) (heading : List String)
  /-- A record without a block of scenes so far. -/
  | inPreamble (above : List Character) (id : UInt32) (heading : List String) (name : String)
      (preamble : List String)
  | inScenes (record : OpenRecord)
  | inScene (record : OpenRecord) (scene : Scene)
  | inCondition (record : OpenRecord) (scene : Scene) (condition : Condition)
  | inBackground (record : OpenRecord) (scene : Scene) (background : Background)
  /-- The section is closed. -/
  | behind (characters : List Character) (closer : String) (trailing : List String)

/-- What is told apart at the end of the lines: whether a line that says nothing would be remarked
there, and the characters, the closer and the lines behind it if the section is closed. -/
structure Seen where
  remarking : Bool
  found? : Option (List Character × String × List String)

/-- A remark of the same line when more lines stand above it. -/
def Remark.moved (count : Nat) : Remark → Remark
  | .unexpected part line text => .unexpected part (line + count) text
  | remark => remark

namespace Context

/-- Reads a line in its context: the context behind the line, and what is remarked of the line under
the given number. -/
def step (number : Nat) (line : String) : Context → Context × List Remark
  | .inRecords characters =>
    match Field.recordStart? line with
    | some id => (.inHeading characters id [], [.record id])
    | none =>
      if isCloser line then (.behind characters line [], [])
      else (.inRecords characters, [.unexpected .library number line])
  | .inHeading above id heading =>
    match Field.name? line with
    | some name => (.inPreamble above id heading name [], [.character name])
    | none => (.inHeading above id (heading ++ [line]), [])
  | .inPreamble above id heading name preamble =>
    if isItemsMarker line then (.inScenes ⟨above, ⟨id, heading, name, preamble, []⟩, false⟩, [])
    else (.inPreamble above id heading name (preamble ++ [line]), [])
  | .inScenes record =>
    if isCloser line then
      if record.closed then (.inRecords record.ended, [])
      else (.inScenes { record with closed := true }, [])
    else
      match Field.recordStart? line with
      | some ordinal => (.inScene record {}, [.scene ordinal])
      | none => (.inScenes record, [.unexpected .character number line])
  | .inScene record scene =>
    if isConditionOpener line then (.inCondition record scene {}, [])
    else if isBackgroundOpener line then (.inBackground record scene {}, [])
    else if isCloser line then (.inScenes (record.add scene), [])
    else
      match putScene? scene (Field.ofLine? line) with
      | some scene => (.inScene record scene, [])
      | none => (.inScene record scene, [.unexpected .scene number line])
  | .inCondition record scene condition =>
    if isCloser line then (.inScene record { scene with condition := some condition }, [])
    else
      match putCondition? condition (Field.ofLine? line) with
      | some condition => (.inCondition record scene condition, [])
      | none => (.inCondition record scene condition, [.unexpected .condition number line])
  | .inBackground record scene background =>
    if isCloser line then (.inScene record { scene with background := some background }, [])
    else
      match Field.id? line with
      | some text => (.inBackground record scene { background with id := text }, [])
      | none => (.inBackground record scene background, [.unexpected .background number line])
  | .behind characters closer trailing => (.behind characters closer (trailing ++ [line]), [])

/-- Reads lines one after the other, from the given context. -/
def reading (context : Context) (offset : Nat) : List String → Reading Context
  | [] => ⟨context, offset, [], []⟩
  | line :: rest =>
    ((context.step (offset + 1) line).1.reading (offset + 1) rest).after
      (context.step (offset + 1) line).2

/-- The part that remarks a line that says nothing. A record keeps such lines until its scenes
start, and so does the library behind its section. -/
def part? : Context → Option Part
  | .inRecords _ => some .library
  | .inHeading .. => none
  | .inPreamble .. => none
  | .inScenes _ => some .character
  | .inScene .. => some .scene
  | .inCondition .. => some .condition
  | .inBackground .. => some .background
  | .behind .. => none

/-- What was found if the section is closed. -/
def found? : Context → Option (List Character × String × List String)
  | .behind characters closer trailing => some (characters, closer, trailing)
  | _ => none

def seen (context : Context) : Seen :=
  ⟨context.part?.isSome, context.found?⟩

/-- What is seen at the end of the lines, and what is remarked on the way. -/
def sight (context : Context) (offset : Nat) (lines : List String) : Reading Seen :=
  (context.reading offset lines).map seen

end Context

/-- Goes on around a part that has been read. -/
def Reading.onward {α : Type} (inner : Reading α) (around : α → Context) : Reading Seen :=
  ((around inner.value).sight inner.offset inner.rest).after inner.remarks

/-- What is found at the end of the lines and what is remarked on the way. -/
def Reading.told (reading : Reading Seen) :
    Option (List Character × String × List String) × List Remark :=
  (reading.value.found?, reading.remarks)

/-- A line does the same under another number, and is remarked under that number. -/
theorem Context.step_moved (context : Context) (count number : Nat) (line : String) :
    context.step (number + count) line =
      ((context.step number line).1, (context.step number line).2.map (Remark.moved count)) := by
  cases context with
  | inRecords characters =>
      simp only [step]
      split
      · rfl
      · split <;> rfl
  | inHeading above id heading =>
      simp only [step]
      split <;> rfl
  | inPreamble above id heading name preamble =>
      simp only [step]
      split <;> rfl
  | inScenes record =>
      simp only [step]
      split
      · split <;> rfl
      · split <;> rfl
  | inScene record scene =>
      simp only [step]
      split
      · rfl
      · split
        · rfl
        · split
          · rfl
          · split <;> rfl
  | inCondition record scene condition =>
      simp only [step]
      split
      · rfl
      · split <;> rfl
  | inBackground record scene background =>
      simp only [step]
      split
      · rfl
      · split <;> rfl
  | behind characters closer trailing => rfl

namespace Reading

variable {α : Type} (r : Reading α)

theorem after_nil : r.after [] = r := rfl

theorem after_after (first second : List Remark) :
    (r.after second).after first = r.after (first ++ second) := by
  simp only [after, List.append_assoc]

theorem onward_after (remarks : List Remark) (around : α → Context) :
    (r.after remarks).onward around = (r.onward around).after remarks := by
  rw [onward, onward, after_after]
  rfl

theorem told_after (remarks : List Remark) (reading : Reading Seen) :
    (reading.after remarks).told = (reading.told.1, remarks ++ reading.told.2) := rfl

theorem onward_map {β : Type} (f : α → β) (around : β → Context) :
    (r.map f).onward around = r.onward fun value => around (f value) := rfl

end Reading

namespace Context

variable (context : Context) (offset : Nat)

theorem reading_cons (line : String) (rest : List String) :
    context.reading offset (line :: rest) =
      ((context.step (offset + 1) line).1.reading (offset + 1) rest).after
        (context.step (offset + 1) line).2 := rfl

theorem sight_cons (line : String) (rest : List String) :
    context.sight offset (line :: rest) =
      ((context.step (offset + 1) line).1.sight (offset + 1) rest).after
        (context.step (offset + 1) line).2 := rfl

theorem reading_append (front back : List String) :
    context.reading offset (front ++ back) =
      ((context.reading offset front).value.reading (offset + front.length) back).after
        (context.reading offset front).remarks := by
  induction front generalizing context offset with
  | nil => rfl
  | cons line front ih =>
      rw [List.cons_append, reading_cons, ih, reading_cons, Reading.after_after,
        Reading.after_value, Reading.after_remarks, List.length_cons, Nat.add_right_comm,
        Nat.add_assoc offset]

theorem reading_moved (count : Nat) (lines : List String) :
    context.reading (offset + count) lines =
      { context.reading offset lines with
        offset := (context.reading offset lines).offset + count
        remarks := (context.reading offset lines).remarks.map (Remark.moved count) } := by
  induction lines generalizing context offset with
  | nil => rfl
  | cons line rest ih =>
      rw [reading_cons, Nat.add_right_comm, step_moved, ih, reading_cons]
      simp only [Reading.after, List.map_append]

end Context

section Parts

open Context

variable (record : OpenRecord) (scene : Scene) (offset : Nat) (lines : List String)

theorem sight_condition (condition : Condition) :
    (inCondition record scene condition).sight offset lines =
      (readCondition condition offset lines).onward fun condition =>
        inScene record { scene with condition := some condition } := by
  fun_induction readCondition condition offset lines with
  | case1 => rfl
  | case2 condition offset line rest closer =>
      simp only [sight_cons, step, closer, ↓reduceIte]
      rfl
  | case3 condition offset line rest unclosed next put ih =>
      simp only [sight_cons, step, unclosed, put, Bool.false_eq_true, ↓reduceIte]
      exact ih
  | case4 condition offset line rest unclosed put ih =>
      simp only [sight_cons, step, unclosed, put, Bool.false_eq_true, ↓reduceIte, ih,
        Reading.onward_after]

theorem sight_background (background : Background) :
    (inBackground record scene background).sight offset lines =
      (readBackground background offset lines).onward fun background =>
        inScene record { scene with background := some background } := by
  fun_induction readBackground background offset lines with
  | case1 => rfl
  | case2 background offset line rest closer =>
      simp only [sight_cons, step, closer, ↓reduceIte]
      rfl
  | case3 background offset line rest unclosed text given ih =>
      simp only [sight_cons, step, unclosed, given, Bool.false_eq_true, ↓reduceIte]
      exact ih
  | case4 background offset line rest unclosed given ih =>
      simp only [sight_cons, step, unclosed, given, Bool.false_eq_true, ↓reduceIte, ih,
        Reading.onward_after]

/-- A scene is read to its end before the scenes go on. -/
theorem sight_scene :
    (inScene record scene).sight offset lines =
      (readScene scene offset lines).onward fun scene => inScenes (record.add scene) := by
  fun_induction readScene scene offset lines with
  | case1 => rfl
  | case2 scene offset line rest opener inner ih =>
      -- The scene is what is around the condition, and the record what is around the scene.
      simp only [sight_cons, step, opener, ↓reduceIte, Reading.after_nil, Reading.onward_after]
      rw [sight_condition, Reading.onward, ih]
  | case3 scene offset line rest noCondition opener inner ih =>
      simp only [sight_cons, step, noCondition, opener, Bool.false_eq_true, ↓reduceIte,
        Reading.after_nil, Reading.onward_after]
      rw [sight_background, Reading.onward, ih]
  | case4 scene offset line rest noCondition noBackground closer =>
      simp only [sight_cons, step, noCondition, noBackground, closer, Bool.false_eq_true,
        ↓reduceIte]
      rfl
  | case5 scene offset line rest noCondition noBackground unclosed next put ih =>
      simp only [sight_cons, step, noCondition, noBackground, unclosed, put, Bool.false_eq_true,
        ↓reduceIte]
      exact ih
  | case6 scene offset line rest noCondition noBackground unclosed put ih =>
      simp only [sight_cons, step, noCondition, noBackground, unclosed, put, Bool.false_eq_true,
        ↓reduceIte, ih, Reading.onward_after]

theorem sight_scenes (above : List Character) (character : Character) (closed : Bool) :
    (inScenes ⟨above, character, closed⟩).sight offset lines =
      (readScenes closed offset lines).onward fun scenes =>
        inRecords (above ++ [{ character with scenes := character.scenes ++ scenes }]) := by
  fun_induction readScenes closed offset lines generalizing character with
  | case1 => rfl
  | case2 offset line rest closer =>
      simp only [sight_cons, step, closer, ↓reduceIte, Reading.onward, List.append_nil]
      rfl
  | case3 closed offset line rest closer isOpen ih =>
      simp only [sight_cons, step, closer, isOpen, Bool.false_eq_true, ↓reduceIte]
      exact ih character
  | case4 closed offset line rest unclosed number opened inner ih =>
      simp only [sight_cons, step, unclosed, opened, Bool.false_eq_true, ↓reduceIte]
      rw [sight_scene, Reading.onward, OpenRecord.add, ih, Reading.after_after,
        Reading.onward_after, Reading.onward_map]
      simp only [List.append_assoc, List.singleton_append, inner]
  | case5 closed offset line rest unclosed unopened ih =>
      simp only [sight_cons, step, unclosed, unopened, Bool.false_eq_true, ↓reduceIte, ih,
        Reading.onward_after]

end Parts

section Records

open Context

variable (above : List Character) (id : UInt32) (offset : Nat) {heading lines later : List String}

theorem sight_unnamed (kept : List String) (unnamed : ∀ line ∈ heading, Field.name? line = none) :
    (inHeading above id kept).sight offset (heading ++ later) =
      (inHeading above id (kept ++ heading)).sight (offset + heading.length) later := by
  induction heading generalizing kept offset with
  | nil => rw [List.append_nil, List.nil_append, List.length_nil, Nat.add_zero]
  | cons line heading ih =>
      obtain ⟨first, others⟩ := List.forall_mem_cons.mp unnamed
      rw [List.cons_append, sight_cons, step, first, Reading.after_nil, ih _ _ others,
        List.append_assoc, List.singleton_append, List.length_cons, Nat.add_right_comm,
        Nat.add_assoc offset]

theorem sight_unmarked {name : String} {preamble : List String} (kept : List String)
    (unmarked : ∀ line ∈ preamble, isItemsMarker line = false) :
    (inPreamble above id heading name kept).sight offset (preamble ++ later) =
      (inPreamble above id heading name (kept ++ preamble)).sight
        (offset + preamble.length) later := by
  induction preamble generalizing kept offset with
  | nil => rw [List.append_nil, List.nil_append, List.length_nil, Nat.add_zero]
  | cons line preamble ih =>
      obtain ⟨first, others⟩ := List.forall_mem_cons.mp unmarked
      simp only [List.cons_append, sight_cons, step, first, Bool.false_eq_true, ↓reduceIte]
      rw [Reading.after_nil, ih _ _ others, List.append_assoc, List.singleton_append,
        List.length_cons, Nat.add_right_comm, Nat.add_assoc offset]

theorem sight_named {naming name : String} (named : Field.name? naming = some name) :
    (inHeading above id heading).sight offset (naming :: later) =
      ((inPreamble above id heading name []).sight (offset + 1) later).after [.character name] := by
  rw [sight_cons, step, named]

theorem sight_marked {name marker : String} {preamble : List String}
    (marked : isItemsMarker marker = true) :
    (inPreamble above id heading name preamble).sight offset (marker :: later) =
      (inScenes ⟨above, ⟨id, heading, name, preamble, []⟩, false⟩).sight (offset + 1) later := by
  simp only [sight_cons, step, marked, ↓reduceIte]
  rfl

/-- A record with a name and a block of scenes is read to its end before the records go on. -/
theorem sight_parts {preamble items : List String} {naming name marker : String}
    (unnamed : ∀ line ∈ heading, Field.name? line = none) (named : Field.name? naming = some name)
    (unmarked : ∀ line ∈ preamble, isItemsMarker line = false)
    (marked : isItemsMarker marker = true) :
    (inHeading above id []).sight offset (heading ++ naming :: (preamble ++ marker :: items)) =
      (readCharacter id offset (heading ++ naming :: (preamble ++ marker :: items))).onward
        fun character => inRecords (above ++ [character]) := by
  rw [sight_unnamed above id offset [] unnamed, List.nil_append, sight_named _ _ _ named,
    sight_unmarked _ _ _ [] unmarked, List.nil_append, sight_marked _ _ _ marked, sight_scenes,
    readCharacter_parts id offset items unnamed named unmarked marked, Reading.onward_after,
    Reading.onward_map]
  rfl

/-- The same is found below an opener when the record is read first. If the record does not come to
its scenes nothing is found either way. -/
theorem told_heading :
    ((inHeading above id []).sight offset lines).told =
      ((readCharacter id offset lines).onward fun character =>
        inRecords (above ++ [character])).told := by
  cases openedLines lines with
  | unnamed unnamed =>
      rw [readCharacter_of_unnamed id offset unnamed, ← List.append_nil lines,
        sight_unnamed above id offset [] unnamed]
      rfl
  | @unmarked heading body naming name unnamed named unmarked =>
      rw [readCharacter_of_unmarked id offset unnamed named unmarked,
        sight_unnamed above id offset [] unnamed, sight_named _ _ _ named, ← List.append_nil body,
        sight_unmarked _ _ _ [] unmarked]
      rfl
  | parts unnamed named unmarked marked =>
      rw [sight_parts above id offset unnamed named unmarked marked]

theorem reading_behind (characters : List Character) (closer : String)
    (trailing lines : List String) :
    (behind characters closer trailing).reading offset lines =
      ⟨behind characters closer (trailing ++ lines), offset + lines.length, [], []⟩ := by
  induction lines generalizing trailing offset with
  | nil => rw [List.append_nil, List.length_nil, Nat.add_zero, reading]
  | cons line rest ih =>
      rw [reading_cons, step, Reading.after_nil, ih, List.append_assoc, List.singleton_append,
        List.length_cons, Nat.add_right_comm, Nat.add_assoc offset]

/-- The records are read up to the closer of the section. -/
theorem told_records (lines : List String) :
    ((inRecords above).sight offset lines).told =
      ((readRecords offset lines).value.map fun found =>
          (above ++ found.1, found.2, (readRecords offset lines).rest),
        (readRecords offset lines).remarks) := by
  fun_induction readRecords offset lines generalizing above with
  | case1 => rfl
  | case2 offset line rest id opened inner ih =>
      rw [sight_cons, step, opened, Reading.told_after, told_heading, Reading.onward,
        Reading.told_after, ih]
      simp only [Reading.after_value, Reading.after_rest, Reading.after_remarks, Reading.map_value,
        Reading.map_rest, Reading.map_remarks, Option.map_map, Function.comp_def, List.append_assoc,
        List.cons_append, List.nil_append, inner]
  | case3 offset line rest unopened closer =>
      simp only [sight_cons, step, unopened, closer, ↓reduceIte]
      rw [Reading.after_nil, sight, reading_behind]
      simp [Reading.told, seen, found?]
  | case4 offset line rest unopened unclosed ih =>
      simp only [sight_cons, step, unopened, unclosed, Bool.false_eq_true, ↓reduceIte]
      rw [Reading.told_after, ih]
      rfl

theorem found_records_iff {lines : List String} {characters : List Character} {closer : String}
    {trailing : List String} :
    ((inRecords []).reading offset lines).value.found? = some (characters, closer, trailing) ↔
      (readRecords offset lines).value = some (characters, closer) ∧
        (readRecords offset lines).rest = trailing := by
  have told : ((inRecords []).reading offset lines).value.found? =
      (readRecords offset lines).value.map fun found =>
        (found.1, found.2, (readRecords offset lines).rest) :=
    congrArg Prod.fst (told_records [] offset lines)
  rw [told]
  rcases (readRecords offset lines).value with _ | ⟨_, _⟩
  · simp
  · simp [and_assoc]

theorem remarks_records (lines : List String) :
    ((inRecords []).reading offset lines).remarks = (readRecords offset lines).remarks :=
  congrArg Prod.snd (told_records [] offset lines)

end Records

end SceneGallery.Library
