import SceneGallery.Library.Field
import SceneGallery.Library.Reading
set_option autoImplicit false

/- Reading a scene library from its lines. A reader starts on the first line of the part that it
reads, stops after the line that closes the part, and passes over lines that it cannot use with a
remark. Every reader stops within its lines, so the rest never grows. -/
namespace SceneGallery.Library

/-- The condition with the field of one line put in, if it is a field of a condition. -/
def putCondition? (condition : Condition) : Option Field → Option Condition
  | some (.kind value) => some { condition with kind := some value }
  | some (.id text) => some { condition with id := some text }
  | some (.op value) => some { condition with op := some value }
  | some (.value value) => some { condition with value := some value }
  | _ => none

/-- The scene with the field of one line put in, if it is a field of a scene. -/
def putScene? (scene : Scene) : Option Field → Option Scene
  | some (.name text) => some { scene with name := text }
  | some (.common number) => some { scene with common := number }
  | some (.fadeout number) => some { scene with fadeout := some number }
  | some (.map text) => some { scene with map := some text }
  | _ => none

/-- Reads on in a condition of which the fields so far are given. -/
def readCondition (condition : Condition) (offset : Nat) : List String → Reading Condition
  | [] => ⟨condition, offset, [], []⟩
  | line :: rest =>
    if isCloser line then ⟨condition, offset + 1, rest, []⟩
    else
      match putCondition? condition (Field.ofLine? line) with
      | some condition => readCondition condition (offset + 1) rest
      | none =>
        (readCondition condition (offset + 1) rest).after [.unexpected .condition (offset + 1) line]

/-- Reads on in a background of which the identifier so far is given. -/
def readBackground (background : Background) (offset : Nat) : List String → Reading Background
  | [] => ⟨background, offset, [], []⟩
  | line :: rest =>
    if isCloser line then ⟨background, offset + 1, rest, []⟩
    else
      match Field.id? line with
      | some text => readBackground { background with id := text } (offset + 1) rest
      | none =>
        (readBackground background (offset + 1) rest).after
          [.unexpected .background (offset + 1) line]

theorem readCondition_rest_length_le (condition : Condition) (offset : Nat) (lines : List String) :
    (readCondition condition offset lines).rest.length ≤ lines.length := by
  fun_induction readCondition condition offset lines with
  | case1 => simp
  | case2 => simp
  | case3 condition offset line rest hcloser next hput ih => simp only [List.length_cons]; omega
  | case4 condition offset line rest hcloser hput ih =>
      simp only [Reading.after_rest, List.length_cons]
      omega

theorem readBackground_rest_length_le (background : Background) (offset : Nat)
    (lines : List String) :
    (readBackground background offset lines).rest.length ≤ lines.length := by
  fun_induction readBackground background offset lines with
  | case1 => simp
  | case2 => simp
  | case3 background offset line rest hcloser next hput ih => simp only [List.length_cons]; omega
  | case4 background offset line rest hcloser hput ih =>
      simp only [Reading.after_rest, List.length_cons]
      omega

/-- Reads on in a scene of which the fields so far are given. -/
def readScene (scene : Scene) (offset : Nat) (lines : List String) : Reading Scene :=
  match lines with
  | [] => ⟨scene, offset, [], []⟩
  | line :: rest =>
    if isConditionOpener line then
      let inner := readCondition {} (offset + 1) rest
      (readScene { scene with condition := some inner.value } inner.offset inner.rest).after
        inner.remarks
    else if isBackgroundOpener line then
      let inner := readBackground {} (offset + 1) rest
      (readScene { scene with background := some inner.value } inner.offset inner.rest).after
        inner.remarks
    else if isCloser line then ⟨scene, offset + 1, rest, []⟩
    else
      match putScene? scene (Field.ofLine? line) with
      | some scene => readScene scene (offset + 1) rest
      | none => (readScene scene (offset + 1) rest).after [.unexpected .scene (offset + 1) line]
termination_by lines.length
decreasing_by
  · have := readCondition_rest_length_le {} (offset + 1) rest
    simp only [List.length_cons]
    omega
  · have := readBackground_rest_length_le {} (offset + 1) rest
    simp only [List.length_cons]
    omega
  · simp
  · simp

theorem readScene_nil (scene : Scene) (offset : Nat) :
    readScene scene offset [] = ⟨scene, offset, [], []⟩ := by
  rw [readScene]

theorem readScene_rest_length_le (scene : Scene) (offset : Nat) (lines : List String) :
    (readScene scene offset lines).rest.length ≤ lines.length := by
  fun_induction readScene scene offset lines with
  | case1 => simp
  | case2 scene offset line rest hcondition inner ih =>
      have : inner.rest.length ≤ rest.length := readCondition_rest_length_le {} (offset + 1) rest
      simp only [Reading.after_rest, List.length_cons]
      omega
  | case3 scene offset line rest hcondition hbackground inner ih =>
      have : inner.rest.length ≤ rest.length := readBackground_rest_length_le {} (offset + 1) rest
      simp only [Reading.after_rest, List.length_cons]
      omega
  | case4 => simp
  | case5 scene offset line rest hcondition hbackground hcloser next hput ih =>
      simp only [List.length_cons]
      omega
  | case6 scene offset line rest hcondition hbackground hcloser hput ih =>
      simp only [Reading.after_rest, List.length_cons]
      omega

/-- Reads the scenes of a character up to the closer of the record. The first closer among them
closes the block of scenes; `closed` tells whether it was seen. -/
def readScenes (closed : Bool) (offset : Nat) (lines : List String) : Reading (List Scene) :=
  match lines with
  | [] => ⟨[], offset, [], []⟩
  | line :: rest =>
    if isCloser line then
      if closed then ⟨[], offset + 1, rest, []⟩ else readScenes true (offset + 1) rest
    else
      match Field.recordStart? line with
      | some number =>
        let inner := readScene {} (offset + 1) rest
        ((readScenes closed inner.offset inner.rest).map (inner.value :: ·)).after
          (.scene number :: inner.remarks)
      | none =>
        (readScenes closed (offset + 1) rest).after [.unexpected .character (offset + 1) line]
termination_by lines.length
decreasing_by
  · simp
  · have := readScene_rest_length_le {} (offset + 1) rest
    simp only [List.length_cons]
    omega
  · simp

theorem readScenes_rest_length_le (closed : Bool) (offset : Nat) (lines : List String) :
    (readScenes closed offset lines).rest.length ≤ lines.length := by
  fun_induction readScenes closed offset lines with
  | case1 => simp
  | case2 => simp
  | case3 closed offset line rest hcloser hclosed ih => simp only [List.length_cons]; omega
  | case4 closed offset line rest hcloser number hnumber inner ih =>
      have : inner.rest.length ≤ rest.length := readScene_rest_length_le {} (offset + 1) rest
      simp only [Reading.after_rest, Reading.map_rest, List.length_cons]
      omega
  | case5 closed offset line rest hcloser hnumber ih =>
      simp only [Reading.after_rest, List.length_cons]
      omega

/-- Reads the record of a character from the line after its opener: the lines before the name, the
name, the lines before the scenes, and the scenes. -/
def readCharacter (id : UInt32) (offset : Nat) (lines : List String) : Reading Character :=
  let heading := lines.takeWhile fun line => (Field.name? line).isNone
  match lines.dropWhile fun line => (Field.name? line).isNone with
  | [] => ⟨⟨id, heading, "", [], []⟩, offset + heading.length, [], []⟩
  | naming :: body =>
    let name := (Field.name? naming).getD ""
    let preamble := body.takeWhile fun line => !isItemsMarker line
    let reached := offset + heading.length + 1 + preamble.length
    match body.dropWhile fun line => !isItemsMarker line with
    | [] => ⟨⟨id, heading, name, preamble, []⟩, reached, [], [.character name]⟩
    | _ :: items =>
      ((readScenes false (reached + 1) items).map fun scenes =>
        ⟨id, heading, name, preamble, scenes⟩).after [.character name]

theorem length_dropWhile_le {α : Type} (p : α → Bool) (s : List α) :
    (s.dropWhile p).length ≤ s.length :=
  (List.dropWhile_suffix p).length_le

theorem readCharacter_rest_length_le (id : UInt32) (offset : Nat) (lines : List String) :
    (readCharacter id offset lines).rest.length ≤ lines.length := by
  unfold readCharacter
  have hlines := length_dropWhile_le (fun line => (Field.name? line).isNone) lines
  split
  · simp
  · rename_i naming body hbody
    have hitems := length_dropWhile_le (fun line => !isItemsMarker line) body
    simp only [hbody, List.length_cons] at hlines
    split
    · simp
    · rename_i marker items hmarker
      have hscenes := readScenes_rest_length_le false
        (offset + (lines.takeWhile fun line => (Field.name? line).isNone).length + 1 +
          (body.takeWhile fun line => !isItemsMarker line).length + 1) items
      simp only [hmarker, List.length_cons] at hitems
      simp only [Reading.after_rest, Reading.map_rest]
      omega

/-- Reads records up to the closer of the section: the characters and that closer, or nothing if
the lines end first. -/
def readRecords (offset : Nat) (lines : List String) : Reading (Option (List Character × String)) :=
  match lines with
  | [] => ⟨none, offset, [], []⟩
  | line :: rest =>
    match Field.recordStart? line with
    | some id =>
      let inner := readCharacter id (offset + 1) rest
      ((readRecords inner.offset inner.rest).map
        (Option.map fun found => (inner.value :: found.1, found.2))).after
          (.record id :: inner.remarks)
    | none =>
      if isCloser line then ⟨some ([], line), offset + 1, rest, []⟩
      else (readRecords (offset + 1) rest).after [.unexpected .library (offset + 1) line]
termination_by lines.length
decreasing_by
  · have := readCharacter_rest_length_le id (offset + 1) rest
    simp only [List.length_cons]
    omega
  · simp

/-- Whether a line ends the text before the records. -/
def startsRecords (line : String) : Bool :=
  (Field.recordStart? line).isSome || isCloser line

/-- Reads a whole library, to the last line. -/
def readLibrary (layout : Text.Layout) (offset : Nat) (lines : List String) :
    Reading (Except Error Library) :=
  let before := lines.takeWhile fun line => !isSectionMarker line
  match lines.dropWhile fun line => !isSectionMarker line with
  | [] => ⟨.error .missingSection, offset + lines.length, [], []⟩
  | marker :: body =>
    let start := offset + before.length + 1
    let between := body.takeWhile fun line => !startsRecords line
    let records := readRecords (start + between.length)
      (body.dropWhile fun line => !startsRecords line)
    match records.value with
    | none => ⟨.error (.unterminatedSection start), offset + lines.length, [], records.remarks⟩
    | some (characters, closer) =>
      let leading := before ++ marker :: between
      ⟨.ok ⟨leading, characters, closer, records.rest, layout⟩, offset + lines.length, [],
        records.remarks⟩

/-- Reads a library from its text. -/
def read (content : String) : Reading (Except Error Library) :=
  readLibrary (Text.layoutOf content) 0 (Text.lines content)

/-- The library that a text holds. -/
def parse (content : String) : Except Error Library :=
  (read content).value

/-- An `s` where there is not exactly one of something. -/
def pluralEnding (count : Nat) : String :=
  if count = 1 then "" else "s"

/-- What is told when a text has been read. -/
def outcomeNotice : Except Error Library → Notice
  | .ok library =>
    let characters := library.characters.length
    let scenes := library.sceneCount
    .debug ("Found " ++ toString characters ++ " character" ++ pluralEnding characters ++
      " with " ++ toString scenes ++ " scene" ++ pluralEnding scenes)
  | .error error => .quantity "error" error.shown

/-- Everything that is told while a text is read. -/
def notices (content : String) : List Notice :=
  let reading := read content
  reading.remarks.map Remark.notice ++ [outcomeNotice reading.value]

end SceneGallery.Library
