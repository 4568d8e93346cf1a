import SceneGallery.Proofs.Library.Consumed
set_option autoImplicit false

namespace SceneGallery.Library

open SceneGallery.Field

/-- The lines of scenes up to the closer of their record. The first closer among them closes the
block of scenes, `closed` tells whether it is above. -/
inductive ScenesBlock : Bool → List Scene → List String → Prop
  | recordCloser {line : String} (closer : isCloser line = true) : ScenesBlock true [] [line]
  | blockCloser {line : String} {scenes : List Scene} {lines : List String}
      (closer : isCloser line = true) (later : ScenesBlock true scenes lines) :
      ScenesBlock false scenes (line :: lines)
  | scene {closed : Bool} {line : String} {number : UInt32} {block : List String} {scene : Scene}
      {scenes : List Scene} {lines : List String} (unclosed : isCloser line = false)
      (opened : recordStart? line = some number) (read : ReadsAs (sceneOutcome {}) block scene)
      (later : ScenesBlock closed scenes lines) :
      ScenesBlock closed (scene :: scenes) (line :: (block ++ lines))
  | stray {closed : Bool} {line : String} {scenes : List Scene} {lines : List String}
      (unclosed : isCloser line = false) (unopened : recordStart? line = none)
      (later : ScenesBlock closed scenes lines) : ScenesBlock closed scenes (line :: lines)

/-- The lines of a record: its opener, its heading, its name, its preamble, the marker of its scenes
and the lines of these. -/
inductive IsRecord (scenesAre : List Scene → List String → Prop) (character : Character) :
    List String → Prop
  | parts {opener naming marker : String} {items : List String}
      (opened : recordStart? opener = some character.id)
      (unnamed : ∀ line ∈ character.heading, name? line = none)
      (named : name? naming = some character.name)
      (unmarked : ∀ line ∈ character.preamble, isItemsMarker line = false)
      (marked : isItemsMarker marker = true) (scenes : scenesAre character.scenes items) :
      IsRecord scenesAre character
        (opener :: (character.heading ++ naming :: (character.preamble ++ marker :: items)))

/-- The lines of records, in order, among lines that neither open a record nor close the section. -/
inductive LaidOut (scenesAre : List Scene → List String → Prop) :
    List Character → List String → Prop
  | nil : LaidOut scenesAre [] []
  | stray {line : String} {characters : List Character} {lines : List String}
      (unopened : recordStart? line = none) (unclosed : isCloser line = false)
      (later : LaidOut scenesAre characters lines) : LaidOut scenesAre characters (line :: lines)
  | record {character : Character} {characters : List Character} {block lines : List String}
      (record : IsRecord scenesAre character block)
      (later : LaidOut scenesAre characters lines) :
      LaidOut scenesAre (character :: characters) (block ++ lines)

/-- The lines of a library: the lines up to its first record, its records, its closer and the lines
after that. -/
structure IsLibrary (library : Library) (records lines : List String) : Prop where
  spelled : lines = library.leading ++ (records ++ library.closer :: library.trailing)
  marked : ∃ line ∈ library.leading, isSectionMarker line = true
  outside : ∀ line ∈ (library.leading.dropWhile fun line => !isSectionMarker line).tail,
    startsRecords line = false
  records : LaidOut (ScenesBlock false) library.characters records
  unopened : recordStart? library.closer = none
  closed : isCloser library.closer = true

theorem scenesOutcome_nil (closed : Bool) : scenesOutcome closed [] = ([], []) := by
  rw [scenesOutcome, readScenes]
  rfl

theorem recordsOutcome_nil : recordsOutcome [] = (none, []) := by
  rw [recordsOutcome, readRecords]
  rfl

/-- Scenes are read from exactly their lines. -/
theorem readsAs_of_scenesBlock {closed : Bool} {scenes : List Scene} {lines : List String}
    (block : ScenesBlock closed scenes lines) : ReadsAs (scenesOutcome closed) lines scenes := by
  induction block with
  | recordCloser closer => exact fun later => scenesOutcome_record_closer later closer
  | blockCloser closer _ ih =>
      intro later
      rw [List.cons_append, scenesOutcome_block_closer _ closer]
      exact ih later
  | scene unclosed opened read _ ih =>
      intro later
      rw [List.cons_append, List.append_assoc, scenesOutcome_scene _ _ unclosed opened, read, ih]
  | stray unclosed unopened _ ih =>
      intro later
      rw [List.cons_append, scenesOutcome_stray _ _ unclosed unopened]
      exact ih later

/-- Scenes that are read before the lines run out have lines of their own. -/
theorem exists_scenesBlock {closed : Bool} {lines : List String}
    (remain : (scenesOutcome closed lines).2 ≠ []) :
    ∃ block, lines = block ++ (scenesOutcome closed lines).2 ∧
      ScenesBlock closed (scenesOutcome closed lines).1 block := by
  match lines with
  | [] =>
      rw [scenesOutcome_nil] at remain
      exact absurd rfl remain
  | line :: rest =>
      cases closer : isCloser line with
      | true =>
          cases closed with
          | false =>
              rw [scenesOutcome_block_closer rest closer] at remain ⊢
              obtain ⟨block, spelled, scenes⟩ := exists_scenesBlock remain
              exact ⟨line :: block, congrArg (line :: ·) spelled, .blockCloser closer scenes⟩
          | true =>
              rw [scenesOutcome_record_closer rest closer]
              exact ⟨[line], rfl, .recordCloser closer⟩
      | false =>
          cases opened : recordStart? line with
          | none =>
              rw [scenesOutcome_stray closed rest closer opened] at remain ⊢
              obtain ⟨block, spelled, scenes⟩ := exists_scenesBlock remain
              exact ⟨line :: block, congrArg (line :: ·) spelled, .stray closer opened scenes⟩
          | some number =>
              rw [scenesOutcome_scene closed rest closer opened] at remain ⊢
              have stops := stops_sceneOutcome {} rest
              have shorter := stops.within.length_le
              have sceneRemains : (sceneOutcome {} rest).2 ≠ [] := by
                intro none
                rw [none, scenesOutcome_nil] at remain
                exact remain rfl
              obtain ⟨sceneBlock, sceneSpelled, read⟩ := stops.whole sceneRemains
              obtain ⟨block, spelled, scenes⟩ := exists_scenesBlock remain
              refine ⟨line :: (sceneBlock ++ block), ?_, .scene closer opened read scenes⟩
              rw [List.cons_append, List.append_assoc, ← spelled, ← sceneSpelled]
termination_by lines.length

theorem recordsOutcome_isRecord {character : Character} {block : List String}
    (record : IsRecord (ScenesBlock false) character block) (later : List String) :
    recordsOutcome (block ++ later) =
      ((recordsOutcome later).1.map fun found => (character :: found.1, found.2),
        (recordsOutcome later).2) := by
  cases record with
  | @parts opener naming marker items opened unnamed named unmarked marked scenes =>
      have whole : characterOutcome character.id (character.heading ++ naming ::
          (character.preamble ++ marker :: (items ++ later))) = (character, later) := by
        rw [characterOutcome_parts character.id _ unnamed named unmarked marked,
          readsAs_of_scenesBlock scenes later]
      simp only [List.cons_append, List.append_assoc]
      rw [recordsOutcome_record _ opened, whole]

/-- The lines behind an opener, cut at the first name and at the first marker of scenes below. -/
inductive OpenedLines : List String → Prop
  | unnamed {lines : List String} (unnamed : ∀ line ∈ lines, name? line = none) : OpenedLines lines
  | unmarked {heading body : List String} {naming name : String}
      (unnamed : ∀ line ∈ heading, name? line = none) (named : name? naming = some name)
      (unmarked : ∀ line ∈ body, isItemsMarker line = false) :
      OpenedLines (heading ++ naming :: body)
  | parts {heading preamble items : List String} {naming name marker : String}
      (unnamed : ∀ line ∈ heading, name? line = none) (named : name? naming = some name)
      (unmarked : ∀ line ∈ preamble, isItemsMarker line = false)
      (marked : isItemsMarker marker = true) :
      OpenedLines (heading ++ naming :: (preamble ++ marker :: items))

theorem openedLines (lines : List String) : OpenedLines lines := by
  cases foundName : lines.find? fun line => (name? line).isSome with
  | none => exact .unnamed (by simpa using List.find?_eq_none.mp foundName)
  | some naming =>
      obtain ⟨given, heading, body, rfl, before⟩ := List.find?_eq_some_iff_append.mp foundName
      obtain ⟨name, named⟩ := Option.isSome_iff_exists.mp given
      have unnamed : ∀ line ∈ heading, name? line = none := by simpa using before
      cases foundMarker : body.find? isItemsMarker with
      | none =>
          exact .unmarked unnamed named (by simpa using List.find?_eq_none.mp foundMarker)
      | some marker =>
          obtain ⟨marked, preamble, items, rfl, above⟩ :=
            List.find?_eq_some_iff_append.mp foundMarker
          exact .parts unnamed named (by simpa using above) marked

/-- A record that is read before the lines run out has lines of its own. -/
theorem exists_isRecord {opener : String} {id : UInt32} {lines : List String}
    (opened : recordStart? opener = some id) (remain : (characterOutcome id lines).2 ≠ []) :
    ∃ block, opener :: lines = block ++ (characterOutcome id lines).2 ∧
      IsRecord (ScenesBlock false) (characterOutcome id lines).1 block := by
  cases openedLines lines with
  | unnamed unnamed => exact absurd (characterOutcome_of_unnamed id unnamed) remain
  | unmarked unnamed named unmarked =>
      exact absurd (characterOutcome_of_unmarked id unnamed named unmarked) remain
  | @parts heading preamble items naming name marker unnamed named unmarked marked =>
      rw [characterOutcome_parts id items unnamed named unmarked marked] at remain ⊢
      obtain ⟨block, spelled, scenes⟩ := exists_scenesBlock remain
      refine ⟨opener :: (heading ++ naming :: (preamble ++ marker :: block)), ?_,
        .parts opened unnamed named unmarked marked scenes⟩
      simp only [List.cons_append, List.append_assoc]
      rw [← spelled]

theorem recordsOutcome_laidOut {characters : List Character} {lines : List String}
    (laidOut : LaidOut (ScenesBlock false) characters lines) (later : List String) :
    recordsOutcome (lines ++ later) =
      ((recordsOutcome later).1.map fun found => (characters ++ found.1, found.2),
        (recordsOutcome later).2) := by
  induction laidOut with
  | nil =>
      rw [List.nil_append]
      rcases recordsOutcome later with ⟨_ | _, _⟩ <;> rfl
  | stray unopened unclosed _ ih =>
      rw [List.cons_append, recordsOutcome_stray _ unopened unclosed, ih]
  | record record _ ih =>
      rw [List.append_assoc, recordsOutcome_isRecord record, ih]
      rcases recordsOutcome later with ⟨_ | _, _⟩ <;> rfl

/-- Records that are read up to the closer of the section have lines of their own. -/
theorem exists_laidOut {characters : List Character} {closer : String}
    {lines trailing : List String}
    (read : recordsOutcome lines = (some (characters, closer), trailing)) :
    recordStart? closer = none ∧ isCloser closer = true ∧
      ∃ records, lines = records ++ closer :: trailing ∧
        LaidOut (ScenesBlock false) characters records := by
  match lines with
  | [] =>
      rw [recordsOutcome_nil] at read
      cases read
  | line :: rest =>
      cases opened : recordStart? line with
      | none =>
          cases closes : isCloser line with
          | true =>
              rw [recordsOutcome_closer rest opened closes] at read
              cases read
              exact ⟨opened, closes, [], rfl, .nil⟩
          | false =>
              rw [recordsOutcome_stray rest opened closes] at read
              obtain ⟨unopened, closed, records, rfl, laidOut⟩ := exists_laidOut read
              exact ⟨unopened, closed, line :: records, rfl, .stray opened closes laidOut⟩
      | some id =>
          rw [recordsOutcome_record rest opened] at read
          obtain ⟨found, remaining⟩ := Prod.mk.inj read
          obtain ⟨⟨others, _⟩, foundLater, same⟩ := Option.map_eq_some_iff.mp found
          cases same
          have remain : (characterOutcome id rest).2 ≠ [] := by
            intro none
            rw [none, recordsOutcome_nil] at foundLater
            cases foundLater
          obtain ⟨block, spelled, record⟩ := exists_isRecord opened remain
          obtain ⟨unopened, closed, records, spelledLater, laidOut⟩ :=
            exists_laidOut (Prod.ext foundLater remaining)
          refine ⟨unopened, closed, block ++ records, ?_, .record record laidOut⟩
          rw [spelled, spelledLater, List.append_assoc]
termination_by lines.length
decreasing_by
  · exact Nat.lt_succ_self rest.length
  · exact Nat.lt_succ_of_le (readCharacter_rest_length_le id 0 rest)

theorem exists_strays (lines : List String) :
    ∃ between records, lines = between ++ records ∧
      (∀ line ∈ between, startsRecords line = false) ∧
        ∀ line ∈ records.head?, startsRecords line = true := by
  refine ⟨lines.takeWhile fun line => !startsRecords line,
    lines.dropWhile fun line => !startsRecords line, List.takeWhile_append_dropWhile.symm, ?_, ?_⟩
  · intro line member
    simpa using List.mem_takeWhile_imp member
  · intro line first
    have starts := List.head?_dropWhile_not (fun line => !startsRecords line) lines
    rw [Option.mem_def.mp first] at starts
    simpa using starts

theorem exists_section (lines : List String) :
    (∀ line ∈ lines, isSectionMarker line = false) ∨
      ∃ before marker body, lines = before ++ marker :: body ∧
        (∀ line ∈ before, isSectionMarker line = false) ∧ isSectionMarker marker = true := by
  cases found : lines.find? isSectionMarker with
  | none => exact Or.inl (by simpa using List.find?_eq_none.mp found)
  | some marker =>
      obtain ⟨marked, before, body, rfl, above⟩ := List.find?_eq_some_iff_append.mp found
      exact Or.inr ⟨before, marker, body, rfl, by simpa using above, marked⟩

theorem exists_hasSection (lines : List String) :
    (∀ line ∈ lines, isSectionMarker line = false) ∨
      ∃ before marker between records, HasSection before marker between records lines := by
  rcases exists_section lines with none | ⟨before, marker, body, rfl, unmarked, marked⟩
  · exact Or.inl none
  · obtain ⟨between, records, rfl, outside, inside⟩ := exists_strays body
    exact Or.inr ⟨before, marker, between, records, rfl, unmarked, marked, outside, inside⟩

/-- The parts that a library is read from. -/
structure ReadFrom (layout : Text.Layout) (offset : Nat) (library : Library) (before : List String)
    (marker : String) (between records lines : List String) : Prop where
  cut : HasSection before marker between records lines
  leading : library.leading = before ++ marker :: between
  found : (readRecords (offset + library.leading.length) records).value =
    some (library.characters, library.closer)
  trailing : (readRecords (offset + library.leading.length) records).rest = library.trailing
  layout : library.layout = layout

theorem ReadFrom.readLibrary {layout : Text.Layout} {offset : Nat} {library : Library}
    {before between records lines : List String} {marker : String}
    (parts : ReadFrom layout offset library before marker between records lines) :
    readLibrary layout offset lines =
      ⟨.ok library, offset + lines.length, [],
        (readRecords (offset + library.leading.length) records).remarks⟩ := by
  obtain ⟨cut, leading, found, trailing, rfl⟩ := parts
  rw [readLibrary_section _ offset cut]
  simp only [← leading, found, trailing]

theorem exists_readFrom {layout : Text.Layout} {offset : Nat} {lines : List String}
    {library : Library} (read : (readLibrary layout offset lines).value = .ok library) :
    ∃ before marker between records,
      ReadFrom layout offset library before marker between records lines := by
  rcases exists_hasSection lines with none | ⟨before, marker, between, records, cut⟩
  · rw [readLibrary_of_unmarked layout offset none] at read
    cases read
  · rw [readLibrary_section layout offset cut] at read
    rcases found : (readRecords (offset + (before ++ marker :: between).length) records).value with
      _ | ⟨characters, closer⟩
    · simp only [found] at read
      cases read
    · simp only [found] at read
      cases read
      exact ⟨before, marker, between, records, cut, rfl, found, rfl, rfl⟩

/-- A library is read from exactly its lines. -/
theorem isLibrary_of_readLibrary {layout : Text.Layout} {offset : Nat} {lines : List String}
    {library : Library} (read : (readLibrary layout offset lines).value = .ok library) :
    library.layout = layout ∧ ∃ records, IsLibrary library records lines := by
  obtain ⟨before, marker, between, rest, parts⟩ := exists_readFrom read
  have found : recordsOutcome rest =
      (some (library.characters, library.closer), library.trailing) := by
    rw [← outcome_readRecords, Reading.outcome, parts.found, parts.trailing]
  obtain ⟨unopened, closed, records, spelled, laidOut⟩ := exists_laidOut found
  have above : library.leading.dropWhile (fun line => !isSectionMarker line) =
      marker :: between := by
    rw [parts.leading, List.dropWhile_append_of_pos (forall_not parts.cut.unmarked),
      List.dropWhile_cons_of_neg]
    simp [parts.cut.marked]
  refine ⟨parts.layout, records, ?_, ⟨marker, ?_, parts.cut.marked⟩, ?_, laidOut, unopened, closed⟩
  · simp only [parts.cut.spelled, parts.leading, spelled, List.append_assoc, List.cons_append]
  · simp [parts.leading]
  · simp only [above, List.tail_cons]
    exact parts.cut.outside

end SceneGallery.Library
