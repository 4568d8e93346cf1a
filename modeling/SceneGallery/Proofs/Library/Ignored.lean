import SceneGallery.Proofs.Library.Context
import SceneGallery.Proofs.Library.Invariant
set_option autoImplicit false

namespace SceneGallery.Library

open Context

/-- A line without a field that opens and closes nothing. -/
structure SaysNothing (line : String) : Prop where
  fieldless : Field.ofLine? line = none
  unclosed : isCloser line = false
  noCondition : isConditionOpener line = false
  noBackground : isBackgroundOpener line = false

/-- The number of the line that a remark gives. -/
def Remark.line? : Remark → Option Nat
  | .unexpected _ line _ => some line
  | _ => none

/-- The places between the lines below the leading ones where a line that says nothing is passed
over, as the lines above and below the place. -/
inductive PassesOver : List String → List String → Prop
  /-- Below the marker of the scenes of a record and above the last line of the record. -/
  | inRecord {above : List Character} {id : UInt32} {scenes : List Scene}
      {before heading preamble inner outer rest : List String}
      {opener naming name marker : String} (laidOut : LaidOut (ScenesBlock false) above before)
      (opened : Field.recordStart? opener = some id)
      (unnamed : ∀ line ∈ heading, Field.name? line = none)
      (named : Field.name? naming = some name)
      (unmarked : ∀ line ∈ preamble, isItemsMarker line = false)
      (marked : isItemsMarker marker = true) (block : ScenesBlock false scenes (inner ++ outer))
      (unfinished : outer ≠ []) :
      PassesOver (before ++ opener :: (heading ++ naming :: (preamble ++ marker :: inner)))
        (outer ++ rest)
  /-- Behind a record, where the next one may follow. -/
  | behindRecord {above : List Character} {before rest : List String}
      (laidOut : LaidOut (ScenesBlock false) above before) (some : above ≠ []) :
      PassesOver before rest

section Line

variable {line : String} (ignored : SaysNothing line)
include ignored

theorem recordStart?_of_saysNothing : Field.recordStart? line = none := by
  have none := ignored.fieldless
  simp only [Field.ofLine?, Option.orElse_eq_orElse, Option.orElse_eq_or, Option.or_eq_none_iff,
    Option.map_eq_none_iff] at none
  exact none.1

theorem id?_of_saysNothing : Field.id? line = none := by
  have none := ignored.fieldless
  simp only [Field.ofLine?, Option.orElse_eq_orElse, Option.orElse_eq_or, Option.or_eq_none_iff,
    Option.map_eq_none_iff] at none
  obtain ⟨_, _, _, _, _, _, unidentified, _⟩ := none
  exact unidentified

/-- A line that says nothing is remarked and changes nothing. -/
theorem Context.step_saysNothing {context : Context} {part : Part} (number : Nat)
    (here : context.part? = some part) :
    context.step number line = (context, [.unexpected part number line]) := by
  have unopened := recordStart?_of_saysNothing ignored
  have unidentified := id?_of_saysNothing ignored
  obtain ⟨fieldless, unclosed, noCondition, noBackground⟩ := ignored
  cases context with
  | inRecords characters =>
      cases here
      simp only [step, unopened, unclosed, Bool.false_eq_true, ↓reduceIte]
  | inHeading above id heading => cases here
  | inPreamble above id heading name preamble => cases here
  | inScenes record =>
      cases here
      simp only [step, unopened, unclosed, Bool.false_eq_true, ↓reduceIte]
  | inScene record scene =>
      cases here
      simp only [step, fieldless, unclosed, noCondition, noBackground, Bool.false_eq_true,
        ↓reduceIte, putScene?]
  | inCondition record scene condition =>
      cases here
      simp only [step, fieldless, unclosed, Bool.false_eq_true, ↓reduceIte, putCondition?]
  | inBackground record scene background =>
      cases here
      simp only [step, unidentified, unclosed, Bool.false_eq_true, ↓reduceIte]
  | behind characters closer trailing => cases here

end Line

section Insert

variable (context : Context) (offset : Nat)

theorem Context.step_line (number : Nat) (line : String) :
    ∀ remark ∈ (context.step number line).2, ∀ given ∈ remark.line?, given = number := by
  cases context <;> grind [step, Remark.line?]

theorem Context.reading_lines (lines : List String) :
    ∀ remark ∈ (context.reading offset lines).remarks, ∀ number ∈ remark.line?,
      offset < number ∧ number ≤ offset + lines.length := by
  induction lines generalizing context offset with
  | nil => exact List.forall_mem_nil _
  | cons line rest ih =>
      intro remark member number given
      rw [reading_cons, Reading.after_remarks, List.mem_append] at member
      rw [List.length_cons]
      rcases member with first | later
      · have here := step_line context (offset + 1) line remark first number given
        omega
      · have below := ih _ _ remark later number given
        omega

variable {context offset}

theorem Context.reading_insert {part : Part} {line : String} {front : List String}
    (ignored : SaysNothing line) (here : (context.reading offset front).value.part? = some part)
    (back : List String) :
    (context.reading offset (front ++ line :: back)).value =
        (context.reading offset (front ++ back)).value ∧
      (context.reading offset (front ++ line :: back)).remarks =
        (context.reading offset front).remarks ++
          .unexpected part (offset + front.length + 1) line ::
            ((context.reading offset front).value.reading (offset + front.length)
              back).remarks.map (Remark.moved 1) := by
  rw [reading_append, reading_cons, step_saysNothing ignored _ here, reading_moved, reading_append]
  exact ⟨rfl, rfl⟩

end Insert

section Place

theorem Context.seen_offset (context : Context) (offset : Nat) (lines : List String) :
    (context.sight offset lines).value = (context.sight 0 lines).value := by
  have moved := reading_moved context 0 offset lines
  rw [Nat.zero_add] at moved
  rw [sight, sight, moved]
  rfl

theorem seen_isRecord {character : Character} {block : List String}
    (record : IsRecord (ScenesBlock false) character block) (above : List Character)
    (offset : Nat) (later : List String) :
    ((inRecords above).sight offset (block ++ later)).value =
      ((inRecords (above ++ [character])).sight 0 later).value := by
  cases record with
  | @parts opener naming marker items opened unnamed named unmarked marked scenes =>
      simp only [List.cons_append, List.append_assoc]
      rw [sight_cons, step, opened, Reading.after_value,
        sight_parts _ _ _ unnamed named unmarked marked, Reading.onward, Reading.after_value,
        seen_offset, readCharacter_value, readCharacter_rest,
        characterOutcome_parts _ _ unnamed named unmarked marked, readsAs_of_scenesBlock scenes]

theorem seen_laidOut {characters : List Character} {lines : List String}
    (laidOut : LaidOut (ScenesBlock false) characters lines) (above : List Character)
    (offset : Nat) (later : List String) :
    ((inRecords above).sight offset (lines ++ later)).value =
      ((inRecords (above ++ characters)).sight 0 later).value := by
  induction laidOut generalizing above offset with
  | nil => rw [List.nil_append, List.append_nil, seen_offset]
  | stray unopened unclosed _ ih =>
      simp only [List.cons_append, sight_cons, step, unopened, unclosed, Bool.false_eq_true,
        ↓reduceIte, Reading.after_value]
      exact ih above _
  | record record _ ih =>
      rw [List.append_assoc, seen_isRecord record, ih, List.append_assoc, List.singleton_append]

/-- Scenes whose lines are cut off take all that is left of them. -/
theorem scenesOutcome_unfinished {closed : Bool} {scenes : List Scene} {inner outer : List String}
    (block : ScenesBlock closed scenes (inner ++ outer)) (unfinished : outer ≠ []) :
    (scenesOutcome closed inner).2 = [] := by
  -- Scenes that ended above the cut would leave the lines below it over.
  by_contra remain
  obtain ⟨front, spelled, finished⟩ := exists_scenesBlock remain
  have early := readsAs_of_scenesBlock finished ((scenesOutcome closed inner).2 ++ outer)
  have whole := readsAs_of_scenesBlock block []
  rw [← List.append_assoc, ← spelled] at early
  rw [List.append_nil, early] at whole
  have none := (Prod.mk.inj whole).2
  exact unfinished (List.append_eq_nil_iff.mp none).2

/-- At such a place a line that says nothing is remarked. -/
theorem exists_part_of_passesOver {front back : List String} (place : PassesOver front back)
    (offset : Nat) : ∃ part, ((inRecords []).reading offset front).value.part? = some part := by
  have seen : ((inRecords []).sight offset front).value.remarking = true := by
    -- The scenes take all lines that are left, so the lines end inside the record or right behind
    -- it, and a line is remarked in either context.
    cases place with
    | @inRecord above id scenes before heading preamble inner outer rest opener naming name marker
        laidOut opened unnamed named unmarked marked block unfinished =>
        rw [seen_laidOut laidOut, sight_cons, step, opened, Reading.after_value,
          sight_parts _ _ _ unnamed named unmarked marked, Reading.onward, Reading.after_value,
          seen_offset, readCharacter_rest, characterOutcome_parts _ _ unnamed named unmarked marked,
          scenesOutcome_unfinished block unfinished]
        rfl
    | behindRecord laidOut some =>
        rw [← List.append_nil front, seen_laidOut laidOut]
        rfl
  exact Option.isSome_iff_exists.mp seen

theorem characters_of_laidOut_nil {scenesAre : List Scene → List String → Prop}
    {characters : List Character} (laidOut : LaidOut scenesAre characters []) :
    characters = [] := by
  generalize spelled : ([] : List String) = lines at laidOut
  cases laidOut with
  | nil => rfl
  | stray => cases spelled
  | record record => cases record with | parts => simp at spelled

theorem PassesOver.ne_nil {front back : List String} (place : PassesOver front back) :
    front ≠ [] := by
  cases place with
  | inRecord => simp
  | behindRecord laidOut some =>
      rintro rfl
      exact some (characters_of_laidOut_nil laidOut)

end Place

/-- A line that says nothing is passed over with one remark between the marker of the scenes of a
record and the last line of the record, and behind a record. The library stays the same, and so do
the other remarks, but for the numbers of the lines below. -/
theorem readLibrary_insert (layout : Text.Layout) {library : Library} {line : String}
    {front back : List String} (ignored : SaysNothing line) (place : PassesOver front back)
    (read : (readLibrary layout 0 (library.leading ++ (front ++ back))).value = .ok library) :
    (readLibrary layout 0 (library.leading ++ (front ++ line :: back))).value = .ok library ∧
      ∃ part earlier later,
        (readLibrary layout 0 (library.leading ++ (front ++ back))).remarks = earlier ++ later ∧
        (readLibrary layout 0 (library.leading ++ (front ++ line :: back))).remarks =
          earlier ++ .unexpected part (library.leading.length + front.length + 1) line ::
            later.map (Remark.moved 1) ∧
        (∀ remark ∈ earlier, ∀ number ∈ remark.line?,
          number ≤ library.leading.length + front.length) ∧
        ∀ remark ∈ later, ∀ number ∈ remark.line?,
          library.leading.length + front.length < number := by
  obtain ⟨before, marker, between, records, parts⟩ := exists_readFrom read
  have spelled : front ++ back = records := by
    have whole := parts.cut.spelled
    rw [← List.cons_append, ← List.append_assoc before, ← parts.leading] at whole
    exact List.append_cancel_left whole
  subst spelled
  obtain ⟨part, here⟩ := exists_part_of_passesOver place (0 + library.leading.length)
  obtain ⟨value, remarks⟩ := reading_insert ignored here back
  have found := (found_records_iff _).mpr ⟨parts.found, parts.trailing⟩
  rw [← value] at found
  obtain ⟨closed, rest⟩ := (found_records_iff _).mp found
  have cut : HasSection before marker between (front ++ line :: back)
      (library.leading ++ (front ++ line :: back)) := by
    refine ⟨?_, parts.cut.unmarked, parts.cut.marked, parts.cut.outside, ?_⟩
    · rw [parts.leading, List.append_assoc, List.cons_append]
    · have inside := parts.cut.inside
      rw [List.head?_append_of_ne_nil _ place.ne_nil] at inside ⊢
      exact inside
  have inserted : ReadFrom layout 0 library before marker between (front ++ line :: back)
      (library.leading ++ (front ++ line :: back)) :=
    ⟨cut, parts.leading, closed, rest, parts.layout⟩
  rw [Nat.zero_add] at remarks
  rw [inserted.readLibrary, parts.readLibrary]
  simp only [Nat.zero_add, ← remarks_records, true_and]
  refine ⟨part, _, _, ?_, remarks, ?_, ?_⟩
  · rw [reading_append, Reading.after_remarks]
  · intro remark member number given
    exact (reading_lines _ _ front remark member number given).2
  · intro remark member number given
    exact (reading_lines _ _ back remark member number given).1

theorem readLibrary_insert_shortText :
    (readLibrary shortLibrary.layout 0 ("H_SCENE_ITEMS" ::
      ["1 => \x7b", "# first", ":name => \"Anna\"", "# note", ":items", "1 => \x7b", "# odd",
        "\x7d", "\x7d", "\x7d", "\x7d", "end"])).value = .ok shortLibrary := by
  have ignored : SaysNothing "# odd" := ⟨by decide, by decide, by decide, by decide⟩
  have read : ReadsAs (sceneOutcome {}) ["\x7d"] {} := by
    intro later
    exact sceneOutcome_closer {} later (by decide) (by decide) (by decide)
  have block : ScenesBlock false [{}] (["1 => \x7b"] ++ ["\x7d", "\x7d", "\x7d"]) :=
    @ScenesBlock.scene false "1 => \x7b" 1 ["\x7d"] {} [] ["\x7d", "\x7d"] (by decide) (by decide)
      read (.blockCloser (by decide) (.recordCloser (by decide)))
  have place := @PassesOver.inRecord [] 1 [{}] [] ["# first"] ["# note"] ["1 => \x7b"]
    ["\x7d", "\x7d", "\x7d"] ["\x7d", "end"] "1 => \x7b" ":name => \"Anna\"" "Anna" ":items" .nil
    (by decide) (by decide) (by decide) (by decide) (by decide) block (by decide)
  exact (@readLibrary_insert shortLibrary.layout shortLibrary "# odd" _ _ ignored place
    (by decide +kernel)).1

end SceneGallery.Library
