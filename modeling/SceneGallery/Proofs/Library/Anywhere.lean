import SceneGallery.Proofs.Library.Context
import SceneGallery.Proofs.Library.Invariant
set_option autoImplicit false

namespace SceneGallery.Library

open Context

section Records

variable (offset : Nat) (lines : List String)

theorem readRecords_remarks_moved (count : Nat) :
    (readRecords (offset + count) lines).remarks =
      (readRecords offset lines).remarks.map (Remark.moved count) := by
  rw [← remarks_records, ← remarks_records, reading_moved]

theorem Context.eq_behind {context : Context} {characters : List Character} {closer : String}
    {trailing : List String} (found : context.found? = some (characters, closer, trailing)) :
    context = behind characters closer trailing := by
  cases context with
  | behind characters closer trailing =>
      cases found
      rfl
  | _ => cases found

theorem readRecords_append {characters : List Character} {closer : String}
    (closed : (readRecords offset lines).value = some (characters, closer))
    (later : List String) :
    (readRecords offset (lines ++ later)).value = some (characters, closer) ∧
      (readRecords offset (lines ++ later)).rest = (readRecords offset lines).rest ++ later ∧
        (readRecords offset (lines ++ later)).remarks = (readRecords offset lines).remarks := by
  -- The lines end behind the closer, and there the lines that follow are only kept.
  have ended : ((inRecords []).reading offset lines).value =
      behind characters closer (readRecords offset lines).rest :=
    eq_behind ((found_records_iff offset).mpr ⟨closed, rfl⟩)
  have whole : (inRecords []).reading offset (lines ++ later) =
      ⟨behind characters closer ((readRecords offset lines).rest ++ later),
        offset + lines.length + later.length, [], (readRecords offset lines).remarks⟩ := by
    rw [reading_append, ended, reading_behind, ← remarks_records, Reading.after, List.append_nil]
  obtain ⟨closedLater, rest⟩ := (found_records_iff offset).mp (congrArg (found? ·.value) whole)
  refine ⟨closedLater, rest, ?_⟩
  rw [← remarks_records, whole]

end Records

section Section

variable {before between records lines : List String} {marker : String}
  (cut : HasSection before marker between records lines)
include cut

theorem HasSection.below {above : List String}
    (unmarked : ∀ line ∈ above, isSectionMarker line = false) :
    HasSection (above ++ before) marker between records (above ++ lines) where
  spelled := by rw [cut.spelled, List.append_assoc]
  unmarked := List.forall_mem_append.mpr ⟨unmarked, cut.unmarked⟩
  marked := cut.marked
  outside := cut.outside
  inside := cut.inside

theorem HasSection.append (later : List String) (nonempty : records ≠ []) :
    HasSection before marker between (records ++ later) (lines ++ later) where
  spelled := by simp only [cut.spelled, List.append_assoc, List.cons_append]
  unmarked := cut.unmarked
  marked := cut.marked
  outside := cut.outside
  inside := by
    rw [List.head?_append_of_ne_nil _ nonempty]
    exact cut.inside

end Section

section ReadFrom

variable {layout : Text.Layout} {offset : Nat} {library : Library} {marker : String}
  {before between records lines : List String}
  (parts : ReadFrom layout offset library before marker between records lines)
include parts

/-- Lines above the section lead it. -/
theorem ReadFrom.below {above : List String}
    (unmarked : ∀ line ∈ above, isSectionMarker line = false) :
    ReadFrom layout offset { library with leading := above ++ library.leading } (above ++ before)
      marker between records (above ++ lines) where
  cut := parts.cut.below unmarked
  leading := by rw [parts.leading, List.append_assoc]
  found := by
    rw [readRecords_value, ← readRecords_value (offset + library.leading.length)]
    exact parts.found
  trailing := by
    rw [readRecords_rest, ← readRecords_rest (offset + library.leading.length)]
    exact parts.trailing
  layout := parts.layout

/-- Lines below the section trail it. -/
theorem ReadFrom.append (later : List String) :
    ReadFrom layout offset { library with trailing := library.trailing ++ later } before marker
      between (records ++ later) (lines ++ later) := by
  have nonempty : records ≠ [] := by
    rintro rfl
    have found := parts.found
    rw [readRecords] at found
    cases found
  obtain ⟨found, rest, _⟩ := readRecords_append _ records parts.found later
  refine ⟨parts.cut.append later nonempty, parts.leading, found, ?_, parts.layout⟩
  rw [rest, parts.trailing]

end ReadFrom

theorem missingSection_iff (layout : Text.Layout) (offset : Nat) {lines : List String} :
    (readLibrary layout offset lines).value = .error .missingSection ↔
      ∀ line ∈ lines, isSectionMarker line = false := by
  refine ⟨fun missing => ?_, readLibrary_of_unmarked layout offset⟩
  rcases exists_hasSection lines with none | ⟨before, marker, between, records, cut⟩
  · exact none
  · rw [readLibrary_section layout offset cut] at missing
    rcases found : (readRecords (offset + (before ++ marker :: between).length) records).value with
      _ | _ <;>
      · simp only [found] at missing
        cases missing

section Library

variable (layout : Text.Layout) {above lines : List String}
  (unmarked : ∀ line ∈ above, isSectionMarker line = false)
include unmarked

/-- A library is read below lines without a marker and above any lines. -/
theorem readLibrary_between {library : Library} (later : List String)
    (read : (readLibrary layout 0 lines).value = .ok library) :
    (readLibrary layout 0 (above ++ lines ++ later)).value =
        .ok { library with
          leading := above ++ library.leading
          trailing := library.trailing ++ later } ∧
      (readLibrary layout 0 (above ++ lines ++ later)).remarks =
        (readLibrary layout 0 lines).remarks.map (Remark.moved above.length) := by
  obtain ⟨before, marker, between, records, parts⟩ := exists_readFrom read
  have lower := parts.below unmarked
  have numbers : 0 + (above ++ library.leading).length =
      0 + library.leading.length + above.length := by
    rw [List.length_append]
    omega
  obtain ⟨_, _, remarks⟩ := readRecords_append _ records lower.found later
  rw [(lower.append later).readLibrary, parts.readLibrary]
  refine ⟨rfl, ?_⟩
  rw [remarks, numbers, readRecords_remarks_moved]

theorem readLibrary_unterminated_below {start : Nat}
    (read : (readLibrary layout 0 lines).value = .error (.unterminatedSection start)) :
    (readLibrary layout 0 (above ++ lines)).value =
      .error (.unterminatedSection (start + above.length)) := by
  rcases exists_hasSection lines with none | ⟨before, marker, between, records, cut⟩
  · rw [readLibrary_of_unmarked layout 0 none] at read
    cases read
  · rw [readLibrary_section layout 0 cut] at read
    rw [readLibrary_section layout 0 (cut.below unmarked)]
    simp only [readRecords_value] at read ⊢
    rcases found : (recordsOutcome records).1 with _ | _
    · simp only [found, Except.error.injEq, Error.unterminatedSection.injEq] at read
      have lower : 0 + (above ++ before).length + 1 = start + above.length := by
        rw [List.length_append]
        omega
      simp only [lower]
    · simp only [found] at read
      cases read

end Library

/-- A library is read the same wherever its section stands: lines without a marker above it belong
to the leading lines, any lines below it to the trailing ones, and nothing else changes but the
numbers of lines in what is remarked. A section that is not closed is the same error further down,
and lines without a section stay without one. -/
theorem readLibrary_anywhere (layout : Text.Layout) (above lines later : List String)
    (unmarked : ∀ line ∈ above, isSectionMarker line = false) :
    (∀ library, (readLibrary layout 0 lines).value = .ok library →
      (readLibrary layout 0 (above ++ lines ++ later)).value =
          .ok { library with
            leading := above ++ library.leading
            trailing := library.trailing ++ later } ∧
        (readLibrary layout 0 (above ++ lines ++ later)).remarks =
          (readLibrary layout 0 lines).remarks.map (Remark.moved above.length)) ∧
      (∀ start, (readLibrary layout 0 lines).value = .error (.unterminatedSection start) →
        (readLibrary layout 0 (above ++ lines)).value =
          .error (.unterminatedSection (start + above.length))) ∧
      ((readLibrary layout 0 lines).value = .error .missingSection →
        (readLibrary layout 0 (above ++ lines)).value = .error .missingSection) := by
  refine ⟨fun library read => readLibrary_between layout unmarked later read,
    fun start read => readLibrary_unterminated_below layout unmarked read, ?_⟩
  intro missing
  have none := (missingSection_iff layout 0).mp missing
  exact (missingSection_iff layout 0).mpr (List.forall_mem_append.mpr ⟨unmarked, none⟩)

theorem readLibrary_anywhere_shortText :
    (readLibrary (Text.layoutOf shortText) 0
      (["# above"] ++ Text.lines shortText ++ ["# below"])).value =
      .ok { shortLibrary with
        leading := ["# above", "H_SCENE_ITEMS"]
        trailing := ["end", "# below"] } :=
  ((readLibrary_anywhere (Text.layoutOf shortText) ["# above"] (Text.lines shortText) ["# below"]
    (by decide)).1 shortLibrary parse_shortText).1

end SceneGallery.Library
