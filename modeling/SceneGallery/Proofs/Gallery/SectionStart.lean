import SceneGallery.Proofs.Gallery.Reported
import SceneGallery.Proofs.Library.Anywhere
set_option autoImplicit false

namespace SceneGallery.Library

theorem HasSection.findIdx? {before between records lines : List String} {marker : String}
    (cut : HasSection before marker between records lines) :
    lines.findIdx? isSectionMarker = some before.length := by
  have above : before.findIdx? isSectionMarker = none :=
    List.findIdx?_eq_none_iff.mpr cut.unmarked
  rw [cut.spelled, List.findIdx?_append, above, List.findIdx?_cons, cut.marked]
  simp

/-- A text with a section is read as a library, or the error gives the line below the marker. -/
theorem readLibrary_unterminated_iff (layout : Text.Layout) (offset : Nat) (lines : List String)
    (start : Nat) :
    (readLibrary layout offset lines).value = .error (.unterminatedSection start) ↔
      (∃ marker, lines.findIdx? isSectionMarker = some marker ∧ start = offset + marker + 1) ∧
        ∀ library, (readLibrary layout offset lines).value ≠ .ok library := by
  rcases exists_hasSection lines with unmarked | ⟨before, marker, between, records, cut⟩
  · have unfound : lines.findIdx? isSectionMarker = none := List.findIdx?_eq_none_iff.mpr unmarked
    rw [readLibrary_of_unmarked layout offset unmarked, unfound]
    constructor
    · exact nofun
    · rintro ⟨⟨_, found, _⟩, _⟩
      cases found
  · rw [readLibrary_section layout offset cut, cut.findIdx?]
    rcases found : (readRecords (offset + (before ++ marker :: between).length) records).value with
      _ | ⟨characters, closer⟩
    · simp only [found, Except.error.injEq, Error.unterminatedSection.injEq, Option.some.injEq]
      constructor
      · rintro rfl
        exact ⟨⟨_, rfl, rfl⟩, nofun⟩
      · rintro ⟨⟨_, rfl, rfl⟩, _⟩
        rfl
    · simp only [found]
      constructor
      · exact nofun
      · rintro ⟨_, unread⟩
        exact absurd rfl (unread _)

end SceneGallery.Library

namespace SceneGallery.Gallery

/-- A section that is not closed is reported with the number of the line below its marker, and that
line is shown, if there is one. -/
theorem unterminatedSection_below_marker (content : String) (start : Nat) :
    (Library.parse content = .error (.unterminatedSection start) ↔
      (∃ marker, (Text.lines content).findIdx? isSectionMarker = some marker ∧
        start = marker + 1) ∧
      ∀ library, Library.parse content ≠ .ok library) ∧
    ∀ filename, Report.fullLibrary (.unterminatedSection start) filename content =
      Report.beforeLine filename start (Report.explainLibrary (.unterminatedSection start)) ++
        (Text.lines content)[start]?.getD "?" ++
        Report.afterLine start (Report.explainLibrary (.unterminatedSection start)) := by
  have read := Library.readLibrary_unterminated_iff (Text.layoutOf content) 0 (Text.lines content)
    start
  simp only [Nat.zero_add] at read
  exact ⟨read, fun filename => Report.withContext_eq filename content start _⟩

/-- A marker on the last line: the error gives a line that there is not. -/
theorem unterminatedSection_behind_last :
    Library.parse "# scenes\nH_SCENE_ITEMS" = .error (.unterminatedSection 2) ∧
      (Text.lines "# scenes\nH_SCENE_ITEMS")[2]? = none ∧
      (Text.lines "# scenes\nH_SCENE_ITEMS").findIdx? isSectionMarker = some 1 := by
  decide +kernel

end SceneGallery.Gallery
