import SceneGallery.Proofs.Library.NormalForm
import SceneGallery.Proofs.Library.SecondRun
import SceneGallery.Proofs.Text.Crlf
set_option autoImplicit false

namespace SceneGallery.Library

open Text

/-- The library with another ending. -/
def withEnding (ending : Ending) (library : Library) : Library :=
  { library with layout := { library.layout with ending := ending } }

theorem readLibrary_layout (layout other : Layout) (offset : Nat) (lines : List String) :
    readLibrary layout offset lines =
      (readLibrary other offset lines).map
        (Except.map fun library => { library with layout := layout }) := by
  rw [readLibrary, readLibrary]
  split
  · rfl
  · simp only
    split <;> rfl

/-- A library has the line of its section and the line that closes it. -/
theorem length_lines_of_parse {content : String} {library : Library}
    (parsed : parse content = .ok library) : 1 < (lines content).length := by
  obtain ⟨_, records, read⟩ := isLibrary_of_parse parsed
  obtain ⟨marker, member, _⟩ := read.marked
  have leading := List.length_pos_of_mem member
  rw [read.spelled, List.length_append, List.length_append, List.length_cons]
  omega

theorem read_crlf {content : String} (unix : '\r' ∉ content.toList) :
    read (crlf content) =
      (read content).map
        (Except.map fun library => { library with layout := layoutOf (crlf content) }) := by
  rw [read, read, lines_crlf unix]
  exact readLibrary_layout _ _ _ _

/-- A text with carriage returns is read as the text without, up to the ending. -/
theorem parse_crlf {content : String} (unix : '\r' ∉ content.toList) :
    parse (crlf content) = (parse content).map (withEnding .crlf) := by
  have value : parse (crlf content) =
      (parse content).map fun library => { library with layout := layoutOf (crlf content) } :=
    congrArg Reading.value (read_crlf unix)
  rw [value]
  cases parsed : parse content with
  | error error => rw [Except.map, Except.map]
  | ok library =>
      have fed := mem_of_length_lines (length_lines_of_parse parsed)
      have layout := (isLibrary_of_parse parsed).1
      rw [layoutOf_crlf fed, ← layout, Except.map, Except.map, withEnding]

theorem outcomeNotice_layout (result : Except Error Library) (layout : Layout) :
    outcomeNotice (result.map fun library => { library with layout := layout }) =
      outcomeNotice result := by
  cases result with
  | error error => rw [Except.map]
  | ok library =>
      have scenes : { library with layout := layout }.sceneCount = library.sceneCount := rfl
      simp only [Except.map, outcomeNotice, scenes]

theorem notices_crlf {content : String} (unix : '\r' ∉ content.toList) :
    notices (crlf content) = notices content := by
  simp only [notices, read_crlf unix, Reading.map_remarks, Reading.map_value,
    outcomeNotice_layout]

theorem placeWith_withEnding (ending : Ending) (library : Library) (place : Nat)
    (character : Character) (descriptor : Descriptor) :
    (library.withEnding ending).placeWith place character descriptor =
      (library.placeWith place character descriptor).map (withEnding ending) id := by
  rw [placeWith, placeWith]
  split
  · rfl
  · split
    · rfl
    · split <;> rfl

theorem place_withEnding (ending : Ending) (index : Index) (library : Library)
    (descriptor : Descriptor) :
    place index (library.withEnding ending) descriptor =
      (place index library descriptor).map (withEnding ending) id := by
  rw [place, place]
  split
  · rfl
  · rename_i owner _
    have characters : (library.withEnding ending).characters = library.characters := rfl
    rw [characters]
    cases library.characters[owner]? with
    | none => rfl
    | some character => exact placeWith_withEnding ending library owner character descriptor
  · rfl

theorem mergeBy_withEnding (ending : Ending) (index : Index) (library : Library)
    (descriptors : List Descriptor) :
    mergeBy index (library.withEnding ending) descriptors =
      (mergeBy index library descriptors).map (withEnding ending) id := by
  induction descriptors generalizing library with
  | nil => rfl
  | cons descriptor rest ih =>
      rw [mergeBy, mergeBy, place_withEnding]
      simp only [Prod.map_fst, Prod.map_snd, ih]
      rfl

theorem merge_withEnding (ending : Ending) (library : Library) (descriptors : List Descriptor) :
    merge (library.withEnding ending) descriptors =
      (merge library descriptors).map (withEnding ending) id :=
  mergeBy_withEnding ending (.ofLibrary library) library descriptors

theorem serialize_withEnding {library : Library} (lf : library.layout.ending = .lf)
    (plain : ∀ line ∈ library.toLines, '\n' ∉ line.toList) :
    serialize (library.withEnding .crlf) = crlf (serialize library) := by
  rw [serialize, serialize, crlf_join lf plain]
  rfl

/-- A library that was read without a carriage return is written, with the copies of a merge or
without, as the one that was read with them, but for the carriage returns. -/
theorem serialize_merge_withEnding {content : String} (unix : '\r' ∉ content.toList)
    {library : Library} (parsed : parse content = .ok library) (descriptors : List Descriptor) :
    serialize ((merge library descriptors).1.withEnding .crlf) =
      crlf (serialize (merge library descriptors).1) := by
  have merged := (mergeBy_filled (consistent_nil library) descriptors).1
  rw [filled_nil] at merged
  rw [merge, merged]
  apply serialize_withEnding
  · show library.layout.ending = .lf
    rw [(isLibrary_of_parse parsed).1]
    exact ending_of_unix unix
  · exact plain_toLines_of_texts (sound_filled (sound_of_parse parsed).1).plain

end SceneGallery.Library
