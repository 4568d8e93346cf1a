import SceneGallery.Proofs.Library.Invariant
set_option autoImplicit false

namespace SceneGallery.Library

open SceneGallery.Field Text

section SoundLibrary

variable {library : Library} (sound : Sound library)
  (counted : ∀ character ∈ library.characters, character.scenes.length ≤ 4294967295)
  (visible : library.layout.terminated = false →
    (library.closer :: library.trailing).getLast? ≠ some "")
include sound

theorem lines_serialize (clear : library.layout.Unambiguous library.toLines)
    (visible : library.layout.terminated = false →
      (library.closer :: library.trailing).getLast? ≠ some "") :
    Text.lines (serialize library) = library.toLines ∧
      layoutOf (serialize library) = library.layout := by
  have plain := plain_toLines_of_texts sound.plain
  have nonempty : library.toLines ≠ [] := by
    rw [toLines_eq_blocks]
    simp
  rw [← getLast?_toLines] at visible
  exact ⟨lines_join plain clear visible,
    layoutOf_join nonempty plain clear visible fun _ => ended_toLines_of_marked sound.marked⟩

include counted

theorem shaped_of_sound : Shaped library where
  marked := sound.marked
  outside := fun line member => startsRecords_eq_false_iff.mpr (sound.outside line member)
  characters := by
    intro character member
    obtain ⟨heading, preamble, nonempty, unquoted, _⟩ := sound.characters character member
    refine ⟨heading, name?_characterNameLine nonempty unquoted, preamble, ?_⟩
    have := counted character member
    rw [UInt32.size]
    omega
  unopened := sound.unopened
  closed := sound.closed

include visible

/-- What is read from the text of a library are its lines read once more. -/
theorem parse_serialize_reread (clear : library.layout.Unambiguous library.toLines) :
    parse (serialize library) = .ok (reread library) := by
  obtain ⟨split, layout⟩ := lines_serialize sound clear visible
  rw [parse, read, split, layout]
  exact readLibrary_toLines_reread (shaped_of_sound sound counted)

theorem parse_serialize_of_legible
    (legible : ∀ character ∈ library.characters, ∀ scene ∈ character.scenes, LegibleScene scene)
    (clear : library.layout.Unambiguous library.toLines) :
    parse (serialize library) = .ok library := by
  rw [parse_serialize_reread sound counted visible clear]
  exact congrArg Except.ok (reread_eq_self_iff.mpr fun character member scene inside =>
    rereadScene_eq_self (legible character member scene inside))

/-- Only a library whose texts read back comes back from its text. -/
theorem legible_of_parse_serialize (again : parse (serialize library) = .ok library) :
    (∀ character ∈ library.characters, ∀ scene ∈ character.scenes, LegibleScene scene) ∧
      library.layout.Unambiguous library.toLines := by
  have clear := unambiguous_of_layoutOf (isLibrary_of_parse again).1.symm
  refine ⟨?_, clear⟩
  rw [parse_serialize_reread sound counted visible clear] at again
  have same := reread_eq_self_iff.mp (Except.ok.inj again)
  intro character member scene inside
  exact legibleScene_of_reread ((sound.characters character member).scenes scene inside).unquoted
    (same character member scene inside)

end SoundLibrary

theorem sound_of_parse {content : String} {library : Library}
    (parsed : parse content = .ok library) :
    Sound library ∧ (library.layout.terminated = false →
      (library.closer :: library.trailing).getLast? ≠ some "") := by
  obtain ⟨layout, records, read⟩ := isLibrary_of_parse parsed
  refine ⟨sound_of_isLibrary read (plain_lines content), fun unterminated => ?_⟩
  rw [layout] at unterminated
  have visible := visible_lines unterminated
  rw [read.spelled, ← List.append_assoc,
    List.getLast?_append_of_ne_nil _ (List.cons_ne_nil _ _)] at visible
  exact visible

/-- A library that was read comes back from its own text exactly if each text of its scenes reads
back from its own line and no line before a bare line feed ends in a carriage return. -/
theorem parse_serialize_iff_legible {content : String} {library : Library}
    (parsed : parse content = .ok library)
    (counted : ∀ character ∈ library.characters, character.scenes.length ≤ 4294967295) :
    parse (serialize library) = .ok library ↔
      (∀ character ∈ library.characters, ∀ scene ∈ character.scenes, LegibleScene scene) ∧
        library.layout.Unambiguous library.toLines := by
  obtain ⟨sound, visible⟩ := sound_of_parse parsed
  constructor
  · exact legible_of_parse_serialize sound counted visible
  · rintro ⟨legible, clear⟩
    exact parse_serialize_of_legible sound counted visible legible clear

theorem parse_serialize_shortLibrary : parse (serialize shortLibrary) = .ok shortLibrary := by
  have counted : ∀ character ∈ shortLibrary.characters,
      character.scenes.length ≤ 4294967295 := by decide
  have legible : ∀ character ∈ shortLibrary.characters,
      ∀ scene ∈ character.scenes, LegibleScene scene := by
    simp only [shortLibrary, List.mem_singleton, forall_eq]
    exact ⟨by decide, nofun, nofun, nofun⟩
  have clear : shortLibrary.layout.Unambiguous shortLibrary.toLines := by
    intro _
    decide
  exact (parse_serialize_iff_legible parse_shortText counted).mpr ⟨legible, clear⟩

/-- A text with an identifier of digits, and a tab and a word behind it. -/
def goldText : String :=
  "H_SCENE_ITEMS\n1 => \x7b\n:name => \"A\"\n:items\n1 => \x7b\n:condition => \x7b\n" ++
    ":id => 201\t # gold\n\x7d\n\x7d\n\x7d\n\x7d\n\x7d\n"

/-- The library of the text: without a comma behind it the tab belongs to the identifier. -/
def goldLibrary : Library where
  leading := ["H_SCENE_ITEMS"]
  characters := [⟨1, [], "A", [], [{ condition := some { id := some "201\t" } }]⟩]
  closer := "\x7d"
  trailing := []
  layout := ⟨.lf, true⟩

/-- Written alone the digits are a number, and the tab behind them is lost. -/
theorem parse_serialize_goldLibrary :
    parse goldText = .ok goldLibrary ∧ parse (serialize goldLibrary) ≠ .ok goldLibrary := by
  have parsed : parse goldText = .ok goldLibrary := by decide +kernel
  refine ⟨parsed, fun again => ?_⟩
  obtain ⟨sound, visible⟩ := sound_of_parse parsed
  obtain ⟨legible, _⟩ := legible_of_parse_serialize sound (by decide) visible again
  have scene := legible _ List.mem_cons_self _ List.mem_cons_self
  have kept : id? (innerLine ":id" "201\t") = some "201\t" :=
    id?_of_ofLine? (scene.condition _ rfl _ rfl)
  have lost : id? (innerLine ":id" "201\t") = some "201" := by decide +kernel
  rw [lost] at kept
  exact absurd kept (by decide)

end SceneGallery.Library
