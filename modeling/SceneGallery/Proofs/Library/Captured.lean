import SceneGallery.Proofs.Library.Consumed
import SceneGallery.Proofs.Text.Arrow
set_option autoImplicit false

namespace SceneGallery

namespace Field

open Text Text.Pattern

/-- Whether a pattern only takes texts of a kind, out of the text that it is tried on. -/
def Captures (kind : List Char → Prop) (pattern : Pattern (List Char)) : Prop :=
  ∀ s text, pattern s = some text → kind text ∧ text <:+: s

section Combinators

variable {kind : List Char → Prop}

theorem captures_word (w : String) {next : Pattern (List Char)} (later : Captures kind next) :
    Captures kind (word w next) := by
  intro s text found
  obtain ⟨rest, rfl, read⟩ := word_eq_some_iff.mp found
  obtain ⟨good, inside⟩ := later rest text read
  exact ⟨good, inside.trans (List.suffix_append _ _).isInfix⟩

theorem captures_gap {next : Pattern (List Char)} (later : Captures kind next) :
    Captures kind (gap next) := by
  intro s text found
  obtain ⟨blanks, rest, rfl, _, read⟩ := exists_of_gap found
  obtain ⟨good, inside⟩ := later rest text read
  exact ⟨good, inside.trans (List.suffix_append _ _).isInfix⟩

theorem captures_entry (key : String) {value : Pattern (List Char)}
    (later : Captures kind value) : Captures kind (entry key value) :=
  captures_word key (captures_gap (captures_word "=>" (captures_gap later)))

theorem captures_run {p : Char → Bool} {next : List Char → Pattern (List Char)}
    (later : ∀ run rest text, run ≠ [] → (∀ c ∈ run, p c = true) → next run rest = some text →
      kind text ∧ text <:+: run ++ rest) : Captures kind (run p next) := by
  intro s text found
  obtain ⟨nonempty, read⟩ := run_eq_some_iff.mp found
  have taken := later _ _ text nonempty (fun c member => List.mem_takeWhile_imp member) read
  rwa [List.takeWhile_append_dropWhile] at taken

theorem captures_search {pattern : Pattern (List Char)} (here : Captures kind pattern) :
    Captures kind (search pattern) := by
  intro s text found
  obtain ⟨before, after, rfl, read⟩ := exists_of_search found
  obtain ⟨good, inside⟩ := here after text read
  exact ⟨good, inside.trans (List.suffix_append _ _).isInfix⟩

end Combinators

/-- A text that can stand in double quotes. -/
def IsQuotable (text : List Char) : Prop :=
  text ≠ [] ∧ '"' ∉ text

/-- A text that ends at a space or a comma. -/
def IsUnbroken (text : List Char) : Prop :=
  text ≠ [] ∧ ' ' ∉ text ∧ ',' ∉ text

/-- A text that ends at its only closing bracket, which does not stand alone. -/
def IsBracketed (text : List Char) : Prop :=
  ∃ body, body ≠ [] ∧ ']' ∉ body ∧ text = body ++ [']']

theorem namePattern_captures : Captures IsQuotable namePattern := by
  apply captures_entry
  apply captures_word
  apply captures_run
  intro run rest text nonempty inside found
  obtain ⟨tail, rfl, read⟩ := word_eq_some_iff.mp found
  obtain rfl : run = text := Option.some.inj read
  exact ⟨⟨nonempty, fun member => absurd (inside _ member) (by decide)⟩,
    (List.prefix_append _ _).isInfix⟩

theorem numericIdPattern_captures : Captures IsUnbroken numericIdPattern := by
  apply captures_entry
  apply captures_run
  intro run rest text nonempty inside found
  obtain ⟨blanks, tail, rfl, _, read⟩ := exists_of_gap found
  obtain rfl : run = text := by
    cases tail with
    | nil => exact Option.some.inj read
    | cons c tail =>
        rw [fieldEnd, Option.ite_none_right_eq_some] at read
        exact Option.some.inj read.2
  exact ⟨⟨nonempty, fun member => absurd (inside _ member) (by decide),
    fun member => absurd (inside _ member) (by decide)⟩, (List.prefix_append _ _).isInfix⟩

theorem symbolicIdPattern_captures : Captures IsUnbroken symbolicIdPattern := by
  apply captures_entry
  apply captures_run
  intro run rest text nonempty inside found
  obtain rfl : run = text := Option.some.inj found
  exact ⟨⟨nonempty, fun member => absurd (inside _ member) (by decide),
    fun member => absurd (inside _ member) (by decide)⟩, (List.prefix_append _ _).isInfix⟩

theorem mapPattern_captures : Captures IsBracketed mapPattern := by
  apply captures_word
  apply captures_gap
  apply captures_run
  intro run rest text nonempty inside found
  obtain ⟨tail, rfl, read⟩ := word_eq_some_iff.mp found
  obtain rfl : run ++ [']'] = text := Option.some.inj read
  exact ⟨⟨run, nonempty, fun member => absurd (inside _ member) (by decide), rfl⟩,
    [], tail, by simp⟩

theorem captured_of_search {kind : List Char → Prop} {pattern : Pattern (List Char)}
    (captures : Captures kind pattern) {line text : String}
    (found : (search pattern line.toList).map String.ofList = some text) :
    kind text.toList ∧ text.toList <:+: line.toList := by
  obtain ⟨s, read, rfl⟩ := Option.map_eq_some_iff.mp found
  rw [String.toList_ofList]
  exact captures_search captures _ _ read

theorem captured_of_name? {line text : String} (read : name? line = some text) :
    IsQuotable text.toList ∧ text.toList <:+: line.toList :=
  captured_of_search namePattern_captures read

/-- An identifier stands in its line, is not empty and has no space and no comma. -/
theorem captured_of_id? {line text : String} (read : id? line = some text) :
    IsUnbroken text.toList ∧ text.toList <:+: line.toList := by
  obtain ⟨s, found, rfl⟩ := Option.map_eq_some_iff.mp read
  rw [String.toList_ofList]
  rcases Option.or_eq_some_iff.mp found with numeric | ⟨_, symbolic⟩
  · exact captures_search numericIdPattern_captures _ _ numeric
  · exact captures_search symbolicIdPattern_captures _ _ symbolic

/-- A map stands in its line and ends at its only closing bracket. -/
theorem captured_of_map? {line text : String} (read : map? line = some text) :
    IsBracketed text.toList ∧ text.toList <:+: line.toList :=
  captured_of_search mapPattern_captures read

theorem name?_of_ofLine? {line text : String} (read : ofLine? line = some (.name text)) :
    name? line = some text := by
  simp only [ofLine?, Option.orElse_eq_orElse, Option.orElse_eq_or, Option.or_eq_some_iff,
    Option.map_eq_some_iff, reduceCtorEq, and_false, exists_const, Option.map_eq_none_iff,
    name.injEq, exists_eq_right, or_false, false_or] at read
  exact read.2

theorem id?_of_ofLine? {line text : String} (read : ofLine? line = some (.id text)) :
    id? line = some text := by
  simp only [ofLine?, Option.orElse_eq_orElse, Option.orElse_eq_or, Option.or_eq_some_iff,
    Option.map_eq_some_iff, reduceCtorEq, and_false, exists_const, Option.map_eq_none_iff,
    id.injEq, exists_eq_right, or_false, false_or] at read
  exact read.2.2.2.2.2.2

theorem map?_of_ofLine? {line text : String} (read : ofLine? line = some (.map text)) :
    map? line = some text := by
  simp only [ofLine?, Option.orElse_eq_orElse, Option.orElse_eq_or, Option.or_eq_some_iff,
    Option.map_eq_some_iff, reduceCtorEq, and_false, exists_const, Option.map_eq_none_iff,
    map.injEq, exists_eq_right, false_or] at read
  exact read.2.2.2.2.2.2.2.2

end Field

namespace Library

open SceneGallery.Field

/-- A condition whose identifier was taken from one of the lines. -/
def DrawnCondition (lines : List String) (condition : Condition) : Prop :=
  ∀ text ∈ condition.id, ∃ line ∈ lines, id? line = some text

/-- A background whose identifier was taken from one of the lines. -/
def DrawnBackground (lines : List String) (background : Background) : Prop :=
  background.id = "" ∨ ∃ line ∈ lines, id? line = some background.id

/-- A scene whose texts were taken from the lines. -/
structure DrawnScene (lines : List String) (scene : Scene) : Prop where
  name : scene.name = "" ∨ ∃ line ∈ lines, name? line = some scene.name
  condition : ∀ condition ∈ scene.condition, DrawnCondition lines condition
  background : ∀ background ∈ scene.background, DrawnBackground lines background
  map : ∀ text ∈ scene.map, ∃ line ∈ lines, map? line = some text

theorem drawnCondition_empty (lines : List String) : DrawnCondition lines {} := nofun

theorem drawnScene_empty (lines : List String) : DrawnScene lines {} :=
  ⟨Or.inl rfl, nofun, nofun, nofun⟩

theorem drawnScene_mono {lines more : List String} {scene : Scene} (inside : lines ⊆ more)
    (drawn : DrawnScene lines scene) : DrawnScene more scene where
  name := drawn.name.imp_right fun ⟨line, member, read⟩ => ⟨line, inside member, read⟩
  condition := by
    intro condition given text present
    obtain ⟨line, member, read⟩ := drawn.condition condition given text present
    exact ⟨line, inside member, read⟩
  background := by
    intro background given
    refine (drawn.background background given).imp_right ?_
    rintro ⟨line, member, read⟩
    exact ⟨line, inside member, read⟩
  map := by
    intro text given
    obtain ⟨line, member, read⟩ := drawn.map text given
    exact ⟨line, inside member, read⟩

section Drawn

variable {source : List String}

theorem drawnCondition_put {condition : Condition} (drawn : DrawnCondition source condition)
    {line : String} (member : line ∈ source) :
    DrawnCondition source ((putCondition? condition (ofLine? line)).getD condition) := by
  cases read : ofLine? line with
  | none => exact drawn
  | some field =>
      cases field with
      | id text =>
          rintro _ ⟨⟩
          exact ⟨line, member, id?_of_ofLine? read⟩
      | _ => exact drawn

theorem drawnCondition_outcome {condition : Condition} (drawn : DrawnCondition source condition)
    {lines : List String} (inside : lines ⊆ source) :
    DrawnCondition source (conditionOutcome condition lines).1 :=
  readsLines_condition.keeps (DrawnCondition source)
    (fun _ _ member drawn => drawnCondition_put drawn (inside member)) drawn

theorem drawnBackground_put {background : Background} (drawn : DrawnBackground source background)
    {line : String} (member : line ∈ source) :
    DrawnBackground source ⟨(id? line).getD background.id⟩ := by
  cases read : id? line with
  | none => exact drawn
  | some text => exact .inr ⟨line, member, read⟩

theorem drawnBackground_outcome {background : Background}
    (drawn : DrawnBackground source background) {lines : List String} (inside : lines ⊆ source) :
    DrawnBackground source (backgroundOutcome background lines).1 :=
  readsLines_background.keeps (DrawnBackground source)
    (fun _ _ member drawn => drawnBackground_put drawn (inside member)) drawn

theorem drawnScene_put {scene : Scene} (drawn : DrawnScene source scene) {line : String}
    (member : line ∈ source) :
    DrawnScene source ((putScene? scene (ofLine? line)).getD scene) := by
  cases read : ofLine? line with
  | none => exact drawn
  | some field =>
      cases field with
      | name text => exact { drawn with name := Or.inr ⟨line, member, name?_of_ofLine? read⟩ }
      | map text =>
          refine { drawn with map := ?_ }
          rintro _ ⟨⟩
          exact ⟨line, member, map?_of_ofLine? read⟩
      | common number => exact { drawn with }
      | fadeout number => exact { drawn with }
      | _ => exact drawn

theorem drawnScene_outcome {scene : Scene} (drawn : DrawnScene source scene)
    {lines : List String} (inside : lines ⊆ source) :
    DrawnScene source (sceneOutcome scene lines).1 := by
  induction scene, lines using sceneOutcome_induction with
  | empty scene => exact drawn
  | condition scene line rest result opener ih =>
      obtain ⟨_, later⟩ := List.cons_subset.mp inside
      have remaining := (readsLines_condition.stops {} rest).within.subset
      refine ih { drawn with condition := ?_ } (List.Subset.trans remaining later)
      rintro _ ⟨⟩
      exact drawnCondition_outcome (drawnCondition_empty source) later
  | background scene line rest result noCondition opener ih =>
      obtain ⟨_, later⟩ := List.cons_subset.mp inside
      have remaining := (readsLines_background.stops {} rest).within.subset
      refine ih { drawn with background := ?_ } (List.Subset.trans remaining later)
      rintro _ ⟨⟩
      exact drawnBackground_outcome (Or.inl rfl) later
  | closer scene line rest noCondition noBackground closer => exact drawn
  | field scene line rest result noCondition noBackground unclosed ih =>
      obtain ⟨member, later⟩ := List.cons_subset.mp inside
      exact ih (drawnScene_put drawn member) later

end Drawn

/-- The texts of a scene that a block of lines makes stand in these lines. -/
theorem drawnScene_of_readsAs {block : List String} {scene : Scene}
    (read : ReadsAs (sceneOutcome {}) block scene) : DrawnScene block scene := by
  have drawn := drawnScene_outcome (drawnScene_empty block) (List.Subset.refl block)
  have whole := read []
  rw [List.append_nil] at whole
  rw [whole] at drawn
  exact drawn

end Library

end SceneGallery
