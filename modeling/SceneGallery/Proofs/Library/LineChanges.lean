import SceneGallery.Proofs.Library.Copied
import SceneGallery.Proofs.Library.Rendering
import SceneGallery.Proofs.Text.Lines
set_option autoImplicit false

namespace SceneGallery.Library

/-- The line that closes a scene. -/
def sceneCloser : String := "        \x7d"

/-- The mark of an item by what follows it. -/
def markBefore {α : Type} (later : List α) : String :=
  if later.isEmpty then "" else ","

/-- What becomes of one line of a library. -/
inductive LineChange where
  | kept (line : String)
  /-- The opener of a scene gets another number. -/
  | renumbered (before after : Nat)
  /-- The closer of what was the last scene of a character gets a comma. -/
  | continued
  | added (line : String)
deriving DecidableEq, Repr

namespace LineChange

/-- The line before the change. -/
def before? : LineChange → Option String
  | kept line => some line
  | renumbered before _ => some (sceneOpener before)
  | continued => some sceneCloser
  | added _ => none

/-- The line after the change. -/
def after? : LineChange → Option String
  | kept line => some line
  | renumbered _ after => some (sceneOpener after)
  | continued => some (sceneCloser ++ ",")
  | added line => some line

@[simp] theorem before?_kept (line : String) : (kept line).before? = some line := rfl

@[simp] theorem after?_kept (line : String) : (kept line).after? = some line := rfl

@[simp] theorem before?_renumbered (before after : Nat) :
    (renumbered before after).before? = some (sceneOpener before) := rfl

@[simp] theorem after?_renumbered (before after : Nat) :
    (renumbered before after).after? = some (sceneOpener after) := rfl

end LineChange

/-- What becomes of the closer of a scene with the given copies and later scenes. -/
def closerChange (copies later : List Scene) : LineChange :=
  if later.isEmpty && !copies.isEmpty then .continued
  else .kept (sceneCloser ++ markBefore later)

/-- The lines of copies that get the given number and those after it, with later scenes behind
them. -/
def copyChanges (number : Nat) (copies later : List Scene) : List LineChange :=
  (withMark (markBefore later) (separated (sceneBlocks number copies))).map .added

/-- What becomes of the lines of scenes. The first of them had the one number and gets the other. -/
def sceneChanges (copies : Scene → List Scene) (before after : Nat) : List Scene → List LineChange
  | [] => []
  | scene :: later =>
    .renumbered before after :: (separated (sceneItems scene)).map .kept ++
      closerChange (copies scene) later :: copyChanges (after + 1) (copies scene) later ++
      sceneChanges copies (before + 1) (after + 1 + (copies scene).length) later

/-- What becomes of the lines of a character. -/
def characterChanges (copies : Scene → List Scene) (mark : String) (character : Character) :
    List LineChange :=
  (recordOpener character.id :: character.heading ++
    characterNameLine character.name :: character.preamble ++ ["      :items => \x7b"]).map .kept ++
    sceneChanges copies 1 1 character.scenes ++ [.kept "      \x7d", .kept ("    \x7d" ++ mark)]

/-- What becomes of the lines of characters, of which the first has the given place. -/
def recordChanges (copies : Nat → Scene → List Scene) (place : Nat) :
    List Character → List LineChange
  | [] => []
  | character :: later =>
    characterChanges (copies place) (markBefore later) character ++
      recordChanges copies (place + 1) later

/-- What becomes of the lines of a library. -/
def changes (library : Library) (placed : List (Descriptor × Placement)) : List LineChange :=
  library.leading.map .kept ++ recordChanges (library.copies placed) 0 library.characters ++
    .kept library.closer :: library.trailing.map .kept

section Sides

@[simp] theorem filterMap_before_kept (lines : List String) :
    (lines.map LineChange.kept).filterMap LineChange.before? = lines := by
  rw [List.filterMap_map]
  exact List.filterMap_some

@[simp] theorem filterMap_after_kept (lines : List String) :
    (lines.map LineChange.kept).filterMap LineChange.after? = lines := by
  rw [List.filterMap_map]
  exact List.filterMap_some

@[simp] theorem filterMap_before_added (lines : List String) :
    (lines.map LineChange.added).filterMap LineChange.before? = [] := by
  rw [List.filterMap_map]
  exact List.filterMap_none _

@[simp] theorem filterMap_after_added (lines : List String) :
    (lines.map LineChange.added).filterMap LineChange.after? = lines := by
  rw [List.filterMap_map]
  exact List.filterMap_some

theorem before?_closerChange (copies later : List Scene) :
    (closerChange copies later).before? = some (sceneCloser ++ markBefore later) := by
  rw [closerChange, markBefore]
  cases later <;> cases copies <;> rfl

theorem after?_closerChange (copies later : List Scene) :
    (closerChange copies later).after? = some (sceneCloser ++ markBefore (copies ++ later)) := by
  rw [closerChange, markBefore, markBefore]
  cases later <;> cases copies <;> rfl

theorem separated_cons (block : List String) (blocks : List (List String)) :
    separated (block :: blocks) = withMark (markBefore blocks) block ++ separated blocks := by
  cases blocks with
  | nil => simp [markBefore, separated]
  | cons next rest => rfl

theorem withMark_ne_nil {mark : String} {lines : List String} (nonempty : lines ≠ []) :
    withMark mark lines ≠ [] := by
  match lines with
  | [] => exact absurd rfl nonempty
  | [_] => exact List.cons_ne_nil _ _
  | _ :: _ :: _ => exact List.cons_ne_nil _ _

theorem separated_ne_nil {block : List String} (blocks : List (List String))
    (nonempty : block ≠ []) : separated (block :: blocks) ≠ [] := by
  rw [separated_cons]
  exact List.append_ne_nil_of_left_ne_nil (withMark_ne_nil nonempty) _

/-- Blocks and what is separated behind them. -/
theorem separated_append {front : List (List String)} (back : List (List String))
    (nonempty : ∀ block ∈ front, block ≠ []) :
    separated (front ++ back) = withMark (markBefore back) (separated front) ++ separated back := by
  induction front with
  | nil => rfl
  | cons block rest ih =>
      cases rest with
      | nil => exact separated_cons block back
      | cons next rest =>
          have later : separated (next :: rest) ≠ [] :=
            separated_ne_nil rest (nonempty next (List.mem_cons_of_mem _ List.mem_cons_self))
          have behind := ih fun other member => nonempty other (List.mem_cons_of_mem block member)
          rw [List.cons_append, List.cons_append, separated, ← List.cons_append, behind, separated,
            withMark_append _ _ later, List.append_assoc]

theorem withMark_sceneBlock (mark : String) (scene : Scene) (ordinal : Nat) :
    withMark mark (sceneBlock scene ordinal) =
      sceneOpener ordinal :: separated (sceneItems scene) ++ [sceneCloser ++ mark] :=
  withMark_concat mark _ _

theorem sceneBlocks_cons (first : Nat) (scene : Scene) (rest : List Scene) :
    sceneBlocks first (scene :: rest) = sceneBlock scene first :: sceneBlocks (first + 1) rest :=
  rfl

theorem sceneBlocks_append (first : Nat) (front back : List Scene) :
    sceneBlocks first (front ++ back) =
      sceneBlocks first front ++ sceneBlocks (first + front.length) back := by
  rw [sceneBlocks, List.zipIdx_append, List.map_append]
  rfl

theorem ne_nil_of_mem_sceneBlocks {first : Nat} {scenes : List Scene} {block : List String}
    (member : block ∈ sceneBlocks first scenes) : block ≠ [] := by
  obtain ⟨⟨scene, ordinal⟩, _, rfl⟩ := List.mem_map.mp member
  exact List.cons_ne_nil _ _

theorem markBefore_sceneBlocks (first : Nat) (scenes : List Scene) :
    markBefore (sceneBlocks first scenes) = markBefore scenes := by
  cases scenes <;> rfl

/-- Copies do not change whether a scene follows. -/
theorem markBefore_flatMap (copies : Scene → List Scene) (scenes : List Scene) :
    markBefore (scenes.flatMap fun scene => scene :: copies scene) = markBefore scenes := by
  cases scenes <;> rfl

/-- Before a merge the lines of scenes are their blocks. -/
theorem before_sceneChanges (copies : Scene → List Scene) (before after : Nat)
    (scenes : List Scene) :
    (sceneChanges copies before after scenes).filterMap LineChange.before? =
      separated (sceneBlocks before scenes) := by
  induction scenes generalizing before after with
  | nil => rfl
  | cons scene later ih =>
      rw [sceneBlocks_cons, separated_cons, markBefore_sceneBlocks, withMark_sceneBlock,
        ← ih (before + 1) (after + 1 + (copies scene).length), sceneChanges, copyChanges]
      simp only [List.filterMap_append, List.filterMap_cons, filterMap_before_kept,
        filterMap_before_added, before?_closerChange, List.append_assoc, List.cons_append,
        List.nil_append, LineChange.before?_renumbered]

/-- After a merge they are the blocks of the scenes and their copies. -/
theorem after_sceneChanges (copies : Scene → List Scene) (before after : Nat)
    (scenes : List Scene) :
    (sceneChanges copies before after scenes).filterMap LineChange.after? =
      separated (sceneBlocks after (scenes.flatMap fun scene => scene :: copies scene)) := by
  induction scenes generalizing before after with
  | nil => rfl
  | cons scene later ih =>
      rw [List.flatMap_cons, List.cons_append, sceneBlocks_cons, separated_cons,
        markBefore_sceneBlocks, withMark_sceneBlock, sceneBlocks_append,
        separated_append _ fun _ => ne_nil_of_mem_sceneBlocks, markBefore_sceneBlocks,
        markBefore_flatMap, ← ih (before + 1) (after + 1 + (copies scene).length), sceneChanges,
        copyChanges]
      have mark : markBefore (copies scene ++ later.flatMap fun scene => scene :: copies scene) =
          markBefore (copies scene ++ later) := by
        cases copies scene with
        | nil => exact markBefore_flatMap copies later
        | cons _ _ => rfl
      simp only [List.filterMap_append, List.filterMap_cons, filterMap_after_kept,
        filterMap_after_added, after?_closerChange, mark, List.append_assoc,
        List.cons_append, List.nil_append, LineChange.after?_renumbered]

theorem before_characterChanges (copies : Scene → List Scene) (mark : String)
    (character : Character) :
    (characterChanges copies mark character).filterMap LineChange.before? =
      withMark mark (characterBlock character) := by
  rw [withMark_characterBlock, ← before_sceneChanges copies 1 1, characterChanges]
  simp only [List.filterMap_append, List.filterMap_cons, List.filterMap_nil,
    filterMap_before_kept, LineChange.before?_kept, List.append_assoc, List.cons_append,
    List.nil_append]

theorem after_characterChanges (copies : Scene → List Scene) (mark : String)
    (character : Character) :
    (characterChanges copies mark character).filterMap LineChange.after? =
      withMark mark (characterBlock { character with
        scenes := character.scenes.flatMap fun scene => scene :: copies scene }) := by
  rw [withMark_characterBlock, ← after_sceneChanges copies 1 1, characterChanges]
  simp only [List.filterMap_append, List.filterMap_cons, List.filterMap_nil,
    filterMap_after_kept, LineChange.after?_kept, List.append_assoc, List.cons_append,
    List.nil_append]

theorem before_recordChanges (copies : Nat → Scene → List Scene) (place : Nat)
    (characters : List Character) :
    (recordChanges copies place characters).filterMap LineChange.before? =
      separated (characters.map characterBlock) := by
  induction characters generalizing place with
  | nil => rfl
  | cons character later ih =>
      have mark : markBefore (later.map characterBlock) = markBefore later := by
        cases later <;> rfl
      rw [recordChanges, List.filterMap_append, before_characterChanges, ih, List.map_cons,
        separated_cons, mark]

theorem after_recordChanges (library : Library) (placed : List (Descriptor × Placement))
    (place : Nat) (characters : List Character) :
    (recordChanges (library.copies placed) place characters).filterMap LineChange.after? =
      separated ((characters.mapIdx fun later =>
        library.withCopies placed (place + later)).map characterBlock) := by
  induction characters generalizing place with
  | nil => rfl
  | cons character later ih =>
      have shifted : (fun later => library.withCopies placed (place + (later + 1))) =
          fun later => library.withCopies placed (place + 1 + later) := by
        funext later
        rw [Nat.add_assoc, Nat.add_comm 1]
      have mark : ∀ f : Nat → Character → Character,
          markBefore ((later.mapIdx f).map characterBlock) = markBefore later := by
        intro f
        cases later with
        | nil => rfl
        | cons next rest => rw [List.mapIdx_cons, List.map_cons, markBefore, markBefore]; rfl
      rw [recordChanges, List.filterMap_append, after_characterChanges, ih, List.mapIdx_cons,
        List.map_cons, separated_cons, shifted, mark]
      rfl

theorem before_changes (library : Library) (placed : List (Descriptor × Placement)) :
    (library.changes placed).filterMap LineChange.before? = library.toLines := by
  rw [toLines_eq_blocks, ← before_recordChanges (library.copies placed) 0, changes]
  simp only [List.filterMap_append, List.filterMap_cons, filterMap_before_kept,
    LineChange.before?_kept, List.append_assoc]

theorem after_changes (library : Library) (placed : List (Descriptor × Placement)) :
    (library.changes placed).filterMap LineChange.after? = (library.filled placed).toLines := by
  have records := after_recordChanges library placed 0 library.characters
  simp only [Nat.zero_add] at records
  rw [toLines_eq_blocks, filled, ← records, changes]
  simp only [List.filterMap_append, List.filterMap_cons, filterMap_after_kept,
    LineChange.after?_kept, List.append_assoc]

end Sides

section Members

variable {copies : Scene → List Scene} {change : LineChange}

/-- The changes of scenes are those of the first scene, its copies and the later scenes. -/
theorem mem_sceneChanges_cons {before after : Nat} {scene : Scene} {later : List Scene} :
    change ∈ sceneChanges copies before after (scene :: later) ↔
      change = .renumbered before after ∨ (∃ line, line ∈ separated (sceneItems scene) ∧
        .kept line = change) ∨ change = closerChange (copies scene) later ∨
        change ∈ copyChanges (after + 1) (copies scene) later ∨
        change ∈ sceneChanges copies (before + 1) (after + 1 + (copies scene).length) later := by
  simp only [sceneChanges, List.mem_append, List.mem_cons, List.mem_map, or_assoc]

/-- The lines of scenes without copies are kept, if their numbers are. -/
theorem kept_of_mem_sceneChanges {number : Nat} {scenes : List Scene}
    (uncopied : ∀ scene ∈ scenes, copies scene = [])
    (member : change ∈ sceneChanges copies number number scenes) :
    change.before? = change.after? := by
  induction scenes generalizing number with
  | nil => cases member
  | cons scene later ih =>
      have here : copies scene = [] := uncopied scene List.mem_cons_self
      rw [mem_sceneChanges_cons, here] at member
      rcases member with rfl | ⟨line, _, rfl⟩ | rfl | new | inside
      · rfl
      · rfl
      · rw [before?_closerChange, after?_closerChange, List.nil_append]
      · cases new
      · exact ih (fun other there => uncopied other (List.mem_cons_of_mem scene there)) inside

theorem kept_of_mem_characterChanges {mark : String} {character : Character}
    (uncopied : ∀ scene ∈ character.scenes, copies scene = [])
    (member : change ∈ characterChanges copies mark character) :
    change.before? = change.after? := by
  simp only [characterChanges, List.mem_append, List.mem_map, List.mem_cons, List.not_mem_nil,
    or_false] at member
  rcases member with (⟨line, _, rfl⟩ | inside) | (rfl | rfl)
  · rfl
  · exact kept_of_mem_sceneChanges uncopied inside
  · rfl
  · rfl

/-- A scene with a copy adds a line. -/
theorem exists_added {scene copy : Scene} (before after : Nat) {scenes : List Scene}
    (member : scene ∈ scenes) (copied : copy ∈ copies scene) :
    ∃ line, .added line ∈ sceneChanges copies before after scenes := by
  induction scenes generalizing before after with
  | nil => cases member
  | cons first later ih =>
      rcases List.mem_cons.mp member with rfl | inside
      · have written : copyChanges (after + 1) (copies scene) later ≠ [] := by
          obtain ⟨next, rest, spelled⟩ := List.exists_cons_of_ne_nil (List.ne_nil_of_mem copied)
          rw [copyChanges, spelled, sceneBlocks_cons, ne_eq, List.map_eq_nil_iff]
          exact withMark_ne_nil (separated_ne_nil _ (List.cons_ne_nil _ _))
        obtain ⟨change, there⟩ := List.exists_mem_of_ne_nil _ written
        obtain ⟨line, _, rfl⟩ := List.mem_map.mp there
        exact ⟨line, mem_sceneChanges_cons.mpr (Or.inr (Or.inr (Or.inr (Or.inl there))))⟩
      · obtain ⟨line, there⟩ := ih _ _ inside
        exact ⟨line, mem_sceneChanges_cons.mpr (Or.inr (Or.inr (Or.inr (Or.inr there))))⟩

theorem mem_recordChanges {copies : Nat → Scene → List Scene} {first place : Nat}
    {characters : List Character} {character : Character}
    (found : characters[place]? = some character)
    (member : change ∈ sceneChanges (copies (first + place)) 1 1 character.scenes) :
    change ∈ recordChanges copies first characters := by
  induction characters generalizing first place with
  | nil => cases found
  | cons other later ih =>
      rw [recordChanges, List.mem_append]
      cases place with
      | zero =>
          obtain rfl := Option.some.inj found
          exact Or.inl (List.mem_append_left _ (List.mem_append_right _ member))
      | succ place =>
          refine Or.inr (ih found ?_)
          rw [Nat.add_assoc, Nat.add_comm 1]
          exact member

end Members

section Growth

/-- Whether a line is not shorter after a change than before it. -/
def LineChange.Grows (change : LineChange) : Prop :=
  ∀ old ∈ change.before?, ∃ new ∈ change.after?, old.length ≤ new.length

theorem LineChange.grows_of_eq {change : LineChange} (same : change.before? = change.after?) :
    change.Grows :=
  fun old member => ⟨old, same ▸ member, Nat.le_refl _⟩

theorem length_toDigits_mono {m n : Nat} (le : m ≤ n) :
    (Nat.toDigits 10 m).length ≤ (Nat.toDigits 10 n).length := by
  have digits : 0 < (Nat.toDigits 10 n).length := List.length_pos_of_ne_nil Nat.toDigits_ne_nil
  have bound := (Nat.length_toDigits_le_iff (by decide) digits).mp (Nat.le_refl _)
  exact (Nat.length_toDigits_le_iff (by decide) digits).mpr (Nat.lt_of_le_of_lt le bound)

theorem length_sceneOpener_mono {m n : Nat} (le : m ≤ n) :
    (sceneOpener m).length ≤ (sceneOpener n).length := by
  have digits : (toString m).length ≤ (toString n).length := by
    rw [← String.length_toList, ← String.length_toList, Nat.toString_eq_repr, Nat.toString_eq_repr,
      Nat.toList_repr, Nat.toList_repr]
    exact length_toDigits_mono le
  simp only [sceneOpener, String.length_append]
  omega

theorem grows_of_mem_sceneChanges {copies : Scene → List Scene} {change : LineChange}
    {before after : Nat} {scenes : List Scene} (le : before ≤ after)
    (member : change ∈ sceneChanges copies before after scenes) : change.Grows := by
  induction scenes generalizing before after with
  | nil => cases member
  | cons scene later ih =>
      rw [mem_sceneChanges_cons] at member
      rcases member with rfl | ⟨line, _, rfl⟩ | rfl | new | inside
      · rintro _ ⟨⟩
        exact ⟨_, rfl, length_sceneOpener_mono le⟩
      · exact LineChange.grows_of_eq rfl
      · intro old there
        rw [before?_closerChange] at there
        obtain rfl := Option.some.inj there
        refine ⟨_, after?_closerChange _ _, ?_⟩
        cases later <;> simp [markBefore]
      · obtain ⟨line, _, rfl⟩ := List.mem_map.mp new
        exact nofun
      · exact ih (by omega) inside

theorem grows_of_mem_recordChanges {copies : Nat → Scene → List Scene} {change : LineChange}
    {place : Nat} {characters : List Character}
    (member : change ∈ recordChanges copies place characters) : change.Grows := by
  induction characters generalizing place with
  | nil => cases member
  | cons character later ih =>
      rcases List.mem_append.mp member with here | there
      · simp only [characterChanges, List.mem_append, List.mem_map, List.mem_cons, List.not_mem_nil,
          or_false] at here
        rcases here with (⟨line, _, rfl⟩ | inside) | (rfl | rfl)
        · exact LineChange.grows_of_eq rfl
        · exact grows_of_mem_sceneChanges (Nat.le_refl 1) inside
        · exact LineChange.grows_of_eq rfl
        · exact LineChange.grows_of_eq rfl
      · exact ih there

/-- No line of a library gets shorter in a merge. -/
theorem grows_of_mem_changes {library : Library} {placed : List (Descriptor × Placement)}
    {change : LineChange} (member : change ∈ library.changes placed) : change.Grows := by
  simp only [changes, List.mem_append, List.mem_map, List.mem_cons] at member
  rcases member with (⟨line, _, rfl⟩ | inside) | (rfl | ⟨line, _, rfl⟩)
  · exact LineChange.grows_of_eq rfl
  · exact grows_of_mem_recordChanges inside
  · exact LineChange.grows_of_eq rfl
  · exact LineChange.grows_of_eq rfl

theorem sizeWith_le_of_grows (ending : Nat) {changes : List LineChange}
    (grows : ∀ change ∈ changes, change.Grows) :
    Text.sizeWith ending (changes.filterMap LineChange.before?) ≤
      Text.sizeWith ending (changes.filterMap LineChange.after?) := by
  induction changes with
  | nil => exact Nat.le_refl _
  | cons change rest ih =>
      have later := ih fun other member => grows other (List.mem_cons_of_mem change member)
      have here := grows change List.mem_cons_self
      rw [List.filterMap_cons, List.filterMap_cons]
      cases before : change.before? with
      | some old =>
          obtain ⟨new, after, longer⟩ := here old before
          rw [Option.mem_def] at after
          simp only [after, Text.sizeWith_cons]
          omega
      | none =>
          cases change.after? with
          | none => exact later
          | some new =>
              simp only [Text.sizeWith_cons]
              omega

/-- A new line makes the text longer. -/
theorem sizeWith_lt_of_added {ending : Nat} (positive : 0 < ending) {changes : List LineChange}
    {line : String} (grows : ∀ change ∈ changes, change.Grows) (added : .added line ∈ changes) :
    Text.sizeWith ending (changes.filterMap LineChange.before?) <
      Text.sizeWith ending (changes.filterMap LineChange.after?) := by
  obtain ⟨front, back, rfl⟩ := List.append_of_mem added
  have first := sizeWith_le_of_grows ending fun change member =>
    grows change (List.mem_append_left _ member)
  have second := sizeWith_le_of_grows ending fun change member =>
    grows change (List.mem_append_right _ (List.mem_cons_of_mem _ member))
  have before : (LineChange.added line :: back).filterMap LineChange.before? =
      back.filterMap LineChange.before? := rfl
  have after : (LineChange.added line :: back).filterMap LineChange.after? =
      line :: back.filterMap LineChange.after? := rfl
  rw [List.filterMap_append, List.filterMap_append, before, after, Text.sizeWith_append,
    Text.sizeWith_append, Text.sizeWith_cons]
  omega

end Growth

section Added

variable {library : Library} {placed : List (Descriptor × Placement)}
  (single : SingleOriginals library placed)
include single

theorem exists_added_of_inserted {entry : Descriptor × Placement} (member : entry ∈ placed)
    (inserted : entry.2.isInserted = true) :
    ∃ line, .added line ∈ library.changes placed := by
  have copier : entry ∈ library.everyScene.flatMap fun owner =>
      library.copiers placed owner.place owner.scene :=
    (perm_inserted single).mem_iff.mpr (List.mem_filter.mpr ⟨member, inserted⟩)
  obtain ⟨⟨place, character, scene⟩, owned, copied⟩ := List.mem_flatMap.mp copier
  obtain ⟨found, inside⟩ := mem_everyScene.mp owned
  have copy : deriveScene scene entry.1.derived ∈ library.copies placed place scene := by
    rw [copies_eq_map]
    exact List.mem_map_of_mem copied
  obtain ⟨line, added⟩ := exists_added 1 1 inside copy
  refine ⟨line, List.mem_append_left _ (List.mem_append_right _ ?_)⟩
  apply mem_recordChanges found
  rw [Nat.zero_add]
  exact added

/-- The text of a library is the same after a merge exactly if no scene was added. -/
theorem serialize_filled_eq_iff :
    serialize (library.filled placed) = serialize library ↔
      ∀ entry ∈ placed, entry.2.isInserted = false := by
  constructor
  · intro same entry member
    by_contra inserted
    rw [Bool.not_eq_false] at inserted
    obtain ⟨line, added⟩ := exists_added_of_inserted single member inserted
    have positive : 0 < library.layout.ending.text.length := by
      cases library.layout.ending <;> decide
    have longer := sizeWith_lt_of_added positive (fun _ => grows_of_mem_changes) added
    have written : ∀ other : Library, other.toLines ≠ [] := by
      intro other
      rw [toLines_eq_blocks]
      simp
    rw [before_changes, after_changes, ← Text.Layout.length_join _ (written _),
      ← Text.Layout.length_join _ (written _)] at longer
    have lengths := congrArg String.length same
    rw [serialize, serialize] at lengths
    have layout : (library.filled placed).layout = library.layout := rfl
    rw [layout] at lengths
    omega
  · intro kept
    rw [filled_of_not_inserted kept]

end Added

/-- What a merge does to the text of a library. The texts before and after it are the two sides of
its changes, in which a copy has the lines of a scene that is written alone; the placements that add
a scene are those that some scene is copied for, the lines of a character that gets no copy are
kept, and the text is the same exactly if no scene is added. -/
theorem serialize_merge (library : Library) (descriptors : List Descriptor) :
    let merged := (merge library descriptors).1
    let placed := descriptors.zip (merge library descriptors).2
    serialize library =
        library.layout.join ((library.changes placed).filterMap LineChange.before?) ∧
      serialize merged =
        library.layout.join ((library.changes placed).filterMap LineChange.after?) ∧
      (∀ scene ordinal, sceneLines scene ordinal = sceneBlock scene ordinal) ∧
      (library.everyScene.flatMap fun entry =>
        library.copiers placed entry.place entry.scene).Perm
          (placed.filter fun entry => entry.2.isInserted) ∧
      (∀ place character, library.characters[place]? = some character →
        (∀ entry ∈ placed, entry.2.isInserted = true →
          library.own entry.1.linkage ≠ [place]) →
            ∀ mark, ∀ change ∈ characterChanges (library.copies placed place) mark character,
              change.before? = change.after?) ∧
      (serialize merged = serialize library ↔
        ∀ placement ∈ (merge library descriptors).2, placement.isInserted = false) := by
  intro merged placed
  have whole : merged = library.filled placed := (consistent_merge library descriptors).2.1
  have single : SingleOriginals library placed := singleOriginals_merge library descriptors
  refine ⟨?before, ?after, sceneLines_eq_sceneBlock, perm_inserted single, ?elsewhere, ?unchanged⟩
  case before => rw [before_changes, serialize]
  case after =>
    rw [after_changes, whole, serialize]
    rfl
  case elsewhere =>
    intro place character found spared mark change member
    refine kept_of_mem_characterChanges ?_ member
    intro scene inside
    rw [List.eq_nil_iff_forall_not_mem]
    intro copy copied
    obtain ⟨descriptor, placement, placed, inserted, owner, _⟩ := mem_copies.mp copied
    exact spared _ placed inserted owner
  case unchanged =>
    have placements : placed.map Prod.snd = (merge library descriptors).2 :=
      List.map_snd_zip (Nat.le_of_eq (merge_placements_length library descriptors))
    rw [whole, serialize_filled_eq_iff single, ← placements, List.forall_mem_map]

end SceneGallery.Library
