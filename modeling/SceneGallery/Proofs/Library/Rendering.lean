import Mathlib.Data.List.ReduceOption
import Mathlib.Data.List.Forall2
import SceneGallery.Library.Writer
set_option autoImplicit false

namespace SceneGallery.Library

/-- What may stand at the end of a written line: nothing, or the comma before a neighbour. -/
def IsMark (mark : String) : Prop := mark = "" ∨ mark = ","

/-- Lines with a mark at the end of the last one. -/
def withMark (mark : String) : List String → List String
  | [] => []
  | [line] => [line ++ mark]
  | line :: next :: rest => line :: withMark mark (next :: rest)

/-- Blocks of lines, with a comma after every block but the last. -/
def separated : List (List String) → List String
  | [] => []
  | [block] => block
  | block :: next :: rest => withMark "," block ++ separated (next :: rest)

/-- A line that gives a value under a key. -/
def entryLine (indent key value : String) : String :=
  indent ++ (key ++ (" => " ++ value))

/-- The line of a field of a scene. -/
abbrev sceneLine (key value : String) : String :=
  entryLine "          " key value

/-- The line of a field of a condition or a background. -/
abbrev innerLine (key value : String) : String :=
  entryLine "            " key value

/-- The lines of the fields of a condition that are given. -/
def conditionItems (condition : Condition) : List String :=
  [condition.kind.map fun value => innerLine ":type" (toString value.toInt),
    condition.id.map fun text => innerLine ":id" text,
    condition.op.map fun value => innerLine ":op" (toString value.toInt),
    condition.value.map fun value => innerLine ":value" (toString value.toInt)].reduceOption

/-- The lines of a condition. -/
def conditionBlock (condition : Condition) : List String :=
  "          :condition => \x7b" :: separated ((conditionItems condition).map fun line => [line]) ++
    ["          \x7d"]

/-- The lines of a background. -/
def backgroundBlock (background : Background) : List String :=
  ["          :background => \x7b", innerLine ":id" background.id, "          \x7d"]

/-- The line of a scene's name. -/
def sceneNameLine (text : String) : String :=
  "          :name => \"" ++ text ++ "\""

/-- The line of a map. -/
def mapLine (text : String) : String :=
  "          map: " ++ text

/-- The lines of the fields of a scene that are given. -/
def sceneItems (scene : Scene) : List (List String) :=
  [some [sceneNameLine scene.name], some [sceneLine ":common" (toString scene.common.toNat)],
    scene.fadeout.map fun number => [sceneLine ":fadeout" (toString number.toNat)],
    scene.condition.map conditionBlock, scene.background.map backgroundBlock,
    scene.map.map fun text => [mapLine text]].reduceOption

/-- The line that opens a scene under the given number. -/
def sceneOpener (ordinal : Nat) : String :=
  "        " ++ toString ordinal ++ " => \x7b"

/-- The lines of a scene under the given number. -/
def sceneBlock (scene : Scene) (ordinal : Nat) : List String :=
  sceneOpener ordinal :: separated (sceneItems scene) ++ ["        \x7d"]

/-- The lines of scenes, numbered from the given number on. -/
def sceneBlocks (first : Nat) (scenes : List Scene) : List (List String) :=
  (scenes.zipIdx first).map fun (scene, ordinal) => sceneBlock scene ordinal

/-- The line of a character's name. -/
def characterNameLine (text : String) : String :=
  "      :name => \"" ++ text ++ "\","

/-- The line that opens the record of a character. -/
def recordOpener (id : UInt32) : String :=
  "    " ++ toString id.toNat ++ " => \x7b"

/-- The lines of a character. -/
def characterBlock (character : Character) : List String :=
  recordOpener character.id :: character.heading ++
    characterNameLine character.name :: character.preamble ++
    "      :items => \x7b" :: separated (sceneBlocks 1 character.scenes) ++
    ["      \x7d", "    \x7d"]

theorem openerLine_scene (ordinal : Nat) : openerLine "        " ordinal = sceneOpener ordinal :=
  rfl

theorem openerLine_record (id : UInt32) : openerLine "    " id.toNat = recordOpener id := rfl

theorem mapLine_eq (text : String) : mapLine text = "          map: " ++ text := rfl

theorem sceneNameLine_eq (text : String) :
    sceneNameLine text = "          :name => \"" ++ text ++ "\"" := rfl

theorem characterNameLine_eq (text : String) :
    characterNameLine text = "      :name => \"" ++ text ++ "\"," := rfl

theorem forall₂_reduceOption {α β : Type} {related : α → β → Prop} {as : List (Option α)}
    {bs : List (Option β)} (pairs : List.Forall₂ (Option.Rel related) as bs) :
    List.Forall₂ related as.reduceOption bs.reduceOption := by
  induction pairs with
  | nil => exact .nil
  | cons first _ ih =>
      cases first with
      | some pair => exact .cons pair ih
      | none => exact ih

theorem rel_map {α β γ : Type} {related : β → γ → Prop} {f : α → β} {g : α → γ}
    (pairs : ∀ a, related (f a) (g a)) (a : Option α) :
    Option.Rel related (a.map f) (a.map g) := by
  cases a with
  | none => exact .none
  | some a => exact .some (pairs a)

theorem entryLine_eq (indent key value : String) :
    entryLine indent key value = indent ++ (key ++ (" => " ++ value)) := rfl

theorem entryLine_of_word {indent key word : String} (value : String)
    (joined : indent ++ (key ++ " => ") = word) : word ++ value = entryLine indent key value := by
  rw [entryLine_eq, ← joined, String.append_assoc, String.append_assoc]

theorem conditionFields_eq_items (condition : Condition) :
    conditionFields condition = conditionItems condition := by
  have inner : ∀ {key word : String}, key ++ " => " = word →
      ∀ value, "            " ++ (word ++ value) = innerLine key value := by
    intro key word joined value
    rw [← joined, String.append_assoc]
    rfl
  have kind := inner (by decide : ":type" ++ " => " = ":type => ")
  have id := inner (by decide : ":id" ++ " => " = ":id => ")
  have op := inner (by decide : ":op" ++ " => " = ":op => ")
  have value := inner (by decide : ":value" ++ " => " = ":value => ")
  rw [conditionFields, conditionItems, ← List.reduceOption_map]
  simp only [List.map_cons, List.map_nil, Option.map_map, Function.comp_def, kind, id, op, value]

@[simp] theorem withMark_singleton (mark line : String) :
    withMark mark [line] = [line ++ mark] := rfl

theorem withMark_append (mark : String) (front : List String) {back : List String}
    (nonempty : back ≠ []) : withMark mark (front ++ back) = front ++ withMark mark back := by
  induction front with
  | nil => rfl
  | cons line front ih =>
      cases front with
      | nil =>
          obtain ⟨next, rest, rfl⟩ := List.exists_cons_of_ne_nil nonempty
          rfl
      | cons next front => exact congrArg (line :: ·) ih

theorem withMark_concat (mark : String) (lines : List String) (last : String) :
    withMark mark (lines ++ [last]) = lines ++ [last ++ mark] :=
  withMark_append mark lines (List.cons_ne_nil last [])

theorem withMark_characterBlock (mark : String) (character : Character) :
    withMark mark (characterBlock character) =
      recordOpener character.id :: character.heading ++
        characterNameLine character.name :: character.preamble ++
        "      :items => \x7b" :: separated (sceneBlocks 1 character.scenes) ++
        ["      \x7d", "    \x7d" ++ mark] :=
  withMark_append mark _ (List.cons_ne_nil _ _)

@[simp] theorem withMark_empty (lines : List String) : withMark "" lines = lines := by
  induction lines with
  | nil => rfl
  | cons line rest ih =>
      cases rest with
      | nil => rw [withMark_singleton, String.append_empty]
      | cons next rest => exact congrArg (line :: ·) ih

namespace Sheet

theorem toList_separate (sheet : Sheet) : sheet.separate.toList = withMark "," sheet.toList := by
  cases sheet with
  | mk newest =>
      cases newest with
      | nil => rfl
      | cons last older =>
          simp only [separate, toList, List.modifyHead_cons, List.reverse_cons, withMark_concat]

/-- Whether a step adds a block of lines to every sheet. -/
def Adds (step : Sheet → Sheet) (block : List String) : Prop :=
  block ≠ [] ∧ ∀ sheet, (step sheet).toList = sheet.toList ++ block

theorem add_adds (line : String) : Adds (fun sheet => sheet.add line) [line] :=
  ⟨List.cons_ne_nil line [], fun sheet => toList_add sheet line⟩

private theorem toList_foldl_separate {α : Type} {put : Sheet → α → Sheet} {items : List α}
    {blocks : List (List String)}
    (written : List.Forall₂ (fun item block => Adds (fun sheet => put sheet item) block) items
      blocks)
    (sheet : Sheet) (front block : List String) (nonempty : block ≠ [])
    (reached : sheet.toList = front ++ block) :
    (items.foldl (fun sheet item => put sheet.separate item) sheet).toList =
      front ++ separated (block :: blocks) := by
  induction written generalizing sheet front block with
  | nil => exact reached
  | @cons item next items blocks first rest ih =>
      have step : (put sheet.separate item).toList = (front ++ withMark "," block) ++ next := by
        rw [first.2, toList_separate, reached, withMark_append _ front nonempty]
      rw [List.foldl_cons, ih (put sheet.separate item) _ next first.1 step, List.append_assoc]
      rfl

/-- Items that each add a block of their own are added as separated blocks. -/
theorem toList_addSeparated {α : Type} {put : Sheet → α → Sheet} {items : List α}
    {blocks : List (List String)}
    (written : List.Forall₂ (fun item block => Adds (fun sheet => put sheet item) block) items
      blocks)
    (sheet : Sheet) :
    (addSeparated put sheet items).toList = sheet.toList ++ separated blocks := by
  cases written with
  | nil => exact (List.append_nil _).symm
  | cons first rest => exact toList_foldl_separate rest _ _ _ first.1 (first.2 sheet)

theorem toList_addSeparated_map {α : Type} {put : Sheet → α → Sheet} {block : α → List String}
    (written : ∀ item, Adds (fun sheet => put sheet item) (block item)) (sheet : Sheet)
    (items : List α) :
    (addSeparated put sheet items).toList = sheet.toList ++ separated (items.map block) := by
  apply toList_addSeparated
  rw [List.forall₂_map_right_iff, List.forall₂_same]
  intro item _
  exact written item

theorem toList_addCondition (sheet : Sheet) (condition : Condition) :
    (sheet.addCondition condition).toList = sheet.toList ++ conditionBlock condition := by
  simp only [addCondition, toList_add, toList_addSeparated_map add_adds,
    conditionFields_eq_items, conditionBlock,
    List.append_assoc, List.cons_append, List.nil_append]

theorem toList_addBackground (sheet : Sheet) (background : Background) :
    (sheet.addBackground background).toList = sheet.toList ++ backgroundBlock background := by
  have id : "            :id => " ++ background.id = innerLine ":id" background.id :=
    entryLine_of_word background.id (by decide)
  simp only [addBackground, toList_add, id, backgroundBlock, List.append_assoc, List.cons_append,
    List.nil_append]

/-- What adds a field of a scene and the lines of that field belong together. -/
theorem sceneFields_adds (scene : Scene) :
    List.Forall₂ Adds (sceneFields scene) (sceneItems scene) := by
  apply forall₂_reduceOption
  refine .cons (.some (add_adds _)) (.cons (.some ?common) (.cons ?fadeout (.cons ?condition
    (.cons ?background (.cons ?map .nil)))))
  case common =>
    rw [entryLine_of_word (toString scene.common.toNat)
      (by decide : "          " ++ (":common" ++ " => ") = "          :common => ")]
    exact add_adds _
  case fadeout =>
    apply rel_map
    intro number
    rw [entryLine_of_word (toString number.toNat)
      (by decide : "          " ++ (":fadeout" ++ " => ") = "          :fadeout => ")]
    exact add_adds _
  case condition =>
    apply rel_map
    intro condition
    exact ⟨List.cons_ne_nil _ _, fun sheet => toList_addCondition sheet condition⟩
  case background =>
    apply rel_map
    intro background
    exact ⟨List.cons_ne_nil _ _, fun sheet => toList_addBackground sheet background⟩
  case map =>
    apply rel_map
    intro text
    exact add_adds (mapLine text)

theorem toList_addScene (sheet : Sheet) (scene : Scene) (ordinal : Nat) :
    (sheet.addScene scene ordinal).toList = sheet.toList ++ sceneBlock scene ordinal := by
  simp only [addScene, toList_add, toList_addSeparated (sceneFields_adds scene), sceneBlock,
    openerLine_scene, List.append_assoc, List.cons_append, List.nil_append]

theorem toList_addScenes (sheet : Sheet) (scenes : List Scene) :
    (sheet.addScenes scenes).toList = sheet.toList ++ separated (sceneBlocks 1 scenes) :=
  toList_addSeparated_map (fun (scene, ordinal) =>
    ⟨List.cons_ne_nil _ _, fun sheet => toList_addScene sheet scene ordinal⟩) sheet _

theorem toList_addCharacter (sheet : Sheet) (character : Character) :
    (sheet.addCharacter character).toList = sheet.toList ++ characterBlock character := by
  simp only [addCharacter, toList_add, toList_addAll, toList_addScenes, characterBlock,
    openerLine_record, characterNameLine_eq, List.append_assoc, List.cons_append, List.nil_append]

end Sheet

/-- The lines of a scene are its block. -/
theorem sceneLines_eq_sceneBlock (scene : Scene) (ordinal : Nat) :
    sceneLines scene ordinal = sceneBlock scene ordinal := by
  rw [sceneLines, Sheet.toList_addScene, Sheet.toList_empty, List.nil_append]

/-- The lines of a library are the lines around its records and the separated blocks of these. -/
theorem toLines_eq_blocks (library : Library) :
    library.toLines = library.leading ++ (separated (library.characters.map characterBlock) ++
      library.closer :: library.trailing) := by
  have records : ∀ character : Character,
      Sheet.Adds (fun sheet => sheet.addCharacter character) (characterBlock character) :=
    fun character => ⟨List.cons_ne_nil _ _, fun sheet => Sheet.toList_addCharacter sheet character⟩
  simp only [toLines, Sheet.toList_addAll, Sheet.toList_add, Sheet.toList_addSeparated_map records,
    Sheet.toList_empty, List.append_assoc, List.cons_append, List.nil_append]

end SceneGallery.Library
