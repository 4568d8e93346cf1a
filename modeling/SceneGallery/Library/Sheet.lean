set_option autoImplicit false

namespace SceneGallery.Library

/-- The lines written so far. -/
structure Sheet where
  /-- The lines, the newest first. -/
  newest : List String
deriving DecidableEq, Repr

namespace Sheet

/-- A sheet without lines. -/
def empty : Sheet := ⟨[]⟩

/-- The lines of a sheet from top to bottom. -/
def toList (sheet : Sheet) : List String :=
  sheet.newest.reverse

/-- Adds a line. -/
def add (sheet : Sheet) (line : String) : Sheet :=
  ⟨line :: sheet.newest⟩

/-- Adds lines. -/
def addAll (sheet : Sheet) (lines : List String) : Sheet :=
  ⟨lines.reverse ++ sheet.newest⟩

/-- Puts a comma at the end of the line that stands last. -/
def separate (sheet : Sheet) : Sheet :=
  ⟨sheet.newest.modifyHead (· ++ ",")⟩

/-- Adds items with a comma after every one but the last. -/
def addSeparated {α : Type} (put : Sheet → α → Sheet) (sheet : Sheet) : List α → Sheet
  | [] => sheet
  | item :: rest => rest.foldl (fun sheet item => put sheet.separate item) (put sheet item)

@[simp] theorem toList_empty : empty.toList = [] := rfl

@[simp] theorem toList_add (sheet : Sheet) (line : String) :
    (sheet.add line).toList = sheet.toList ++ [line] := by
  simp [toList, add]

@[simp] theorem toList_addAll (sheet : Sheet) (lines : List String) :
    (sheet.addAll lines).toList = sheet.toList ++ lines := by
  simp [toList, addAll]

@[simp] theorem separate_add (sheet : Sheet) (line : String) :
    (sheet.add line).separate = sheet.add (line ++ ",") := rfl

end Sheet

end SceneGallery.Library
