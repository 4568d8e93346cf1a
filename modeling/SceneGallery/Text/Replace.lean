set_option autoImplicit false

namespace SceneGallery.Text

/-- The text with every occurrence of a word replaced, after the given number of characters, which
belong to an occurrence that was replaced before. -/
def replaceFrom (old new : List Char) : Nat → List Char → List Char
  | _, [] => []
  | skip + 1, _ :: s => replaceFrom old new skip s
  | 0, c :: s =>
    if old.isPrefixOf (c :: s) then new ++ replaceFrom old new (old.length - 1) s
    else c :: replaceFrom old new 0 s

/-- The text with every occurrence of a word that is not empty replaced by another word. -/
def replaceAll (old new text : String) : String :=
  if old.isEmpty then text
  else String.ofList (replaceFrom old.toList new.toList 0 text.toList)

@[simp] theorem replaceFrom_nil (old new : List Char) (skip : Nat) :
    replaceFrom old new skip [] = [] := by
  cases skip <;> rfl

/-- The characters of an occurrence are passed over. -/
theorem replaceFrom_skip (old new passed s : List Char) :
    replaceFrom old new passed.length (passed ++ s) = replaceFrom old new 0 s := by
  induction passed with
  | nil => rfl
  | cons c passed ih => simpa [replaceFrom] using ih

end SceneGallery.Text
