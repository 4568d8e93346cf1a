import Mathlib.Data.List.Basic
set_option autoImplicit false

namespace SceneGallery

variable {α : Type}

/-- The items from one place up to another. -/
def slice? (items : List α) (first last : Nat) : Option (List α) :=
  if first ≤ last + 1 ∧ last < items.length then some ((items.take (last + 1)).drop first) else none

/-- The items from a place on. -/
def sliceFrom? (items : List α) (first : Nat) : Option (List α) :=
  if first ≤ items.length then some (items.drop first) else none

/-- The items with another one put in at a place. -/
def insert? (items : List α) (place : Nat) (item : α) : Option (List α) :=
  if place ≤ items.length then some (items.insertIdx place item) else none

/-- The text up to a byte, where a character starts or the text ends. -/
def upTo? (text : String) (bytes : Nat) : Option String :=
  if boundary : String.Pos.Raw.IsValid text ⟨bytes⟩ then
    some (text.sliceTo ⟨⟨bytes⟩, boundary⟩).copy
  else none

/-- The text without the bytes of a character at its end. -/
def withoutLast? (text : String) (last : Char) : Option String :=
  if last.utf8Size ≤ text.utf8ByteSize then upTo? text (text.utf8ByteSize - last.utf8Size) else none

theorem slice?_eq {items : List α} {first last : Nat} (order : first ≤ last + 1)
    (inside : last < items.length) :
    slice? items first last = some ((items.drop first).take (last + 1 - first)) := by
  rw [slice?, if_pos ⟨order, inside⟩, List.drop_take]

example : slice? [3, 5] 1 2 = none := by decide

theorem sliceFrom?_eq {items : List α} {first : Nat} (inside : first ≤ items.length) :
    sliceFrom? items first = some (items.drop first) :=
  if_pos inside

theorem insert?_eq {items : List α} {place : Nat} (item : α) (inside : place ≤ items.length) :
    insert? items place item = some (items.insertIdx place item) :=
  if_pos inside

/-- The bytes of a text are a place to cut, whatever follows it. -/
theorem upTo?_append (stem rest : String) : upTo? (stem ++ rest) stem.utf8ByteSize = some stem := by
  have boundary : String.Pos.Raw.IsValid (stem ++ rest) ⟨stem.utf8ByteSize⟩ :=
    String.Pos.Raw.isValid_append.mpr (.inl String.Pos.Raw.isValid_rawEndPos)
  have splits :
      String.Pos.Splits (⟨⟨stem.utf8ByteSize⟩, boundary⟩ : (stem ++ rest).Pos) stem rest :=
    ⟨rfl, rfl⟩
  rw [upTo?, dif_pos boundary, splits.copy_sliceTo_eq]

example : upTo? "\u00e9" 1 = none := by decide +kernel

/-- The last character of a text can be cut off. -/
theorem withoutLast?_eq {text : String} {last : Char} (ends : text.toList.getLast? = some last) :
    withoutLast? text last = some (String.ofList text.toList.dropLast) := by
  obtain ⟨stem, spelled⟩ : ∃ stem, text.toList = stem ++ [last] := List.getLast?_eq_some_iff.mp ends
  have whole : text = String.ofList stem ++ String.singleton last := by
    apply String.toList_inj.mp
    rw [spelled, String.toList_append, String.toList_ofList, String.toList_singleton]
  have bytes : text.utf8ByteSize = (String.ofList stem).utf8ByteSize + last.utf8Size := by
    rw [whole, String.utf8ByteSize_append, String.utf8ByteSize_singleton]
  rw [withoutLast?, if_pos (by omega), bytes, Nat.add_sub_cancel, whole, upTo?_append, ← whole,
    spelled, List.dropLast_concat]

end SceneGallery
