import SceneGallery.Library.Basic
import SceneGallery.Notice
set_option autoImplicit false

namespace SceneGallery.Library

/-- The part of a library that is being read. -/
inductive Part where
  | library
  | character
  | scene
  | condition
  | background
deriving DecidableEq, Repr

/-- The word for a part. -/
def Part.label : Part → String
  | .library => "Library"
  | .character => "Character"
  | .scene => "Scene"
  | .condition => "Condition"
  | .background => "Background"

/-- What is remarked while a library is read. -/
inductive Remark where
  | record (number : UInt32)
  | character (name : String)
  | scene (number : UInt32)
  /-- A line says nothing that its part can use. Lines are counted from one. -/
  | unexpected (part : Part) (line : Nat) (text : String)
deriving DecidableEq, Repr

/-- A remark as a notice. -/
def Remark.notice : Remark → Notice
  | .record number => .debug ("Loading character entry: " ++ toString number.toNat)
  | .character name => .debug ("Loading character: " ++ name)
  | .scene number => .debug ("Loading scene item: " ++ toString number.toNat)
  | .unexpected part line text =>
    .warn (part.label ++ " parser: unexpected line " ++ toString line ++ " encountered: '" ++
      text ++ "'")

/-- A value that was read, and where reading stopped. -/
structure Reading (α : Type) where
  value : α
  /-- The number of lines before the place where reading stopped. -/
  offset : Nat
  rest : List String
  remarks : List Remark
deriving Repr

namespace Reading

variable {α β : Type}

/-- The same reading of another value. -/
def map (f : α → β) (reading : Reading α) : Reading β :=
  { reading with value := f reading.value }

/-- A reading before which something was remarked. -/
def after (remarks : List Remark) (reading : Reading α) : Reading α :=
  { reading with remarks := remarks ++ reading.remarks }

@[simp] theorem map_value (f : α → β) (r : Reading α) : (r.map f).value = f r.value := rfl
@[simp] theorem map_offset (f : α → β) (r : Reading α) : (r.map f).offset = r.offset := rfl
@[simp] theorem map_rest (f : α → β) (r : Reading α) : (r.map f).rest = r.rest := rfl
@[simp] theorem map_remarks (f : α → β) (r : Reading α) : (r.map f).remarks = r.remarks := rfl
@[simp] theorem after_value (ms : List Remark) (r : Reading α) : (r.after ms).value = r.value := rfl
@[simp] theorem after_offset (ms : List Remark) (r : Reading α) :
    (r.after ms).offset = r.offset := rfl
@[simp] theorem after_rest (ms : List Remark) (r : Reading α) : (r.after ms).rest = r.rest := rfl
@[simp] theorem after_remarks (ms : List Remark) (r : Reading α) :
    (r.after ms).remarks = ms ++ r.remarks := rfl

end Reading

end SceneGallery.Library
