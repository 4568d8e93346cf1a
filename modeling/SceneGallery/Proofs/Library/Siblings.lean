import SceneGallery.Proofs.Library.Rendering
set_option autoImplicit false

namespace SceneGallery.Library

/-- Items side by side, each but the last with a comma at the end of its last line. -/
def siblings (items : List (List String)) : List String :=
  items.zipIdx.flatMap fun (item, i) => if i + 1 < items.length then withMark "," item else item

/-- A part of a written library: a line, or items between the lines that open and close them. -/
inductive Nested where
  | line (text : String)
  | block (opening : List String) (items : List Nested) (closing : List String)

/-- The lines of a part, with commas between the items in it. -/
def Nested.lines : Nested → List String
  | line text => [text]
  | block opening items closing => opening ++ (siblings (items.map lines) ++ closing)

end SceneGallery.Library
