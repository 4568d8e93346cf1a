import SceneGallery.Text.Hidden
set_option autoImplicit false

namespace SceneGallery.Text

/-- The sign that stands for a character behind a backslash. -/
def quoteSign? : Char → Option Char
  | '\x00' => some '0'
  | '\t' => some 't'
  | '\r' => some 'r'
  | '\n' => some 'n'
  | '"' => some '"'
  | '\\' => some '\\'
  | _ => none

/-- A character between double quotes. -/
def quoteChar (c : Char) : List Char :=
  match quoteSign? c with
  | some sign => ['\\', sign]
  | none =>
    if isHidden c then "\\u\x7b".toList ++ Nat.toDigits 16 c.toNat ++ ['\x7d'] else [c]

/-- A text in double quotes. -/
def quote (text : String) : String :=
  "\"" ++ String.ofList (text.toList.flatMap quoteChar) ++ "\""

end SceneGallery.Text
