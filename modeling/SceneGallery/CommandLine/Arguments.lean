import SceneGallery.Gallery.EventFile
set_option autoImplicit false

namespace SceneGallery.CommandLine

/-- An option of a command. -/
structure OptionSpec where
  name : String
  letter : Option Char
  takesValue : Bool
deriving DecidableEq, Repr

/-- One item of the arguments. -/
inductive Item where
  | flag (name : String)
  | value (name text : String)
  /-- An argument that belongs to no option. -/
  | operand (text : String)
deriving DecidableEq, Repr

/-- Whether an argument is an option and not a value. -/
def looksLikeOption (argument : String) : Bool :=
  match argument.toList with
  | '-' :: _ :: _ => true
  | _ => false

/-- What reading one argument gives: items, and perhaps an option that waits for its value. -/
structure Step where
  items : List Item
  /-- The name of the option that waits. -/
  waiting : Option String
deriving DecidableEq, Repr

/-- Reads an option by its long name. -/
def readLong (specs : List OptionSpec) (text : List Char) : Option Step := do
  let name := String.ofList (text.takeWhile (· != '='))
  let spec ← specs.find? (·.name == name)
  match text.dropWhile (· != '='), spec.takesValue with
  | [], false => some ⟨[.flag name], none⟩
  | [], true => some ⟨[], some name⟩
  | _ :: value, true =>
    if value.isEmpty then none else some ⟨[.value name (String.ofList value)], none⟩
  | _ :: _, false => none

/-- Reads options by their letters. -/
def readLetters (specs : List OptionSpec) : List Char → Option Step
  | [] => some ⟨[], none⟩
  | letter :: rest => do
    let spec ← specs.find? (·.letter == some letter)
    if spec.takesValue then
      match rest with
      | [] => some ⟨[], some spec.name⟩
      | '=' :: value =>
        if value.isEmpty then none else some ⟨[.value spec.name (String.ofList value)], none⟩
      | value => some ⟨[.value spec.name (String.ofList value)], none⟩
    else
      let step ← readLetters specs rest
      some { step with items := .flag spec.name :: step.items }

/-- Reads one argument. -/
def readArgument (specs : List OptionSpec) (argument : String) : Option Step :=
  match argument.toList with
  | '-' :: '-' :: text => readLong specs text
  | '-' :: letter :: rest => readLetters specs (letter :: rest)
  | [] => none
  | _ => some ⟨[.operand argument], none⟩

/-- Reads arguments, of which an option may wait for the first. After two dashes alone no options
follow. -/
def readItems (specs : List OptionSpec) : Option String → List String → Option (List Item)
  | none, [] => some []
  | some _, [] => none
  | some name, argument :: rest =>
    if looksLikeOption argument || argument.isEmpty then none
    else (readItems specs none rest).map (.value name argument :: ·)
  | none, argument :: rest =>
    if argument = "--" then some (rest.map .operand)
    else
      match readArgument specs argument with
      | none => none
      | some step => (readItems specs step.waiting rest).map (step.items ++ ·)

/-- The values of an option. -/
def valuesOf (name : String) (items : List Item) : List String :=
  items.filterMap fun
    | .value other text => if other = name then some text else none
    | _ => none

/-- The value of an option that may be given once. -/
def optionalValue (name : String) (items : List Item) : Option (Option String) :=
  match valuesOf name items with
  | [] => some none
  | [text] => some (some text)
  | _ => none

/-- The value of an option that has to be given once. -/
def requiredValue (name : String) (items : List Item) : Option String :=
  (optionalValue name items).join

/-- Whether a flag that may be given once is given. -/
def hasFlag (name : String) (items : List Item) : Option Bool :=
  match items.count (.flag name) with
  | 0 => some false
  | 1 => some true
  | _ => none

/-- The arguments that belong to no option. -/
def operands (items : List Item) : List String :=
  items.filterMap fun
    | .operand text => some text
    | _ => none

/-- What the conversion of all events is asked to do. -/
structure ConvertOptions where
  events : String
  library : String
  settings : Gallery.Settings
  /-- Whether the scene library is left alone. -/
  skipLibrary : Bool
deriving DecidableEq, Repr

/-- What the program is asked to do. -/
inductive Command where
  /-- Nothing, so it tells how it is used. -/
  | usage
  /-- To convert all events and to add them to the scene library. -/
  | convert (options : ConvertOptions)
  | check (filename : String)
deriving DecidableEq, Repr

/-- A command, and whether it is to tell about its progress in detail. -/
structure Request where
  command : Command
  verbose : Bool
deriving DecidableEq, Repr

/-- The option to tell about progress in detail. -/
def verboseOption : OptionSpec := ⟨"verbose", some 'v', false⟩

/-- The options of the conversion of all events. -/
def convertSpecs : List OptionSpec :=
  [⟨"events", some 'c', true⟩, ⟨"library", some 'l', true⟩, ⟨"pictures", some 'p', true⟩,
    ⟨"overwrite", some 'o', false⟩, ⟨"skip-library", none, false⟩, verboseOption]

/-- The request to convert all events. -/
def readConvert (arguments : List String) : Option Request := do
  let items ← readItems convertSpecs none arguments
  guard (operands items).isEmpty
  let settings : Gallery.Settings :=
    ⟨← optionalValue "pictures" items, ← hasFlag "overwrite" items⟩
  let options : ConvertOptions :=
    ⟨← requiredValue "events" items, ← requiredValue "library" items, settings,
      ← hasFlag "skip-library" items⟩
  return ⟨.convert options, ← hasFlag "verbose" items⟩

/-- The request to check a scene library. -/
def readCheck (arguments : List String) : Option Request := do
  let items ← readItems [verboseOption] none arguments
  match operands items with
  | [filename] => return ⟨.check filename, ← hasFlag "verbose" items⟩
  | _ => none

/-- The request that the arguments make, if they make sense. -/
def Request.ofArguments : List String → Option Request
  | [] => some ⟨.usage, false⟩
  | "convert" :: arguments => readConvert arguments
  | "check" :: arguments => readCheck arguments
  | _ => none

end SceneGallery.CommandLine
