import SceneGallery.Proofs.Gallery.Outputs
set_option autoImplicit false

namespace SceneGallery.CommandLine

open Storage Gallery

/-- The files once there is a copy of the library. -/
inductive Kept (tree : FileTree) (path : String) : FileTree → Prop
  | there (there : tree.hasPath (backupPath path) = true) : Kept tree path tree
  | copied {kept : FileTree} (missing : tree.hasPath (backupPath path) = false)
      (copied : tree.copy path (backupPath path) = .ok kept) : Kept tree path kept

/-- How the writing of a library can end: its placements, and the files afterwards. -/
inductive Saves (tree : FileTree) (path : String) (library : Library)
    (placements : List Library.Placement) : Option (List Library.Placement) → FileTree → Prop
  | uncopied : Saves tree path library placements none tree
  | unwritten {kept : FileTree} (safe : Kept tree path kept) :
      Saves tree path library placements none kept
  | written {kept after : FileTree} (safe : Kept tree path kept)
      (written : kept.write path library.serialize.toUTF8 = .ok after) :
      Saves tree path library placements (some placements) after

/-- How the bringing of converted events to a library can end. -/
inductive Updates (tree : FileTree) (path : String) (descriptors : List Descriptor) :
    Option (List Library.Placement) → FileTree → Prop
  | unread : Updates tree path descriptors none tree
  | unchanged {content : String} {library : Library} (loaded : load tree path = .ok content)
      (parsed : Library.parse content = .ok library)
      (nothing : (library.merge descriptors).2.any (·.isInserted) = false) :
      Updates tree path descriptors (some (library.merge descriptors).2) tree
  | saved {content : String} {library : Library} {result : Option (List Library.Placement)}
      {after : FileTree} (loaded : load tree path = .ok content)
      (parsed : Library.parse content = .ok library)
      (added : (library.merge descriptors).2.any (·.isInserted) = true)
      (saves : Saves tree path (library.merge descriptors).1 (library.merge descriptors).2 result
        after) :
      Updates tree path descriptors result after

theorem saveLibrary_saves (tree : FileTree) (path : String) (library : Library)
    (placements : List Library.Placement) :
    Saves tree path library placements (saveLibrary tree path library placements).placements
      (saveLibrary tree path library placements).tree := by
  rw [saveLibrary, backup]
  cases there : tree.hasPath (backupPath path) with
  | true =>
      simp only [↓reduceIte]
      cases written : tree.write path library.serialize.toUTF8 with
      | error fault => exact .unwritten (.there there)
      | ok after => exact .written (.there there) written
  | false =>
      simp only [Bool.false_eq_true, ↓reduceIte]
      cases copied : tree.copy path (backupPath path) with
      | error fault => exact .uncopied
      | ok kept =>
          simp only
          cases written : kept.write path library.serialize.toUTF8 with
          | error fault => exact .unwritten (.copied there copied)
          | ok after => exact .written (.copied there copied) written

theorem updateLibrary_updates (tree : FileTree) (path : String) (descriptors : List Descriptor) :
    Updates tree path descriptors (updateLibrary tree path descriptors).placements
      (updateLibrary tree path descriptors).tree := by
  rw [updateLibrary]
  cases loaded : load tree path with
  | error problem => exact .unread
  | ok content =>
      simp only
      cases parsed : Library.parse content with
      | error error => exact .unread
      | ok library =>
          simp only [placeEvents]
          cases added : (library.merge descriptors).2.any (·.isInserted) with
          | false =>
              simp only [Bool.false_eq_true, ↓reduceIte]
              exact .unchanged loaded parsed added
          | true =>
              simp only [↓reduceIte]
              exact .saved loaded parsed added (saveLibrary_saves ..)

/-- How a library is brought up to date: it has all events already, or it is written. -/
theorem Updates.placed {tree after : FileTree} {path : String} {descriptors : List Descriptor}
    {placements : List Library.Placement}
    (updates : Updates tree path descriptors (some placements) after) :
    ∃ content library, load tree path = .ok content ∧ Library.parse content = .ok library ∧
      placements = (library.merge descriptors).2 ∧
      ((placements.any (·.isInserted) = false ∧ after = tree) ∨
        ∃ kept : FileTree,
          kept.write path (library.merge descriptors).1.serialize.toUTF8 = .ok after) := by
  cases updates with
  | unchanged loaded parsed nothing => exact ⟨_, _, loaded, parsed, rfl, .inl ⟨nothing, rfl⟩⟩
  | saved loaded parsed added saves =>
      cases saves with
      | written _ written => exact ⟨_, _, loaded, parsed, rfl, .inr ⟨_, written⟩⟩

section Parsed

variable {tree : FileTree} {path content : String} {library : Library}
  {descriptors : List Descriptor} (loaded : load tree path = .ok content)
  (parsed : Library.parse content = .ok library)
include loaded parsed

theorem updateLibrary_of_parse :
    (updateLibrary tree path descriptors).placements =
        (placeEvents tree path library descriptors).placements ∧
      (updateLibrary tree path descriptors).tree =
        (placeEvents tree path library descriptors).tree := by
  simp only [updateLibrary, loaded, parsed, and_self]

/-- A library that has all events already is left alone. -/
theorem updateLibrary_of_nothing
    (nothing : (library.merge descriptors).2.any (·.isInserted) = false) :
    (updateLibrary tree path descriptors).placements = some (library.merge descriptors).2 ∧
      (updateLibrary tree path descriptors).tree = tree := by
  obtain ⟨placements, after⟩ := @updateLibrary_of_parse _ _ _ _ descriptors loaded parsed
  rw [placements, after, placeEvents]
  simp only [nothing, Bool.false_eq_true, ↓reduceIte, and_self]

end Parsed

/-- A conversion that looks at the library leaves the files as the library's update does. -/
theorem tree_runConvert {options : ConvertOptions} {tree : FileTree} {paths : List String}
    (found : discover tree options.events = .ok paths) (entered : options.skipLibrary = false) :
    (runConvert options tree).tree =
      (updateLibrary (runEvents options.settings tree paths).tree options.library
        (runEvents options.settings tree paths).descriptors).tree := by
  simp only [runConvert, found, entered, Bool.false_eq_true, ↓reduceIte]
  split <;> rfl

/-- The last names of a scene library, of its copy and of what a check writes. -/
structure LibraryNames (library : String) (front : List String) (last : String) : Prop where
  backup : FileTree.IsFilePath (backupPath library) front (last ++ ".bak")
  checked : FileTree.IsFilePath (checkedPath library) front (last ++ ".test")
  own : ∀ other name, FileTree.IsFilePath library other name → name = last

theorem exists_libraryNames (library : String) :
    ∃ front last, LibraryNames library front last := by
  obtain ⟨front, last, _, ended, spelled⟩ := Path.exists_last library
  have suffixed (suffix : String) (undivided : '/' ∉ suffix.toList)
      (long : 2 < suffix.toList.length) :
      FileTree.IsFilePath (library ++ suffix) front (last ++ suffix) := by
    refine FileTree.isFilePath_append (spelled suffix undivided fun empty => ?_) undivided long
    have letters := congrArg (·.toList.length) empty
    simp only [String.toList_append, List.length_append, String.toList_empty, List.length_nil]
      at letters
    omega
  refine ⟨front, last, suffixed ".bak" (by decide) (by decide),
    suffixed ".test" (by decide) (by decide), ?_⟩
  intro other name known
  have unended : last ≠ "" := by
    intro empty
    rcases ended empty with slash | rfl
    · rw [known.unslashed] at slash
      cases slash
    · have none := known.spelled
      rw [Path.names_empty] at none
      exact List.append_ne_nil_of_right_ne_nil _ (List.cons_ne_nil _ _) none.symm
  have same := spelled "" (by decide) (by rwa [String.append_empty])
  rw [String.append_empty, String.append_empty, known.spelled] at same
  exact List.singleton_inj.mp (List.append_inj_right' same rfl)

theorem ne_append {last suffix : String} (letters : suffix ≠ "") : last ≠ last ++ suffix := by
  intro same
  have spelled := congrArg String.toList same
  rw [String.toList_append, List.self_eq_append_right] at spelled
  exact letters (String.toList_eq_nil_iff.mp spelled)

namespace LibraryNames

variable {library : String} {front : List String} {last : String} {tree : FileTree}
  {location : Location}

theorem getLast?_library (names : LibraryNames library front last)
    (found : tree.place? library = some location) : location.getLast? = some last := by
  obtain ⟨other, name, directory, known, _, _, _, rfl⟩ := FileTree.place?_eq_some_iff.mp found
  rw [List.getLast?_concat, names.own other name known]

end LibraryNames

theorem writes_events (settings : Settings) (tree : FileTree) (paths : List String) {name : String}
    (other : ∀ id, eventFilename id ≠ name) :
    FileTree.Writes (fun place => place.getLast? ≠ some name) tree
      (runEvents settings tree paths).tree := by
  rw [(runEvents_eq settings tree paths).1]
  refine (Stage.writes_after settings ⟨tree, .initial⟩ paths).mono ?_
  rintro location ⟨id, _, named⟩ same
  exact other id (Option.some.inj (named.symm.trans same))

section Writes

variable {tree after : FileTree} {path : String} {front : List String} {last : String}
  (names : LibraryNames path front last)
include names

theorem writes_library {content : ByteArray} (written : tree.write path content = .ok after) :
    FileTree.Writes (fun place => place.getLast? = some last) tree after :=
  FileTree.writes_of_write written fun _ => names.getLast?_library

theorem Kept.writes (safe : Kept tree path after) :
    FileTree.Writes (fun place => place.getLast? = some (last ++ ".bak")) tree after := by
  cases safe with
  | there => exact .done tree
  | copied _ copied =>
      obtain ⟨content, readOnly, _, written⟩ := FileTree.write_of_copy copied
      exact FileTree.writes_of_write written fun _ => FileTree.getLast?_place names.backup

/-- The library and its copy are all that is written. -/
theorem Updates.writes {descriptors : List Descriptor} {result : Option (List Library.Placement)}
    (updates : Updates tree path descriptors result after) :
    FileTree.Writes (fun place => place.getLast? = some last ∨
      place.getLast? = some (last ++ ".bak")) tree after := by
  have copied {kept : FileTree} (safe : Kept tree path kept) :
      FileTree.Writes (fun place => place.getLast? = some last ∨
        place.getLast? = some (last ++ ".bak")) tree kept :=
    (safe.writes names).mono fun _ => .inr
  cases updates with
  | unread => exact .done tree
  | unchanged => exact .done tree
  | saved _ _ _ saves =>
      cases saves with
      | uncopied => exact .done tree
      | unwritten safe => exact copied safe
      | written safe written =>
          exact (copied safe).trans ((writes_library names written).mono fun _ => .inl)

end Writes

end SceneGallery.CommandLine
