import SceneGallery.Proofs.Storage.Place
set_option autoImplicit false

namespace SceneGallery.Storage.FileTree

/-- The second tree comes from the first by writing files at allowed places. -/
inductive Writes (allowed : Location → Prop) : FileTree → FileTree → Prop
  | done (tree : FileTree) : Writes allowed tree tree
  | more {tree after : FileTree} {location : Location} {content : ByteArray} {readOnly : Bool}
      (inside : allowed location) (free : tree.lookup location ≠ some .directory)
      (later : Writes allowed (tree.put location (.file content readOnly)) after) :
      Writes allowed tree after

section Put

variable {tree : FileTree} {location : Location}

theorem ne_root (free : tree.lookup location ≠ some .directory) : location ≠ [] := by
  rintro rfl
  rw [lookup, if_pos rfl] at free
  exact free rfl

theorem ne_directory_of_writable (writable : (tree.lookup location).all Node.isWritable = true) :
    tree.lookup location ≠ some .directory := by
  intro there
  rw [there] at writable
  cases writable

/-- A file that is put where no directory is leaves the directories as they are. -/
theorem sameDirectories_put (free : tree.lookup location ≠ some .directory)
    (content : ByteArray) (readOnly : Bool) :
    SameDirectories tree (tree.put location (.file content readOnly)) where
  here := rfl
  directories := by
    intro other
    rw [lookup_put tree location other _ (ne_root free)]
    by_cases same : other = location
    · subst same
      simp [free]
    · rw [if_neg same]

end Put

theorem SameDirectories.trans {first second third : FileTree} (front : SameDirectories first second)
    (back : SameDirectories second third) : SameDirectories first third where
  here := back.here.trans front.here
  directories := fun location => (back.directories location).trans (front.directories location)

namespace Writes

variable {allowed : Location → Prop} {tree after : FileTree}

theorem trans {last : FileTree} (front : Writes allowed tree after)
    (back : Writes allowed after last) : Writes allowed tree last := by
  induction front with
  | done tree => exact back
  | more inside free _ ih => exact .more inside free (ih back)

theorem mono {more : Location → Prop} (wider : ∀ location, allowed location → more location)
    (writes : Writes allowed tree after) : Writes more tree after := by
  induction writes with
  | done tree => exact .done tree
  | more inside free _ ih => exact .more (wider _ inside) free ih

theorem of_other_name {name other : String}
    (writes : Writes (fun place => place.getLast? = some name) tree after) (unlike : name ≠ other) :
    Writes (fun place => place.getLast? ≠ some other) tree after :=
  writes.mono fun _ named same => unlike (Option.some.inj (named.symm.trans same))

theorem sameDirectories (writes : Writes allowed tree after) : SameDirectories tree after := by
  induction writes with
  | done tree => exact ⟨rfl, fun _ => Iff.rfl⟩
  | more inside free _ ih => exact (sameDirectories_put free _ _).trans ih

/-- Nothing changes where nothing may be written. -/
theorem lookup_eq (writes : Writes allowed tree after) {location : Location}
    (outside : ¬ allowed location) : after.lookup location = tree.lookup location := by
  induction writes with
  | done tree => rfl
  | @more tree after written content readOnly inside free later ih =>
      have other : location ≠ written := by
        rintro rfl
        exact outside inside
      rw [ih, lookup_put tree written location _ (ne_root free), if_neg other]

theorem lookup_isSome (writes : Writes allowed tree after) {location : Location}
    (there : (tree.lookup location).isSome) : (after.lookup location).isSome := by
  induction writes with
  | done tree => exact there
  | @more tree after written content readOnly inside free later ih =>
      apply ih
      rw [lookup_put tree written location _ (ne_root free)]
      split
      · rfl
      · exact there

variable {path : String} {location : Location}

theorem place?_eq (writes : Writes allowed tree after) (path : String) :
    after.place? path = tree.place? path :=
  FileTree.place?_eq writes.sameDirectories path

theorem readBytes_eq (writes : Writes allowed tree after) (found : tree.place? path = some location)
    (outside : ¬ allowed location) : after.readBytes path = tree.readBytes path := by
  rw [readBytes_of_place found, readBytes_of_place ((writes.place?_eq path).trans found),
    writes.lookup_eq outside]

theorem hasPath_eq (writes : Writes allowed tree after) (found : tree.place? path = some location)
    (outside : ¬ allowed location) : after.hasPath path = tree.hasPath path := by
  rw [hasPath_of_place found, hasPath_of_place ((writes.place?_eq path).trans found),
    writes.lookup_eq outside]

/-- Whether a file of a name exists is not changed by writing files of other names. -/
theorem hasPath_eq_of_name {front : List String} {name : String}
    (writes : Writes (fun place => place.getLast? ≠ some name) tree after)
    (known : IsFilePath path front name) : after.hasPath path = tree.hasPath path := by
  cases found : tree.place? path with
  | some location => exact writes.hasPath_eq found fun other => other (getLast?_place known found)
  | none =>
      rw [hasPath_of_no_place known found,
        hasPath_of_no_place known ((writes.place?_eq path).trans found)]

theorem hasPath_of_hasPath {front : List String} {name : String}
    (writes : Writes allowed tree after) (known : IsFilePath path front name)
    (there : tree.hasPath path = true) : after.hasPath path = true := by
  cases found : tree.place? path with
  | some location =>
      rw [hasPath_of_place found] at there
      rw [hasPath_of_place ((writes.place?_eq path).trans found)]
      exact writes.lookup_isSome there
  | none =>
      rw [hasPath_of_no_place known found] at there
      cases there

theorem readBytes_eq_of_name {front : List String} {name : String}
    (writes : Writes (fun place => place.getLast? ≠ some name) tree after)
    (known : IsFilePath path front name) (there : tree.hasPath path = true) :
    after.readBytes path = tree.readBytes path := by
  cases found : tree.place? path with
  | some location =>
      exact writes.readBytes_eq found fun other => other (getLast?_place known found)
  | none =>
      rw [hasPath_of_no_place known found] at there
      cases there

end Writes

/-- What the outcome of a write says about the tree. -/
theorem write_eq_ok_iff {tree after : FileTree} {path : String} {content : ByteArray}
    {readOnly : Bool} :
    tree.write path content readOnly = .ok after ↔
      ∃ location, tree.place? path = some location ∧
        (tree.lookup location).all Node.isWritable = true ∧
        after = tree.put location (.file content readOnly) := by
  rw [write]
  cases targeted : tree.target path with
  | error fault =>
      constructor
      · nofun
      · rintro ⟨location, found, writable, _⟩
        rw [target_eq_ok_iff.mpr ⟨found, writable⟩] at targeted
        cases targeted
  | ok location =>
      obtain ⟨found, writable⟩ := target_eq_ok_iff.mp targeted
      constructor
      · rintro ⟨⟩
        exact ⟨location, found, writable, rfl⟩
      · rintro ⟨other, same, _, rfl⟩
        rw [found] at same
        cases same
        rfl

theorem write_of_no_place {tree : FileTree} {path : String} (missing : tree.place? path = none)
    (content : ByteArray) : ∃ fault, tree.write path content = .error fault := by
  cases written : tree.write path content with
  | error fault => exact ⟨fault, rfl⟩
  | ok after =>
      obtain ⟨location, found, _⟩ := write_eq_ok_iff.mp written
      rw [missing] at found
      cases found

/-- A new file can be written wherever its path has a place. -/
theorem no_place_of_refused {tree : FileTree} {path : String} {content : ByteArray} {fault : Fault}
    (missing : tree.hasPath path = false) (refused : tree.write path content = .error fault) :
    tree.place? path = none := by
  cases found : tree.place? path with
  | none => rfl
  | some location =>
      rw [hasPath_of_place found, Option.isSome_eq_false_iff, Option.isNone_iff_eq_none] at missing
      have writable : (tree.lookup location).all Node.isWritable = true := by
        rw [missing]
        rfl
      have written : tree.write path content = .ok (tree.put location (.file content)) :=
        write_eq_ok_iff.mpr ⟨location, found, writable, rfl⟩
      rw [refused] at written
      cases written

theorem writes_of_write {allowed : Location → Prop} {tree after : FileTree} {path : String}
    {content : ByteArray} {readOnly : Bool} (written : tree.write path content readOnly = .ok after)
    (inside : ∀ location, tree.place? path = some location → allowed location) :
    Writes allowed tree after := by
  obtain ⟨location, found, writable, rfl⟩ := write_eq_ok_iff.mp written
  exact .more (inside location found) (ne_directory_of_writable writable) (.done _)

theorem lookup_of_write {tree after : FileTree} {path : String} {content : ByteArray}
    {readOnly : Bool} (written : tree.write path content readOnly = .ok after) :
    ∃ location, tree.place? path = some location ∧ after.place? path = some location ∧
      after.lookup location = some (.file content readOnly) := by
  obtain ⟨location, found, writable, rfl⟩ := write_eq_ok_iff.mp written
  have free := ne_directory_of_writable writable
  refine ⟨location, found, (place?_eq (sameDirectories_put free _ _) path).trans found, ?_⟩
  rw [lookup_put tree location location _ (ne_root free), if_pos rfl]

/-- All that has changed is what is at one place, to which a path leads. -/
structure ChangedAt (tree after : FileTree) (path : String) (location : Location) : Prop where
  here : after.here = tree.here
  leads : after.resolve path = .ok location
  others : ∀ other, other ≠ location → after.lookup other = tree.lookup other

/-- A write changes what is at the place of its path. -/
theorem changedAt_of_write {tree after : FileTree} {path : String} {content : ByteArray}
    (written : tree.write path content = .ok after) :
    ∃ location, tree.place? path = some location ∧ ChangedAt tree after path location := by
  obtain ⟨location, found, kept, there⟩ := lookup_of_write written
  obtain ⟨place, same, writable, rfl⟩ := write_eq_ok_iff.mp written
  have free := ne_directory_of_writable writable
  obtain rfl : location = place := Option.some.inj (found.symm.trans same)
  refine ⟨location, found, rfl, ?_, fun other different => ?_⟩
  · rw [resolve_of_place kept, there]
    rfl
  · rw [lookup_put tree location other _ (ne_root free), if_neg different]

theorem readBytes_of_write {tree after : FileTree} {path : String} {content : ByteArray}
    {readOnly : Bool} (written : tree.write path content readOnly = .ok after) :
    after.readBytes path = .ok content := by
  obtain ⟨location, _, found, there⟩ := lookup_of_write written
  rw [readBytes_of_place found, there]

theorem hasPath_of_readBytes {tree : FileTree} {path : String} {content : ByteArray}
    (read : tree.readBytes path = .ok content) : tree.hasPath path = true := by
  rw [readBytes] at read
  rw [hasPath]
  cases resolved : tree.resolve path with
  | error fault => rw [resolved] at read; cases read
  | ok location => rfl

/-- A copy has the bytes that were read. -/
theorem write_of_copy {tree after : FileTree} {source path : String}
    (copied : tree.copy source path = .ok after) :
    ∃ content readOnly, tree.readBytes source = .ok content ∧
      tree.write path content readOnly = .ok after := by
  rw [copy] at copied
  cases resolved : tree.resolve source with
  | error fault =>
      rw [resolved] at copied
      cases copied
  | ok location =>
      rw [resolved] at copied
      simp only [bind, Except.bind] at copied
      rcases there : tree.lookup location with _ | ⟨content, readOnly⟩ | _
      · rw [there] at copied
        cases copied
      · rw [there] at copied
        refine ⟨content, readOnly, ?_, copied⟩
        simp only [readBytes, resolved, bind, Except.bind, there]
      · rw [there] at copied
        cases copied

/-- A file that is new after a write is the one that was written. -/
theorem place_of_new {tree after : FileTree} {path file : String} {content : ByteArray}
    (written : tree.write path content = .ok after) {front : List String} {name : String}
    (known : IsFilePath file front name) (missing : tree.hasPath file = false)
    (there : after.hasPath file = true) :
    ∃ location, tree.place? path = some location ∧ tree.place? file = some location := by
  obtain ⟨location, target, writable, rfl⟩ := write_eq_ok_iff.mp written
  have free := ne_directory_of_writable writable
  have same := place?_eq (sameDirectories_put free content false) file
  cases found : tree.place? file with
  | none =>
      rw [hasPath_of_no_place known (same.trans found)] at there
      cases there
  | some other =>
      rw [hasPath_of_place found] at missing
      rw [hasPath_of_place (same.trans found), lookup_put tree location other _ (ne_root free)]
        at there
      split at there
      · rename_i equal
        rw [equal]
        exact ⟨location, target, rfl⟩
      · rw [missing] at there
        cases there

theorem readText_of_bytes {tree : FileTree} {path text : String}
    (read : tree.readBytes path = .ok text.toUTF8) : tree.readText path = .ok text := by
  have valid : text.toUTF8.IsValidUTF8 := text.isValidUTF8
  rw [readText, read]
  simp only [bind, Except.bind, String.fromUTF8?, dif_pos valid]
  rfl

theorem readText_congr {tree other : FileTree} {path : String}
    (same : other.readBytes path = tree.readBytes path) :
    other.readText path = tree.readText path := by
  rw [readText, readText, same]

end SceneGallery.Storage.FileTree
