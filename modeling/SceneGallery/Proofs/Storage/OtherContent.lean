import SceneGallery.Proofs.Storage.Writes
set_option autoImplicit false

namespace SceneGallery.Storage

/-- A node without what it holds. -/
def Node.blank : Node → Node
  | .file _ readOnly => .file .empty readOnly
  | .directory => .directory

namespace FileTree

/-- Two trees with files and directories at the same places. -/
structure SameKinds (tree other : FileTree) : Prop where
  here : other.here = tree.here
  kinds : ∀ location,
    (other.lookup location).map Node.blank = (tree.lookup location).map Node.blank

namespace SameKinds

variable {tree other : FileTree} (same : SameKinds tree other)
include same

/-- There is nothing at a place of either tree, or a directory, or a file. -/
theorem lookup_cases (location : Location) :
    (tree.lookup location = none ∧ other.lookup location = none) ∨
      (tree.lookup location = some .directory ∧ other.lookup location = some .directory) ∨
      ∃ content again readOnly, tree.lookup location = some (.file content readOnly) ∧
        other.lookup location = some (.file again readOnly) := by
  have kind := same.kinds location
  rcases there : tree.lookup location with _ | ⟨_, _⟩ | _ <;>
    rcases found : other.lookup location with _ | ⟨_, _⟩ | _ <;>
    simp_all [Node.blank]

theorem follow_eq (location : Location) (names : List String) :
    other.follow location names = tree.follow location names := by
  induction names generalizing location with
  | nil => rw [follow, follow]
  | cons name rest ih =>
      by_cases above : name = ".."
      · rw [above, follow_above, follow_above, ih]
      by_cases stays : name = "."
      · rw [stays, follow_here, follow_here, ih]
      rw [follow_name stays above, follow_name stays above]
      rcases same.lookup_cases (location ++ [name]) with
        ⟨one, two⟩ | ⟨one, two⟩ | ⟨_, _, _, one, two⟩
      · rw [one, two]
      · simp only [one, two, ih]
      · rw [one, two]

theorem resolve_eq (path : String) : other.resolve path = tree.resolve path := by
  rw [resolve, resolve, start, start, same.here, same.follow_eq]

theorem hasPath_eq (path : String) : other.hasPath path = tree.hasPath path := by
  rw [hasPath, hasPath, same.resolve_eq]

theorem targetIn_eq (directory : Location) (name : String) :
    other.targetIn directory name = tree.targetIn directory name := by
  rw [targetIn, targetIn]
  rcases same.lookup_cases (directory ++ [name]) with
    ⟨one, two⟩ | ⟨one, two⟩ | ⟨_, _, readOnly, one, two⟩
  · rw [one, two]
  · rw [one, two]
  · rw [one, two]
    cases readOnly <;> rfl

theorem target_eq (path : String) : other.target path = tree.target path := by
  simp only [target, start, same.here, same.follow_eq, same.targetIn_eq]

/-- A write fails with the same fault or puts a file at the same place. -/
theorem write_cases (path : String) (content again : ByteArray) :
    (∃ fault, tree.write path content = .error fault ∧ other.write path again = .error fault) ∨
      ∃ after later, tree.write path content = .ok after ∧ other.write path again = .ok later := by
  rw [write, write, same.target_eq]
  cases tree.target path with
  | error fault => exact .inl ⟨fault, rfl, rfl⟩
  | ok location => exact .inr ⟨_, _, rfl, rfl⟩

end SameKinds

/-- Two trees that differ in what the file at one place holds. -/
structure DifferAt (tree other : FileTree) (location : Location) (content again : ByteArray) :
    Prop where
  here : other.here = tree.here
  holds : ∃ readOnly, tree.lookup location = some (.file content readOnly) ∧
    other.lookup location = some (.file again readOnly)
  others : ∀ place, place ≠ location → other.lookup place = tree.lookup place

namespace DifferAt

variable {tree other : FileTree} {location : Location} {content again : ByteArray}

theorem sameKinds (differ : DifferAt tree other location content again) :
    SameKinds tree other where
  here := differ.here
  kinds := by
    intro place
    obtain ⟨_, held, holds⟩ := differ.holds
    by_cases there : place = location
    · rw [there, held, holds]
      rfl
    · rw [differ.others place there]

/-- A path is that of the file, or what it leads to is the same. -/
theorem readBytes_cases (differ : DifferAt tree other location content again) (path : String) :
    (tree.readBytes path = .ok content ∧ other.readBytes path = .ok again) ∨
      other.readBytes path = tree.readBytes path := by
  rw [readBytes, readBytes, differ.sameKinds.resolve_eq]
  cases tree.resolve path with
  | error fault => exact .inr rfl
  | ok place =>
      simp only [bind, Except.bind]
      obtain ⟨_, held, holds⟩ := differ.holds
      by_cases there : place = location
      · rw [there, held, holds]
        exact .inl ⟨rfl, rfl⟩
      · rw [differ.others place there]
        exact .inr rfl

theorem readText_cases {text spelled : String}
    (differ : DifferAt tree other location text.toUTF8 spelled.toUTF8) (path : String) :
    (tree.readText path = .ok text ∧ other.readText path = .ok spelled) ∨
      other.readText path = tree.readText path := by
  rcases differ.readBytes_cases path with ⟨one, two⟩ | same
  · exact .inl ⟨readText_of_bytes one, readText_of_bytes two⟩
  · exact .inr (readText_congr same)

end DifferAt

end FileTree

end SceneGallery.Storage
