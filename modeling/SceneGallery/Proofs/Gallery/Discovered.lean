import SceneGallery.Gallery.Discovery
import SceneGallery.Proofs.Gallery.Attempted
set_option autoImplicit false

namespace SceneGallery.Gallery

open Storage

/-- The name under which an entry is in a directory. -/
def nameIn? (place : Location) (entry : Location × Node) : Option String :=
  if entry.1.dropLast = place then entry.1.getLast? else none

theorem nameIn?_eq_some_iff {place : Location} {entry : Location × Node} {name : String} :
    nameIn? place entry = some name ↔ entry.1 = place ++ [name] := by
  rw [nameIn?, Option.ite_none_right_eq_some]
  constructor
  · rintro ⟨rfl, last⟩
    obtain ⟨front, spelled⟩ := List.getLast?_eq_some_iff.mp last
    rw [spelled, List.dropLast_concat]
  · intro spelled
    rw [spelled, List.dropLast_concat, List.getLast?_concat]
    exact ⟨rfl, rfl⟩

/-- The names of events in a directory, before they are put in order. -/
def candidatesIn (entries : List (Location × Node)) (place : Location) : List String :=
  (entries.filterMap (nameIn? place)).filter isCandidate

theorem mem_candidatesIn {entries : List (Location × Node)} {place : Location} {name : String}
    (inside : name ∈ candidatesIn entries place) :
    isCandidate name = true ∧ ∃ node, (place ++ [name], node) ∈ entries := by
  obtain ⟨listed, candidate⟩ := List.mem_filter.mp inside
  obtain ⟨⟨location, node⟩, entry, named⟩ := List.mem_filterMap.mp listed
  obtain rfl : location = place ++ [name] := nameIn?_eq_some_iff.mp named
  exact ⟨candidate, node, entry⟩

/-- What is not called like an event does not count. -/
theorem candidatesIn_putEntry {location : Location}
    (unlike : ∀ name, location.getLast? = some name → isCandidate name = false) (node : Node)
    (entries : List (Location × Node)) (place : Location) :
    candidatesIn (putEntry location node entries) place = candidatesIn entries place := by
  have ignored (other : Node) (rest : List (Location × Node)) :
      candidatesIn ((location, other) :: rest) place = candidatesIn rest place := by
    rw [candidatesIn, List.filterMap_cons]
    split
    · rfl
    · rename_i name named
      have spelled : location = place ++ [name] := nameIn?_eq_some_iff.mp named
      rw [List.filter_cons_of_neg]
      · rfl
      · rw [unlike name (by rw [spelled, List.getLast?_concat])]
        exact Bool.false_ne_true
  induction entries with
  | nil => exact ignored node []
  | cons entry rest ih =>
      obtain ⟨other, old⟩ := entry
      rw [putEntry]
      split
      · rename_i same
        subst same
        rw [ignored, ignored]
      · have listed := ih
        rw [candidatesIn, candidatesIn] at listed ⊢
        rw [List.filterMap_cons, List.filterMap_cons]
        split
        · exact listed
        · rw [List.filter_cons, List.filter_cons, listed]

/-- The names in a directory under which the path to it leads to an event. -/
def eventsIn (tree : FileTree) (directory : String) (place : Location) : List String :=
  (candidatesIn tree.entries place).filter fun name => tree.isFile (Path.join directory name)

/-- Names in ascending order. -/
def inOrder (names : List String) : List String :=
  names.mergeSort fun a b => decide (a ≤ b)

theorem pairwise_inOrder (names : List String) :
    (inOrder names).Pairwise fun a b => decide (a ≤ b) = true := by
  refine List.pairwise_mergeSort ?_ ?_ names
  · intro a b c front back
    rw [decide_eq_true_iff] at front back ⊢
    exact String.le_trans front back
  · intro a b
    rw [Bool.or_eq_true, decide_eq_true_iff, decide_eq_true_iff]
    exact String.le_total a b

theorem perm_inOrder (names : List String) : (inOrder names).Perm names :=
  List.mergeSort_perm _ _

theorem inOrder_eq {names ordered : List String}
    (sorted : ordered.Pairwise fun a b => decide (a ≤ b) = true) (same : ordered.Perm names) :
    inOrder names = ordered := by
  refine List.Perm.eq_of_pairwise ?_ (pairwise_inOrder names) sorted
    ((perm_inOrder names).trans same.symm)
  intro a b _ _ front back
  exact String.le_antisymm (of_decide_eq_true front) (of_decide_eq_true back)

theorem filter_inOrder (chosen : String → Bool) (names : List String) :
    (inOrder names).filter chosen = inOrder (names.filter chosen) :=
  (inOrder_eq ((pairwise_inOrder names).filter chosen) ((perm_inOrder names).filter chosen)).symm

section Discover

variable {tree : FileTree} {directory : String} {place : Location} {paths : List String}

/-- The events that are found are those in the directory that the path leads to, in order. -/
theorem discover_eq (resolved : tree.resolve directory = .ok place)
    (solid : ∀ content readOnly, tree.lookup place ≠ some (.file content readOnly)) :
    discover tree directory =
      .ok ((inOrder (eventsIn tree directory place)).map (Path.join directory)) := by
  have listed : tree.namesIn directory =
      .ok (inOrder (tree.entries.filterMap (nameIn? place))) := by
    rw [FileTree.namesIn, resolved]
    simp only [bind, Except.bind]
    rfl
  rw [discover, listed]
  simp only
  rw [filter_inOrder, eventsIn, candidatesIn, List.filter_filter]

theorem discover_of_sorted (place : Location) (names : List String)
    (resolved : tree.resolve directory = .ok place) (there : tree.lookup place = some .directory)
    (sorted : names.Pairwise fun a b => decide (a ≤ b) = true)
    (listed : names.Perm (eventsIn tree directory place)) :
    discover tree directory = .ok (names.map (Path.join directory)) := by
  have solid : ∀ content readOnly, tree.lookup place ≠ some (.file content readOnly) := by
    intro content readOnly
    rw [there]
    nofun
  rw [discover_eq resolved solid, inOrder_eq sorted listed]

theorem exists_place_of_discover (found : discover tree directory = .ok paths) :
    ∃ place, tree.resolve directory = .ok place ∧
      (∀ content readOnly, tree.lookup place ≠ some (.file content readOnly)) ∧
      paths = (inOrder (eventsIn tree directory place)).map (Path.join directory) := by
  cases resolved : tree.resolve directory with
  | error fault =>
      rw [discover, FileTree.namesIn, resolved] at found
      cases found
  | ok place =>
      have solid (content : ByteArray) (readOnly : Bool) :
          tree.lookup place ≠ some (.file content readOnly) := by
        intro there
        rw [discover, FileTree.namesIn, resolved] at found
        simp only [bind, Except.bind, there] at found
        cases found
      rw [discover_eq resolved solid] at found
      exact ⟨place, rfl, solid, (Except.ok.inj found).symm⟩

theorem isName_of_mem_candidatesIn (sound : tree.WellFormed) {name : String}
    (inside : name ∈ candidatesIn tree.entries place) : Path.IsName name := by
  obtain ⟨_, node, entry⟩ := mem_candidatesIn inside
  refine (sound.inside place name ?_).2
  rw [FileTree.lookup, if_neg (by simp), Ne, List.lookup_eq_none_iff]
  intro absent
  simpa using absent _ entry

/-- An event that is found is a file with the name of a temptation event. -/
theorem exists_name_of_discover (sound : tree.WellFormed)
    (found : discover tree directory = .ok paths) {path : String} (inside : path ∈ paths) :
    ∃ name, isCandidate name = true ∧ Path.IsName name ∧ path = Path.join directory name := by
  obtain ⟨place, _, _, rfl⟩ := exists_place_of_discover found
  obtain ⟨name, member, rfl⟩ := List.mem_map.mp inside
  have listed := List.mem_of_mem_filter ((perm_inOrder _).mem_iff.mp member)
  exact ⟨name, (mem_candidatesIn listed).1, isName_of_mem_candidatesIn sound listed, rfl⟩

theorem convertedPath_join {name other : String} (named : Path.IsName name)
    (known : Path.IsName other) (directory : String) (id : UInt32) :
    convertedPath (Path.join directory name) id = convertedPath (Path.join directory other) id := by
  obtain ⟨up, parents, _⟩ := Path.exists_parent directory
  rw [convertedPath, convertedPath, parents name named, parents other known]

/-- The event that is converted from an event in a directory has its place beside it, if there can
be such a path. -/
theorem place?_of_faultless (resolved : tree.resolve directory = .ok place)
    (solid : ∀ content readOnly, tree.lookup place ≠ some (.file content readOnly)) {name : String}
    (named : Path.IsName name) {id : UInt32}
    (faultless : FileTree.pathFault? (convertedPath (Path.join directory name) id) = none) :
    tree.place? (convertedPath (Path.join directory name) id) =
      some (place ++ [eventFilename id]) := by
  refine FileTree.place?_eq_some_iff.mpr ⟨_, _, place, isFilePath_convertedPath _ id, faultless,
    utf8ByteSize_eventFilename_le id, ?_, rfl⟩
  have start : tree.start (convertedPath (Path.join directory name) id) =
      tree.start (Path.parent (Path.join directory name)) := by
    rw [FileTree.start, FileTree.start, convertedPath,
      Path.isAbsolute_join (isName_eventFilename id)]
  rw [start]
  exact FileTree.follow_parent named resolved solid

theorem place?_convertedPath (resolved : tree.resolve directory = .ok place)
    (solid : ∀ content readOnly, tree.lookup place ≠ some (.file content readOnly)) {name : String}
    (named : Path.IsName name) {id : UInt32} {location : Location}
    (target : tree.place? (convertedPath (Path.join directory name) id) = some location) :
    location = place ++ [eventFilename id] := by
  obtain ⟨_, _, _, _, faultless, _⟩ := FileTree.place?_eq_some_iff.mp target
  rw [place?_of_faultless resolved solid named faultless] at target
  exact (Option.some.inj target).symm

/-- Files that are not called like events do not change what is found. -/
theorem discover_of_writes {allowed : Location → Prop} {after : FileTree} (sound : tree.WellFormed)
    (writes : FileTree.Writes allowed tree after)
    (unlike : ∀ location name, allowed location → location.getLast? = some name →
      isCandidate name = false) (found : discover tree directory = .ok paths) :
    discover after directory = .ok paths := by
  obtain ⟨place, resolved, solid, rfl⟩ := exists_place_of_discover found
  obtain ⟨led, there⟩ :=
    FileTree.resolve_directory sound writes.sameDirectories resolved solid
  have unfound : ∀ content readOnly, after.lookup place ≠ some (.file content readOnly) := by
    rw [there]
    nofun
  have listed : candidatesIn after.entries place = candidatesIn tree.entries place := by
    clear found resolved solid led there sound unfound
    induction writes with
    | done tree => rfl
    | more inside _ _ ih =>
        exact ih.trans (candidatesIn_putEntry (fun name => unlike _ name inside) _ _ _)
  have same : eventsIn after directory place = eventsIn tree directory place := by
    rw [eventsIn, eventsIn, listed]
    refine List.filter_congr fun name inside => ?_
    have known := isName_of_mem_candidatesIn sound inside
    have kept : after.lookup (place ++ [name]) = tree.lookup (place ++ [name]) := by
      refine writes.lookup_eq fun written => ?_
      have candidate := (mem_candidatesIn inside).1
      rw [unlike _ name written List.getLast?_concat] at candidate
      cases candidate
    rw [FileTree.isFile_eq, FileTree.isFile_eq,
      FileTree.readBytes_join_congr known resolved solid led unfound kept]
  rw [discover_eq led unfound, same]

end Discover

end SceneGallery.Gallery
