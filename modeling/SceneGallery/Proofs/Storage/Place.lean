import SceneGallery.Proofs.Storage.Path
import SceneGallery.Storage.Tree
set_option autoImplicit false

namespace SceneGallery.Storage.FileTree

/-- A tree as files can be in it: everything but the root has a name and is in a directory. -/
structure WellFormed (tree : FileTree) : Prop where
  here : tree.lookup tree.here = some .directory
  inside : ∀ location name, tree.lookup (location ++ [name]) ≠ none →
    tree.lookup location = some .directory ∧ Path.IsName name

theorem wellFormed_of_entries {tree : FileTree} (here : tree.lookup tree.here = some .directory)
    (inside : ∀ entry ∈ tree.entries, tree.lookup entry.1.dropLast = some .directory ∧
      Path.IsName (entry.1.getLast?.getD "")) :
    tree.WellFormed where
  here := here
  inside := by
    intro location name found
    rw [lookup, if_neg (by simp), Ne, List.lookup_eq_none_iff] at found
    push Not at found
    obtain ⟨entry, member, same⟩ := found
    have spelled : location ++ [name] = entry.1 := by simpa using same
    have below := inside entry member
    rwa [← spelled, List.dropLast_concat, List.getLast?_concat] at below

theorem WellFormed.lookup_dropLast {tree : FileTree} (sound : tree.WellFormed)
    {location : Location} (there : tree.lookup location = some .directory) :
    tree.lookup location.dropLast = some .directory := by
  rcases List.eq_nil_or_concat' location with rfl | ⟨front, last, rfl⟩
  · exact there
  · rw [List.dropLast_concat]
    exact (sound.inside front last (by rw [there]; exact Option.some_ne_none _)).1

theorem WellFormed.lookup_start {tree : FileTree} (sound : tree.WellFormed) (path : String) :
    tree.lookup (tree.start path) = some .directory := by
  rw [FileTree.start]
  split
  · rw [lookup, if_pos rfl]
  · exact sound.here

/-- Two trees in which the same paths lead to directories. -/
structure SameDirectories (tree other : FileTree) : Prop where
  here : other.here = tree.here
  directories : ∀ location,
    other.lookup location = some .directory ↔ tree.lookup location = some .directory

section Follow

variable {tree : FileTree}

theorem follow_here (location : Location) (names : List String) :
    tree.follow location ("." :: names) = tree.follow location names := by
  rw [follow, if_pos rfl]

theorem follow_above (location : Location) (names : List String) :
    tree.follow location (".." :: names) = tree.follow location.dropLast names := by
  rw [follow, if_neg (by decide), if_pos rfl]

theorem follow_name {name : String} (notHere : name ≠ ".") (notAbove : name ≠ "..")
    (location : Location) (names : List String) :
    tree.follow location (name :: names) =
      if longestName < name.utf8ByteSize then .error .nameTooLong
      else
        match tree.lookup (location ++ [name]) with
        | none => .error .notFound
        | some .directory => tree.follow (location ++ [name]) names
        | some (.file _ _) =>
          if names.isEmpty then .ok (location ++ [name]) else .error .notDirectory := by
  exact (if_neg notHere).trans (if_neg notAbove)

/-- A way that ends at a directory is the same in all trees with the same directories. -/
theorem follow_directory {other : FileTree} (same : SameDirectories tree other)
    (location : Location) (names : List String) :
    (other.follow location (names ++ ["."])).toOption =
      (tree.follow location (names ++ ["."])).toOption := by
  induction names generalizing location with
  | nil => rw [List.nil_append, follow_here, follow_here, follow, follow]
  | cons name rest ih =>
      rw [List.cons_append]
      by_cases notHere : name = "."
      · subst notHere
        rw [follow_here, follow_here, ih]
      by_cases notAbove : name = ".."
      · subst notAbove
        rw [follow_above, follow_above, ih]
      rw [follow_name notHere notAbove, follow_name notHere notAbove]
      have known := same.directories (location ++ [name])
      by_cases long : longestName < name.utf8ByteSize
      · rw [if_pos long, if_pos long]
      · rw [if_neg long, if_neg long]
        rcases there : tree.lookup (location ++ [name]) with _ | ⟨_, _⟩ | _ <;>
          rcases found : other.lookup (location ++ [name]) with _ | ⟨_, _⟩ | _ <;>
          simp_all [Except.toOption]

/-- A way that ends with a name leads to the directory before the name first. -/
theorem follow_concat (name : String) (location : Location) (names : List String) :
    tree.follow location (names ++ [name]) =
      (tree.follow location (names ++ ["."])).bind fun directory =>
        tree.follow directory [name] := by
  induction names generalizing location with
  | nil =>
      rw [List.nil_append, List.nil_append, follow_here, follow, Except.bind]
  | cons first rest ih =>
      rw [List.cons_append, List.cons_append]
      by_cases here : first = "."
      · subst here
        rw [follow_here, follow_here, ih]
      by_cases above : first = ".."
      · subst above
        rw [follow_above, follow_above, ih]
      rw [follow_name here above, follow_name here above]
      by_cases long : longestName < first.utf8ByteSize
      · rw [if_pos long, if_pos long]
        rfl
      · rw [if_neg long, if_neg long]
        rcases tree.lookup (location ++ [first]) with _ | ⟨_, _⟩ | _
        · rfl
        · simp [Except.bind]
        · exact ih _

theorem follow_filter (location : Location) (names : List String) :
    tree.follow location ((names.filter fun name => name != ".") ++ ["."]) =
      tree.follow location (names ++ ["."]) := by
  induction names generalizing location with
  | nil => rfl
  | cons name rest ih =>
      by_cases notHere : name = "."
      · subst notHere
        rw [List.cons_append, follow_here]
        exact ih location
      · rw [List.filter_cons_of_pos (by simpa using notHere), List.cons_append, List.cons_append]
        by_cases notAbove : name = ".."
        · subst notAbove
          rw [follow_above, follow_above, ih]
        · rw [follow_name notHere notAbove, follow_name notHere notAbove]
          rcases tree.lookup (location ++ [name]) with _ | ⟨_, _⟩ | _
          · rfl
          · simp
          · simp only [ih]

/-- A way that does not end at a file ends at a directory. -/
theorem follow_end {location place : Location} {names : List String}
    (followed : tree.follow location names = .ok place)
    (solid : ∀ content readOnly, tree.lookup place ≠ some (.file content readOnly)) :
    tree.follow location (names ++ ["."]) = .ok place := by
  induction names generalizing location with
  | nil => rw [List.nil_append, follow_here, followed]
  | cons name rest ih =>
      rw [List.cons_append]
      by_cases notHere : name = "."
      · subst notHere
        rw [follow_here] at followed ⊢
        exact ih followed
      by_cases notAbove : name = ".."
      · subst notAbove
        rw [follow_above] at followed ⊢
        exact ih followed
      rw [follow_name notHere notAbove] at followed ⊢
      by_cases long : longestName < name.utf8ByteSize
      · rw [if_pos long] at followed
        cases followed
      · rw [if_neg long] at followed ⊢
        rcases there : tree.lookup (location ++ [name]) with _ | ⟨content, readOnly⟩ | _
        · rw [there] at followed
          cases followed
        · rw [there] at followed
          simp only at followed
          split at followed
          · cases followed
            exact absurd there (solid content readOnly)
          · cases followed
        · rw [there] at followed
          exact ih followed

theorem follow_of_end {location place : Location} {names : List String}
    (followed : tree.follow location (names ++ ["."]) = .ok place) :
    tree.follow location names = .ok place := by
  induction names generalizing location with
  | nil => rwa [List.nil_append, follow_here] at followed
  | cons name rest ih =>
      rw [List.cons_append] at followed
      by_cases notHere : name = "."
      · subst notHere
        rw [follow_here] at followed ⊢
        exact ih followed
      by_cases notAbove : name = ".."
      · subst notAbove
        rw [follow_above] at followed ⊢
        exact ih followed
      rw [follow_name notHere notAbove] at followed ⊢
      by_cases long : longestName < name.utf8ByteSize
      · rw [if_pos long] at followed
        cases followed
      · rw [if_neg long] at followed ⊢
        rcases there : tree.lookup (location ++ [name]) with _ | ⟨content, readOnly⟩ | _
        · rw [there] at followed
          cases followed
        · rw [there] at followed
          simp at followed
        · rw [there] at followed
          exact ih followed

/-- In a well-formed tree every way ends at something that is there. -/
theorem lookup_of_follow (sound : tree.WellFormed) {location place : Location}
    {names : List String} (start : tree.lookup location = some .directory)
    (followed : tree.follow location names = .ok place) : tree.lookup place ≠ none := by
  induction names generalizing location with
  | nil =>
      rw [follow] at followed
      cases followed
      rw [start]
      exact Option.some_ne_none _
  | cons name rest ih =>
      by_cases notHere : name = "."
      · subst notHere
        rw [follow_here] at followed
        exact ih start followed
      by_cases notAbove : name = ".."
      · subst notAbove
        rw [follow_above] at followed
        exact ih (sound.lookup_dropLast start) followed
      rw [follow_name notHere notAbove] at followed
      split at followed
      · cases followed
      · split at followed
        · cases followed
        · rename_i directory
          exact ih directory followed
        · rename_i content there
          split at followed
          · cases followed
            rw [there]
            exact Option.some_ne_none _
          · cases followed

theorem exists_name_of_follow (sound : tree.WellFormed) {location place : Location}
    {names : List String} {content : ByteArray} {readOnly : Bool}
    (start : tree.lookup location = some .directory)
    (followed : tree.follow location names = .ok place)
    (file : tree.lookup place = some (.file content readOnly)) :
    ∃ front name, names = front ++ [name] ∧ name ≠ "." ∧ name ≠ ".." := by
  induction names generalizing location with
  | nil =>
      rw [follow] at followed
      cases followed
      rw [start] at file
      cases file
  | cons name rest ih =>
      by_cases notHere : name = "."
      · subst notHere
        rw [follow_here] at followed
        obtain ⟨front, last, rfl, named⟩ := ih start followed
        exact ⟨"." :: front, last, rfl, named⟩
      by_cases notAbove : name = ".."
      · subst notAbove
        rw [follow_above] at followed
        obtain ⟨front, last, rfl, named⟩ := ih (sound.lookup_dropLast start) followed
        exact ⟨".." :: front, last, rfl, named⟩
      rw [follow_name notHere notAbove] at followed
      split at followed
      · cases followed
      · split at followed
        · cases followed
        · rename_i directory
          obtain ⟨front, last, rfl, named⟩ := ih directory followed
          exact ⟨name :: front, last, rfl, named⟩
        · split at followed
          · rename_i none
            rw [List.isEmpty_iff.mp none]
            exact ⟨[], name, rfl, notHere, notAbove⟩
          · cases followed

end Follow

/-- The place of the file that a path is for. -/
def place? (tree : FileTree) (path : String) : Option Location :=
  match pathFault? path, (Path.names path).getLast? with
  | none, some name =>
    if name = "." ∨ name = ".." ∨ Path.endsWithSlash path ∨
        longestName < name.utf8ByteSize then none
    else
      (tree.follow (tree.start path) ((Path.names path).dropLast ++ ["."])).toOption.map
        (· ++ [name])
  | _, _ => none

/-- A path for a file: its last name is that of a file. -/
structure IsFilePath (path : String) (front : List String) (name : String) : Prop where
  spelled : Path.names path = front ++ [name]
  notHere : name ≠ "."
  notAbove : name ≠ ".."
  unslashed : Path.endsWithSlash path = false

theorem isFilePath_join {name : String} (known : Path.IsName name) (directory : String) :
    IsFilePath (Path.join directory name) (Path.names directory) name where
  spelled := Path.names_join known
  notHere := known.notHere
  notAbove := known.notAbove
  unslashed := Path.endsWithSlash_join known

/-- What is put behind a path makes one for a file, if it is too long for a name of dots. -/
theorem isFilePath_append {path last suffix : String} {front : List String}
    (spelled : Path.names (path ++ suffix) = front ++ [last ++ suffix])
    (undivided : '/' ∉ suffix.toList) (long : 2 < suffix.toList.length) :
    IsFilePath (path ++ suffix) front (last ++ suffix) := by
  have length : (last ++ suffix).toList.length = last.toList.length + suffix.toList.length := by
    rw [String.toList_append, List.length_append]
  have longer (short : String) (bound : short.toList.length ≤ 2) : last ++ suffix ≠ short := by
    rintro rfl
    omega
  exact ⟨spelled, longer "." (by decide), longer ".." (by decide),
    Path.endsWithSlash_append undivided (by
      rintro rfl
      exact absurd long (by decide))⟩

section Place

variable {tree : FileTree} {path : String} {location : Location}

theorem toOption_eq_some_iff {ε α : Type} {outcome : Except ε α} {a : α} :
    outcome.toOption = some a ↔ outcome = .ok a := by
  cases outcome <;> simp [Except.toOption]

theorem place?_eq_some_iff :
    tree.place? path = some location ↔
      ∃ front name directory, IsFilePath path front name ∧ pathFault? path = none ∧
        name.utf8ByteSize ≤ longestName ∧
        tree.follow (tree.start path) (front ++ ["."]) = .ok directory ∧
        location = directory ++ [name] := by
  rw [place?]
  constructor
  · intro found
    split at found
    · rename_i name faultless last
      split at found
      · cases found
      · rename_i proper
        obtain ⟨notHere, notAbove, unslashed, short⟩ : name ≠ "." ∧ name ≠ ".." ∧
            Path.endsWithSlash path = false ∧ name.utf8ByteSize ≤ longestName := by
          simpa [not_or] using proper
        obtain ⟨directory, followed, rfl⟩ := Option.map_eq_some_iff.mp found
        obtain ⟨front, spelled⟩ := List.getLast?_eq_some_iff.mp last
        rw [spelled, List.dropLast_concat, toOption_eq_some_iff] at followed
        exact ⟨front, name, directory, ⟨spelled, notHere, notAbove, unslashed⟩, faultless, short,
          followed, rfl⟩
    · cases found
  · rintro ⟨front, name, directory, known, faultless, short, followed, rfl⟩
    have proper : ¬ (name = "." ∨ name = ".." ∨ Path.endsWithSlash path = true ∨
        longestName < name.utf8ByteSize) := by
      simp [known.notHere, known.notAbove, known.unslashed, short]
    rw [faultless, known.spelled, List.getLast?_concat, List.dropLast_concat]
    simp only [proper, ↓reduceIte, followed]
    rfl

theorem getLast?_place {front : List String} {name : String} (known : IsFilePath path front name)
    (found : tree.place? path = some location) : location.getLast? = some name := by
  obtain ⟨other, last, directory, same, _, _, _, rfl⟩ := place?_eq_some_iff.mp found
  have names := known.spelled.symm.trans same.spelled
  rw [List.getLast?_concat, (List.append_inj_right' names rfl |> List.singleton_inj.mp)]

/-- A file beside another one has its place in the same directory. -/
theorem place?_beside {name : String} {beside : Location} (known : Path.IsName name)
    (found : tree.place? path = some location)
    (target : tree.place? (Path.join (Path.parent path) name) = some beside) :
    beside = location.dropLast ++ [name] := by
  obtain ⟨front, last, directory, own, _, _, followed, rfl⟩ := place?_eq_some_iff.mp found
  obtain ⟨steps, absolute⟩ :=
    Path.parent_of_file own.spelled own.notHere own.notAbove own.unslashed
  obtain ⟨_, _, other, spelled, _, _, arrived, rfl⟩ := place?_eq_some_iff.mp target
  obtain ⟨rfl, single⟩ := List.append_inj' ((Path.names_join known).symm.trans spelled.spelled) rfl
  obtain rfl := List.singleton_inj.mp single
  have start : tree.start (Path.join (Path.parent path) name) = tree.start path := by
    rw [FileTree.start, FileTree.start, Path.isAbsolute_join known, absolute]
  have same : (Path.names (Path.parent path)).filter (fun name => name != ".") =
      front.filter fun name => name != "." := steps
  rw [start, ← follow_filter, same, follow_filter, followed] at arrived
  rw [List.dropLast_concat, Except.ok.inj arrived]

theorem resolve_of_no_place {front : List String} {name : String}
    (known : IsFilePath path front name) (missing : tree.place? path = none) :
    ∃ fault, tree.resolve path = .error fault := by
  rw [resolve]
  cases faultless : pathFault? path with
  | some fault => exact ⟨fault, rfl⟩
  | none =>
      simp only [known.unslashed, Bool.false_eq_true, ↓reduceIte, List.append_nil, known.spelled]
      rw [follow_concat]
      cases followed : tree.follow (tree.start path) (front ++ ["."]) with
      | error fault => exact ⟨fault, rfl⟩
      | ok directory =>
          rw [Except.bind, follow_name known.notHere known.notAbove]
          by_cases long : longestName < name.utf8ByteSize
          · exact ⟨.nameTooLong, if_pos long⟩
          · have found := place?_eq_some_iff.mpr ⟨front, name, directory, known, faultless,
              Nat.le_of_not_lt long, followed, rfl⟩
            rw [missing] at found
            cases found

theorem hasPath_of_no_place {front : List String} {name : String}
    (known : IsFilePath path front name) (missing : tree.place? path = none) :
    tree.hasPath path = false := by
  obtain ⟨fault, failed⟩ := resolve_of_no_place known missing
  rw [hasPath, failed]
  rfl

/-- A path with a place leads there if something is there, and else nowhere. -/
theorem resolve_of_place (found : tree.place? path = some location) :
    tree.resolve path =
      if (tree.lookup location).isSome then .ok location else .error .notFound := by
  obtain ⟨front, name, directory, known, faultless, short, followed, rfl⟩ :=
    place?_eq_some_iff.mp found
  rw [resolve, faultless]
  simp only [known.unslashed, Bool.false_eq_true, ↓reduceIte, List.append_nil, known.spelled]
  rw [follow_concat, followed, Except.bind, follow_name known.notHere known.notAbove,
    if_neg (Nat.not_lt.mpr short)]
  rcases tree.lookup (directory ++ [name]) with _ | ⟨_, _⟩ | _ <;> rfl

theorem hasPath_of_place (found : tree.place? path = some location) :
    tree.hasPath path = (tree.lookup location).isSome := by
  rw [hasPath, resolve_of_place found]
  cases tree.lookup location <;> rfl

theorem readBytes_of_place (found : tree.place? path = some location) :
    tree.readBytes path =
      match tree.lookup location with
      | some (.file content _) => .ok content
      | some .directory => .error .isDirectory
      | none => .error .notFound := by
  rw [readBytes, resolve_of_place found]
  rcases there : tree.lookup location with _ | ⟨_, _⟩ | _ <;>
    simp [there, bind, Except.bind]

theorem isFile_eq (tree : FileTree) (path : String) :
    tree.isFile path = (tree.readBytes path).toBool := by
  rw [isFile, readBytes]
  cases tree.resolve path with
  | error fault => rfl
  | ok location =>
      simp only [bind, Except.bind]
      rcases tree.lookup location with _ | ⟨_, _⟩ | _ <;> rfl

/-- A file is written at the place of its path, if nothing that cannot be written over is there. -/
theorem target_eq_ok_iff :
    tree.target path = .ok location ↔
      tree.place? path = some location ∧ (tree.lookup location).all Node.isWritable = true := by
  rw [target, place?]
  cases pathFault? path with
  | some fault => simp
  | none =>
      cases (Path.names path).getLast? with
      | none => simp
      | some name =>
          simp only [bind, Except.bind]
          cases tree.follow (tree.start path) ((Path.names path).dropLast ++ ["."]) with
          | error fault => simp [Except.toOption]
          | ok directory =>
              simp only
              by_cases proper : name = "." ∨ name = ".." ∨ Path.endsWithSlash path = true
              · rw [if_pos proper, if_pos (by tauto)]
                simp
              · rw [if_neg proper, targetIn]
                by_cases long : longestName < name.utf8ByteSize
                · rw [if_pos long, if_pos (by tauto)]
                  simp
                · rw [if_neg long, if_neg (by tauto)]
                  rcases there : tree.lookup (directory ++ [name]) with _ | ⟨_, _ | _⟩ | _ <;>
                    simp [Except.toOption] <;> rintro rfl <;> simp [there, Node.isWritable]

theorem resolve_of_readBytes {content : ByteArray} (read : tree.readBytes path = .ok content) :
    ∃ place readOnly, tree.resolve path = .ok place ∧
      tree.lookup place = some (.file content readOnly) := by
  rw [readBytes] at read
  cases resolved : tree.resolve path with
  | error fault =>
      rw [resolved] at read
      cases read
  | ok place =>
      rw [resolved] at read
      simp only [bind, Except.bind] at read
      split at read
      · rename_i readOnly there
        cases read
        exact ⟨place, readOnly, rfl, there⟩
      · cases read
      · cases read

theorem faultless_of_resolve (resolved : tree.resolve path = .ok location) :
    pathFault? path = none := by
  cases faulty : pathFault? path with
  | none => rfl
  | some fault =>
      rw [resolve, faulty] at resolved
      cases resolved

theorem isFilePath_of_resolve (sound : tree.WellFormed) {content : ByteArray} {readOnly : Bool}
    (resolved : tree.resolve path = .ok location)
    (file : tree.lookup location = some (.file content readOnly)) :
    ∃ front name, IsFilePath path front name := by
  have faultless := faultless_of_resolve resolved
  rw [resolve, faultless] at resolved
  obtain ⟨front, name, spelled, notHere, notAbove⟩ :=
    exists_name_of_follow sound (sound.lookup_start path) resolved file
  -- A slash at the end stands for a last name of one dot, and that is not the name of a file.
  have unslashed : Path.endsWithSlash path = false := by
    cases slash : Path.endsWithSlash path with
    | false => rfl
    | true =>
        rw [slash, if_pos rfl] at spelled
        exact absurd (List.append_inj_right' spelled rfl) (by simpa using Ne.symm notHere)
  rw [unslashed, if_neg Bool.false_ne_true, List.append_nil] at spelled
  exact ⟨front, name, spelled, notHere, notAbove, unslashed⟩

/-- In a well-formed tree what is read is at the place of its path. -/
theorem place_of_readBytes (sound : tree.WellFormed) {content : ByteArray}
    (read : tree.readBytes path = .ok content) :
    ∃ location readOnly, tree.place? path = some location ∧
      tree.lookup location = some (.file content readOnly) := by
  obtain ⟨place, readOnly, resolved, file⟩ := resolve_of_readBytes read
  obtain ⟨front, name, known⟩ := isFilePath_of_resolve sound resolved file
  cases found : tree.place? path with
  | none =>
      obtain ⟨fault, failed⟩ := resolve_of_no_place known found
      rw [resolved] at failed
      cases failed
  | some location =>
      rw [resolve_of_place found] at resolved
      split at resolved
      · cases resolved
        exact ⟨place, readOnly, rfl, file⟩
      · cases resolved

theorem place?_eq {other : FileTree} (same : SameDirectories tree other) (path : String) :
    other.place? path = tree.place? path := by
  have start : other.start path = tree.start path := by
    rw [FileTree.start, FileTree.start, same.here]
  simp only [place?, start, follow_directory same]

/-- A path leads to the same directory in all trees with the same directories. -/
theorem resolve_directory {other : FileTree} (sound : tree.WellFormed)
    (same : SameDirectories tree other) (resolved : tree.resolve path = .ok location)
    (solid : ∀ content readOnly, tree.lookup location ≠ some (.file content readOnly)) :
    other.resolve path = .ok location ∧ other.lookup location = some .directory := by
  have start : other.start path = tree.start path := by
    rw [FileTree.start, FileTree.start, same.here]
  rw [resolve] at resolved ⊢
  cases faulty : pathFault? path with
  | some fault =>
      rw [faulty] at resolved
      cases resolved
  | none =>
      rw [faulty] at resolved
      have there : tree.lookup location = some .directory := by
        have found := lookup_of_follow sound (sound.lookup_start path) resolved
        rcases kind : tree.lookup location with _ | ⟨content, readOnly⟩ | _
        · exact absurd kind found
        · exact absurd kind (solid content readOnly)
        · rfl
      refine ⟨?_, (same.directories location).mpr there⟩
      simp only [start]
      have ended (names : List String)
          (followed : tree.follow (tree.start path) (names ++ ["."]) = .ok location) :
          other.follow (tree.start path) (names ++ ["."]) = .ok location := by
        have option := follow_directory same (tree.start path) names
        rw [followed] at option
        exact toOption_eq_some_iff.mp option
      by_cases slash : Path.endsWithSlash path = true
      · simp only [slash, ↓reduceIte] at resolved ⊢
        exact ended _ resolved
      · simp only [slash, Bool.false_eq_true, ↓reduceIte, List.append_nil] at resolved ⊢
        exact follow_of_end (ended _ (follow_end resolved solid))

theorem follow_of_resolve (resolved : tree.resolve path = .ok location)
    (solid : ∀ content readOnly, tree.lookup location ≠ some (.file content readOnly)) :
    tree.follow (tree.start path) (Path.names path ++ ["."]) = .ok location := by
  rw [resolve] at resolved
  split at resolved
  · cases resolved
  · split at resolved
    · exact resolved
    · rw [List.append_nil] at resolved
      exact follow_end resolved solid

/-- The directory of a file is spelled in another way in the path of the file, and is the same. -/
theorem follow_parent {name : String} (known : Path.IsName name)
    (resolved : tree.resolve path = .ok location)
    (solid : ∀ content readOnly, tree.lookup location ≠ some (.file content readOnly)) :
    tree.follow (tree.start (Path.parent (Path.join path name)))
      (Path.names (Path.parent (Path.join path name)) ++ ["."]) = .ok location := by
  obtain ⟨up, parents, steps, absolute⟩ := Path.exists_parent path
  have start : tree.start up = tree.start path := by
    rw [FileTree.start, FileTree.start, absolute]
  have same : (Path.names up).filter (fun name => name != ".") =
      (Path.names path).filter fun name => name != "." := steps
  rw [parents name known, start, ← follow_filter, same, follow_filter]
  exact follow_of_resolve resolved solid

/-- Where the path of a file in a directory leads is decided by the path and by what is there. -/
theorem resolve_join {name : String} (known : Path.IsName name)
    (resolved : tree.resolve path = .ok location)
    (solid : ∀ content readOnly, tree.lookup location ≠ some (.file content readOnly)) :
    tree.resolve (Path.join path name) =
      match pathFault? (Path.join path name) with
      | some fault => .error fault
      | none =>
        if longestName < name.utf8ByteSize then .error .nameTooLong
        else if (tree.lookup (location ++ [name])).isSome then .ok (location ++ [name])
        else .error .notFound := by
  have start : tree.start (Path.join path name) = tree.start path := by
    rw [FileTree.start, FileTree.start, Path.isAbsolute_join known]
  rw [resolve]
  cases pathFault? (Path.join path name) with
  | some fault => rfl
  | none =>
      simp only [Path.endsWithSlash_join known, Bool.false_eq_true, ↓reduceIte, List.append_nil,
        Path.names_join known, start]
      rw [follow_concat, follow_of_resolve resolved solid, Except.bind,
        follow_name known.notHere known.notAbove]
      rcases tree.lookup (location ++ [name]) with _ | ⟨_, _⟩ | _ <;> rfl

theorem readBytes_join_congr {other : FileTree} {name : String} (known : Path.IsName name)
    (resolved : tree.resolve path = .ok location)
    (solid : ∀ content readOnly, tree.lookup location ≠ some (.file content readOnly))
    (again : other.resolve path = .ok location)
    (solidAgain : ∀ content readOnly, other.lookup location ≠ some (.file content readOnly))
    (same : other.lookup (location ++ [name]) = tree.lookup (location ++ [name])) :
    other.readBytes (Path.join path name) = tree.readBytes (Path.join path name) := by
  have leads : other.resolve (Path.join path name) = tree.resolve (Path.join path name) := by
    rw [resolve_join known again solidAgain, resolve_join known resolved solid, same]
  rw [readBytes, readBytes, leads]
  cases found : tree.resolve (Path.join path name) with
  | error fault => rfl
  | ok place =>
      obtain rfl : place = location ++ [name] := by
        rw [resolve_join known resolved solid] at found
        split at found
        · cases found
        · split at found
          · cases found
          · split at found
            · exact (Except.ok.inj found).symm
            · cases found
      simp only [bind, Except.bind, same]

end Place

end SceneGallery.Storage.FileTree
