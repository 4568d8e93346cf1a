import SceneGallery.Proofs.CommandLine.Updated
set_option autoImplicit false

namespace SceneGallery.CommandLine

open Storage Gallery

/-- The scene library that a command names. -/
def Command.library? : Command → Option String
  | .usage => none
  | .convert options => some options.library
  | .check filename => some filename

/-- The files after some commands. -/
def runAll (tree : FileTree) (commands : List Command) : FileTree :=
  commands.foldl (fun tree command => (command.run tree).tree) tree

/-- A conversion that brings a new scene to the library. -/
def AddsScene (options : ConvertOptions) (tree : FileTree) : Prop :=
  options.skipLibrary = false ∧
    ∃ paths content library, discover tree options.events = .ok paths ∧
      load (runEvents options.settings tree paths).tree options.library = .ok content ∧
      Library.parse content = .ok library ∧
      (library.merge (runEvents options.settings tree paths).descriptors).2.any
        (·.isInserted) = true

section Run

variable {library : String} {front : List String} {last : String} {tree : FileTree}

/-- How a conversion changes the files: the events come first, then perhaps the library. -/
theorem runConvert_tree (options : ConvertOptions) (tree : FileTree) :
    (runConvert options tree).tree = tree ∨
      ∃ paths, discover tree options.events = .ok paths ∧
        let events := runEvents options.settings tree paths
        (runConvert options tree).tree = events.tree ∨
          options.skipLibrary = false ∧
            (runConvert options tree).tree =
              (updateLibrary events.tree options.library events.descriptors).tree := by
  cases found : discover tree options.events with
  | error problem =>
      rw [runConvert, found]
      exact .inl rfl
  | ok paths =>
      refine .inr ⟨paths, rfl, ?_⟩
      cases skipped : options.skipLibrary with
      | true =>
          left
          simp only [runConvert, found, skipped, ↓reduceIte]
      | false => exact .inr ⟨rfl, tree_runConvert found skipped⟩

theorem writes_runCheck (names : LibraryNames library front last) (tree : FileTree) {name : String}
    (other : last ++ ".test" ≠ name) :
    FileTree.Writes (fun place => place.getLast? ≠ some name) tree
      (runCheck library tree).tree := by
  rw [runCheck]
  cases load tree library with
  | error problem => exact .done tree
  | ok content =>
      simp only
      cases Library.parse content with
      | error error => exact .done tree
      | ok read =>
          simp only
          cases written : tree.write (checkedPath library) read.serialize.toUTF8 with
          | error fault => exact .done tree
          | ok after =>
              have writes : FileTree.Writes (fun place => place.getLast? ≠ some name) tree after :=
                FileTree.writes_of_write written fun location found same =>
                  other (Option.some.inj
                    ((FileTree.getLast?_place names.checked found).symm.trans same))
              simp only
              split <;> exact writes

theorem Updates.writes_of_copy (names : LibraryNames library front last)
    {descriptors : List Descriptor} {result : Option (List Library.Placement)} {after : FileTree}
    (updates : Updates tree library descriptors result after)
    (there : tree.hasPath (backupPath library) = true) :
    FileTree.Writes (fun place => place.getLast? ≠ some (last ++ ".bak")) tree after := by
  have same {kept : FileTree} (safe : Kept tree library kept) : kept = tree := by
    cases safe with
    | there => rfl
    | copied missing => rw [there] at missing; cases missing
  cases updates with
  | unread => exact .done tree
  | unchanged => exact .done tree
  | saved _ _ _ saves =>
      cases saves with
      | uncopied => exact .done tree
      | unwritten safe => rw [same safe]; exact .done tree
      | written safe written =>
          rw [same safe] at written
          exact (writes_library names written).of_other_name (ne_append (by decide))

/-- A library that has no copy yet is as it was, or its copy is made before it is written. -/
theorem Updates.original (names : LibraryNames library front last) (own : last ≠ last ++ ".bak")
    {descriptors : List Descriptor} {result : Option (List Library.Placement)} {after : FileTree}
    (updates : Updates tree library descriptors result after) {bytes : ByteArray}
    (missing : tree.hasPath (backupPath library) = false)
    (there : tree.readBytes library = .ok bytes) :
    after = tree ∨ after.readBytes (backupPath library) = .ok bytes := by
  have copied {kept : FileTree} (safe : Kept tree library kept) :
      kept.readBytes (backupPath library) = .ok bytes := by
    cases safe with
    | there there => rw [there] at missing; cases missing
    | copied _ copied =>
        obtain ⟨content, readOnly, read, written⟩ := FileTree.write_of_copy copied
        rw [there] at read
        cases read
        exact FileTree.readBytes_of_write written
  cases updates with
  | unread => exact .inl rfl
  | unchanged => exact .inl rfl
  | saved _ _ _ saves =>
      cases saves with
      | uncopied => exact .inl rfl
      | unwritten safe => exact .inr (copied safe)
      | written safe written =>
          have read := copied safe
          refine .inr ?_
          have other := (writes_library names written).of_other_name own
          rw [other.readBytes_eq_of_name names.backup ?_, read]
          exact FileTree.hasPath_of_readBytes read

theorem Updates.added {descriptors : List Descriptor} {result : Option (List Library.Placement)}
    {after : FileTree} (updates : Updates tree library descriptors result after) :
    after = tree ∨ ∃ content read, load tree library = .ok content ∧
      Library.parse content = .ok read ∧
      (read.merge descriptors).2.any (·.isInserted) = true := by
  cases updates with
  | unread => exact .inl rfl
  | unchanged => exact .inl rfl
  | saved loaded parsed added => exact .inr ⟨_, _, loaded, parsed, added⟩

theorem writes_run_of_copy (names : LibraryNames library front last) {command : Command}
    (named : command.library? = some library) (there : tree.hasPath (backupPath library) = true) :
    FileTree.Writes (fun place => place.getLast? ≠ some (last ++ ".bak")) tree
      (command.run tree).tree := by
  have unlike : last ++ ".test" ≠ last ++ ".bak" := by
    rw [Ne, String.append_right_inj]
    decide
  have foreign (id : UInt32) : eventFilename id ≠ last ++ ".bak" :=
    eventFilename_ne_append (by decide) (by decide) id last
  cases command with
  | usage => exact .done tree
  | check filename =>
      cases named
      exact writes_runCheck names tree unlike
  | convert options =>
      cases named
      rw [Command.run]
      rcases runConvert_tree options tree with same | ⟨paths, _, same | ⟨_, same⟩⟩
      · rw [same]
        exact .done tree
      · rw [same]
        exact writes_events _ _ _ foreign
      · have events := writes_events options.settings tree paths foreign
        rw [same]
        exact events.trans ((updateLibrary_updates _ _ _).writes_of_copy names
          ((events.hasPath_eq_of_name names.backup).trans there))

theorem writes_run (command : Command) (tree : FileTree) :
    FileTree.Writes (fun _ => True) tree (command.run tree).tree := by
  cases command with
  | usage => exact .done tree
  | check filename =>
      obtain ⟨front, last, names⟩ := exists_libraryNames filename
      have other : last ++ ".test" ≠ last := (ne_append (by decide)).symm
      exact (writes_runCheck names tree other).mono fun _ _ => trivial
  | convert options =>
      obtain ⟨front, last, names⟩ := exists_libraryNames options.library
      have events (paths : List String) := writes_events options.settings tree paths
        fun id => (isName_eventFilename id).nonempty
      rw [Command.run]
      rcases runConvert_tree options tree with same | ⟨paths, _, same | ⟨_, same⟩⟩ <;> rw [same]
      · exact .done tree
      · exact (events paths).mono fun _ _ => trivial
      · exact ((events paths).mono fun _ _ => trivial).trans
          (((updateLibrary_updates ..).writes names).mono fun _ _ => trivial)

theorem writes_run_of_unadded (names : LibraryNames library front last)
    (foreign : ∀ id, eventFilename id ≠ last) {command : Command}
    (named : command.library? = some library)
    (unadded : ∀ options, command = .convert options → ¬ AddsScene options tree) :
    FileTree.Writes (fun place => place.getLast? ≠ some last) tree (command.run tree).tree := by
  cases command with
  | usage => exact .done tree
  | check filename =>
      cases named
      exact writes_runCheck names tree (ne_append (by decide)).symm
  | convert options =>
      cases named
      rw [Command.run]
      rcases runConvert_tree options tree with same | ⟨paths, found, same | ⟨entered, same⟩⟩
      · rw [same]
        exact .done tree
      · rw [same]
        exact writes_events _ _ _ foreign
      · rw [same]
        rcases (updateLibrary_updates (runEvents options.settings tree paths).tree options.library
          (runEvents options.settings tree paths).descriptors).added with alone | ⟨content, read,
            loaded, parsed, added⟩
        · rw [alone]
          exact writes_events _ _ _ foreign
        · exact absurd ⟨entered, paths, content, read, found, loaded, parsed, added⟩
            (unadded options rfl)

/-- A library has no copy and is as it was at first. -/
def Unsaved (library : String) (bytes : ByteArray) (tree : FileTree) : Prop :=
  tree.hasPath (backupPath library) = false ∧ tree.readBytes library = .ok bytes

/-- A library is as it was at first, or its copy is. -/
def Original (library : String) (bytes : ByteArray) (tree : FileTree) : Prop :=
  Unsaved library bytes tree ∨ tree.readBytes (backupPath library) = .ok bytes

theorem unsaved_frame (names : LibraryNames library front last)
    {before : List String} (own : FileTree.IsFilePath library before last) {after : FileTree}
    {bytes : ByteArray}
    (unsaved : Unsaved library bytes tree)
    (writes : ∀ name, name = last ∨ name = last ++ ".bak" →
      FileTree.Writes (fun place => place.getLast? ≠ some name) tree after) :
    Unsaved library bytes after := by
  obtain ⟨missing, read⟩ := unsaved
  constructor
  · rw [(writes _ (.inr rfl)).hasPath_eq_of_name names.backup, missing]
  · rw [(writes _ (.inl rfl)).readBytes_eq_of_name own (FileTree.hasPath_of_readBytes read), read]

theorem unsaved_runCheck (names : LibraryNames library front last)
    {before : List String} (own : FileTree.IsFilePath library before last) {bytes : ByteArray}
    (unsaved : Unsaved library bytes tree) :
    Unsaved library bytes (runCheck library tree).tree := by
  refine unsaved_frame names own unsaved fun name which => writes_runCheck names tree ?_
  rcases which with rfl | rfl
  · exact (ne_append (by decide)).symm
  · rw [Ne, String.append_right_inj]
    decide

theorem unsaved_runEvents (names : LibraryNames library front last)
    {before : List String} (own : FileTree.IsFilePath library before last)
    (foreign : ∀ id, eventFilename id ≠ last) {bytes : ByteArray}
    (unsaved : Unsaved library bytes tree) (settings : Settings) (paths : List String) :
    Unsaved library bytes (runEvents settings tree paths).tree := by
  refine unsaved_frame names own unsaved fun name which =>
    writes_events settings tree paths fun id => ?_
  rcases which with rfl | rfl
  · exact foreign id
  · exact eventFilename_ne_append (by decide) (by decide) id last

/-- A command keeps the original. -/
theorem original_run (names : LibraryNames library front last)
    {before : List String} (own : FileTree.IsFilePath library before last)
    (foreign : ∀ id, eventFilename id ≠ last)
    {command : Command} (named : command.library? = some library) {bytes : ByteArray}
    (original : Original library bytes tree) : Original library bytes (command.run tree).tree := by
  rcases original with unsaved | copy
  · cases command with
    | usage => exact .inl unsaved
    | check filename =>
        cases named
        exact .inl (unsaved_runCheck names own unsaved)
    | convert options =>
        cases named
        rw [Command.run]
        rcases runConvert_tree options tree with same | ⟨paths, _, same | ⟨_, same⟩⟩ <;> rw [same]
        · exact .inl unsaved
        · exact .inl (unsaved_runEvents names own foreign unsaved options.settings paths)
        · have between := unsaved_runEvents names own foreign unsaved options.settings paths
          rcases (updateLibrary_updates (runEvents options.settings tree paths).tree
            options.library (runEvents options.settings tree paths).descriptors).original names
              (ne_append (by decide)) between.1 between.2 with alone | copied
          · rw [alone]
            exact .inl between
          · exact .inr copied
  · have there := FileTree.hasPath_of_readBytes copy
    exact .inr (((writes_run_of_copy names named there).readBytes_eq_of_name names.backup
      there).trans copy)

end Run

section RunAll

variable {library : String} {front : List String} {last : String}

theorem runAll_keeps {kept : FileTree → Prop}
    (keeps : ∀ command tree, Command.library? command = some library → kept tree →
      kept (command.run tree).tree)
    {commands : List Command} (named : ∀ command ∈ commands, command.library? = some library)
    {tree : FileTree} (start : kept tree) : kept (runAll tree commands) := by
  induction commands generalizing tree with
  | nil => exact start
  | cons command rest ih =>
      refine ih (fun other member => named other (List.mem_cons_of_mem _ member)) ?_
      exact keeps command tree (named command List.mem_cons_self) start

/-- The copy of a library holds the original: after any commands that name the library, it has its
first bytes and no copy, or its copy has its first bytes; and it is changed only by a conversion
that adds a scene. A copy that is there at first is never changed. -/
theorem backup_holds_original (tree : FileTree) (library : String) (commands : List Command)
    (named : ∀ command ∈ commands, command.library? = some library) :
    (∀ bytes, tree.WellFormed → tree.readBytes library = .ok bytes →
      tree.hasPath (backupPath library) = false →
      (∀ id, (Path.names library).getLast? ≠ some (eventFilename id)) →
        let after := runAll tree commands
        ((after.hasPath (backupPath library) = false ∧ after.readBytes library = .ok bytes) ∨
          after.readBytes (backupPath library) = .ok bytes) ∧
        ∀ command : Command, command.library? = some library →
          (command.run after).tree.readBytes library ≠ after.readBytes library →
            ∃ options, command = .convert options ∧ AddsScene options after) ∧
    (tree.hasPath (backupPath library) = true →
      (runAll tree commands).readBytes (backupPath library) =
        tree.readBytes (backupPath library)) := by
  obtain ⟨front, last, names⟩ := exists_libraryNames library
  refine ⟨?_, ?_⟩
  · intro bytes sound read missing unlike after
    obtain ⟨location, _, found, file⟩ := FileTree.place_of_readBytes sound read
    obtain ⟨before, name, directory, own, _⟩ := FileTree.place?_eq_some_iff.mp found
    obtain rfl := names.own before name own
    have foreign (id : UInt32) : eventFilename id ≠ name := by
      rintro rfl
      exact unlike id (by rw [own.spelled, List.getLast?_concat])
    have original : Original library bytes after :=
      runAll_keeps (fun command tree named => original_run names own foreign named) named
        (.inl ⟨missing, read⟩)
    have there : after.hasPath library = true :=
      runAll_keeps (fun command tree _ => (writes_run command tree).hasPath_of_hasPath own) named
        (FileTree.hasPath_of_readBytes read)
    refine ⟨original, ?_⟩
    intro command named changed
    by_contra unadded
    refine changed ((writes_run_of_unadded names foreign named ?_).readBytes_eq_of_name own there)
    exact fun options same adds => unadded ⟨options, same, adds⟩
  · intro there
    let kept (after : FileTree) : Prop := after.hasPath (backupPath library) = true ∧
      after.readBytes (backupPath library) = tree.readBytes (backupPath library)
    suffices all : kept (runAll tree commands) from all.2
    refine runAll_keeps ?_ named ⟨there, rfl⟩
    rintro command state named ⟨there, same⟩
    have writes := writes_run_of_copy names named there
    exact ⟨(writes.hasPath_eq_of_name names.backup).trans there,
      (writes.readBytes_eq_of_name names.backup there).trans same⟩

end RunAll

/-- A scene library with one scene of a defeat. -/
def smallText : String :=
  "H_SCENE_ITEMS\n1 => \x7b\n:name => \"Anna\"\n:items\n1 => \x7b\n:common => 3101\n" ++
    "\x7d\n\x7d\n\x7d\n\x7d\n"

/-- A tree with an event that is linked to the defeat. -/
def smallTree : FileTree where
  here := []
  entries := [(["lib"], .file smallText.toUTF8), (["events"], .directory),
    (["events", "CommonEvent2101.txt"], .file
      ("\ngame_troop.lose_event_id = 3101\"\n" ++ String.ofList (List.replicate 21 '\n')).toUTF8)]

/-- The conversion of the event. -/
def smallConversion : ConvertOptions := ⟨"events", "lib", ⟨none, false⟩, false⟩

/-- The same tree with a library that can only be read. -/
def guardedTree : FileTree :=
  smallTree.put ["lib"] (.file smallText.toUTF8 true)

/-- The copy is made, and then the library is written; or it is not, where it can only be read. -/
theorem backup_holds_original_smallTree :
    let after := runAll smallTree [.convert smallConversion]
    let guarded := runAll guardedTree [.convert smallConversion]
    (smallTree.WellFormed ∧ smallTree.readBytes "lib" = .ok smallText.toUTF8 ∧
      after.hasPath "lib.bak" = true ∧ after.readBytes "lib.bak" = .ok smallText.toUTF8 ∧
      after.readBytes "lib" ≠ .ok smallText.toUTF8) ∧
    guardedTree.WellFormed ∧ guardedTree.readBytes "lib" = .ok smallText.toUTF8 ∧
      (runConvert smallConversion guardedTree).exit = 1 ∧
      guarded.hasPath "lib.bak" = true ∧ guarded.readBytes "lib.bak" = .ok smallText.toUTF8 ∧
      guarded.readBytes "lib" = .ok smallText.toUTF8 := by
  intro after guarded
  have unlike (id : UInt32) : (Path.names "lib").getLast? ≠ some (eventFilename id) := by
    have last : (Path.names "lib").getLast? = some "lib" := by decide
    rw [last, Ne, Option.some.injEq, eq_comm]
    exact eventFilename_ne_of_unlike (by decide) id
  have kept {tree : FileTree} (sound : tree.WellFormed)
      (read : tree.readBytes "lib" = .ok smallText.toUTF8)
      (missing : tree.hasPath (backupPath "lib") = false)
      (copied : (runAll tree [.convert smallConversion]).hasPath "lib.bak" = true) :
      (runAll tree [.convert smallConversion]).readBytes "lib.bak" = .ok smallText.toUTF8 := by
    obtain ⟨original, _⟩ := (backup_holds_original tree "lib" [.convert smallConversion]
      (by decide)).1 _ sound read missing unlike
    rcases original with ⟨uncopied, _⟩ | copy
    · exact absurd (uncopied.symm.trans copied) Bool.false_ne_true
    · exact copy
  have sound : smallTree.WellFormed := FileTree.wellFormed_of_entries (by decide) (by decide)
  have read : smallTree.readBytes "lib" = .ok smallText.toUTF8 := by decide
  have copied : after.hasPath "lib.bak" = true := by decide +kernel
  have soundGuarded : guardedTree.WellFormed :=
    FileTree.wellFormed_of_entries (by decide) (by decide)
  have readGuarded : guardedTree.readBytes "lib" = .ok smallText.toUTF8 := by decide
  have copiedGuarded : guarded.hasPath "lib.bak" = true := by decide +kernel
  exact ⟨⟨sound, read, copied, kept sound read (by decide) copied, by decide +kernel⟩,
    soundGuarded, readGuarded, by decide +kernel, copiedGuarded,
    kept soundGuarded readGuarded (by decide) copiedGuarded, by decide +kernel⟩

end SceneGallery.CommandLine
