import SceneGallery.Proofs.CommandLine.Updated
import SceneGallery.Proofs.Gallery.Repeated
import SceneGallery.Proofs.Gallery.Truthful
import SceneGallery.Proofs.Library.RereadMerge
set_option autoImplicit false

namespace SceneGallery.CommandLine

open Storage Gallery

/-- The summary of a conversion, if it comes to its end. -/
def summary? (options : ConvertOptions) (tree : FileTree) : Option Summary :=
  match discover tree options.events with
  | .error _ => none
  | .ok paths =>
    let events := runEvents options.settings tree paths
    if options.skipLibrary then some events.summary
    else
      (updateLibrary events.tree options.library events.descriptors).placements.map
        events.summary.recordPlacements

theorem runConvert_eq (options : ConvertOptions) (tree : FileTree) :
    (runConvert options tree).exit = (if (summary? options tree).isSome then 0 else 1) ∧
      (runConvert options tree).output = ((summary? options tree).map Summary.text).getD "" := by
  rw [runConvert, summary?]
  cases discover tree options.events with
  | error problem => exact ⟨rfl, rfl⟩
  | ok paths =>
      cases options.skipLibrary with
      | true => exact ⟨rfl, rfl⟩
      | false =>
          simp only [Bool.false_eq_true, ↓reduceIte]
          cases (updateLibrary (runEvents options.settings tree paths).tree options.library
            (runEvents options.settings tree paths).descriptors).placements with
          | none => exact ⟨rfl, rfl⟩
          | some placements => exact ⟨rfl, rfl⟩

/-- A check says that a library is the same if it is written as it was read. -/
theorem runCheck_identical_iff {filename : String} {tree : FileTree} :
    (runCheck filename tree).exit = 0 ↔
      ∃ content library after, load tree filename = .ok content ∧
        Library.parse content = .ok library ∧ library.serialize = content ∧
        tree.write (checkedPath filename) content.toUTF8 = .ok after := by
  rw [runCheck]
  cases load tree filename with
  | error problem => exact ⟨nofun, nofun⟩
  | ok content =>
      simp only
      cases parsed : Library.parse content with
      | error error =>
          refine ⟨nofun, ?_⟩
          rintro ⟨_, _, _, ⟨⟩, read, _⟩
          rw [parsed] at read
          cases read
      | ok library =>
          simp only
          constructor
          · intro identical
            split at identical
            · cases identical
            · rename_i after written
              split at identical
              · rename_i same
                rw [same] at written
                exact ⟨content, library, after, rfl, parsed, same, written⟩
              · cases identical
          · rintro ⟨_, _, after, ⟨⟩, read, same, written⟩
            rw [parsed] at read
            cases read
            simp only [same, written, ↓reduceIte]

/-- A library that is not called like an event is left alone by the events of a run. -/
theorem load_runEvents {tree : FileTree} {library content : String} {front : List String}
    {last : String} (own : FileTree.IsFilePath library front last)
    (foreign : ∀ id, eventFilename id ≠ last) (loaded : load tree library = .ok content)
    (settings : Settings) (paths : List String) :
    load (runEvents settings tree paths).tree library = .ok content := by
  have writes := writes_events settings tree paths foreign
  rw [load_congr (writes.readBytes_eq_of_name own (hasPath_of_load loaded)), loaded]

/-- A conversion that ended well and can be repeated. Its library is written as it was read, it is
not called like an event, and no descriptor is linked to an event that a descriptor plays. -/
structure Repeatable (options : ConvertOptions) (tree : FileTree) (paths : List String) :
    Prop where
  sound : tree.WellFormed
  keep : options.settings.overwrite = false
  entered : options.skipLibrary = false
  ended : (runConvert options tree).exit = 0
  identical : (runCheck options.library tree).exit = 0
  unlike : ∀ name, (Path.names options.library).getLast? = some name →
    ¬ "CommonEvent".toList <+: name.toList
  found : discover tree options.events = .ok paths
  few : paths.length < 10800
  counted : ∀ content library, load tree options.library = .ok content →
    Library.parse content = .ok library →
    ∀ character ∈
      (library.merge (runEvents options.settings tree paths).descriptors).1.characters,
      character.scenes.length ≤ 4294967295
  apart : ∀ linked ∈ (runEvents options.settings tree paths).descriptors,
    ∀ derived ∈ (runEvents options.settings tree paths).descriptors,
      linked.linkage ≠ derived.derived

section Repeatable

variable {options : ConvertOptions} {tree : FileTree} {paths : List String}

theorem Repeatable.exists_placements (repeatable : Repeatable options tree paths) :
    let events := runEvents options.settings tree paths
    let library := updateLibrary events.tree options.library events.descriptors
    ∃ placements, library.placements = some placements ∧
      (runConvert options tree).tree = library.tree ∧
      summary? options tree = some (events.summary.recordPlacements placements) := by
  intro events library
  have told : summary? options tree = library.placements.map events.summary.recordPlacements := by
    simp only [summary?, repeatable.found, repeatable.entered, Bool.false_eq_true, ↓reduceIte,
      events, library]
  have ended := repeatable.ended
  rw [(runConvert_eq options tree).1, told, Option.isSome_map] at ended
  cases placed : library.placements with
  | none =>
      rw [placed] at ended
      cases ended
  | some placements =>
      exact ⟨placements, rfl, tree_runConvert repeatable.found repeatable.entered,
        by rw [told, placed, Option.map_some]⟩

theorem Repeatable.exists_names (repeatable : Repeatable options tree paths) :
    ∃ front before last, LibraryNames options.library front last ∧
      FileTree.IsFilePath options.library before last ∧
      ¬ "CommonEvent".toList <+: last.toList := by
  obtain ⟨front, last, names⟩ := exists_libraryNames options.library
  obtain ⟨content, _, _, loaded, _⟩ := runCheck_identical_iff.mp repeatable.identical
  obtain ⟨bytes, read⟩ := readBytes_of_load loaded
  obtain ⟨location, _, found, _⟩ := FileTree.place_of_readBytes repeatable.sound read
  obtain ⟨before, name, _, own, _⟩ := FileTree.place?_eq_some_iff.mp found
  obtain rfl := names.own before name own
  refine ⟨front, before, name, names, own, repeatable.unlike name ?_⟩
  rw [own.spelled, List.getLast?_concat]

theorem Repeatable.foreign (repeatable : Repeatable options tree paths) :
    ∀ id ∈ (⟨tree, .initial⟩ : Stage).numbers options.settings paths,
      isCandidate (eventFilename id) = false := by
  intro id inside
  have few := repeatable.few
  have first : firstDerivedId.toNat = 9200 := rfl
  have fits : firstDerivedId.toNat + paths.length ≤ UInt32.size := by
    rw [first, UInt32.size]
    omega
  obtain ⟨above, below⟩ := (numbers_of_unwrapped fits).2 id inside
  exact isCandidate_eventFilename above (by omega)

theorem Repeatable.events_unfound (repeatable : Repeatable options tree paths) :
    FileTree.Writes Unfound tree (runEvents options.settings tree paths).tree := by
  rw [(runEvents_eq options.settings tree paths).1]
  exact Stage.writes_unfound repeatable.foreign

theorem Repeatable.library_unfound (repeatable : Repeatable options tree paths) :
    FileTree.Writes Unfound (runEvents options.settings tree paths).tree
      (runConvert options tree).tree := by
  obtain ⟨front, _, last, names, _, unlike⟩ := repeatable.exists_names
  obtain ⟨_, _, same, _⟩ := repeatable.exists_placements
  rw [same]
  refine ((updateLibrary_updates ..).writes names).mono ?_
  rintro location (own | copy) name named
  · rw [← Option.some.inj (own.symm.trans named)]
    exact isCandidate_of_unlike unlike
  · rw [← Option.some.inj (copy.symm.trans named)]
    exact isCandidate_append_bak last

/-- The events that are found are those of the first run. -/
theorem Repeatable.found_again (repeatable : Repeatable options tree paths) :
    discover (runConvert options tree).tree options.events = .ok paths :=
  discover_of_writes repeatable.sound
    (repeatable.events_unfound.trans repeatable.library_unfound)
    (fun _ name unfound named => unfound name named) repeatable.found

/-- The events of the second run are those of the first one, and all are kept. -/
theorem Repeatable.runEvents_again (repeatable : Repeatable options tree paths) :
    let first := runEvents options.settings tree paths
    let second := runEvents options.settings (runConvert options tree).tree paths
    second.tree = (runConvert options tree).tree ∧ second.summary = first.summary.again ∧
      second.descriptors = first.descriptors := by
  intro first second
  obtain ⟨tree₁, summary₁, descriptors₁⟩ := runEvents_eq options.settings tree paths
  obtain ⟨tree₂, summary₂, descriptors₂⟩ :=
    runEvents_eq options.settings (runConvert options tree).tree paths
  have events : ∀ path ∈ paths, IsEventPath path := by
    intro path inside
    obtain ⟨name, candidate, known, rfl⟩ :=
      exists_name_of_discover repeatable.sound repeatable.found inside
    exact ⟨_, name, FileTree.isFilePath_join known _, candidate⟩
  have later := repeatable.library_unfound
  rw [tree₁] at later
  obtain ⟨repeats, unchanged⟩ := Stage.repeats repeatable.keep events repeatable.foreign later
  refine ⟨tree₂.trans unchanged, ?_, ?_⟩
  · rw [summary₁, summary₂]
    exact Summary.again_results repeats {}
  · rw [descriptors₁, descriptors₂]
    exact filterMap_descriptorOf?_repeats repeats

/-- The library of the second run has a place for every event. -/
theorem Repeatable.updateLibrary_again (repeatable : Repeatable options tree paths)
    {placements : List Library.Placement} :
    let first := runEvents options.settings tree paths
    let after := (runConvert options tree).tree
    (updateLibrary first.tree options.library first.descriptors).placements = some placements →
      (updateLibrary after options.library first.descriptors).placements =
          some (placements.map .again) ∧
        (updateLibrary after options.library first.descriptors).tree = after := by
  intro first after placed
  obtain ⟨_, before, last, names, own, unlike⟩ := repeatable.exists_names
  obtain ⟨_, _, same, _⟩ := repeatable.exists_placements
  obtain ⟨content, library, _, loaded, parsed, identical, _⟩ :=
    runCheck_identical_iff.mp repeatable.identical
  have kept : load first.tree options.library = .ok content :=
    load_runEvents own (eventFilename_ne_of_unlike unlike) loaded _ _
  have updates := updateLibrary_updates first.tree options.library first.descriptors
  rw [placed, ← same] at updates
  obtain ⟨read, other, reloaded, reparsed, rfl, wrote⟩ := updates.placed
  obtain rfl : content = read := Except.ok.inj (kept.symm.trans reloaded)
  obtain rfl : library = other := Except.ok.inj (parsed.symm.trans reparsed)
  -- The library is the one of the first run, or it is read from the text of the merge.
  rcases wrote with ⟨nothing, unchanged⟩ | ⟨_, wrote⟩
  · rw [Library.map_again_of_nothing nothing]
    exact updateLibrary_of_nothing (by rw [← kept, ← unchanged]) parsed nothing
  · obtain ⟨read, reparsed, again⟩ := Library.parse_merged parsed identical repeatable.apart
      (repeatable.counted _ _ loaded parsed)
    have loaded : load after options.library =
        .ok (library.merge first.descriptors).1.serialize := by
      rw [load, FileTree.readText_of_bytes (FileTree.readBytes_of_write wrote)]
      rfl
    rw [← again]
    refine updateLibrary_of_nothing loaded reparsed ?_
    rw [again]
    exact Library.any_isInserted_again _

end Repeatable

/-- A conversion that can be repeated changes nothing when it is run again: it ends well, every file
stays as it is, what was converted is kept, and what was added to the library is there. -/
theorem runConvert_again {options : ConvertOptions} {tree : FileTree} {paths : List String}
    (repeatable : Repeatable options tree paths) :
    let after := (runConvert options tree).tree
    ∃ first second counts, summary? options tree = some first ∧ first.library = some counts ∧
      (runConvert options tree).output = first.text ∧
      (runConvert options after).exit = 0 ∧ (runConvert options after).tree = after ∧
      summary? options after = some second ∧ (runConvert options after).output = second.text ∧
      second = { first with
        converted := 0
        kept := first.converted + first.kept
        library := some
          { counts with inserted := 0, present := counts.inserted + counts.present } } := by
  intro after
  obtain ⟨placements, placed, _, told⟩ := repeatable.exists_placements
  obtain ⟨unchanged, summary, descriptors⟩ := repeatable.runEvents_again
  obtain ⟨again, same⟩ := repeatable.updateLibrary_again placed
  have retold : summary? options after =
      some ((runEvents options.settings tree paths).summary.recordPlacements placements).again := by
    rw [summary?, repeatable.found_again]
    simp only [repeatable.entered, Bool.false_eq_true, ↓reduceIte, unchanged, summary, descriptors,
      again, Option.map_some, Summary.again_recordPlacements, after]
  have kept : (runConvert options after).tree = after := by
    rw [tree_runConvert repeatable.found_again repeatable.entered]
    simp only [unchanged, descriptors, after]
    exact same
  refine ⟨_, _, _, told, rfl, ?_, ?_, kept, retold, ?_, rfl⟩
  · rw [(runConvert_eq options tree).2, told]
    rfl
  · rw [(runConvert_eq options after).1, retold]
    rfl
  · rw [(runConvert_eq options after).2, retold]
    rfl

/-- A library with one scene of a defeat. -/
def dawnLibrary : Library where
  leading := ["H_SCENE_ITEMS"]
  characters := [⟨1, [], "Anna", [], [{ name := "Defeat at dawn", common := 3101 }]⟩]
  closer := "\x7d"
  trailing := []
  layout := ⟨.lf, true⟩

/-- A tree with the library and with an event that is linked to the defeat. -/
def dawnTree : FileTree where
  here := []
  entries := [(["lib"], .file dawnLibrary.serialize.toUTF8), (["events"], .directory),
    (["events", "CommonEvent2101.txt"], .file (shortEvent "3101" "late").toUTF8)]

def dawnOptions : ConvertOptions := ⟨"events", "lib", plainSettings, false⟩

/-- The descriptor of the event. -/
def dawnDescriptor : Descriptor := ⟨9200, 3101, "events/CommonEvent9200.txt"⟩

theorem parse_dawnLibrary : Library.parse dawnLibrary.serialize = .ok dawnLibrary := by
  decide +kernel

theorem load_dawnTree : load dawnTree "lib" = .ok dawnLibrary.serialize := by
  have read : dawnTree.readBytes "lib" = .ok dawnLibrary.serialize.toUTF8 := rfl
  rw [load, FileTree.readText_of_bytes read]
  rfl

theorem runEvents_dawnTree :
    let events := runEvents plainSettings dawnTree [latePath]
    events.descriptors = [dawnDescriptor] ∧
      events.summary = { converted := 1, first := some 9200, last := some 9200 } := by
  decide +kernel

theorem updateLibrary_dawnTree :
    (updateLibrary (runEvents plainSettings dawnTree [latePath]).tree "lib"
      [dawnDescriptor]).placements = some [.inserted "Anna" "Seduce at dawn"] := by
  have own : FileTree.IsFilePath "lib" [] "lib" := ⟨by decide, by decide, by decide, by decide⟩
  have loaded := load_runEvents own (eventFilename_ne_of_unlike (by decide)) load_dawnTree
    plainSettings [latePath]
  have placed : (placeEvents (runEvents plainSettings dawnTree [latePath]).tree "lib" dawnLibrary
      [dawnDescriptor]).placements = some [.inserted "Anna" "Seduce at dawn"] := by decide +kernel
  exact (updateLibrary_of_parse loaded parse_dawnLibrary).1.trans placed

theorem discover_dawnTree : discover dawnTree dawnOptions.events = .ok [latePath] :=
  discover_of_sorted ["events"] ["CommonEvent2101.txt"] (by decide) (by decide) (by decide)
    (by decide)

theorem summary?_dawnTree : summary? dawnOptions dawnTree = some
    { converted := 1, first := some 9200, last := some 9200, library := some ⟨1, 0, 0⟩ } := by
  obtain ⟨descriptors, summary⟩ := runEvents_dawnTree
  rw [summary?, discover_dawnTree]
  simp only [dawnOptions, descriptors, summary, updateLibrary_dawnTree]
  rfl

theorem repeatable_dawnTree : Repeatable dawnOptions dawnTree [latePath] where
  sound := FileTree.wellFormed_of_entries (by decide) (by decide)
  keep := rfl
  entered := rfl
  ended := by
    rw [(runConvert_eq _ _).1, summary?_dawnTree]
    rfl
  identical :=
    runCheck_identical_iff.mpr ⟨_, _, _, load_dawnTree, parse_dawnLibrary, rfl, rfl⟩
  unlike := by
    have last : (Path.names "lib").getLast? = some "lib" := by decide
    simp only [dawnOptions, last, Option.some.injEq, forall_eq']
    decide
  found := discover_dawnTree
  few := by decide
  counted := by
    intro content library loaded parsed
    obtain rfl := Except.ok.inj (load_dawnTree.symm.trans loaded)
    obtain rfl := Except.ok.inj (parse_dawnLibrary.symm.trans parsed)
    rw [show dawnOptions.settings = plainSettings from rfl, runEvents_dawnTree.1]
    decide
  apart := by
    rw [show dawnOptions.settings = plainSettings from rfl, runEvents_dawnTree.1]
    decide

theorem runConvert_again_dawnTree :
    let after := (runConvert dawnOptions dawnTree).tree
    summary? dawnOptions dawnTree = some
        { converted := 1, first := some 9200, last := some 9200, library := some ⟨1, 0, 0⟩ } ∧
      (runConvert dawnOptions after).exit = 0 ∧ (runConvert dawnOptions after).tree = after ∧
      summary? dawnOptions after = some
        { kept := 1, first := some 9200, last := some 9200, library := some ⟨0, 1, 0⟩ } := by
  obtain ⟨first, second, counts, told, library, _, ended, kept, retold, _, same⟩ :=
    runConvert_again repeatable_dawnTree
  rw [summary?_dawnTree] at told
  obtain rfl := Option.some.inj told
  obtain rfl := Option.some.inj library
  rw [same] at retold
  exact ⟨summary?_dawnTree, ended, kept, retold⟩

end SceneGallery.CommandLine
