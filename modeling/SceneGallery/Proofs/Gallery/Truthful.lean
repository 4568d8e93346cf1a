import SceneGallery.Proofs.Gallery.Discovered
import SceneGallery.Proofs.Gallery.Outputs
import SceneGallery.Proofs.Gallery.Prepared
set_option autoImplicit false

namespace SceneGallery.Gallery

open Storage CommandLine

/-- Files that were edited without a change to directories and to converted events. -/
structure Edited (tree other : FileTree) : Prop where
  sound : other.WellFormed
  directories : FileTree.SameDirectories tree other
  kept : ∀ location id, firstDerivedId ≤ id → location.getLast? = some (eventFilename id) →
    other.lookup location = tree.lookup location

/-- Two runs over the events of a directory that has no converted events at first. Between the runs
files are edited, and the second run does not overwrite. -/
structure TwoRuns (first second : Settings) (directory : String) (tree edited : FileTree)
    (paths later : List String) : Prop where
  sound : tree.WellFormed
  fresh : ∀ place, tree.resolve directory = .ok place → ∀ id, firstDerivedId ≤ id →
    tree.lookup (place ++ [eventFilename id]) = none
  found : discover tree directory = .ok paths
  edit : Edited (runEvents first tree paths).tree edited
  refound : discover edited directory = .ok later
  keep : second.overwrite = false
  unwrapped : firstDerivedId.toNat + paths.length ≤ UInt32.size ∧
    firstDerivedId.toNat + later.length ≤ UInt32.size

section TwoRuns

variable {first second : Settings} {directory : String} {tree edited : FileTree}
  {paths later : List String} {path source : String} {conversion : Event.Conversion}
  {descriptor : Descriptor}

/-- The file of a converted event of the second run is not there at first, and what is there before
the second run is what the first run left. -/
theorem TwoRuns.file_between (runs : TwoRuns first second directory tree edited paths later)
    (made : Made second ⟨edited, .initial⟩ later path source conversion descriptor) :
    tree.hasPath descriptor.path = false ∧
      edited.hasPath descriptor.path = (runEvents first tree paths).tree.hasPath descriptor.path ∧
      (edited.hasPath descriptor.path = true →
        edited.readBytes descriptor.path =
          (runEvents first tree paths).tree.readBytes descriptor.path) := by
  obtain ⟨inside, _, number, target⟩ := made.mem
  obtain ⟨name, _, named, rfl⟩ := exists_name_of_discover runs.edit.sound runs.refound inside
  obtain ⟨place, resolved, solid, _⟩ := exists_place_of_discover runs.found
  have known := isFilePath_convertedPath (Path.join directory name) descriptor.derived
  rw [← target] at known
  have high := ((numbers_of_unwrapped runs.unwrapped.2).2 _ number).1
  have writes := Stage.writes_after first ⟨tree, .initial⟩ paths
  rw [← (runEvents_eq first tree paths).1] at writes
  have between := writes.place?_eq descriptor.path
  have after := (FileTree.place?_eq runs.edit.directories descriptor.path).trans between
  cases found : tree.place? descriptor.path with
  | none =>
      rw [FileTree.hasPath_of_no_place known found,
        FileTree.hasPath_of_no_place known (between.trans found),
        FileTree.hasPath_of_no_place known (after.trans found)]
      exact ⟨rfl, rfl, nofun⟩
  | some location =>
      -- The file is beside the events, where there was none with such a number at first.
      have beside := found
      rw [target] at beside
      have spelled := place?_convertedPath resolved solid named beside
      have kept := runs.edit.kept location descriptor.derived high
        (by rw [spelled, List.getLast?_concat])
      rw [FileTree.hasPath_of_place found, FileTree.hasPath_of_place (between.trans found),
        FileTree.hasPath_of_place (after.trans found),
        FileTree.readBytes_of_place (between.trans found),
        FileTree.readBytes_of_place (after.trans found), kept, spelled,
        runs.fresh place resolved _ high]
      exact ⟨rfl, rfl, fun _ => rfl⟩

/-- The file of a descriptor of the second run has what the first run put under its number, or else
the event that the descriptor is about. -/
theorem TwoRuns.file_after (runs : TwoRuns first second directory tree edited paths later)
    (made : Made second ⟨edited, .initial⟩ later path source conversion descriptor) :
    let file := (runEvents second edited later).tree.readText descriptor.path
    (∀ path' source' conversion' before,
      Made first ⟨tree, .initial⟩ paths path' source' conversion' before →
      before.derived = descriptor.derived →
        file = .ok (convertedText source' conversion' descriptor.derived)) ∧
    ((∀ path' source' conversion' before,
      Made first ⟨tree, .initial⟩ paths path' source' conversion' before →
        before.derived ≠ descriptor.derived) →
      file = .ok (convertedText source conversion descriptor.derived)) := by
  obtain ⟨missing, same, read⟩ := runs.file_between made
  have left := made.file (numbers_of_unwrapped runs.unwrapped.2).1
  rw [← (runEvents_eq second edited later).1, runs.keep, Bool.not_false, Bool.and_true] at left
  obtain ⟨inside, _, _, target⟩ := made.mem
  obtain ⟨name, _, named, rfl⟩ := exists_name_of_discover runs.edit.sound runs.refound inside
  constructor
  · intro path' source' conversion' before made' number
    obtain ⟨inside', _, _, target'⟩ := made'.mem
    obtain ⟨name', _, named', rfl⟩ := exists_name_of_discover runs.sound runs.found inside'
    have path : before.path = descriptor.path := by
      rw [target, target', number]
      exact convertedPath_join named' named directory _
    have wrote := made'.file (numbers_of_unwrapped runs.unwrapped.1).1
    rw [← (runEvents_eq first tree paths).1, path, missing, Bool.false_and,
      if_neg Bool.false_ne_true, number] at wrote
    have there := same.trans (FileTree.hasPath_of_readBytes wrote)
    rw [if_pos there, read there, wrote] at left
    exact FileTree.readText_of_bytes left
  · intro unused
    have absent : edited.hasPath descriptor.path = false := by
      rw [same, Bool.eq_false_iff]
      intro there
      have known := isFilePath_convertedPath (Path.join directory name) descriptor.derived
      rw [← target] at known
      rw [(runEvents_eq first tree paths).1] at there
      obtain ⟨path', source', conversion', before, made', number, _⟩ :=
        Made.exists_of_new known missing there
      exact unused path' source' conversion' before made' number
    rw [absent, if_neg Bool.false_ne_true] at left
    exact FileTree.readText_of_bytes left

/-- The file of a descriptor of the second run holds what the first run put under its number. So it
holds the conversion of the event that the descriptor is about exactly if the first run gave the
number to no event, or to one that is converted to the same text. -/
theorem readText_descriptor_iff (runs : TwoRuns first second directory tree edited paths later)
    (given : descriptor ∈ (runEvents second edited later).descriptors) :
    ∃ path source conversion,
      Made second ⟨edited, .initial⟩ later path source conversion descriptor ∧
      let file := (runEvents second edited later).tree.readText descriptor.path
      (∀ path' source' conversion' before,
        Made first ⟨tree, .initial⟩ paths path' source' conversion' before →
        before.derived = descriptor.derived →
          file = .ok (convertedText source' conversion' descriptor.derived)) ∧
      (file = .ok (convertedText source conversion descriptor.derived) ↔
        ∀ path' source' conversion' before,
          Made first ⟨tree, .initial⟩ paths path' source' conversion' before →
          before.derived = descriptor.derived →
            convertedText source' conversion' descriptor.derived =
              convertedText source conversion descriptor.derived) := by
  rw [(runEvents_eq second edited later).2.2] at given
  obtain ⟨path, source, conversion, made⟩ := Made.exists_of_mem given
  obtain ⟨used, unused⟩ := runs.file_after made
  refine ⟨path, source, conversion, made, used, ?_⟩
  constructor
  · intro own path' source' conversion' before made' number
    exact Except.ok.inj ((used path' source' conversion' before made' number).symm.trans own)
  · intro same
    by_cases given : ∃ path' source' conversion' before,
        Made first ⟨tree, .initial⟩ paths path' source' conversion' before ∧
          before.derived = descriptor.derived
    · obtain ⟨path', source', conversion', before, made', number⟩ := given
      rw [← same path' source' conversion' before made' number]
      exact used path' source' conversion' before made' number
    · exact unused fun path' source' conversion' before made' number =>
        given ⟨path', source', conversion', before, made', number⟩

end TwoRuns

section Added

/-- An event of the shortest length that is linked to a defeat event and ends with a line. -/
def shortEvent (linkage line : String) : String :=
  "\ngame_troop.lose_event_id = " ++ linkage ++ "\"\n" ++
    String.ofList (List.replicate 20 '\n') ++ line ++ "\n"

/-- What the event is converted to. -/
def shortConversion (linkage : UInt32) (line : String) : Event.Conversion where
  lines := ⟨.source 0, .header⟩ :: Event.OutputLine.copies 2 (List.replicate 20 "" ++ [line])
  linkage := linkage

def plainSettings : Settings := ⟨none, false⟩

/-- A directory with one event. -/
def oneEvent : FileTree where
  here := []
  entries := [(["events"], .directory),
    (["events", "CommonEvent2101.txt"], .file (shortEvent "3101" "late").toUTF8)]

/-- The directory after a run, with an event added in front. -/
def twoEvents : FileTree where
  here := []
  entries := [(["events"], .directory),
    (["events", "CommonEvent2101.txt"], .file (shortEvent "3101" "late").toUTF8),
    (["events", "CommonEvent9200.txt"],
      .file (convertedText (shortEvent "3101" "late") (shortConversion 3101 "late") 9200).toUTF8),
    (["events", "CommonEvent2100.txt"], .file (shortEvent "3100" "early").toUTF8)]

def latePath : String := "events/CommonEvent2101.txt"

def earlyPath : String := "events/CommonEvent2100.txt"

theorem convert_shortEvent :
    Event.convert ⟨fun _ => none, none⟩ (Text.lines (shortEvent "3101" "late")) =
        .ok (shortConversion 3101 "late") ∧
      Event.convert ⟨fun _ => none, none⟩ (Text.lines (shortEvent "3100" "early")) =
        .ok (shortConversion 3100 "early") :=
  ⟨by decide +kernel, by decide +kernel⟩

theorem converts_late : Converts plainSettings oneEvent latePath (shortEvent "3101" "late")
    (shortConversion 3101 "late") :=
  converts_of_alone (by decide) (by decide) convert_shortEvent.1 rfl (by decide)

theorem converts_early : Converts plainSettings twoEvents earlyPath (shortEvent "3100" "early")
    (shortConversion 3100 "early") :=
  converts_of_alone (by decide) (by decide) convert_shortEvent.2 rfl (by decide)

theorem ne_of_firstDerivedId_le {id : UInt32} (high : firstDerivedId ≤ id) (other : UInt32)
    (low : other < firstDerivedId) : eventFilename id ≠ eventFilename other := by
  intro same
  rw [eventFilename_inj same] at high
  exact absurd (UInt32.lt_of_lt_of_le low high) (UInt32.lt_irrefl _)

/-- The directory after the first run. -/
def lateConverted : FileTree where
  here := []
  entries := oneEvent.entries ++ [(["events", "CommonEvent9200.txt"],
    .file (convertedText (shortEvent "3101" "late") (shortConversion 3101 "late") 9200).toUTF8)]

theorem ends_late : Ends plainSettings oneEvent .initial latePath
    (.ok (.written (nextDescriptor .initial latePath (shortConversion 3101 "late"))))
    lateConverted Counter.initial.advance :=
  .written converts_late (by decide) (FileTree.write_eq_ok_iff.mpr
    ⟨["events", "CommonEvent9200.txt"], by decide, by decide, rfl⟩)

theorem ends_early : Ends plainSettings twoEvents .initial earlyPath
    (.ok (.kept (nextDescriptor .initial earlyPath (shortConversion 3100 "early")))) twoEvents
    Counter.initial.advance :=
  .kept converts_early (by decide) rfl

theorem made_late : Made plainSettings ⟨oneEvent, .initial⟩ [latePath] latePath
    (shortEvent "3101" "late") (shortConversion 3101 "late")
    (nextDescriptor .initial latePath (shortConversion 3101 "late")) :=
  .now converts_late (by rw [Stage.result, ends_late.run_eq.1]; rfl)

theorem made_early : Made plainSettings ⟨twoEvents, .initial⟩ [earlyPath, latePath] earlyPath
    (shortEvent "3100" "early") (shortConversion 3100 "early")
    (nextDescriptor .initial earlyPath (shortConversion 3100 "early")) :=
  .now converts_early (by rw [Stage.result, ends_early.run_eq.1]; rfl)

theorem discover_oneEvent : discover oneEvent "events" = .ok [latePath] :=
  discover_of_sorted ["events"] ["CommonEvent2101.txt"] (by decide) (by decide) (by decide)
    (by decide)

theorem discover_twoEvents : discover twoEvents "events" = .ok [earlyPath, latePath] :=
  discover_of_sorted ["events"] ["CommonEvent2100.txt", "CommonEvent2101.txt"] (by decide)
    (by decide) (by decide) (by decide)

theorem twoRuns_twoEvents : TwoRuns plainSettings plainSettings "events" oneEvent twoEvents
    [latePath] [earlyPath, latePath] where
  sound := FileTree.wellFormed_of_entries (by decide) (by decide)
  fresh := by
    intro place resolved id high
    have known : oneEvent.resolve "events" = .ok ["events"] := by decide
    obtain rfl : ["events"] = place := Except.ok.inj (known.symm.trans resolved)
    rw [FileTree.lookup, if_neg (by simp), List.lookup_eq_none_iff]
    have late : eventFilename id ≠ "CommonEvent2101.txt" :=
      ne_of_firstDerivedId_le high 2101 (by decide)
    simp [oneEvent, late]
  found := discover_oneEvent
  edit := by
    have after : (runEvents plainSettings oneEvent [latePath]).tree = lateConverted :=
      (runEvents_eq _ _ _).1.trans ends_late.run_eq.2.1
    have put : twoEvents = lateConverted.put ["events", "CommonEvent2100.txt"]
        (.file (shortEvent "3100" "early").toUTF8) := rfl
    have free : lateConverted.lookup ["events", "CommonEvent2100.txt"] ≠ some .directory := by
      decide
    rw [after]
    refine ⟨FileTree.wellFormed_of_entries (by decide) (by decide), ?_, ?_⟩
    · rw [put]
      exact FileTree.sameDirectories_put free _ _
    · intro location id high named
      rw [put, FileTree.lookup_put _ _ _ _ (FileTree.ne_root free), if_neg]
      rintro rfl
      exact ne_of_firstDerivedId_le high 2100 (by decide) (Option.some.inj named).symm
  refound := discover_twoEvents
  keep := rfl
  unwrapped := by decide

/-- The second run brings the descriptor of the event in front to the library, but the file at its
path has the other event. -/
theorem untruthful_descriptor :
    TwoRuns plainSettings plainSettings "events" oneEvent twoEvents [latePath]
        [earlyPath, latePath] ∧
      ∃ descriptor ∈ (runEvents plainSettings twoEvents [earlyPath, latePath]).descriptors,
        ∃ path source conversion,
          Made plainSettings ⟨twoEvents, .initial⟩ [earlyPath, latePath] path source conversion
            descriptor ∧
          (runEvents plainSettings twoEvents [earlyPath, latePath]).tree.readText
            descriptor.path ≠ .ok (convertedText source conversion descriptor.derived) := by
  refine ⟨twoRuns_twoEvents, _, ?_, _, _, _, made_early, ?_⟩
  · rw [(runEvents_eq _ _ _).2.2]
    exact made_early.mem.2.1
  · have file := (twoRuns_twoEvents.file_after made_early).1 _ _ _ _ made_late rfl
    rw [file]
    decide

theorem readText_descriptor_iff_twoEvents :
    TwoRuns plainSettings plainSettings "events" oneEvent twoEvents [latePath]
        [earlyPath, latePath] ∧
      ⟨9200, 3100, "events/CommonEvent9200.txt"⟩ ∈
        (runEvents plainSettings twoEvents [earlyPath, latePath]).descriptors ∧
      (runEvents plainSettings twoEvents [earlyPath, latePath]).tree.readText
        "events/CommonEvent9200.txt" =
          .ok (convertedText (shortEvent "3101" "late") (shortConversion 3101 "late") 9200) := by
  have given : ⟨9200, 3100, "events/CommonEvent9200.txt"⟩ ∈
      (runEvents plainSettings twoEvents [earlyPath, latePath]).descriptors := by
    rw [(runEvents_eq _ _ _).2.2]
    exact made_early.mem.2.1
  obtain ⟨_, _, _, _, used, _⟩ := readText_descriptor_iff twoRuns_twoEvents given
  exact ⟨twoRuns_twoEvents, given, used _ _ _ _ made_late rfl⟩

end Added

end SceneGallery.Gallery
