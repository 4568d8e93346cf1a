import SceneGallery.Proofs.Event.Provenance
import SceneGallery.Proofs.Gallery.Discovered
import SceneGallery.Proofs.Gallery.Outputs
set_option autoImplicit false

namespace SceneGallery.Gallery

open Storage

/-- What a file has to convert: an error, nothing, or a text and what it is converted to. -/
def prepare (settings : Settings) (tree : FileTree) (path : String) :
    Except FileError (Option (String × Event.Conversion)) :=
  match load tree path with
  | .error problem => .error (.unreadable problem)
  | .ok source =>
    if (Text.lines source).length < shortestScene then .ok none
    else
      match Event.convert (resourcesIn settings tree (Path.parent path)) (Text.lines source) with
      | .error error => .error (.event error)
      | .ok conversion => .ok (some (source, conversion))

/-- Whether a file has an event to convert. -/
def hasEvent (settings : Settings) (tree : FileTree) (path : String) : Bool :=
  match prepare settings tree path with
  | .ok (some _) => true
  | _ => false

section Prepare

variable {settings : Settings} {tree other : FileTree} {path source : String}
  {conversion : Event.Conversion}

theorem prepare_eq_some_iff :
    prepare settings tree path = .ok (some (source, conversion)) ↔
      Converts settings tree path source conversion := by
  rw [prepare]
  constructor
  · intro prepared
    cases loaded : load tree path with
    | error problem =>
        rw [loaded] at prepared
        cases prepared
    | ok text =>
        rw [loaded] at prepared
        simp only at prepared
        split at prepared
        · cases prepared
        · rename_i long
          split at prepared
          · cases prepared
          · rename_i converted
            cases prepared
            exact ⟨loaded, Nat.le_of_not_lt long, converted⟩
  · intro converts
    simp only [converts.loaded, if_neg (Nat.not_lt.mpr converts.long), converts.converted]

/-- What a file has to convert decides how its conversion ends, up to the writing. -/
theorem Ends.prepared {counter used : Counter} {result : Except FileError Outcome}
    {after : FileTree} (ends : Ends settings tree counter path result after used) :
    (∃ error, prepare settings tree path = .error error ∧ result = .error error ∧
        takesNumber result = false) ∨
      (prepare settings tree path = .ok none ∧ result = .ok .notApplicable) ∨
      ∃ source conversion, prepare settings tree path = .ok (some (source, conversion)) ∧
        takesNumber result = true := by
  cases ends with
  | @unreadable problem unloaded =>
      refine .inl ⟨.unreadable problem, ?_, rfl, rfl⟩
      rw [prepare, unloaded]
  | short loaded short =>
      refine .inr (.inl ⟨?_, rfl⟩)
      simp only [prepare, loaded, if_pos short]
  | @failed source error loaded long failed =>
      refine .inl ⟨.event error, ?_, rfl, rfl⟩
      simp only [prepare, loaded, if_neg (Nat.not_lt.mpr long), failed]
  | kept converts => exact .inr (.inr ⟨_, _, prepare_eq_some_iff.mpr converts, rfl⟩)
  | unwritable converts => exact .inr (.inr ⟨_, _, prepare_eq_some_iff.mpr converts, rfl⟩)
  | written converts => exact .inr (.inr ⟨_, _, prepare_eq_some_iff.mpr converts, rfl⟩)

/-- A file takes a number exactly if it has an event to convert. -/
theorem takesNumber_result (settings : Settings) (stage : Stage) (path : String) :
    takesNumber (stage.result settings path) = hasEvent settings stage.tree path := by
  rw [hasEvent]
  rcases (stage.ends settings path).prepared with
    ⟨error, prepared, _, untaken⟩ | ⟨prepared, short⟩ | ⟨source, conversion, prepared, taken⟩
  · rw [prepared, untaken]
  · rw [prepared, short]
    rfl
  · rw [prepared, taken]

theorem event_resourcesIn (settings : Settings) (tree : FileTree) (path : String) (id : UInt32) :
    (resourcesIn settings tree (Path.parent path)).event id =
      (tree.readText (convertedPath path id)).toOption.map Text.lines := by
  rw [convertedPath, resourcesIn]

/-- Without a look at pictures, and where its defeat event cannot be read, an event is converted as
it is on its own. -/
theorem converts_of_alone (loaded : load tree path = .ok source)
    (long : shortestScene ≤ (Text.lines source).length)
    (alone : Event.convert ⟨fun _ => none, none⟩ (Text.lines source) = .ok conversion)
    (blind : settings.pictures = none)
    (unread : (tree.readText (convertedPath path conversion.linkage)).toOption = none) :
    Converts settings tree path source conversion := by
  refine ⟨loaded, long, ?_⟩
  rw [← alone]
  refine Event.convert_congr ?pictures fun other converted => ?defeat
  case pictures => rw [resourcesIn, blind, Option.map_none]
  case defeat =>
    obtain rfl := Except.ok.inj (alone.symm.trans converted)
    rw [event_resourcesIn, unread, Option.map_none]

/-- What a file has to convert is decided by the file, its defeat event and the pictures. -/
theorem prepare_congr (loads : load other path = load tree path)
    (pictures : (resourcesIn settings other (Path.parent path)).pictures =
      (resourcesIn settings tree (Path.parent path)).pictures)
    (defeat : ∀ source conversion, Converts settings tree path source conversion →
      (other.readText (convertedPath path conversion.linkage)).toOption =
        (tree.readText (convertedPath path conversion.linkage)).toOption) :
    prepare settings other path = prepare settings tree path := by
  rw [prepare, prepare, loads]
  cases loaded : load tree path with
  | error problem => rfl
  | ok source =>
      simp only
      by_cases short : (Text.lines source).length < shortestScene
      · rw [if_pos short, if_pos short]
      · rw [if_neg short, if_neg short]
        have same : Event.convert (resourcesIn settings other (Path.parent path))
            (Text.lines source) =
            Event.convert (resourcesIn settings tree (Path.parent path)) (Text.lines source) := by
          refine Event.convert_congr pictures fun conversion converted => ?_
          have converts : Converts settings tree path source conversion :=
            ⟨loaded, Nat.le_of_not_lt short, converted⟩
          rw [event_resourcesIn, event_resourcesIn, defeat source conversion converts]
        rw [same]

end Prepare

/-- The place of a file under the name of one of the numbers. -/
def UnderNumber (ids : List UInt32) (location : Location) : Prop :=
  ∃ id ∈ ids, location.getLast? = some (eventFilename id)

section Writes

variable {ids : List UInt32} {tree after : FileTree}
  (writes : FileTree.Writes (UnderNumber ids) tree after)
include writes

theorem writes_of_other_name {name : String} (other : ∀ id ∈ ids, eventFilename id ≠ name) :
    FileTree.Writes (fun location => location.getLast? ≠ some name) tree after := by
  refine writes.mono ?_
  rintro location ⟨id, inside, named⟩ same
  exact other id inside (Option.some.inj (named.symm.trans same))

theorem pictures_of_writes (settings : Settings) (directory : String) :
    (resourcesIn settings after directory).pictures =
      (resourcesIn settings tree directory).pictures := by
  have picture (place name : String) :
      ∃ path, Path.join place (name ++ ".png") = path ++ ".png" := by
    rw [Path.join]
    split
    · exact ⟨name, rfl⟩
    · split
      · exact ⟨place ++ name, String.append_assoc.symm⟩
      · exact ⟨place ++ "/" ++ name, String.append_assoc.symm⟩
  simp only [resourcesIn]
  congr 1
  funext place name
  obtain ⟨path, spelled⟩ := picture place name
  obtain ⟨front, last, _, _, names⟩ := Path.exists_last path
  have known : FileTree.IsFilePath (path ++ ".png") front (last ++ ".png") := by
    refine FileTree.isFilePath_append (names ".png" (by decide) fun empty => ?_) (by decide)
      (by decide)
    have letters := congrArg (·.toList.length) empty
    simp at letters
  rw [spelled]
  exact (writes_of_other_name writes fun id _ =>
    eventFilename_ne_append (by decide) (by decide) id last).hasPath_eq_of_name known

theorem readText_of_writes {id : UInt32} (other : id ∉ ids) (path : String) :
    (after.readText (convertedPath path id)).toOption =
      (tree.readText (convertedPath path id)).toOption := by
  have unnamed : FileTree.Writes (fun location => location.getLast? ≠ some (eventFilename id))
      tree after := by
    refine writes_of_other_name writes fun number inside same => other ?_
    rwa [eventFilename_inj same] at inside
  have known := isFilePath_convertedPath path id
  have present := unnamed.hasPath_eq_of_name known
  cases there : tree.hasPath (convertedPath path id) with
  | true => rw [FileTree.readText_congr (unnamed.readBytes_eq_of_name known there)]
  | false =>
      have missing : ∀ {some : FileTree}, some.hasPath (convertedPath path id) = false →
          (some.readText (convertedPath path id)).toOption = none := by
        intro some absent
        cases read : some.readText (convertedPath path id) with
        | error fault => rfl
        | ok text =>
            obtain ⟨content, bytes⟩ := readBytes_of_readText read
            rw [FileTree.hasPath_of_readBytes bytes] at absent
            cases absent
      rw [missing there, missing (present.trans there)]

theorem load_of_writes {directory path : String} {paths : List String} (sound : tree.WellFormed)
    (found : discover tree directory = .ok paths) (inside : path ∈ paths)
    (unlike : ∀ id ∈ ids, isCandidate (eventFilename id) = false) :
    load after path = load tree path := by
  obtain ⟨name, candidate, named, rfl⟩ := exists_name_of_discover sound found inside
  obtain ⟨place, resolved, solid, _⟩ := exists_place_of_discover found
  obtain ⟨again, there⟩ :=
    FileTree.resolve_directory sound writes.sameDirectories resolved solid
  refine load_congr (FileTree.readBytes_join_congr named resolved solid again
    (by rw [there]; nofun) (writes.lookup_eq ?_))
  rintro ⟨id, handed, same⟩
  rw [List.getLast?_concat, Option.some.injEq] at same
  rw [same, unlike id handed] at candidate
  cases candidate

/-- What the events of a directory have to convert is left alone. -/
theorem prepare_of_writes {settings : Settings} {directory path : String} {paths : List String}
    (sound : tree.WellFormed) (found : discover tree directory = .ok paths) (inside : path ∈ paths)
    (unlike : ∀ id ∈ ids, isCandidate (eventFilename id) = false)
    (apart : ∀ source conversion, Converts settings tree path source conversion →
      conversion.linkage ∉ ids) :
    prepare settings after path = prepare settings tree path :=
  prepare_congr (load_of_writes writes sound found inside unlike)
    (pictures_of_writes writes settings _)
    fun source conversion converts => readText_of_writes writes (apart source conversion converts) _

end Writes

end SceneGallery.Gallery
