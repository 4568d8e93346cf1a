import SceneGallery.Proofs.Event.Provenance
import SceneGallery.Proofs.Gallery.Discovered
import SceneGallery.Proofs.Gallery.Outputs
import SceneGallery.Proofs.Library.MergedAgain
set_option autoImplicit false

namespace SceneGallery.Gallery

open Storage

/-- A place where no event is found. -/
def Unfound (location : Location) : Prop :=
  ∀ name, location.getLast? = some name → isCandidate name = false

/-- The path of an event that can be found. -/
def IsEventPath (path : String) : Prop :=
  ∃ front name, FileTree.IsFilePath path front name ∧ isCandidate name = true

/-- What a file comes to when it is converted again. -/
inductive Repeats : Except FileError Outcome → Except FileError Outcome → Prop
  | converted {first : Except FileError Outcome} {descriptor : Descriptor}
      (made : descriptorOf? first = some descriptor) : Repeats first (.ok (.kept descriptor))
  | short : Repeats (.ok .notApplicable) (.ok .notApplicable)
  | failed {error again : FileError}
      (same : takesNumber (.error again) = takesNumber (.error error)) :
      Repeats (.error error) (.error again)

theorem Repeats.descriptor_eq {first again : Except FileError Outcome}
    (repeats : Repeats first again) : descriptorOf? again = descriptorOf? first := by
  cases repeats with
  | converted made => exact made.symm
  | short => rfl
  | failed => rfl

/-- Whether an event can be converted, and to which linkage, does not depend on other files. -/
theorem Converts.exists_of_load {settings : Settings} {tree other : FileTree}
    {path source : String} {conversion : Event.Conversion}
    (converts : Converts settings tree path source conversion)
    (loaded : load other path = .ok source) :
    ∃ again, Converts settings other path source again ∧ again.linkage = conversion.linkage := by
  have linkage := Event.convert_map_linkage
    (resourcesIn settings other (Path.parent path)) (Text.lines source)
  rw [← Event.convert_map_linkage (resourcesIn settings tree (Path.parent path)),
    converts.converted] at linkage
  obtain ⟨again, converted, same⟩ := Event.exists_of_map_ok linkage
  exact ⟨again, ⟨loaded, converts.long, converted⟩, same⟩

section Again

variable {settings : Settings} {tree after final : FileTree} {counter used : Counter}
  {path : String} {result : Except FileError Outcome}

theorem load_eq_ok_iff_of_unfound (writes : FileTree.Writes Unfound tree final)
    (event : IsEventPath path) {source : String} :
    load final path = .ok source ↔ load tree path = .ok source := by
  obtain ⟨front, name, known, candidate⟩ := event
  have other : FileTree.Writes (fun place => place.getLast? ≠ some name) tree final := by
    refine writes.mono fun location unfound same => ?_
    rw [unfound name same] at candidate
    cases candidate
  have same (there : tree.hasPath path = true) : load final path = load tree path :=
    load_congr (other.readBytes_eq_of_name known there)
  constructor
  · intro loaded
    rw [← loaded, same ((other.hasPath_eq_of_name known).symm.trans (hasPath_of_load loaded))]
  · intro loaded
    rw [← loaded, same (hasPath_of_load loaded)]

/-- A file that is converted again, after files were written that are no events, takes the same
number, and nothing is written for it. -/
theorem Ends.again (keep : settings.overwrite = false) (event : IsEventPath path)
    (ends : Ends settings tree counter path result after used)
    (before : FileTree.Writes Unfound tree final) (later : FileTree.Writes Unfound after final) :
    ∃ again, Ends settings final counter path again final used ∧ Repeats result again := by
  have loads {source : String} : load final path = .ok source ↔ load tree path = .ok source :=
    load_eq_ok_iff_of_unfound before event
  have target := isFilePath_convertedPath path counter.next
  have kept {source : String} {conversion : Event.Conversion}
      (converts : Converts settings tree path source conversion)
      (there : final.hasPath (convertedPath path counter.next) = true) :
      Ends settings final counter path (.ok (.kept (nextDescriptor counter path conversion))) final
        counter.advance := by
    obtain ⟨again, converted, linkage⟩ := converts.exists_of_load (loads.mpr converts.loaded)
    have same : nextDescriptor counter path again = nextDescriptor counter path conversion := by
      rw [nextDescriptor, nextDescriptor, linkage]
    exact same ▸ .kept converted there keep
  cases ends with
  | unreadable unloaded =>
      cases reloaded : load final path with
      | error problem => exact ⟨_, .unreadable reloaded, .failed rfl⟩
      | ok source =>
          rw [loads.mp reloaded] at unloaded
          cases unloaded
  | short loaded short => exact ⟨_, .short (loads.mpr loaded) short, .short⟩
  | @failed source error loaded long failed =>
      cases attempted : Event.convert (resourcesIn settings final (Path.parent path))
        (Text.lines source) with
      | error error => exact ⟨_, .failed (loads.mpr loaded) long attempted, .failed rfl⟩
      | ok conversion =>
          have converts : Converts settings final path source conversion :=
            ⟨loads.mpr loaded, long, attempted⟩
          obtain ⟨_, again, _⟩ := converts.exists_of_load loaded
          rw [again.converted] at failed
          cases failed
  | kept converts there =>
      exact ⟨_, kept converts (before.hasPath_of_hasPath target there), .converted rfl⟩
  | written converts _ written =>
      have there := FileTree.hasPath_of_readBytes (FileTree.readBytes_of_write written)
      exact ⟨_, kept converts (later.hasPath_of_hasPath target there), .converted rfl⟩
  | unwritable converts free refused =>
      -- The path has no place, and writing makes no directories, so it never gets one.
      obtain ⟨again, converted, _⟩ := converts.exists_of_load (loads.mpr converts.loaded)
      rw [keep, Bool.not_false, Bool.and_true] at free
      have missing := (before.place?_eq _).trans (FileTree.no_place_of_refused free refused)
      obtain ⟨fault, refused⟩ := FileTree.write_of_no_place missing
        (convertedText _ again counter.next).toUTF8
      refine ⟨_, .unwritable converted ?_ refused, .failed rfl⟩
      rw [FileTree.hasPath_of_no_place target missing, Bool.false_and]

end Again

namespace Stage

variable {settings : Settings} {stage : Stage} {paths : List String} {final : FileTree}

/-- A run that takes no number of an event writes no event. -/
theorem writes_unfound (foreign : ∀ id ∈ stage.numbers settings paths,
      isCandidate (eventFilename id) = false) :
    FileTree.Writes Unfound stage.tree (stage.after settings paths).tree := by
  refine (stage.writes_after settings paths).mono ?_
  rintro location ⟨id, inside, named⟩ name same
  rw [← Option.some.inj (named.symm.trans same)]
  exact foreign id inside

/-- A run over the same events, after files were written that are no events, keeps what the first
run has converted, and changes no file. -/
theorem repeats (keep : settings.overwrite = false) (events : ∀ path ∈ paths, IsEventPath path)
    (foreign : ∀ id ∈ stage.numbers settings paths, isCandidate (eventFilename id) = false)
    (later : FileTree.Writes Unfound (stage.after settings paths).tree final) :
    let again : Stage := ⟨final, stage.counter⟩
    List.Forall₂ Repeats (stage.results settings paths) (again.results settings paths) ∧
      (again.after settings paths).tree = final := by
  induction paths generalizing stage with
  | nil => exact ⟨.nil, rfl⟩
  | cons path rest ih =>
      -- The second run stands at the end of the first one, with the counter of the place it is at.
      intro again
      rw [numbers_first] at foreign
      obtain ⟨event, events⟩ := List.forall_mem_cons.mp events
      obtain ⟨own, others⟩ := List.forall_mem_append.mp foreign
      have after : FileTree.Writes Unfound (stage.next settings path).tree final :=
        (writes_unfound others).trans later
      have first : FileTree.Writes Unfound stage.tree (stage.next settings path).tree :=
        writes_unfound own
      obtain ⟨result, ended, repeated⟩ :=
        (stage.ends settings path).again keep event (first.trans after) after
      obtain ⟨rfl, tree, counter⟩ := ended.run_eq
      have next : again.next settings path = ⟨final, (stage.next settings path).counter⟩ := by
        rw [Stage.next, tree, counter]
      obtain ⟨rest, unchanged⟩ := ih events others later
      rw [results, results, Stage.after, List.foldl_cons, next]
      exact ⟨.cons repeated rest, unchanged⟩

end Stage

/-- The counts of a library that everything was placed in before. -/
def PlacementCounts.again (counts : PlacementCounts) : PlacementCounts :=
  { counts with inserted := 0, present := counts.inserted + counts.present }

/-- The summary of a run that repeats one: what was converted is kept, and what was placed in the
library is there. -/
def Summary.again (summary : Summary) : Summary :=
  { summary with
    converted := 0
    kept := summary.converted + summary.kept
    library := summary.library.map .again }

theorem Summary.again_add {first again : Except FileError Outcome} (repeats : Repeats first again)
    (summary : Summary) : summary.again.add again = (summary.add first).again := by
  cases repeats with
  | converted made =>
      rcases first with _ | _ | _ | _ <;> cases made <;>
        simp only [add, record, recordNumber, Summary.again, Summary.mk.injEq, and_true,
          true_and] <;>
        omega
  | short => rfl
  | failed => rfl

theorem Summary.again_results {first again : List (Except FileError Outcome)}
    (repeats : List.Forall₂ Repeats first again) (summary : Summary) :
    again.foldl add summary.again = (first.foldl add summary).again := by
  induction repeats generalizing summary with
  | nil => rfl
  | cons head _ ih => rw [List.foldl_cons, List.foldl_cons, again_add head, ih]

theorem filterMap_descriptorOf?_repeats {first again : List (Except FileError Outcome)}
    (repeats : List.Forall₂ Repeats first again) :
    again.filterMap descriptorOf? = first.filterMap descriptorOf? := by
  induction repeats with
  | nil => rfl
  | cons head _ ih => rw [List.filterMap_cons, List.filterMap_cons, head.descriptor_eq, ih]

theorem PlacementCounts.again_record (counts : PlacementCounts) (placement : Library.Placement) :
    counts.again.record placement.again = (counts.record placement).again := by
  cases placement <;>
    simp only [record, Library.Placement.again, again, PlacementCounts.mk.injEq, true_and,
      and_true] <;>
    omega

theorem PlacementCounts.again_placements (placements : List Library.Placement)
    (counts : PlacementCounts) :
    (placements.map .again).foldl record counts.again = (placements.foldl record counts).again := by
  induction placements generalizing counts with
  | nil => rfl
  | cons placement rest ih => rw [List.map_cons, List.foldl_cons, again_record, ih, List.foldl_cons]

theorem Summary.again_recordPlacements (summary : Summary) (placements : List Library.Placement) :
    summary.again.recordPlacements (placements.map .again) =
      (summary.recordPlacements placements).again := by
  have counts := PlacementCounts.again_placements placements {}
  simp only [recordPlacements, again, Option.map_some, ← counts]
  rfl

end SceneGallery.Gallery
