import SceneGallery.Proofs.Event.Rendered
import SceneGallery.Proofs.Gallery.Truthful
import SceneGallery.Proofs.Library.OtherEnding
import SceneGallery.Proofs.Storage.OtherContent
set_option autoImplicit false

namespace SceneGallery.Gallery

open Storage Text

/-- Two runs with the same outcome. The file that they write, if they write one, differs in its
endings. -/
structure SameButEndings (run again : FileRun) : Prop where
  result : again.result = run.result
  counter : again.counter = run.counter
  notices : again.notices = run.notices
  written : ∀ descriptor, run.result = .ok (.written descriptor) →
    ∃ text, run.tree.readText descriptor.path = .ok text ∧
      again.tree.readText descriptor.path = .ok (crlf text)

theorem SameButEndings.after {run again : FileRun} (same : SameButEndings run again)
    (told : List Notice) :
    SameButEndings { run with notices := told ++ run.notices }
      { again with notices := told ++ again.notices } :=
  ⟨same.result, same.counter, congrArg (told ++ ·) same.notices, same.written⟩

theorem plain_resourcesIn (settings : Settings) (tree : FileTree) (directory : String)
    (id : UInt32) : ∀ others ∈ (resourcesIn settings tree directory).event id,
      ∀ line ∈ others, '\n' ∉ line.toList := by
  intro others there
  simp only [resourcesIn, Option.mem_def, Option.map_eq_some_iff] at there
  obtain ⟨text, _, rfl⟩ := there
  exact plain_lines text

section Reencoded

variable {tree other : FileTree} {location : Location} {content : String}
  (differ : FileTree.DifferAt tree other location content.toUTF8 (crlf content).toUTF8)
include differ

/-- Every event has the same lines in both trees. -/
theorem lines_readText (unix : '\r' ∉ content.toList) (path : String) :
    (other.readText path).toOption.map Text.lines =
      (tree.readText path).toOption.map Text.lines := by
  rcases differ.readText_cases path with ⟨one, two⟩ | same
  · rw [one, two]
    exact congrArg some (lines_crlf unix)
  · rw [same]

theorem resourcesIn_reencoded (unix : '\r' ∉ content.toList) (settings : Settings)
    (directory : String) :
    resourcesIn settings other directory = resourcesIn settings tree directory := by
  simp only [resourcesIn, lines_readText differ unix, differ.sameKinds.hasPath_eq]

theorem attemptNotices_reencoded (directory : String) (attempt : Event.Attempt) :
    attemptNotices other directory attempt = attemptNotices tree directory attempt := by
  have each : ∀ remark, defeatNotices other directory remark =
      defeatNotices tree directory remark := by
    intro remark
    cases remark with
    | continued continuation => rfl
    | linked linkage picture =>
        unfold defeatNotices
        dsimp only
        rcases differ.readText_cases (Path.join directory (eventFilename linkage)) with
          ⟨one, two⟩ | same
        · rw [one, two]
        · rw [same]
  simp only [attemptNotices, each]

theorem writeConverted_reencoded {path source again : String} {conversion : Event.Conversion}
    (texts : ∀ id, convertedText again conversion id = crlf (convertedText source conversion id))
    (settings : Settings) (counter : Counter) :
    SameButEndings (writeConverted settings tree counter path source conversion)
      (writeConverted settings other counter path again conversion) := by
  simp only [writeConverted, join_eventFilename, differ.sameKinds.hasPath_eq, texts]
  by_cases there : (tree.hasPath (convertedPath path counter.next) && !settings.overwrite) = true
  · simp only [there, ↓reduceIte]
    exact ⟨rfl, rfl, rfl, fun _ written => by cases written⟩
  · simp only [there, Bool.false_eq_true, ↓reduceIte]
    rcases differ.sameKinds.write_cases (convertedPath path counter.next)
        (convertedText source conversion counter.next).toUTF8
        (crlf (convertedText source conversion counter.next)).toUTF8 with
      ⟨fault, one, two⟩ | ⟨after, later, one, two⟩
    · rw [one, two]
      exact ⟨rfl, rfl, rfl, fun _ written => by cases written⟩
    · rw [one, two]
      refine ⟨rfl, rfl, rfl, ?_⟩
      intro descriptor same
      cases same
      exact ⟨_, FileTree.readText_of_bytes (FileTree.readBytes_of_write one),
        FileTree.readText_of_bytes (FileTree.readBytes_of_write two)⟩

/-- An event is converted the same with carriage returns in its file and without. -/
theorem convertFile_reencoded (unix : '\r' ∉ content.toList) {path : String}
    (leads : tree.resolve path = .ok location) (settings : Settings) (counter : Counter) :
    SameButEndings (convertFile settings tree counter path)
      (convertFile settings other counter path) := by
  obtain ⟨_, held, holds⟩ := differ.holds
  have one : load tree path = .ok content := by
    have bytes : tree.readBytes path = .ok content.toUTF8 := by
      rw [FileTree.readBytes, leads]
      simp only [bind, Except.bind, held]
    rw [load, FileTree.readText_of_bytes bytes]
    rfl
  have two : load other path = .ok (crlf content) := by
    have bytes : other.readBytes path = .ok (crlf content).toUTF8 := by
      rw [FileTree.readBytes, differ.sameKinds.resolve_eq, leads]
      simp only [bind, Except.bind, holds]
    rw [load, FileTree.readText_of_bytes bytes]
    rfl
  rw [convertFile, convertFile, one, two]
  simp only [lines_crlf unix, resourcesIn_reencoded differ unix, attemptNotices_reencoded differ]
  by_cases short : (Text.lines content).length < shortestScene
  · rw [if_pos short, if_pos short]
    exact ⟨rfl, rfl, rfl, fun _ written => by cases written⟩
  · rw [if_neg short, if_neg short]
    cases converted : (Event.attempt (resourcesIn settings tree (Path.parent path))
        (Text.lines content)).result with
    | error error => exact ⟨rfl, rfl, rfl, fun _ written => by cases written⟩
    | ok conversion =>
        have fed : '\n' ∈ content.toList := by
          apply mem_of_length_lines
          have long : 23 ≤ (Text.lines content).length := Nat.le_of_not_lt short
          omega
        have plain := Event.plain_convert (plain_lines content)
          (plain_resourcesIn settings tree (Path.parent path)) converted
        have texts : ∀ id, convertedText (crlf content) conversion id =
            crlf (convertedText content conversion id) := by
          intro id
          rw [convertedText, convertedText, layoutOf_crlf fed, crlf_join ?_ (plain id)]
          exact ending_of_unix unix
        have run : SameButEndings (writeConverted settings tree counter path content conversion)
            (writeConverted settings other counter path (crlf content) conversion) :=
          writeConverted_reencoded differ texts settings counter
        exact run.after _

end Reencoded

/-- Line endings do not matter to the meaning. With a carriage return in front of every line feed, a
text is the same library up to the ending, or the same error, and the same is told; the library is
written with the other ending, also after a merge, which has the same outcome. A file with an event
has the same outcome too, next to the same files and for the same next number, and the file that is
written for it has the other ending. -/
theorem endings_immaterial (content : String) (unix : '\r' ∉ content.toList) :
    Library.parse (crlf content) =
        (Library.parse content).map (Library.withEnding .crlf) ∧
    Library.notices (crlf content) = Library.notices content ∧
    (∀ library, Library.parse content = .ok library →
      library.layout.ending = .lf ∧
      Library.serialize (library.withEnding .crlf) = crlf (Library.serialize library) ∧
      ∀ descriptors,
        (Library.merge (library.withEnding .crlf) descriptors).2 =
          (Library.merge library descriptors).2 ∧
        Library.serialize (Library.merge (library.withEnding .crlf) descriptors).1 =
          crlf (Library.serialize (Library.merge library descriptors).1)) ∧
    ∀ settings tree other counter path location,
      FileTree.DifferAt tree other location content.toUTF8 (crlf content).toUTF8 →
      tree.resolve path = .ok location →
      SameButEndings (convertFile settings tree counter path)
        (convertFile settings other counter path) := by
  refine ⟨Library.parse_crlf unix, Library.notices_crlf unix, ?_, ?_⟩
  · intro library parsed
    have lf : library.layout.ending = .lf := by
      rw [(Library.isLibrary_of_parse parsed).1]
      exact ending_of_unix unix
    refine ⟨lf, Library.serialize_merge_withEnding unix parsed [], ?_⟩
    intro descriptors
    rw [Library.merge_withEnding]
    exact ⟨rfl, Library.serialize_merge_withEnding unix parsed descriptors⟩
  · intro settings tree other counter path location differ leads
    exact convertFile_reencoded differ unix leads settings counter

/-- The directory with one event, with carriage returns in its file. -/
def oneEventReencoded : FileTree :=
  oneEvent.put ["events", "CommonEvent2101.txt"] (.file (crlf (shortEvent "3101" "late")).toUTF8)

theorem differAt_oneEvent :
    FileTree.DifferAt oneEvent oneEventReencoded ["events", "CommonEvent2101.txt"]
      (shortEvent "3101" "late").toUTF8 (crlf (shortEvent "3101" "late")).toUTF8 where
  here := rfl
  holds := by
    refine ⟨false, by decide, ?_⟩
    rw [oneEventReencoded, FileTree.lookup_put _ _ _ _ (by decide), if_pos rfl]
  others := by
    intro place different
    rw [oneEventReencoded, FileTree.lookup_put _ _ _ _ (by decide), if_neg different]

theorem endings_immaterial_oneEvent :
    Library.parse (crlf Library.shortText) = .ok (Library.shortLibrary.withEnding .crlf) ∧
      (convertFile plainSettings oneEventReencoded .initial latePath).result =
        .ok (.written (nextDescriptor .initial latePath (shortConversion 3101 "late"))) ∧
      ∃ text,
        lateConverted.readText "events/CommonEvent9200.txt" = .ok text ∧
        (convertFile plainSettings oneEventReencoded .initial latePath).tree.readText
          "events/CommonEvent9200.txt" = .ok (crlf text) := by
  have library := (endings_immaterial Library.shortText (by decide)).1
  rw [Library.parse_shortText] at library
  have event := (endings_immaterial (shortEvent "3101" "late") (by decide)).2.2.2 plainSettings
    oneEvent oneEventReencoded .initial latePath _ differAt_oneEvent (by decide)
  obtain ⟨result, after, _⟩ := ends_late.run_eq
  refine ⟨library, event.result.trans result, ?_⟩
  obtain ⟨text, one, two⟩ := event.written _ result
  rw [after] at one
  exact ⟨text, one, two⟩

end SceneGallery.Gallery
