import SceneGallery.Proofs.Gallery.Prepared
set_option autoImplicit false

namespace SceneGallery.Gallery

open Storage

/-- Whether a path leads to a node. -/
def LeadsTo (tree : FileTree) (path : String) (node : Node) : Prop :=
  ∃ location, tree.resolve path = .ok location ∧ tree.lookup location = some node

/-- A path that a file can be written at if there is no directory: it is not too long, and no file
that can only be read is there. -/
structure IsFree (tree : FileTree) (path : String) : Prop where
  short : path.utf8ByteSize ≤ longestPath
  unguarded : ∀ content, ¬ LeadsTo tree path (.file content true)

theorem plain_of_load {tree : FileTree} {path source : String}
    (loaded : load tree path = .ok source) : '\x00' ∉ path.toList := by
  obtain ⟨content, bytes⟩ := readBytes_of_load loaded
  obtain ⟨place, _, resolved, _⟩ := FileTree.resolve_of_readBytes bytes
  have faultless := FileTree.faultless_of_resolve resolved
  intro member
  rw [FileTree.pathFault?, if_pos (List.contains_iff_mem.mpr member)] at faultless
  cases faultless

/-- Beside a path that can be, only the length of a path can be wrong. -/
theorem pathFault?_convertedPath {path : String} (plain : '\x00' ∉ path.toList) (id : UInt32) :
    FileTree.pathFault? (convertedPath path id) =
      if longestPath < (convertedPath path id).utf8ByteSize then some .nameTooLong else none := by
  have named : '\x00' ∉ (eventFilename id).toList :=
    not_mem_eventFilename (by decide) (by decide) (by decide) id
  have clean : (convertedPath path id).toList.contains '\x00' = false := by
    rw [Bool.eq_false_iff, Ne, List.contains_iff_mem]
    intro member
    rcases Path.mem_of_mem_join member with front | slash | back
    · exact plain (Path.mem_of_mem_parent front)
    · cases slash
    · exact named back
  have letters : (convertedPath path id).isEmpty = false := by
    rw [Bool.eq_false_iff, Ne, String.isEmpty_iff]
    intro empty
    have spelled := (isFilePath_convertedPath path id).spelled
    rw [empty, Path.names_empty] at spelled
    exact List.append_ne_nil_of_right_ne_nil _ (List.cons_ne_nil _ _) spelled.symm
  rw [FileTree.pathFault?, clean, letters, if_neg Bool.false_ne_true, if_neg Bool.false_ne_true]

/-- The events of a directory in some order, to be converted and written over. There is no directory
where an event is to be written, and no event is linked to one of the numbers that are given
out. -/
structure Batch (settings : Settings) (directory : String) (tree : FileTree)
    (events order : List String) : Prop where
  sound : tree.WellFormed
  discovered : discover tree directory = .ok events
  few : events.length < 10800
  overwrite : settings.overwrite = true
  ordered : order.Perm events
  free : ∀ path ∈ events, ∀ id ∈ (⟨tree, .initial⟩ : Stage).numbers settings order,
    ¬ LeadsTo tree (convertedPath path id) .directory
  apart : ∀ path ∈ events, ∀ source conversion, Converts settings tree path source conversion →
    conversion.linkage ∉ (⟨tree, .initial⟩ : Stage).numbers settings order

section Overwrite

variable {settings : Settings} {stage : Stage} {path source : String}
  {conversion : Event.Conversion}
  (converts : Converts settings stage.tree path source conversion)
  (overwrite : settings.overwrite = true)
include converts overwrite

theorem result_of_written {after : FileTree}
    (written : stage.tree.write (convertedPath path stage.counter.next)
      (convertedText source conversion stage.counter.next).toUTF8 = .ok after) :
    stage.result settings path =
      .ok (.written (nextDescriptor stage.counter path conversion)) :=
  (Ends.run_eq (.written converts (by rw [overwrite, Bool.not_true, Bool.and_false]) written)).1

theorem result_of_refused {fault : Fault}
    (refused : stage.tree.write (convertedPath path stage.counter.next)
      (convertedText source conversion stage.counter.next).toUTF8 = .error fault) :
    stage.result settings path =
      .error (.unwritable (convertedPath path stage.counter.next) fault.describe) :=
  (Ends.run_eq (.unwritable converts (by rw [overwrite, Bool.not_true, Bool.and_false]) refused)).1

end Overwrite

/-- The state of things before a file of an order is converted. -/
def stageAt (settings : Settings) (tree : FileTree) (order : List String) (i : Nat) : Stage :=
  (⟨tree, .initial⟩ : Stage).after settings (order.take i)

/-- The number that a file of an order finds. -/
def numberAt (settings : Settings) (tree : FileTree) (order : List String) (i : Nat) : UInt32 :=
  (stageAt settings tree order i).counter.next

namespace Batch

variable {settings : Settings} {directory : String} {tree : FileTree}
  {events order : List String} (batch : Batch settings directory tree events order)
include batch

theorem mem {path : String} (inside : path ∈ order) : path ∈ events :=
  batch.ordered.mem_iff.mp inside

theorem unwrapped : firstDerivedId.toNat + order.length ≤ UInt32.size := by
  have few := batch.few
  rw [← batch.ordered.length_eq] at few
  have first : firstDerivedId.toNat = 9200 := rfl
  have size : UInt32.size = 4294967296 := rfl
  omega

theorem unlike {id : UInt32} (inside : id ∈ (⟨tree, .initial⟩ : Stage).numbers settings order) :
    isCandidate (eventFilename id) = false := by
  obtain ⟨first, small⟩ := (numbers_of_unwrapped batch.unwrapped).2 id inside
  refine isCandidate_eventFilename first ?_
  have few := batch.few
  rw [← batch.ordered.length_eq] at few
  have start : firstDerivedId.toNat = 9200 := rfl
  omega

omit batch in
theorem writes_stageAt (settings : Settings) (tree : FileTree) (order : List String) (i : Nat) :
    FileTree.Writes (UnderNumber ((⟨tree, .initial⟩ : Stage).numbers settings (order.take i))) tree
      (stageAt settings tree order i).tree :=
  Stage.writes_after settings ⟨tree, .initial⟩ (order.take i)

omit batch in
theorem mem_numbers_of_take {i : Nat} {id : UInt32}
    (inside : id ∈ (⟨tree, .initial⟩ : Stage).numbers settings (order.take i)) :
    id ∈ (⟨tree, .initial⟩ : Stage).numbers settings order := by
  have whole := Stage.numbers_append settings ⟨tree, .initial⟩ (order.take i) (order.drop i)
  rw [List.take_append_drop] at whole
  rw [whole]
  exact List.mem_append_left _ inside

/-- What a file has to convert does not depend on the files before it. -/
theorem prepare_stageAt {path : String} (inside : path ∈ events) (i : Nat) :
    prepare settings (stageAt settings tree order i).tree path = prepare settings tree path :=
  prepare_of_writes (writes_stageAt settings tree order i) batch.sound batch.discovered inside
    (fun _ before => batch.unlike (mem_numbers_of_take before))
    fun source conversion converts before =>
      batch.apart path inside source conversion converts (mem_numbers_of_take before)

section At

variable {i : Nat} {path : String} (found : order[i]? = some path)
include found

omit batch in
/-- The numbers of an order: first those of the files before a file that has an event, then its
own. -/
theorem numbers_eq
    (taken : takesNumber ((stageAt settings tree order i).result settings path) = true) :
    ∃ later, (⟨tree, .initial⟩ : Stage).numbers settings order =
      (⟨tree, .initial⟩ : Stage).numbers settings (order.take i) ++
        numberAt settings tree order i :: later := by
  have split : order = order.take i ++ path :: order.drop (i + 1) := by
    obtain ⟨below, rfl⟩ := List.getElem?_eq_some_iff.mp found
    rw [← List.drop_eq_getElem_cons below, List.take_append_drop]
  have whole := Stage.numbers_append settings ⟨tree, .initial⟩ (order.take i)
    (path :: order.drop (i + 1))
  rw [stageAt] at taken
  rw [← split, Stage.numbers_cons, if_pos taken, List.singleton_append] at whole
  exact ⟨_, whole⟩

variable {source : String} {conversion : Event.Conversion}
  (converts : Converts settings tree path source conversion)
include converts

theorem converts_stageAt :
    Converts settings (stageAt settings tree order i).tree path source conversion := by
  rw [← prepare_eq_some_iff, batch.prepare_stageAt (batch.mem (List.mem_of_getElem? found))]
  exact prepare_eq_some_iff.mpr converts

theorem numberAt_mem :
    numberAt settings tree order i ∈ (⟨tree, .initial⟩ : Stage).numbers settings order ∧
      numberAt settings tree order i ∉
        (⟨tree, .initial⟩ : Stage).numbers settings (order.take i) := by
  have taken : takesNumber ((stageAt settings tree order i).result settings path) = true := by
    rw [takesNumber_result, hasEvent,
      prepare_eq_some_iff.mpr (batch.converts_stageAt found converts)]
  obtain ⟨later, whole⟩ := numbers_eq found taken
  have distinct : ((⟨tree, .initial⟩ : Stage).numbers settings order).Nodup :=
    (numbers_of_unwrapped batch.unwrapped).1
  rw [whole] at distinct ⊢
  refine ⟨List.mem_append_right _ List.mem_cons_self, fun before => ?_⟩
  exact (List.nodup_append.mp distinct).2.2 _ before _ List.mem_cons_self rfl

/-- Where a converted event is to be written is what was there before the first file. -/
theorem lookup_stageAt {location : Location}
    (named : location.getLast? = some (eventFilename (numberAt settings tree order i))) :
    (stageAt settings tree order i).tree.lookup location = tree.lookup location := by
  refine (writes_stageAt settings tree order i).lookup_eq ?_
  rintro ⟨id, before, other⟩
  rw [named, Option.some.injEq] at other
  exact (batch.numberAt_mem found converts).2 (eventFilename_inj other ▸ before)

/-- A converted event is written wherever its path is free, and stays as it was written. -/
theorem written
    (free : IsFree tree (convertedPath path (numberAt settings tree order i))) :
    (stageAt settings tree order i).result settings path =
        .ok (.written (nextDescriptor (stageAt settings tree order i).counter path conversion)) ∧
      ((⟨tree, .initial⟩ : Stage).after settings order).tree.readText
          (convertedPath path (numberAt settings tree order i)) =
        .ok (convertedText source conversion (numberAt settings tree order i)) := by
  have inside : path ∈ events := batch.mem (List.mem_of_getElem? found)
  have again := batch.converts_stageAt found converts
  have writes := writes_stageAt settings tree order i
  have faultless := pathFault?_convertedPath (plain_of_load converts.loaded)
    (numberAt settings tree order i)
  rw [if_neg (Nat.not_lt.mpr free.short)] at faultless
  obtain ⟨name, _, named, spelled⟩ := exists_name_of_discover batch.sound batch.discovered inside
  obtain ⟨place, resolved, solid, _⟩ := exists_place_of_discover batch.discovered
  have target : tree.place? (convertedPath path (numberAt settings tree order i)) =
      some (place ++ [eventFilename (numberAt settings tree order i)]) := by
    rw [spelled] at faultless ⊢
    exact place?_of_faultless resolved solid named faultless
  have leads {node : Node}
      (there : tree.lookup (place ++ [eventFilename (numberAt settings tree order i)]) =
        some node) :
      LeadsTo tree (convertedPath path (numberAt settings tree order i)) node := by
    refine ⟨_, ?_, there⟩
    rw [FileTree.resolve_of_place target, there]
    rfl
  have writable : ((stageAt settings tree order i).tree.lookup
      (place ++ [eventFilename (numberAt settings tree order i)])).all Node.isWritable = true := by
    rw [batch.lookup_stageAt found converts List.getLast?_concat]
    cases there : tree.lookup (place ++ [eventFilename (numberAt settings tree order i)]) with
    | none => rfl
    | some node =>
        cases node with
        | directory =>
            exact absurd (leads there)
              (batch.free path inside _ (batch.numberAt_mem found converts).1)
        | file content readOnly =>
            cases readOnly with
            | false => rfl
            | true => exact absurd (leads there) (free.unguarded content)
  have put : (stageAt settings tree order i).tree.write
      (convertedPath path (numberAt settings tree order i))
      (convertedText source conversion (numberAt settings tree order i)).toUTF8 = .ok _ :=
    FileTree.write_eq_ok_iff.mpr ⟨_, (writes.place?_eq _).trans target, writable, rfl⟩
  have result := result_of_written again batch.overwrite put
  have made : Made settings ⟨tree, .initial⟩ order path source conversion _ :=
    .of_getElem? found again (congrArg descriptorOf? result)
  refine ⟨result, FileTree.readText_of_bytes (Eq.trans (made.file ?_) (if_neg ?_))⟩
  · exact (numbers_of_unwrapped batch.unwrapped).1
  · rw [batch.overwrite, Bool.not_true, Bool.and_false]
    exact Bool.false_ne_true

theorem refused
    (taken : ¬ IsFree tree (convertedPath path (numberAt settings tree order i))) :
    ∃ details, (stageAt settings tree order i).result settings path =
      .error (.unwritable (convertedPath path (numberAt settings tree order i)) details) := by
  have again := batch.converts_stageAt found converts
  have known := isFilePath_convertedPath path (numberAt settings tree order i)
  cases put : (stageAt settings tree order i).tree.write
      (convertedPath path (numberAt settings tree order i))
      (convertedText source conversion (numberAt settings tree order i)).toUTF8 with
  | error fault => exact ⟨fault.describe, result_of_refused again batch.overwrite put⟩
  | ok after =>
      obtain ⟨location, target, writable, _⟩ := FileTree.write_eq_ok_iff.mp put
      rw [batch.lookup_stageAt found converts (FileTree.getLast?_place known target)] at writable
      rw [(writes_stageAt settings tree order i).place?_eq] at target
      refine absurd ⟨?short, ?unguarded⟩ taken
      case short =>
        by_contra long
        have faulty := pathFault?_convertedPath (plain_of_load converts.loaded)
          (numberAt settings tree order i)
        rw [if_pos (Nat.not_le.mp long)] at faulty
        rw [FileTree.place?, faulty] at target
        cases target
      case unguarded =>
        rintro content ⟨place, resolved, there⟩
        rw [FileTree.resolve_of_place target] at resolved
        split at resolved
        · cases resolved
          rw [there] at writable
          cases writable
        · cases resolved

end At

omit batch in
theorem results_eq {i : Nat} {path : String} (found : order[i]? = some path) :
    ((⟨tree, .initial⟩ : Stage).results settings order)[i]? =
      some ((stageAt settings tree order i).result settings path) := by
  rw [Stage.results_getElem?, found]
  rfl

end Batch

end SceneGallery.Gallery
