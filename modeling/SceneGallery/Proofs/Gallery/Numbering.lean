import Mathlib.Data.List.Nodup
import SceneGallery.CommandLine.Run
import SceneGallery.Proofs.Gallery.Attempted
set_option autoImplicit false

namespace SceneGallery.Gallery

open Storage

/-- Whether a result used up a number. -/
def takesNumber : Except FileError Outcome → Bool
  | .ok (.written _) => true
  | .ok (.kept _) => true
  | .error (.unwritable _ _) => true
  | _ => false

/-- Numbers that follow each other, from the first one on. After the largest number comes zero. -/
def consecutive (first : UInt32) (count : Nat) : List UInt32 :=
  (List.range count).map fun place => first + .ofNat place

section Consecutive

variable {first : UInt32} {count : Nat}

theorem consecutive_succ (first : UInt32) (count : Nat) :
    consecutive first (count + 1) = first :: consecutive (first + 1) count := by
  rw [consecutive, List.range_succ_eq_map, List.map_cons, List.map_map, consecutive]
  refine congrArg₂ _ (UInt32.add_zero first) (List.map_congr_left fun place _ => ?_)
  rw [Function.comp_apply, Nat.succ_eq_add_one, UInt32.ofNat_add, UInt32.add_comm (.ofNat place),
    UInt32.add_assoc]
  rfl

theorem toNat_add_ofNat (first : UInt32) (place : Nat) :
    (first + .ofNat place).toNat = (first.toNat + place) % UInt32.size := by
  rw [UInt32.toNat_add, UInt32.toNat_ofNat', Nat.add_mod_mod]

theorem toNat_add_ofNat_of_lt {place : Nat} (fits : first.toNat + place < UInt32.size) :
    (first + .ofNat place).toNat = first.toNat + place := by
  rw [toNat_add_ofNat, Nat.mod_eq_of_lt fits]

theorem nodup_consecutive (few : count ≤ UInt32.size) : (consecutive first count).Nodup := by
  refine List.Nodup.map_on ?_ List.nodup_range
  intro place below other less same
  have equal := congrArg UInt32.toNat same
  have bound := first.toNat_lt
  rw [List.mem_range] at below less
  rw [toNat_add_ofNat, toNat_add_ofNat] at equal
  rw [UInt32.size] at few equal
  omega

theorem pairwise_consecutive (unwrapped : first.toNat + count ≤ UInt32.size) :
    (consecutive first count).Pairwise (· < ·) := by
  rw [consecutive, List.pairwise_map]
  refine List.pairwise_lt_range.imp_of_mem ?_
  intro place later _ below less
  rw [List.mem_range] at below
  rw [UInt32.lt_iff_toNat_lt, toNat_add_ofNat_of_lt (by omega), toNat_add_ofNat_of_lt (by omega)]
  omega

/-- Without a wrap the numbers are those from the first one on. -/
theorem bounds_of_mem_consecutive (unwrapped : first.toNat + count ≤ UInt32.size) {id : UInt32}
    (inside : id ∈ consecutive first count) :
    first.toNat ≤ id.toNat ∧ id.toNat < first.toNat + count := by
  obtain ⟨place, below, rfl⟩ := List.mem_map.mp inside
  rw [List.mem_range] at below
  rw [toNat_add_ofNat_of_lt (by omega)]
  omega

end Consecutive

section Counter

variable {settings : Settings} {tree after : FileTree} {counter used : Counter} {path : String}
  {result : Except FileError Outcome}

theorem Ends.counter_eq (ends : Ends settings tree counter path result after used) :
    used = if takesNumber result = true then counter.advance else counter := by
  cases ends <;> rfl

theorem Ends.descriptor_eq (ends : Ends settings tree counter path result after used)
    {descriptor : Descriptor} (converted : descriptorOf? result = some descriptor) :
    takesNumber result = true ∧ descriptor.derived = counter.next ∧
      descriptor.path = convertedPath path counter.next := by
  cases ends with
  | kept => cases converted; exact ⟨rfl, rfl, rfl⟩
  | written => cases converted; exact ⟨rfl, rfl, rfl⟩
  | _ => cases converted

/-- A file that takes a number is converted, or cannot be written. -/
theorem Ends.taken (ends : Ends settings tree counter path result after used)
    (taken : takesNumber result = true) :
    (∃ descriptor, descriptorOf? result = some descriptor) ∨
      ∃ details, result = .error (.unwritable (convertedPath path counter.next) details) := by
  cases ends with
  | kept => exact .inl ⟨_, rfl⟩
  | written => exact .inl ⟨_, rfl⟩
  | unwritable => exact .inr ⟨_, rfl⟩
  | _ => cases taken

end Counter

/-- A file that finds a number as the next one: whether it takes the number, and where it shows. -/
structure TakesNext (settings : Settings) (stage : Stage) (path : String) (id : UInt32) :
    Prop where
  available : stage.counter.next = id
  used : takesNumber (stage.result settings path) = true →
    (stage.next settings path).counter.next = id + 1
  unused : takesNumber (stage.result settings path) = false →
    (stage.next settings path).counter = stage.counter
  converted : ∀ descriptor, descriptorOf? (stage.result settings path) = some descriptor →
    descriptor.derived = id ∧ descriptor.path = convertedPath path id
  unwritable : ∀ target details,
    stage.result settings path = .error (.unwritable target details) →
      target = convertedPath path id

theorem takesNext (settings : Settings) (stage : Stage) (path : String) :
    TakesNext settings stage path stage.counter.next where
  available := rfl
  used := by
    intro taken
    rw [(stage.ends settings path).counter_eq, if_pos taken, Counter.advance]
  unused := by
    intro taken
    rw [(stage.ends settings path).counter_eq, if_neg (by rw [taken]; exact Bool.false_ne_true)]
  converted := fun _ converted => ((stage.ends settings path).descriptor_eq converted).2
  unwritable := by
    intro target details failed
    rcases (stage.ends settings path).taken (by rw [failed]; rfl) with ⟨_, made⟩ | ⟨_, same⟩
    · rw [failed] at made
      cases made
    · rw [failed] at same
      cases same
      rfl

namespace Stage

/-- The converted events of a run. -/
def descriptors (settings : Settings) (stage : Stage) (paths : List String) : List Descriptor :=
  (stage.results settings paths).filterMap descriptorOf?

/-- How many numbers a run takes. -/
def taken (settings : Settings) (stage : Stage) (paths : List String) : Nat :=
  (stage.results settings paths).countP takesNumber

/-- The numbers that a run takes, in order. -/
def numbers (settings : Settings) (stage : Stage) (paths : List String) : List UInt32 :=
  consecutive stage.counter.next (stage.taken settings paths)

/-- The summary of a run. -/
def summary (settings : Settings) (stage : Stage) (paths : List String) : Summary :=
  (stage.results settings paths).foldl .add {}

theorem taken_le (settings : Settings) (stage : Stage) (paths : List String) :
    stage.taken settings paths ≤ paths.length :=
  Nat.le_trans List.countP_le_length (Nat.le_of_eq (length_results settings stage paths))

theorem taken_cons (settings : Settings) (stage : Stage) (path : String) (rest : List String) :
    stage.taken settings (path :: rest) = (stage.next settings path).taken settings rest +
      if takesNumber (stage.result settings path) = true then 1 else 0 := by
  rw [taken, results, List.countP_cons]
  rfl

/-- Every number of a run is the first one plus the numbers that were taken before. -/
theorem counter_after (settings : Settings) (stage : Stage) (paths : List String) :
    (stage.after settings paths).counter.next =
      stage.counter.next + .ofNat (stage.taken settings paths) := by
  induction paths generalizing stage with
  | nil => exact (UInt32.add_zero _).symm
  | cons path rest ih =>
      have later := ih (stage.next settings path)
      rw [taken_cons, after, List.foldl_cons, ← after, later]
      cases taken : takesNumber (stage.result settings path) with
      | false =>
          rw [(takesNext settings stage path).unused taken]
          rfl
      | true =>
          rw [(takesNext settings stage path).used taken, if_pos rfl, UInt32.ofNat_add,
            UInt32.add_comm (.ofNat _), UInt32.add_assoc]
          rfl

/-- The numbers of a run are that of its first file, if it takes one, and those of the others. -/
theorem numbers_cons (settings : Settings) (stage : Stage) (path : String) (rest : List String) :
    stage.numbers settings (path :: rest) =
      (if takesNumber (stage.result settings path) = true then [stage.counter.next] else []) ++
        (stage.next settings path).numbers settings rest := by
  rw [numbers, taken_cons, numbers]
  cases taken : takesNumber (stage.result settings path) with
  | false =>
      rw [(takesNext settings stage path).unused taken]
      rfl
  | true =>
      rw [(takesNext settings stage path).used taken, if_pos rfl, if_pos rfl, consecutive_succ]
      rfl

theorem descriptors_cons (settings : Settings) (stage : Stage) (path : String)
    (rest : List String) :
    stage.descriptors settings (path :: rest) =
      (descriptorOf? (stage.result settings path)).toList ++
        (stage.next settings path).descriptors settings rest := by
  rw [descriptors, results, List.filterMap_cons]
  cases descriptorOf? (stage.result settings path) <;> rfl

/-- The converted events have their numbers from those that were taken, in order. -/
theorem derived_sublist (settings : Settings) (stage : Stage) (paths : List String) :
    ((stage.descriptors settings paths).map (·.derived)).Sublist
      (stage.numbers settings paths) := by
  induction paths generalizing stage with
  | nil => exact List.Sublist.refl []
  | cons path rest ih =>
      rw [descriptors_cons, numbers_cons, List.map_append]
      refine List.Sublist.append ?_ (ih (stage.next settings path))
      cases made : descriptorOf? (stage.result settings path) with
      | none => exact List.nil_sublist _
      | some descriptor =>
          obtain ⟨taken, number, _⟩ := (stage.ends settings path).descriptor_eq made
          rw [if_pos taken, Option.toList_some, List.map_singleton, number]

theorem length_descriptors {settings : Settings} {stage : Stage} {paths : List String}
    (writable : ∀ path details,
      .error (.unwritable path details) ∉ stage.results settings paths) :
    (stage.descriptors settings paths).length = stage.taken settings paths := by
  induction paths generalizing stage with
  | nil => rfl
  | cons path rest ih =>
      rw [results] at writable
      have later : ((stage.next settings path).descriptors settings rest).length =
          (stage.next settings path).taken settings rest :=
        ih fun path details member => writable path details (List.mem_cons_of_mem _ member)
      rw [descriptors_cons, taken_cons, List.length_append, later, Nat.add_comm]
      congr 1
      cases taken : takesNumber (stage.result settings path) with
      | false =>
          cases made : descriptorOf? (stage.result settings path) with
          | none => rfl
          | some descriptor =>
              rw [((stage.ends settings path).descriptor_eq made).1] at taken
              cases taken
      | true =>
          rcases (stage.ends settings path).taken taken with ⟨_, made⟩ | ⟨details, failed⟩
          · rw [made]
            rfl
          · exact absurd (List.mem_cons.mpr (.inl failed.symm)) (writable _ details)

/-- If everything can be written, the converted events have all numbers that were taken. -/
theorem derived_eq_numbers {settings : Settings} {stage : Stage} {paths : List String}
    (writable : ∀ path details,
      .error (.unwritable path details) ∉ stage.results settings paths) :
    (stage.descriptors settings paths).map (·.derived) = stage.numbers settings paths := by
  refine (stage.derived_sublist settings paths).eq_of_length ?_
  rw [List.length_map, length_descriptors writable, numbers, consecutive, List.length_map,
    List.length_range]

end Stage

/-- The numbers of a run that does not wrap are different, and none is below the first one. -/
theorem numbers_of_unwrapped {settings : Settings} {tree : FileTree} {paths : List String}
    (unwrapped : firstDerivedId.toNat + paths.length ≤ UInt32.size) :
    let stage : Stage := ⟨tree, .initial⟩
    (stage.numbers settings paths).Nodup ∧
      ∀ id ∈ stage.numbers settings paths, firstDerivedId ≤ id ∧
        id.toNat < firstDerivedId.toNat + paths.length := by
  intro stage
  have few := stage.taken_le settings paths
  refine ⟨nodup_consecutive (by omega), fun id inside => ?_⟩
  have bounds := bounds_of_mem_consecutive
    (show firstDerivedId.toNat + stage.taken settings paths ≤ UInt32.size by omega) inside
  exact ⟨UInt32.le_iff_toNat_le.mpr bounds.1, by omega⟩

section Summary

variable (results : List (Except FileError Outcome)) (summary : Summary)

instance lawfulOrderMaxUInt32 : Std.LawfulOrderMax UInt32 where
  max_eq_or := by
    intro a b
    show (if a ≤ b then b else a) = a ∨ (if a ≤ b then b else a) = b
    split <;> simp
  max_le_iff := by
    intro a b c
    show (if a ≤ b then b else a) ≤ c ↔ a ≤ c ∧ b ≤ c
    simp only [UInt32.le_iff_toNat_le]
    split <;> omega

theorem Summary.total_results :
    (results.foldl add summary).total = summary.total + results.length := by
  induction results generalizing summary with
  | nil => rfl
  | cons result rest ih =>
      rw [List.foldl_cons, ih, List.length_cons]
      rcases result with _ | _ | _ | _ <;>
        simp only [add, record, recordFailure, recordNumber, total] <;> omega

theorem Summary.converted_results :
    (results.foldl add summary).converted + (results.foldl add summary).kept =
      summary.converted + summary.kept + (results.filterMap descriptorOf?).length := by
  induction results generalizing summary with
  | nil => rfl
  | cons result rest ih =>
      rw [List.foldl_cons, ih, List.filterMap_cons]
      rcases result with _ | _ | _ | _ <;>
        simp only [add, record, recordFailure, recordNumber, descriptorOf?, Outcome.descriptor?,
          List.length_cons] <;> omega

theorem Summary.first_results :
    (results.foldl add summary).first =
      (summary.first.toList ++ (results.filterMap descriptorOf?).map (·.derived)).min? := by
  induction results generalizing summary with
  | nil => cases h : summary.first <;> simp [h]
  | cons result rest ih =>
      rw [List.foldl_cons, ih, List.filterMap_cons]
      rcases result with _ | _ | _ | _ <;> cases h : summary.first <;>
        simp only [add, record, recordFailure, recordNumber, descriptorOf?, Outcome.descriptor?, h,
          Option.elim, Option.toList_some, Option.toList_none, List.map_cons] <;>
        rfl

theorem Summary.last_results :
    (results.foldl add summary).last =
      (summary.last.toList ++ (results.filterMap descriptorOf?).map (·.derived)).max? := by
  induction results generalizing summary with
  | nil => cases h : summary.last <;> simp [h]
  | cons result rest ih =>
      rw [List.foldl_cons, ih, List.filterMap_cons]
      rcases result with _ | _ | _ | _ <;> cases h : summary.last <;>
        simp only [add, record, recordFailure, recordNumber, descriptorOf?, Outcome.descriptor?, h,
          Option.elim, Option.toList_some, Option.toList_none, List.map_cons] <;>
        rfl

theorem PlacementCounts.length_placements (placements : List Library.Placement)
    (counts : PlacementCounts) :
    let counted := placements.foldl record counts
    counted.inserted + counted.present + counted.skipped =
      counts.inserted + counts.present + counts.skipped + placements.length := by
  induction placements generalizing counts with
  | nil => rfl
  | cons placement rest ih =>
      have later := ih (counts.record placement)
      rw [List.length_cons]
      cases placement <;> simp only [record, List.foldl_cons] at later ⊢ <;> omega

end Summary

theorem runEvents_foldl (settings : Settings) (paths : List String)
    (run : CommandLine.EventsRun) :
    let stage : Stage := ⟨run.tree, run.counter⟩
    let ended := paths.foldl (CommandLine.EventsRun.next settings) run
    ended.tree = (stage.after settings paths).tree ∧
      ended.summary = (stage.results settings paths).foldl .add run.summary ∧
      ended.descriptors = run.descriptors ++ stage.descriptors settings paths := by
  induction paths generalizing run with
  | nil => exact ⟨rfl, rfl, (List.append_nil _).symm⟩
  | cons path rest ih =>
      obtain ⟨tree, summary, descriptors⟩ := ih (run.next settings path)
      have stage : (⟨(run.next settings path).tree, (run.next settings path).counter⟩ : Stage) =
          Stage.next settings ⟨run.tree, run.counter⟩ path := by
        rw [CommandLine.EventsRun.next, Stage.next]
        split <;> rfl
      rw [stage] at tree summary descriptors
      refine ⟨tree, ?_, ?_⟩
      · rw [List.foldl_cons, summary, Stage.results, List.foldl_cons, Stage.result,
          CommandLine.EventsRun.next]
        split <;> rename_i same <;> rw [same] <;> rfl
      · rw [List.foldl_cons, descriptors, Stage.descriptors_cons, Stage.result,
          CommandLine.EventsRun.next]
        split <;> rename_i same <;> rw [same]
        · exact List.append_assoc _ _ _
        · rfl

theorem runEvents_eq (settings : Settings) (tree : FileTree) (paths : List String) :
    let run := CommandLine.runEvents settings tree paths
    let stage : Stage := ⟨tree, .initial⟩
    run.tree = (stage.after settings paths).tree ∧
      run.summary = stage.summary settings paths ∧
      run.descriptors = stage.descriptors settings paths :=
  runEvents_foldl settings paths ⟨tree, .initial, {}, [], []⟩

/-- The distance between the bounds of numbers that follow each other tells how many they are. -/
theorem bounds_consecutive {first : UInt32} {count : Nat}
    (unwrapped : first.toNat + (count + 1) ≤ UInt32.size) :
    (consecutive first (count + 1)).min? = some first ∧
      ∃ last, (consecutive first (count + 1)).max? = some last ∧
        last.toNat - first.toNat + 1 = count + 1 := by
  have far (place : Nat) (below : place < count + 1) :
      (first + .ofNat place).toNat = first.toNat + place :=
    toNat_add_ofNat_of_lt (by omega)
  refine ⟨?_, first + .ofNat count, ?_, ?_⟩
  · rw [List.min?_eq_some_iff]
    refine ⟨by rw [consecutive_succ]; exact List.mem_cons_self, ?_⟩
    intro other member
    obtain ⟨place, below, rfl⟩ := List.mem_map.mp member
    rw [UInt32.le_iff_toNat_le, far place (List.mem_range.mp below)]
    omega
  · rw [List.max?_eq_some_iff]
    refine ⟨List.mem_map.mpr ⟨count, List.mem_range.mpr (by omega), rfl⟩, ?_⟩
    intro other member
    obtain ⟨place, below, rfl⟩ := List.mem_map.mp member
    have bound := List.mem_range.mp below
    rw [UInt32.le_iff_toNat_le, far place bound, far count (by omega)]
    omega
  · rw [far count (by omega)]
    omega

theorem Stage.exists_bounds {settings : Settings} {stage : Stage} {paths : List String}
    (fits : stage.counter.next.toNat + stage.taken settings paths ≤ UInt32.size)
    (writable : ∀ path details,
      .error (.unwritable path details) ∉ stage.results settings paths)
    (nonempty : 0 < (stage.descriptors settings paths).length) :
    let derived := (stage.descriptors settings paths).map (·.derived)
    ∃ first last, derived.min? = some first ∧ derived.max? = some last ∧
      last.toNat - first.toNat + 1 = (stage.descriptors settings paths).length := by
  intro derived
  rw [length_descriptors writable] at nonempty ⊢
  obtain ⟨count, taken⟩ := Nat.exists_eq_succ_of_ne_zero (Nat.ne_of_gt nonempty)
  rw [taken] at fits ⊢
  obtain ⟨first, last, largest, apart⟩ := bounds_consecutive fits
  refine ⟨_, last, ?_, ?_, apart⟩
  · rw [show derived = _ from derived_eq_numbers writable, numbers, taken]
    exact first
  · rw [show derived = _ from derived_eq_numbers writable, numbers, taken]
    exact largest

/-- Numbers and counts of a run add up, whatever number it starts with: the number that a file
finds is told by the files before it that took one, no two converted events share a number, the
summary counts every file once and has the bounds of the numbers, and every converted event has one
placement in a library. -/
theorem numbers_add_up (settings : Settings) (tree : FileTree) (f : UInt32) (paths : List String) :
    let start : Stage := ⟨tree, ⟨f⟩⟩
    let descriptors := start.descriptors settings paths
    let derived := descriptors.map (·.derived)
    let summary := start.summary settings paths
    let converted := summary.converted + summary.kept
    let unwrapped := f.toNat + start.taken settings paths ≤ UInt32.size
    (∀ earlier path later, paths = earlier ++ path :: later →
      TakesNext settings (start.after settings earlier) path
        (f + .ofNat (start.taken settings earlier))) ∧
    (paths.length < UInt32.size → derived.Nodup) ∧
    (unwrapped → derived.Pairwise (· < ·)) ∧
    summary.total = paths.length ∧
    (∀ id, summary.first = some id ↔ id ∈ derived ∧ ∀ other ∈ derived, id ≤ other) ∧
    (∀ id, summary.last = some id ↔ id ∈ derived ∧ ∀ other ∈ derived, other ≤ id) ∧
    (unwrapped →
      (∀ path details, .error (.unwritable path details) ∉ start.results settings paths) →
      0 < converted →
        ∃ first last, summary.first = some first ∧ summary.last = some last ∧
          last.toNat - first.toNat + 1 = converted) ∧
    (∀ library : Library, ∃ counts,
      (summary.recordPlacements (library.merge descriptors).2).library = some counts ∧
        counts.inserted + counts.present + counts.skipped = converted) ∧
    (f = firstDerivedId →
      (CommandLine.runEvents settings tree paths).summary = summary ∧
        (CommandLine.runEvents settings tree paths).descriptors = descriptors) := by
  intro start descriptors derived summary converted unwrapped
  have inside : derived.Sublist (start.numbers settings paths) :=
    start.derived_sublist settings paths
  have counted : converted = descriptors.length :=
    (Summary.converted_results _ _).trans (Nat.zero_add _)
  have few : start.taken settings paths ≤ paths.length := start.taken_le settings paths
  have lowest : summary.first = derived.min? := Summary.first_results _ _
  have highest : summary.last = derived.max? := Summary.last_results _ _
  refine ⟨?_, ?_, ?_, ?_, ?_, ?_, ?_, ?_, ?_⟩
  · intro earlier path later _
    rw [← start.counter_after settings earlier]
    exact takesNext settings (start.after settings earlier) path
  · intro short
    exact inside.nodup (nodup_consecutive (Nat.le_trans few (Nat.le_of_lt short)))
  · intro fits
    exact (pairwise_consecutive fits).sublist inside
  · rw [← Stage.length_results settings start paths]
    exact (Summary.total_results _ _).trans (Nat.zero_add _)
  · intro id
    rw [lowest, List.min?_eq_some_iff]
  · intro id
    rw [highest, List.max?_eq_some_iff]
  · intro fits writable nonempty
    rw [lowest, highest, counted]
    exact Stage.exists_bounds fits writable (counted ▸ nonempty)
  · intro library
    refine ⟨_, rfl, ?_⟩
    rw [PlacementCounts.length_placements, Library.merge_placements_length, counted]
    exact Nat.zero_add _
  · rintro rfl
    exact (runEvents_eq settings tree paths).2

end SceneGallery.Gallery
