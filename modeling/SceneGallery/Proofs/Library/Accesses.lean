import SceneGallery.Proofs.Access
import SceneGallery.Proofs.Event.ConversionByPlace
import SceneGallery.Proofs.Library.Merged
import SceneGallery.Proofs.Library.Stopping
set_option autoImplicit false

namespace SceneGallery.Library

/-- Places a converted event with the character at a place. -/
def placeWithAt? (library : Library) (owner : Nat) (descriptor : Descriptor) :
    Option (Library × Placement) :=
  library.characters[owner]?.bind fun character =>
    match character.findScene descriptor.derived with
    | some _ => some (library, .alreadyPresent character.name)
    | none =>
      match character.findScene descriptor.linkage with
      | none => some (library, .missingDefeat character.name)
      | some position =>
        character.scenes[position]?.bind fun defeat =>
          let scene := deriveScene defeat descriptor.derived
          (insert? character.scenes (position + 1) scene).map fun scenes =>
            (library.setCharacter owner { character with scenes := scenes },
              .inserted character.name scene.name)

/-- Places one converted event by an index. -/
def placeAt? (index : Index) (library : Library) (descriptor : Descriptor) :
    Option (Library × Placement) :=
  match index.owners descriptor.linkage with
  | [] => some (library, .unmatched)
  | [owner] => library.placeWithAt? owner descriptor
  | several =>
    (several.mapM fun owner => library.characters[owner]?.map fun character => character.name).map
      fun names => (library, .ambiguous names)

/-- Places converted events in order by an index. -/
def mergeByAt? (index : Index) (library : Library) :
    List Descriptor → Option (Library × List Placement)
  | [] => some (library, [])
  | descriptor :: rest =>
    (placeAt? index library descriptor).bind fun placed =>
      (mergeByAt? index placed.1 rest).map fun merged => (merged.1, placed.2 :: merged.2)

/-- Places converted events in order. -/
def mergeAt? (library : Library) (descriptors : List Descriptor) :
    Option (Library × List Placement) :=
  mergeByAt? (.ofLibrary library) library descriptors

/-- Every owner in an index is the place of a character. -/
def Index.Within (index : Index) (library : Library) : Prop :=
  ∀ event, ∀ owner ∈ index.owners event, owner < library.characters.length

section Merge

variable {index : Index} {library : Library} {descriptor : Descriptor}

theorem within_ofLibrary (library : Library) : (Index.ofLibrary library).Within library := by
  intro event owner member
  rw [owners_ofLibrary, own] at member
  obtain ⟨entry, owned, rfl⟩ := List.mem_map.mp member
  exact (List.getElem?_eq_some_iff.mp (mem_owned.mp owned).1).1

theorem length_placeWith (library : Library) (owner : Nat) (character : Character)
    (descriptor : Descriptor) :
    (library.placeWith owner character descriptor).1.characters.length =
      library.characters.length := by
  rw [placeWith]
  split
  · rfl
  · split
    · rfl
    · split
      · rfl
      · exact List.length_set

theorem length_place (index : Index) (library : Library) (descriptor : Descriptor) :
    (place index library descriptor).1.characters.length = library.characters.length := by
  rw [place]
  split
  · rfl
  · split
    · rfl
    · exact length_placeWith _ _ _ _
  · rfl

theorem Index.Within.place (within : index.Within library) (descriptor : Descriptor) :
    index.Within (Library.place index library descriptor).1 := by
  intro event owner member
  rw [length_place]
  exact within event owner member

theorem placeWithAt?_eq {owner : Nat} {character : Character}
    (found : library.characters[owner]? = some character) :
    library.placeWithAt? owner descriptor =
      some (library.placeWith owner character descriptor) := by
  rw [placeWithAt?, placeWith, found, Option.bind_some]
  cases character.findScene descriptor.derived with
  | some position => rfl
  | none =>
      simp only
      cases there : character.findScene descriptor.linkage with
      | none => rfl
      | some position =>
          have inside : position < character.scenes.length :=
            (List.findIdx?_eq_some_iff_getElem.mp there).1
          simp only [List.getElem?_eq_getElem inside, Option.bind_some, insert?_eq _ inside,
            Option.map_some]
          rfl

theorem mapM_eq_filterMap {α β : Type} {f : α → Option β} {items : List α}
    (defined : ∀ item ∈ items, (f item).isSome) : items.mapM f = some (items.filterMap f) := by
  induction items with
  | nil => rfl
  | cons item rest ih =>
      obtain ⟨first, later⟩ := List.forall_mem_cons.mp defined
      obtain ⟨value, here⟩ := Option.isSome_iff_exists.mp first
      rw [List.mapM_cons, here, ih later, List.filterMap_cons_some here]
      rfl

theorem placeAt?_eq (within : index.Within library) :
    placeAt? index library descriptor = some (place index library descriptor) := by
  have inside := within descriptor.linkage
  rw [placeAt?, place]
  cases owned : index.owners descriptor.linkage with
  | nil => rfl
  | cons owner others =>
      rw [owned] at inside
      cases others with
      | nil =>
          have found := List.getElem?_eq_getElem (inside owner List.mem_cons_self)
          simp only [placeWithAt?_eq found, found]
      | cons other others =>
          simp only
          rw [mapM_eq_filterMap, Option.map_some]
          intro place member
          rw [List.getElem?_eq_getElem (inside place member)]
          rfl

/-- Every placement comes to characters and scenes that there are. -/
theorem mergeByAt?_eq (within : index.Within library) (descriptors : List Descriptor) :
    mergeByAt? index library descriptors = some (mergeBy index library descriptors) := by
  induction descriptors generalizing library with
  | nil => rfl
  | cons descriptor rest ih =>
      rw [mergeByAt?, mergeBy, placeAt?_eq within, Option.bind_some, ih (within.place descriptor),
        Option.map_some]

theorem mergeAt?_eq (library : Library) (descriptors : List Descriptor) :
    mergeAt? library descriptors = some (merge library descriptors) :=
  mergeByAt?_eq (within_ofLibrary library) descriptors

end Merge

/-- The lines from a place on, or none if it is behind the end. -/
def takeRemaining? (lines : List String) (place : Nat) : Option (List String) :=
  sliceFrom? lines (min place lines.length)

/-- What a reading leaves is the part of the lines from the place where it stopped. -/
def LeavesPart {α : Type} (lines : List String) (reading : Reading α) : Prop :=
  takeRemaining? lines reading.offset = some reading.rest

/-- Reads a whole library from a place of the lines on. What is behind its section is taken from
all lines, at the place where the records end. -/
def readLibraryAt? (layout : Text.Layout) (lines : List String) (start : Nat) :
    Option (Except Error Library) :=
  let before := (lines.drop start).takeWhile fun line => !isSectionMarker line
  match (lines.drop start).dropWhile fun line => !isSectionMarker line with
  | [] => some (.error .missingSection)
  | marker :: body =>
    let opened := start + before.length + 1
    let between := body.takeWhile fun line => !startsRecords line
    let records := readAt readRecords lines (opened + between.length)
    match records.value with
    | none => some (.error (.unterminatedSection opened))
    | some (characters, closer) =>
      (takeRemaining? lines records.offset).map fun trailing =>
        .ok ⟨before ++ marker :: between, characters, closer, trailing, layout⟩

section Reading

variable {lines : List String} {start : Nat}

theorem leavesPart_of_stops {α : Type} {reading : Reading α}
    (within : reading.offset ≤ lines.length) (left : reading.rest = lines.drop reading.offset) :
    LeavesPart lines reading := by
  rw [LeavesPart, takeRemaining?, Nat.min_eq_left within, sliceFrom?_eq within, left]

theorem leavesPart_nil {α : Type} {reading : Reading α} (behind : lines.length ≤ reading.offset)
    (none : reading.rest = []) : LeavesPart lines reading := by
  rw [LeavesPart, takeRemaining?, Nat.min_eq_right behind, sliceFrom?_eq (Nat.le_refl _),
    List.drop_length, none]

/-- A reader that stops behind closers leaves the lines from there, wherever it starts. -/
theorem ReadsTo.leavesPart {α : Type} {read : Nat → List String → Reading α} {ends : Nat → Prop}
    (reads : start ≤ lines.length → ReadsTo read ends lines start)
    (readNil : ∃ value, read start [] = ⟨value, start, [], []⟩) :
    LeavesPart lines (readAt read lines start) := by
  by_cases inside : start ≤ lines.length
  · have stops := (reads inside).stopsBehindCloser inside
    exact leavesPart_of_stops stops.within stops.left
  · obtain ⟨value, nothing⟩ := readNil
    have behind := Nat.le_of_not_le inside
    have result : readAt read lines start = ⟨value, start, [], []⟩ := by
      rw [readAt, List.drop_of_length_le behind, nothing]
    rw [result]
    exact leavesPart_nil behind rfl

theorem readRecords_leavesPart (lines : List String) (start : Nat) :
    LeavesPart lines (readAt readRecords lines start) := by
  rw [readAt]
  cases here : lines[start]? with
  | none =>
      have behind := List.getElem?_eq_none_iff.mp here
      rw [List.drop_of_length_le behind, readRecords]
      exact leavesPart_nil behind rfl
  | some line =>
      have below : start + 1 ≤ lines.length := lt_of_line here
      rw [drop_of_line here, readRecords]
      cases opened : Field.recordStart? line with
      | some id =>
          have stops := (readCharacter_readsTo id below).stopsBehindCloser below
          have onward := stops.behind
          have later := readRecords_leavesPart lines
            (readAt (readCharacter id) lines (start + 1)).offset
          rw [readAt, ← stops.left] at later
          exact later
      | none =>
          by_cases closes : isCloser line = true
          · simp only [closes, ↓reduceIte]
            exact leavesPart_of_stops below rfl
          · simp only [closes, Bool.false_eq_true, ↓reduceIte]
            exact readRecords_leavesPart lines (start + 1)
termination_by lines.length - start
decreasing_by all_goals omega

theorem dropWhile_eq_drop_takeWhile {α : Type} (p : α → Bool) (items : List α) :
    items.dropWhile p = items.drop (items.takeWhile p).length := by
  have behind : (items.takeWhile p ++ items.dropWhile p).drop (items.takeWhile p).length =
      items.dropWhile p := List.drop_left
  rw [List.takeWhile_append_dropWhile] at behind
  exact behind.symm

theorem readLibraryAt?_eq (layout : Text.Layout) (lines : List String) (start : Nat) :
    readLibraryAt? layout lines start = some (readAt (readLibrary layout) lines start).value := by
  rw [readLibraryAt?, readAt, readLibrary]
  cases cut : (lines.drop start).dropWhile fun line => !isSectionMarker line with
  | nil => rfl
  | cons marker body =>
      have below : lines.drop (start + ((lines.drop start).takeWhile fun line =>
          !isSectionMarker line).length + 1) = body := by
        rw [← List.drop_drop, ← List.drop_drop, ← dropWhile_eq_drop_takeWhile, cut]
        rfl
      generalize start + ((lines.drop start).takeWhile fun line =>
        !isSectionMarker line).length + 1 = opened at below ⊢
      have records : lines.drop (opened + (body.takeWhile fun line => !startsRecords line).length) =
          body.dropWhile fun line => !startsRecords line := by
        rw [← List.drop_drop, below, ← dropWhile_eq_drop_takeWhile]
      have left := readRecords_leavesPart lines
        (opened + (body.takeWhile fun line => !startsRecords line).length)
      rw [LeavesPart, readAt, records] at left
      simp only [readAt, records, left, Option.map_some]
      cases (readRecords (opened + (body.takeWhile fun line => !startsRecords line).length)
          (body.dropWhile fun line => !startsRecords line)).value with
      | none => rfl
      | some found => rfl

end Reading

end SceneGallery.Library

namespace SceneGallery.Gallery

open Library

/-- No place is ever outside. A conversion, a merge and the reading of a library in which every
access by place could fail come to what they come to without places, and what any reader leaves,
from wherever it starts, is a part of the lines. -/
theorem accesses_inside :
    (∀ resources lines, Event.convertAt? resources lines = some (Event.convert resources lines)) ∧
    (∀ library descriptors, mergeAt? library descriptors = some (merge library descriptors)) ∧
    ∀ lines start,
      LeavesPart lines (readAt (readCondition {}) lines start) ∧
      LeavesPart lines (readAt (readBackground {}) lines start) ∧
      LeavesPart lines (readAt (readScene {}) lines start) ∧
      (∀ id, LeavesPart lines (readAt (readCharacter id) lines start)) ∧
      LeavesPart lines (readAt readRecords lines start) ∧
      ∀ layout, readLibraryAt? layout lines start =
        some (readAt (readLibrary layout) lines start).value := by
  refine ⟨Event.convertAt?_eq, mergeAt?_eq, fun lines start => ?_⟩
  refine ⟨?_, ?_, ?_, ?_, readRecords_leavesPart lines start, ?_⟩
  · exact ReadsTo.leavesPart (readCondition_readsTo {}) ⟨{}, rfl⟩
  · exact ReadsTo.leavesPart (readBackground_readsTo {}) ⟨{}, rfl⟩
  · exact ReadsTo.leavesPart (readScene_readsTo {}) ⟨{}, readScene_nil {} start⟩
  · exact fun id => ReadsTo.leavesPart (readCharacter_readsTo id) ⟨⟨id, [], "", [], []⟩, rfl⟩
  · exact fun layout => readLibraryAt?_eq layout lines start

end SceneGallery.Gallery
