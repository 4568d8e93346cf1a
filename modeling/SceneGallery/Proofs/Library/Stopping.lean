import SceneGallery.Proofs.Library.Closers
import SceneGallery.Proofs.Library.LaidOut
set_option autoImplicit false

namespace SceneGallery.Library

open SceneGallery.Field

/-- Two lists have the same lines from one place up to another. -/
def Agree (lines other : List String) (first last : Nat) : Prop :=
  ∀ place, first ≤ place → place ≤ last → other[place]? = lines[place]?

theorem Agree.mono {lines other : List String} {first last higher lower : Nat}
    (agree : Agree lines other first last) (above : first ≤ higher) (below : lower ≤ last) :
    Agree lines other higher lower :=
  fun place behind before => agree place (above.trans behind) (before.trans below)

theorem drop_of_line {lines : List String} {place : Nat} {line : String}
    (here : lines[place]? = some line) : lines.drop place = line :: lines.drop (place + 1) := by
  obtain ⟨inside, rfl⟩ := List.getElem?_eq_some_iff.mp here
  exact List.drop_eq_getElem_cons inside

theorem Agree.drop_line {lines other : List String} {first last : Nat} {line : String}
    (agree : Agree lines other first last) (here : lines[first]? = some line)
    (ordered : first ≤ last) : other.drop first = line :: other.drop (first + 1) :=
  drop_of_line ((agree first (Nat.le_refl _) ordered).trans here)

/-- How far a reader comes: behind the closer that ends its part, from the lines up to it alone, and
to the end of the lines if nothing ends it. -/
structure ReadsTo {α : Type} (read : Nat → List String → Reading α) (ends : Nat → Prop)
    (lines : List String) (start : Nat) : Prop where
  ahead : ∀ closer, ends closer → start ≤ closer ∧ LineAt lines isCloser closer
  /-- The value is fixed before the other lines are chosen, so it depends on none of them. -/
  closed : ∀ closer, ends closer → ∃ value remarks, ∀ other, Agree lines other start closer →
    read start (other.drop start) = ⟨value, closer + 1, other.drop (closer + 1), remarks⟩
  unclosed : (∀ closer, ¬ ends closer) → ∃ value remarks,
    read start (lines.drop start) = ⟨value, lines.length, [], remarks⟩

section ReadsTo

variable {α β : Type} {read next : Nat → List String → Reading α} {ends others : Nat → Prop}
  {lines : List String} {start : Nat} {line : String}

theorem readsTo_end {value : α} (inside : start ≤ lines.length) (here : lines[start]? = none)
    (readNil : read start [] = ⟨value, start, [], []⟩)
    (ahead : ∀ closer, ends closer → start ≤ closer ∧ LineAt lines isCloser closer) :
    ReadsTo read ends lines start where
  ahead := ahead
  closed := by
    intro closer ended
    obtain ⟨behind, closes⟩ := ahead closer ended
    have reached := List.getElem?_eq_none_iff.mp here
    have below := closes.lt
    omega
  unclosed := by
    intro _
    have reached := List.getElem?_eq_none_iff.mp here
    have same : start = lines.length := by omega
    refine ⟨value, [], ?_⟩
    rw [List.drop_eq_nil_of_le reached, readNil, same]

theorem readsTo_closer (value : α) (here : lines[start]? = some line)
    (closes : isCloser line = true)
    (readLine : ∀ rest, read start (line :: rest) = ⟨value, start + 1, rest, []⟩)
    (endsHere : ∀ closer, ends closer ↔ closer = start) : ReadsTo read ends lines start where
  ahead := by
    intro closer ended
    rw [(endsHere closer).mp ended]
    exact ⟨Nat.le_refl _, (lineAt_iff here).mpr closes⟩
  closed := by
    intro closer ended
    rw [(endsHere closer).mp ended]
    refine ⟨value, [], fun other agree => ?_⟩
    rw [agree.drop_line here (Nat.le_refl _), readLine]
  unclosed := fun endless => absurd ((endsHere start).mpr rfl) (endless start)

theorem readsTo_line (remarks : List Remark) (here : lines[start]? = some line)
    (readLine : ∀ rest, read start (line :: rest) = (next (start + 1) rest).after remarks)
    (sameEnd : ∀ closer, ends closer ↔ others closer)
    (later : ReadsTo next others lines (start + 1)) : ReadsTo read ends lines start where
  ahead := by
    intro closer ended
    obtain ⟨behind, closes⟩ := later.ahead closer ((sameEnd closer).mp ended)
    exact ⟨Nat.le_of_lt behind, closes⟩
  closed := by
    intro closer ended
    have ended := (sameEnd closer).mp ended
    have behind := (later.ahead closer ended).1
    obtain ⟨value, told, reads⟩ := later.closed closer ended
    refine ⟨value, remarks ++ told, fun other agree => ?_⟩
    rw [agree.drop_line here (Nat.le_of_lt behind), readLine,
      reads other (agree.mono (Nat.le_succ _) (Nat.le_refl _))]
    rfl
  unclosed := by
    intro endless
    obtain ⟨value, told, reads⟩ :=
      later.unclosed fun closer ended => endless closer ((sameEnd closer).mpr ended)
    refine ⟨value, remarks ++ told, ?_⟩
    rw [drop_of_line here, readLine, reads]
    rfl

/-- A line after which a part is read, and then another reader goes on with its value. -/
theorem readsTo_part {γ : Type} {part : Nat → List String → Reading β} {partEnds : Nat → Prop}
    (nextEnds : Nat → Nat → Prop) (resume : β → Nat → List String → Reading γ) (put : β → γ → α)
    (told : List Remark → List Remark) (here : lines[start]? = some line)
    (readLine : ∀ rest, read start (line :: rest) =
      ((resume (part (start + 1) rest).value (part (start + 1) rest).offset
        (part (start + 1) rest).rest).map (put (part (start + 1) rest).value)).after
          (told (part (start + 1) rest).remarks))
    (endsIff : ∀ closer, ends closer ↔ ∃ inner, partEnds inner ∧ nextEnds (inner + 1) closer)
    (inner : ReadsTo part partEnds lines (start + 1))
    (later : ∀ place value, start < place → place < lines.length →
      ReadsTo (resume value) (nextEnds (place + 1)) lines (place + 1))
    (resumeNil : ∀ value, ∃ result,
      resume value lines.length [] = ⟨result, lines.length, [], []⟩) :
    ReadsTo read ends lines start where
  ahead := by
    intro closer ended
    obtain ⟨place, partEnded, ended⟩ := (endsIff closer).mp ended
    obtain ⟨above, partCloses⟩ := inner.ahead place partEnded
    obtain ⟨value, _, _⟩ := inner.closed place partEnded
    obtain ⟨behind, closes⟩ := (later place value above partCloses.lt).ahead closer ended
    exact ⟨by omega, closes⟩
  closed := by
    intro closer ended
    obtain ⟨place, partEnded, ended⟩ := (endsIff closer).mp ended
    obtain ⟨above, partCloses⟩ := inner.ahead place partEnded
    obtain ⟨value, partTold, partReads⟩ := inner.closed place partEnded
    have later := later place value above partCloses.lt
    have behind := (later.ahead closer ended).1
    obtain ⟨result, laterTold, reads⟩ := later.closed closer ended
    refine ⟨put value result, told partTold ++ laterTold, fun other agree => ?_⟩
    rw [agree.drop_line here (by omega), readLine,
      partReads other (agree.mono (Nat.le_succ _) (by omega))]
    dsimp only
    rw [reads other (agree.mono (by omega) (Nat.le_refl _))]
    rfl
  unclosed := by
    intro endless
    by_cases partEndless : ∀ place, ¬ partEnds place
    · -- The part takes all lines, and the reader behind it has nothing left to read.
      obtain ⟨value, partTold, partReads⟩ := inner.unclosed partEndless
      obtain ⟨result, nothing⟩ := resumeNil value
      refine ⟨put value result, told partTold ++ [], ?_⟩
      rw [drop_of_line here, readLine, partReads]
      dsimp only
      rw [nothing]
      rfl
    · obtain ⟨place, partEnded⟩ := not_forall_not.mp partEndless
      obtain ⟨above, partCloses⟩ := inner.ahead place partEnded
      obtain ⟨value, partTold, partReads⟩ := inner.closed place partEnded
      obtain ⟨result, laterTold, reads⟩ := (later place value above partCloses.lt).unclosed
        fun closer ended => endless closer ((endsIff closer).mpr ⟨place, partEnded, ended⟩)
      refine ⟨put value result, told partTold ++ laterTold, ?_⟩
      rw [drop_of_line here, readLine, partReads lines fun _ _ _ => rfl]
      dsimp only
      rw [reads]
      rfl

end ReadsTo

variable {lines : List String}

theorem lt_of_line {place : Nat} {line : String} (here : lines[place]? = some line) :
    place < lines.length :=
  (List.getElem?_eq_some_iff.mp here).1

theorem readCondition_readsTo (condition : Condition) {start : Nat}
    (inside : start ≤ lines.length) :
    ReadsTo (readCondition condition) (EndsBlock lines start) lines start := by
  cases here : lines[start]? with
  | none => exact readsTo_end inside here rfl fun closer ends => ends.1
  | some line =>
      have below := lt_of_line here
      have again := fun next => readCondition_readsTo next below
      cases closes : isCloser line with
      | true =>
          refine readsTo_closer condition here closes (fun rest => ?_) fun closer =>
            endsBlock_closer ((lineAt_iff here).mpr closes)
          simp only [readCondition, closes, ↓reduceIte]
      | false =>
          have ends : ∀ closer, EndsBlock lines start closer ↔ EndsBlock lines (start + 1) closer :=
            fun _ => endsBlock_line (not_lineAt here closes)
          cases put : putCondition? condition (ofLine? line) with
          | some next =>
              refine readsTo_line [] here (fun rest => ?_) ends (again next)
              simp only [readCondition, closes, Bool.false_eq_true, ↓reduceIte, put]
              rfl
          | none =>
              refine readsTo_line [.unexpected .condition (start + 1) line] here (fun rest => ?_)
                ends (again condition)
              simp only [readCondition, closes, Bool.false_eq_true, ↓reduceIte, put]
termination_by lines.length - start

theorem readBackground_readsTo (background : Background) {start : Nat}
    (inside : start ≤ lines.length) :
    ReadsTo (readBackground background) (EndsBlock lines start) lines start := by
  cases here : lines[start]? with
  | none => exact readsTo_end inside here rfl fun closer ends => ends.1
  | some line =>
      have below := lt_of_line here
      have again := fun next => readBackground_readsTo next below
      cases closes : isCloser line with
      | true =>
          refine readsTo_closer background here closes (fun rest => ?_) fun closer =>
            endsBlock_closer ((lineAt_iff here).mpr closes)
          simp only [readBackground, closes, ↓reduceIte]
      | false =>
          have ends : ∀ closer, EndsBlock lines start closer ↔ EndsBlock lines (start + 1) closer :=
            fun _ => endsBlock_line (not_lineAt here closes)
          cases put : id? line with
          | some text =>
              refine readsTo_line [] here (fun rest => ?_) ends (again ⟨text⟩)
              simp only [readBackground, closes, Bool.false_eq_true, ↓reduceIte, put]
              rfl
          | none =>
              refine readsTo_line [.unexpected .background (start + 1) line] here (fun rest => ?_)
                ends (again background)
              simp only [readBackground, closes, Bool.false_eq_true, ↓reduceIte, put]
termination_by lines.length - start

theorem readScene_readsTo (scene : Scene) {start : Nat} (inside : start ≤ lines.length) :
    ReadsTo (readScene scene) (EndsScene lines start) lines start := by
  cases here : lines[start]? with
  | none =>
      exact readsTo_end inside here (readScene_nil scene start) fun closer ends =>
        ⟨ends.1.behind, ends.1.closer⟩
  | some line =>
      have below := lt_of_line here
      have again := fun next (place : Nat) (_ : start < place) (within : place ≤ lines.length) =>
        readScene_readsTo next within
      have opener : opensBlock line = true → ∀ closer, EndsScene lines start closer ↔
          ∃ inner, EndsBlock lines (start + 1) inner ∧ EndsScene lines (inner + 1) closer :=
        fun opens closer => endsScene_block ((lineAt_iff here).mpr opens)
          (not_lineAt here (isCloser_of_opensBlock opens))
      cases opensCondition : isConditionOpener line with
      | true =>
          refine readsTo_part (EndsScene lines)
            (fun value => readScene { scene with condition := some value }) (fun _ => id) id here
            (fun rest => ?_) (opener (by rw [opensBlock, opensCondition, Bool.true_or]))
            (readCondition_readsTo {} below)
            (fun place value above within => again _ (place + 1) (by omega) within)
            fun value => ⟨_, readScene_nil _ _⟩
          rw [readScene]
          simp only [opensCondition, ↓reduceIte]
          rfl
      | false =>
          cases opensBackground : isBackgroundOpener line with
          | true =>
              refine readsTo_part (EndsScene lines)
                (fun value => readScene { scene with background := some value }) (fun _ => id) id
                here (fun rest => ?_) (opener (by rw [opensBlock, opensBackground, Bool.or_true]))
                (readBackground_readsTo {} below)
                (fun place value above within => again _ (place + 1) (by omega) within)
                fun value => ⟨_, readScene_nil _ _⟩
              rw [readScene]
              simp only [opensCondition, opensBackground, Bool.false_eq_true, ↓reduceIte]
              rfl
          | false =>
              cases closes : isCloser line with
              | true =>
                  refine readsTo_closer scene here closes (fun rest => ?_) fun closer =>
                    endsScene_closer ((lineAt_iff here).mpr closes)
                  rw [readScene]
                  simp only [opensCondition, opensBackground, closes, Bool.false_eq_true,
                    ↓reduceIte]
              | false =>
                  have unopened : opensBlock line = false := by
                    rw [opensBlock, opensCondition, opensBackground, Bool.or_false]
                  have ends : ∀ closer,
                      EndsScene lines start closer ↔ EndsScene lines (start + 1) closer :=
                    fun _ => endsScene_line (not_lineAt here unopened) (not_lineAt here closes)
                  cases put : putScene? scene (ofLine? line) with
                  | some next =>
                      refine readsTo_line [] here (fun rest => ?_) ends
                        (again next (start + 1) (Nat.lt_succ_self _) below)
                      rw [readScene]
                      simp only [opensCondition, opensBackground, closes, Bool.false_eq_true,
                        ↓reduceIte, put]
                      rfl
                  | none =>
                      refine readsTo_line [.unexpected .scene (start + 1) line] here
                        (fun rest => ?_) ends (again scene (start + 1) (Nat.lt_succ_self _) below)
                      rw [readScene]
                      simp only [opensCondition, opensBackground, closes, Bool.false_eq_true,
                        ↓reduceIte, put]
termination_by lines.length - start

/-- Scenes are read to the closer of the record, which comes behind the closer of their block. -/
theorem readScenes_readsTo (closed : Bool) {start : Nat} (inside : start ≤ lines.length) :
    ReadsTo (readScenes closed) (EndsScenes lines start closed) lines start := by
  have scenesNil : ∀ place, readScenes closed place [] = ⟨[], place, [], []⟩ := by
    intro place
    rw [readScenes]
  cases here : lines[start]? with
  | none =>
      refine readsTo_end inside here (scenesNil start) fun closer ends => ?_
      have own := recordCloser_of_endsScenes ends
      exact ⟨own.behind, own.closer⟩
  | some line =>
      have below := lt_of_line here
      have again := fun closed (place : Nat) (_ : start < place) (within : place ≤ lines.length) =>
        readScenes_readsTo closed within
      cases closes : isCloser line with
      | true =>
          have closesHere : LineAt lines isCloser start := (lineAt_iff here).mpr closes
          cases closed with
          | true =>
              refine readsTo_closer [] here closes (fun rest => ?_) fun closer =>
                endsScenes_closer_of_closed closesHere
              rw [readScenes]
              simp only [closes, ↓reduceIte]
          | false =>
              refine readsTo_line [] here (fun rest => ?_)
                (fun closer => endsScenes_closer_of_open closesHere)
                (again true (start + 1) (Nat.lt_succ_self _) below)
              rw [readScenes]
              simp only [closes, Bool.false_eq_true, ↓reduceIte]
              rfl
      | false =>
          have unclosed : ¬ LineAt lines isCloser start := not_lineAt here closes
          cases opened : recordStart? line with
          | some number =>
              have opens : opensScene line = true := by
                rw [opensScene, closes, opened]
                rfl
              refine readsTo_part (fun place => EndsScenes lines place closed)
                (fun _ => readScenes closed) List.cons (.scene number :: ·) here (fun rest => ?_)
                (fun closer => endsScenes_scene ((lineAt_iff here).mpr opens) unclosed)
                (readScene_readsTo {} below)
                (fun place value above within => again closed (place + 1) (by omega) within)
                fun value => ⟨[], scenesNil _⟩
              rw [readScenes]
              simp only [closes, Bool.false_eq_true, ↓reduceIte, opened]
          | none =>
              have unopened : opensScene line = false := by
                rw [opensScene, opened, Option.isSome_none, Bool.and_false]
              refine readsTo_line [.unexpected .character (start + 1) line] here (fun rest => ?_)
                (fun closer => endsScenes_line (not_lineAt here unopened) unclosed)
                (again closed (start + 1) (Nat.lt_succ_self _) below)
              rw [readScenes]
              simp only [closes, Bool.false_eq_true, ↓reduceIte, opened]
termination_by lines.length - start

/-- The first line of a kind from a place on, from the lines cut at it. -/
theorem isLeast_of_cut {is : String → Bool} {start : Nat} {before after : List String}
    {line : String} (cut : lines.drop start = before ++ line :: after)
    (others : ∀ above ∈ before, is above = false) (here : is line = true) :
    IsLeast {place | start ≤ place ∧ LineAt lines is place} (start + before.length) := by
  have lookup : ∀ index, lines[start + index]? = (before ++ line :: after)[index]? := by
    intro index
    rw [← cut, List.getElem?_drop]
  constructor
  · refine ⟨Nat.le_add_right _ _, line, ?_, here⟩
    rw [lookup, List.getElem?_append_right (Nat.le_refl _), Nat.sub_self, List.getElem?_cons_zero]
  · rintro place ⟨behind, there⟩
    obtain ⟨index, rfl⟩ := Nat.exists_eq_add_of_le behind
    by_contra early
    have inside : index < before.length := by omega
    have found : lines[start + index]? = some before[index] := by
      rw [lookup, List.getElem?_append_left inside, List.getElem?_eq_getElem inside]
    have holds := (lineAt_iff found).mp there
    rw [others _ (List.getElem_mem inside)] at holds
    exact absurd holds Bool.false_ne_true

theorem isLeast_of_naming {start : Nat} {heading after : List String} {naming name : String}
    (cut : lines.drop start = heading ++ naming :: after)
    (unnamed : ∀ line ∈ heading, name? line = none) (named : name? naming = some name) :
    IsLeast {place | start ≤ place ∧ LineAt lines (fun line => (name? line).isSome) place}
      (start + heading.length) := by
  refine isLeast_of_cut cut (fun line member => ?_) ?_
  · rw [unnamed line member, Option.isSome_none]
  · rw [named, Option.isSome_some]

theorem drop_behind {start : Nat} {before after : List String} {line : String}
    (cut : lines.drop start = before ++ line :: after) :
    lines.drop (start + before.length + 1) = after := by
  rw [Nat.add_assoc, ← List.drop_drop, cut, List.drop_append, List.drop_of_length_le (by omega),
    Nat.add_sub_cancel_left, List.nil_append, List.drop_one, List.tail_cons]

theorem not_lineAt_of_drop {is : String → Bool} {start place : Nat}
    (others : ∀ line ∈ lines.drop start, is line = false) (behind : start ≤ place) :
    ¬ LineAt lines is place := by
  rintro ⟨line, found, holds⟩
  obtain ⟨index, rfl⟩ := Nat.exists_eq_add_of_le behind
  rw [← List.getElem?_drop] at found
  rw [others line (List.mem_of_getElem? found)] at holds
  exact absurd holds Bool.false_ne_true

theorem Agree.drop_block {other block rest : List String} {start last : Nat}
    (agree : Agree lines other start last) (cut : lines.drop start = block ++ rest)
    (covers : start + block.length ≤ last + 1) :
    other.drop start = block ++ other.drop (start + block.length) := by
  have front : (other.drop start).take block.length = block := by
    apply List.ext_getElem?
    intro index
    by_cases inside : index < block.length
    · rw [List.getElem?_take_of_lt inside, List.getElem?_drop,
        agree _ (Nat.le_add_right _ _) (by omega), ← List.getElem?_drop, cut,
        List.getElem?_append_left inside]
    · rw [List.getElem?_take_eq_none (Nat.le_of_not_lt inside),
        List.getElem?_eq_none (Nat.le_of_not_lt inside)]
  calc other.drop start
    _ = (other.drop start).take block.length ++ (other.drop start).drop block.length :=
        (List.take_append_drop _ _).symm
    _ = block ++ other.drop (start + block.length) := by rw [front, List.drop_drop]

theorem endsRecord_ahead {start closer : Nat} (ends : EndsRecord lines start closer) :
    start ≤ closer ∧ LineAt lines isCloser closer := by
  obtain ⟨naming, marker, named, marked, ended⟩ := ends
  have own := recordCloser_of_endsScenes ended
  have above := named.1.1
  have between := marked.1.1
  have behind := own.behind
  exact ⟨by omega, own.closer⟩

section Record

variable {start : Nat} {heading body preamble items : List String} {naming name marker : String}

theorem not_endsRecord_of_unnamed (unnamed : ∀ line ∈ lines.drop start, name? line = none)
    (closer : Nat) : ¬ EndsRecord lines start closer := by
  rintro ⟨naming, _, named, _, _⟩
  refine not_lineAt_of_drop (fun line member => ?_) named.1.1 named.1.2
  rw [unnamed line member, Option.isSome_none]

theorem not_endsRecord_of_unmarked (cut : lines.drop start = heading ++ naming :: body)
    (unnamed : ∀ line ∈ heading, name? line = none) (named : name? naming = some name)
    (unmarked : ∀ line ∈ body, isItemsMarker line = false) (closer : Nat) :
    ¬ EndsRecord lines start closer := by
  rintro ⟨other, _, otherNamed, marked, _⟩
  rw [otherNamed.unique (isLeast_of_naming cut unnamed named)] at marked
  refine not_lineAt_of_drop ?_ marked.1.1 marked.1.2
  rw [drop_behind cut]
  exact unmarked

/-- The closer that ends a record is the one that ends its scenes. -/
theorem endsRecord_iff_of_cut
    (cut : lines.drop start = heading ++ naming :: (preamble ++ marker :: items))
    (unnamed : ∀ line ∈ heading, name? line = none) (named : name? naming = some name)
    (unmarked : ∀ line ∈ preamble, isItemsMarker line = false)
    (marked : isItemsMarker marker = true) (closer : Nat) :
    EndsRecord lines start closer ↔
      EndsScenes lines (start + heading.length + 1 + preamble.length + 1) false closer := by
  have namingLeast := isLeast_of_naming cut unnamed named
  have markerLeast := isLeast_of_cut (drop_behind cut) unmarked marked
  constructor
  · rintro ⟨otherNaming, otherMarker, otherNamed, otherMarked, ends⟩
    rw [otherNamed.unique namingLeast] at otherMarked
    rwa [otherMarked.unique markerLeast] at ends
  · exact fun ends => ⟨_, _, namingLeast, markerLeast, ends⟩

/-- Lists that agree beyond the marker of the scenes of a record both have its lines up to there. -/
theorem Agree.drop_record {other : List String} {last : Nat} (agree : Agree lines other start last)
    (cut : lines.drop start = heading ++ naming :: (preamble ++ marker :: items))
    (covers : start + heading.length + 1 + preamble.length + 1 ≤ last) :
    other.drop start = heading ++ naming :: (preamble ++ marker ::
      other.drop (start + heading.length + 1 + preamble.length + 1)) := by
  have block : lines.drop start = (heading ++ naming :: (preamble ++ [marker])) ++ items := by
    rw [cut]
    simp only [List.append_assoc, List.cons_append, List.nil_append]
  have place : start + (heading ++ naming :: (preamble ++ [marker])).length =
      start + heading.length + 1 + preamble.length + 1 := by
    simp only [List.length_append, List.length_cons, List.length_nil]
    omega
  have same := agree.drop_block block (by omega)
  rw [place] at same
  simpa only [List.append_assoc, List.cons_append, List.nil_append] using same

end Record

theorem readCharacter_readsTo (id : UInt32) {start : Nat} (inside : start ≤ lines.length) :
    ReadsTo (readCharacter id) (EndsRecord lines start) lines start := by
  generalize cut : lines.drop start = later
  have counted : start + later.length = lines.length := by
    rw [← cut, List.length_drop]
    omega
  cases openedLines later with
  | unnamed unnamed =>
      have endless := not_endsRecord_of_unnamed (cut.symm ▸ unnamed)
      refine ⟨fun _ => endsRecord_ahead, fun closer ends => absurd ends (endless closer), ?_⟩
      refine fun _ => ⟨⟨id, later, "", [], []⟩, [], ?_⟩
      rw [cut, readCharacter_of_unnamed id start unnamed, counted]
  | @unmarked heading body naming name unnamed named unmarked =>
      have endless := not_endsRecord_of_unmarked cut unnamed named unmarked
      refine ⟨fun _ => endsRecord_ahead, fun closer ends => absurd ends (endless closer), ?_⟩
      refine fun _ => ⟨⟨id, heading, name, body, []⟩, [.character name], ?_⟩
      rw [List.length_append, List.length_cons] at counted
      have reached : start + heading.length + 1 + body.length = lines.length := by omega
      rw [cut, readCharacter_of_unmarked id start unnamed named unmarked, reached]
  | @parts heading preamble items naming name marker unnamed named unmarked marked =>
      have endsIff := endsRecord_iff_of_cut cut unnamed named unmarked marked
      have within : start + heading.length + 1 + preamble.length + 1 ≤ lines.length := by
        simp only [List.length_append, List.length_cons] at counted
        omega
      have scenes := readScenes_readsTo false within
      constructor
      · exact fun closer => endsRecord_ahead
      · intro closer ends
        have ends := (endsIff closer).mp ends
        have behind := (scenes.ahead closer ends).1
        obtain ⟨value, told, reads⟩ := scenes.closed closer ends
        refine ⟨⟨id, heading, name, preamble, value⟩, .character name :: told, ?_⟩
        intro other agree
        rw [agree.drop_record cut behind,
          readCharacter_parts id start _ unnamed named unmarked marked,
          reads other (agree.mono (by omega) (Nat.le_refl _))]
        rfl
      · intro endless
        obtain ⟨value, told, reads⟩ :=
          scenes.unclosed fun closer ends => endless closer ((endsIff closer).mpr ends)
        refine ⟨⟨id, heading, name, preamble, value⟩, .character name :: told, ?_⟩
        rw [drop_behind (drop_behind cut)] at reads
        rw [cut, readCharacter_parts id start items unnamed named unmarked marked, reads]
        rfl

/-- What a reader reads from a place of the lines on. -/
def readAt {α : Type} (read : Nat → List String → Reading α) (lines : List String)
    (start : Nat) : Reading α :=
  read start (lines.drop start)

/-- A reader stops within the lines, at the place behind the closer that ends its part, or at the
end of the lines if nothing ends it. From any lines that are the same from its start to that closer,
it reads the same. -/
structure StopsBehindCloser {α : Type} (read : Nat → List String → Reading α) (ends : Nat → Prop)
    (lines : List String) (start : Nat) : Prop where
  behind : start ≤ (readAt read lines start).offset
  within : (readAt read lines start).offset ≤ lines.length
  left : (readAt read lines start).rest = lines.drop (readAt read lines start).offset
  stopped : (∃ closer, ends closer ∧ LineAt lines isCloser closer ∧
      (readAt read lines start).offset = closer + 1) ∨
    (∀ closer, ¬ ends closer) ∧ (readAt read lines start).offset = lines.length
  alike : ∀ closer, ends closer → ∀ other, Agree lines other start closer →
    readAt read other start = { readAt read lines start with rest := other.drop (closer + 1) }

theorem ReadsTo.stopsBehindCloser {α : Type} {read : Nat → List String → Reading α}
    {ends : Nat → Prop} {start : Nat} (reads : ReadsTo read ends lines start)
    (inside : start ≤ lines.length) : StopsBehindCloser read ends lines start := by
  have alike : ∀ closer, ends closer → ∀ other, Agree lines other start closer →
      readAt read other start =
        { readAt read lines start with rest := other.drop (closer + 1) } := by
    intro closer ended other agree
    obtain ⟨value, told, reads⟩ := reads.closed closer ended
    rw [readAt, readAt, reads other agree, reads lines fun _ _ _ => rfl]
  by_cases endless : ∀ closer, ¬ ends closer
  · obtain ⟨value, told, result⟩ := reads.unclosed endless
    have result : readAt read lines start = ⟨value, lines.length, [], told⟩ := result
    refine ⟨?_, ?_, ?_, ?_, alike⟩ <;> rw [result]
    · exact inside
    · rw [List.drop_length]
    · exact .inr ⟨endless, rfl⟩
  · obtain ⟨closer, ended⟩ := not_forall_not.mp endless
    obtain ⟨behind, closes⟩ := reads.ahead closer ended
    obtain ⟨value, told, result⟩ := reads.closed closer ended
    have result : readAt read lines start = ⟨value, closer + 1, lines.drop (closer + 1), told⟩ :=
      result lines fun _ _ _ => rfl
    refine ⟨?_, ?_, ?_, ?_, alike⟩ <;> rw [result]
    · exact Nat.le_succ_of_le behind
    · exact closes.lt
    · exact .inl ⟨closer, ended, closes, rfl⟩

/-- Every reader that starts within the lines stops behind the closer that ends its part and looks
no further. -/
theorem readers_stop_behind_closer (lines : List String) (start : Nat)
    (inside : start ≤ lines.length) :
    StopsBehindCloser (readCondition {}) (EndsBlock lines start) lines start ∧
      StopsBehindCloser (readBackground {}) (EndsBlock lines start) lines start ∧
        StopsBehindCloser (readScene {}) (EndsScene lines start) lines start ∧
          ∀ id, StopsBehindCloser (readCharacter id) (EndsRecord lines start) lines start :=
  ⟨(readCondition_readsTo {} inside).stopsBehindCloser inside,
    (readBackground_readsTo {} inside).stopsBehindCloser inside,
    (readScene_readsTo {} inside).stopsBehindCloser inside,
    fun id => (readCharacter_readsTo id inside).stopsBehindCloser inside⟩

/-- The closer of a condition does not end its scene, and the lines behind the scene are left. -/
theorem readers_stop_behind_closer_nested :
    EndsScene [":condition => \x7b", "\x7d", "\x7d", "rest"] 0 2 := by
  have scene := (readers_stop_behind_closer [":condition => \x7b", "\x7d", "\x7d", "rest"] 0
    (Nat.zero_le _)).2.2.1
  have offset : (readAt (readScene {}) [":condition => \x7b", "\x7d", "\x7d", "rest"] 0).offset =
      3 := by decide +kernel
  rcases scene.stopped with ⟨closer, ends, _, reached⟩ | ⟨_, reached⟩
  · rw [offset] at reached
    obtain rfl : closer = 2 := by omega
    exact ends
  · rw [offset] at reached
    exact absurd reached (by decide)

end SceneGallery.Library
