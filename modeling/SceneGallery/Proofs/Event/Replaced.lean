import Mathlib.Data.List.InsertIdx
import SceneGallery.Proofs.Event.Failed
import SceneGallery.Proofs.Event.MatchingEnd
import SceneGallery.Proofs.Event.Pruned
set_option autoImplicit false

namespace SceneGallery.Event

open Relation

/-- What decides about a visit are the lines that it uses up, unless it is the visit of a label. -/
theorem visit_congr {passed : Bool} {position : Nat} {line : String} {rest others : List String}
    {made : Visit} (unlabelled : isLabel line = false)
    (visited : visit passed position line rest = .ok made)
    (same : others.take made.extra = rest.take made.extra) :
    visit passed position line others = .ok made := by
  apply visit_of_visits
  cases visits_of_visit visited with
  | battleOnly battle => exact .battleOnly battle
  | picture battle picture => exact .picture battle picture
  | choices battle picture choices visited =>
      refine .choices battle picture choices ?_
      obtain ⟨length, found, used, _⟩ := visitChoices_cases visited
      obtain ⟨block, closing, back, rfl, rfl, closes, endless⟩ := exists_of_findIdx? found
      rw [used, take_through] at same
      have spelled : others = block ++ closing :: others.drop (block.length + 1) := by
        rw [List.append_cons, ← same, List.take_append_drop]
      rw [spelled, visitChoices_block passed position line _ endless closes, ← visited,
        visitChoices_block passed position line _ endless closes]
  | branch battle picture choices branch ended =>
      refine .branch battle picture choices branch ?_
      obtain ⟨inner, closing, back, rfl, rfl, balanced, closes⟩ := exists_of_toBranchEnd ended
      rw [take_through] at same
      have spelled : others = inner ++ closing :: others.drop (inner.length + 1) := by
        rw [List.append_cons, ← same, List.take_append_drop]
      rw [spelled, toBranchEnd_of_closes balanced closes]
  | label _ _ _ _ label =>
      rw [unlabelled] at label
      cases label
  | other battle picture choices branch label => exact .other battle picture choices branch label

section Agree

variable {resources : Resources} {lines others : List String} {m : Nat}

theorem turn_of_agree {state next : Progress × Nat} (agree : others.take m = lines.take m)
    (reached : Reaches resources lines state.1 state.2)
    (alike : Reaches resources others state.1 state.2) (turn : Turn resources lines state next)
    (within : next.2 ≤ m)
    (unlabelled : ∀ line, BodyVisit resources lines state.1 state.2 line → isLabel line = false) :
    Turn resources others state next := by
  obtain ⟨progress, i⟩ := state
  have before : i < m := Nat.lt_of_lt_of_le turn.lt within
  have shared : others[i]? = lines[i]? := by
    rw [← List.getElem?_take_of_lt before, agree, List.getElem?_take_of_lt before]
  cases known : progress.linkage with
  | none =>
      obtain ⟨made, onward⟩ := turn.preamble known
      obtain ⟨inside, _⟩ := turn
      have inside' := (List.getElem?_eq_some_iff.mp
        (shared.trans (List.getElem?_eq_getElem inside))).1
      have again := (made.of_line shared).turn known inside'
      rw [← onward] at again
      exact again
  | some linkage =>
      obtain ⟨line, made, visited, done, rfl⟩ :=
        turn.body reached (Option.isSome_iff_exists.mpr ⟨linkage, known⟩)
      have used : made.extra ≤ m - (i + 1) := by
        simp only at within
        omega
      have taken : (others.drop (i + 1)).take made.extra =
          (lines.drop (i + 1)).take made.extra := by
        have behind := congrArg (fun front => (front.drop (i + 1)).take made.extra) agree
        simp only [List.drop_take, List.take_take, Nat.min_eq_left used] at behind
        exact behind
      have again : BodyVisit resources others progress i line :=
        ⟨alike, shared.trans visited.there, visited.linked⟩
      exact again.turn (visit_congr (unlabelled line visited) done taken)

/-- The loop comes to the same places within the lines that two events share, if it visits no label
before. -/
theorem Reaches.of_agree {progress : Progress} {i : Nat}
    (reached : Reaches resources lines progress i) (agree : others.take m = lines.take m)
    (within : i ≤ m)
    (unlabelled : ∀ other k line, k < i → BodyVisit resources lines other k line →
      isLabel line = false) : Reaches resources others progress i := by
  have run : ∀ {state}, ReflTransGen (Turn resources lines) ({}, 0) state → state.2 ≤ i →
      ReflTransGen (Turn resources others) ({}, 0) state := by
    intro state turns
    induction turns with
    | refl => exact fun _ => .refl
    | @tail between next turns turn ih =>
        intro order
        have before : between.2 < i := Nat.lt_of_lt_of_le turn.lt order
        have alike := ih (Nat.le_of_lt before)
        exact alike.tail (turn_of_agree agree turns alike turn (Nat.le_trans order within)
          fun line visited => unlabelled _ _ line before visited)
  exact run reached (Nat.le_refl i)

theorem BodyVisit.of_agree {progress : Progress} {i : Nat} {line : String}
    (visited : BodyVisit resources lines progress i line)
    (agree : others.take (i + 1) = lines.take (i + 1))
    (unlabelled : ∀ other k line, k < i → BodyVisit resources lines other k line →
      isLabel line = false) : BodyVisit resources others progress i line where
  reached := visited.reached.of_agree agree (Nat.le_succ i) unlabelled
  there := by
    rw [← visited.there, ← List.getElem?_take_of_lt (Nat.lt_succ_self i), agree,
      List.getElem?_take_of_lt (Nat.lt_succ_self i)]
  linked := visited.linked

end Agree

/-- A conversion without where its lines come from. -/
def Conversion.contents (conversion : Conversion) : List Content × UInt32 :=
  (conversion.lines.map (·.content), conversion.linkage)

/-- What is looked at of a picture that was shown: the line, and where it was put out. -/
def ShownPicture.shown (picture : ShownPicture) : String × Nat :=
  (picture.line, picture.output)

/-- Two walks through the same lines that have put out the same contents, of which the second one is
the given number of lines further on. -/
structure Walk.Moved (n : Nat) (walk other : Walk) : Prop where
  position : other.position = walk.position + n
  pending : other.pending = walk.pending
  passed : other.passed = walk.passed
  contents : other.newest.map (·.content) = walk.newest.map (·.content)
  picture : other.picture.map ShownPicture.shown = walk.picture.map ShownPicture.shown

theorem contents_shift (n : Nat) (output : List OutputLine) :
    (output.map (OutputLine.shift n)).map (·.content) = output.map (·.content) := by
  rw [List.map_map]
  rfl

section Moved

variable {n : Nat} {walk other : Walk}

theorem Walk.Moved.after (moved : walk.Moved n other) (line : String) (rest : List String)
    (made : Visit) :
    (walk.after line rest made).Moved n (other.after line rest (made.shift n)) where
  position := by
    simp only [Walk.after, Visit.shift, moved.position]
    omega
  pending := rfl
  passed := by simp only [Walk.after, Visit.shift, moved.passed]
  contents := by
    simp only [Walk.after, Visit.shift, List.map_append, ← List.map_reverse, contents_shift,
      moved.contents]
  picture := by
    have put := congrArg List.length moved.contents
    rw [List.length_map, List.length_map] at put
    simp only [Walk.after, Visit.shift]
    by_cases shows : made.showsPicture = true
    · simp only [shows, ↓reduceIte, Option.map_some, ShownPicture.shown, put]
    · simp only [shows, Bool.false_eq_true, ↓reduceIte]
      exact moved.picture

/-- Two such walks end as such, or with the same error. -/
theorem Walk.Moved.run (moved : walk.Moved n other) :
    (∃ error, walk.run = .error error ∧ other.run = .error (error.shift n)) ∨
      ∃ ended last, walk.run = .ok ended ∧ other.run = .ok last ∧ ended.Moved n last := by
  induction remaining : walk.pending.length using Nat.strongRecOn generalizing walk other with
  | ind length ih =>
      cases next : walk.pending with
      | nil =>
          have ended : other.pending = [] := moved.pending.trans next
          exact .inr ⟨walk, other, Walk.run_of_nil next, Walk.run_of_nil ended, moved⟩
      | cons line rest =>
          have same : other.pending = line :: rest := moved.pending.trans next
          have shifted := shift_visit n walk.passed walk.position line rest
          rw [Walk.run_of_cons next, Walk.run_of_cons same, moved.passed, moved.position, shifted]
          cases visited : visit walk.passed walk.position line rest with
          | error error => exact .inl ⟨error, rfl, rfl⟩
          | ok made =>
              have shorter := walk.after_pending_length_lt line rest made next
              exact ih _ (by omega) (moved.after line rest made) rfl

end Moved

theorem secondTextAttributes_congr {output other : List OutputLine}
    (same : other.map (·.content) = output.map (·.content)) (start : Nat) :
    secondTextAttributes other start = secondTextAttributes output start := by
  -- Which lines set how text is shown is a matter of their contents.
  have places : ∀ lines : List OutputLine, secondTextAttributes lines start =
      ((((lines.map (·.content)).zipIdx.drop start).filter fun entry =>
        (OutputLine.mk .opening entry.1).isTextAttributes)[1]?).map (·.2) := by
    intro lines
    rw [List.zipIdx_map, ← List.map_drop, List.filter_map, List.getElem?_map, Option.map_map]
    rfl
  rw [places, places, same]

theorem find_congr {exists? : String → Bool} {output other : List OutputLine}
    {picture last : Option ShownPicture}
    (same : other.map (·.content) = output.map (·.content))
    (shown : last.map ShownPicture.shown = picture.map ShownPicture.shown) :
    Continuation.find exists? other last = Continuation.find exists? output picture := by
  cases picture with
  | none =>
      cases last with
      | none => rfl
      | some last => cases shown
  | some picture =>
      cases last with
      | none => cases shown
      | some last =>
          obtain ⟨line, place⟩ := Prod.mk.inj (Option.some.inj shown)
          simp only [Continuation.find, line, place, secondTextAttributes_congr same]

theorem apply_contents {output other : List OutputLine}
    (same : other.map (·.content) = output.map (·.content)) (continuation : Continuation) :
    (continuation.apply other).map (·.content) = (continuation.apply output).map (·.content) := by
  cases continuation with
  | added name next place line =>
      rw [Continuation.apply, Continuation.apply, List.map_insertIdx, List.map_insertIdx, same]
  | _ => exact same

/-- Behind the loop, too, the same comes of what differs only by where it comes from. -/
theorem finish_contents (resources : Resources) {progress other : Progress}
    (linkage : other.linkage = progress.linkage)
    (same : other.output.map (·.content) = progress.output.map (·.content))
    (shown : other.picture.map ShownPicture.shown = progress.picture.map ShownPicture.shown) :
    (finish resources other).map Conversion.contents =
      (finish resources progress).map Conversion.contents := by
  rw [finish, finish, linkage]
  cases progress.linkage with
  | none => rfl
  | some linkage =>
      cases resources.pictures with
      | none => simp only [Except.map, Conversion.contents, same]
      | some exists? =>
          simp only [Except.map, Conversion.contents, find_congr same shown, apply_contents same]

theorem exists_finish (resources : Resources) (walk : Walk) (linkage : UInt32) :
    ∃ conversion, finish resources (walk.progress linkage) = .ok conversion := by
  simp only [finish, Walk.progress]
  cases resources.pictures with
  | none => exact ⟨_, rfl⟩
  | some exists? => exact ⟨_, rfl⟩

theorem Walk.Moved.finish {n : Nat} {walk other : Walk} (moved : walk.Moved n other)
    (resources : Resources) (linkage : UInt32) :
    ((other.run.map fun walk => walk.progress linkage).bind (finish resources)).map
        Conversion.contents =
      (((walk.run.map fun walk => walk.progress linkage).bind (finish resources)).map
        Conversion.contents).mapError (Error.shift n) := by
  rcases moved.run with ⟨error, failed, again⟩ | ⟨ended, last, one, another, moved⟩
  · rw [failed, again]
    rfl
  · have same : last.output.map (·.content) = ended.output.map (·.content) := by
      simp only [Walk.output, List.map_reverse, moved.contents]
    have done : (Event.finish resources (last.progress linkage)).map Conversion.contents =
        (Event.finish resources (ended.progress linkage)).map Conversion.contents :=
      finish_contents resources rfl same moved.picture
    obtain ⟨conversion, finished⟩ := exists_finish resources ended linkage
    rw [one, another]
    simp only [Except.map, Except.bind, finished] at done ⊢
    rw [done]
    rfl

end SceneGallery.Event
