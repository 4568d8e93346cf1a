import SceneGallery.Proofs.Event.Remembered
set_option autoImplicit false

namespace SceneGallery.Event

open Relation

/-- Whether a line of a converted event shows a picture. -/
def OutputLine.isShowPicture (line : OutputLine) : Bool :=
  match line.content with
  | .verbatim text => Event.isShowPicture text
  | _ => false

/-- The place of the last line that shows a picture. -/
structure IsLastPicture (output : List OutputLine) (place : Nat) : Prop where
  shows : ∃ line, output[place]? = some line ∧ line.isShowPicture = true
  last : ∀ line ∈ output.drop (place + 1), line.isShowPicture = false

/-- The loop visits a block of choices at a place and puts out some lines for it. -/
structure KeepsChoices (resources : Resources) (lines : List String) (i : Nat)
    (kept : List OutputLine) : Prop where
  visited : ∃ progress opening next, BodyVisit resources lines progress i opening ∧
    isShowChoices opening = true ∧ Turn resources lines (progress, i) next ∧
      next.1.output = progress.output ++ kept

/-- What is known of the picture that is remembered when the loop comes to a place. -/
structure LastVisited (resources : Resources) (lines : List String) (progress : Progress) (i : Nat)
    (shown : ShownPicture) : Prop where
  linked : progress.linkage.isSome = true
  before : shown.source < i
  visited : ∃ earlier, BodyVisit resources lines earlier shown.source shown.line
  latest : ∀ other k line, BodyVisit resources lines other k line → k < i →
    isShowPicture line = true → k ≤ shown.source
  /-- The pictures that are put out behind it are kept of blocks of choices. -/
  behind : ∀ line : OutputLine, line.isShowPicture = true →
    (line ∈ progress.output.drop (shown.output + 1) ↔
      ∃ j kept, shown.source < j ∧ j < i ∧ KeepsChoices resources lines j kept ∧ line ∈ kept)

/-- Other lines than those that show a picture put pictures out only if they open a block of
choices. -/
theorem isShowChoices_of_output {passed : Bool} {position : Nat} {line : String}
    {rest : List String} {made : Visit} {copied : OutputLine}
    (visited : visit passed position line rest = .ok made) (unlike : isShowPicture line = false)
    (member : copied ∈ made.output) (shows : copied.isShowPicture = true) :
    isShowChoices line = true := by
  cases visits_of_visit visited with
  | battleOnly => cases member
  | picture _ picture =>
      rw [unlike] at picture
      cases picture
  | choices _ _ opens => exact opens
  | branch => cases member
  | label => cases member
  | other =>
      rw [List.mem_singleton.mp member] at shows
      have picture : isShowPicture line = true := shows
      rw [unlike] at picture
      cases picture

section Way

variable {resources : Resources} {lines : List String} {progress : Progress} {i : Nat}
  {line : String} {made : Visit} {shown : ShownPicture}

theorem BodyVisit.le_of_lt {other : Progress} {k : Nat} {another : String}
    (visited : BodyVisit resources lines progress i line)
    (done : visit progress.passed i line (lines.drop (i + 1)) = .ok made)
    (again : BodyVisit resources lines other k another) (before : k < i + 1 + made.extra) :
    k ≤ i := by
  by_contra later
  have skipped := visited.reached.next_le (visited.turn done) again.reached (by omega)
  simp only at skipped
  omega

theorem KeepsChoices.unique {kept : List OutputLine}
    (keeps : KeepsChoices resources lines i kept)
    (visited : BodyVisit resources lines progress i line)
    (done : visit progress.passed i line (lines.drop (i + 1)) = .ok made) : kept = made.output := by
  obtain ⟨other, opening, next, again, _, turn, grown⟩ := keeps.visited
  obtain rfl := visited.reached.unique again.reached
  obtain rfl := turn_unique (visited.turn done) turn
  exact (List.append_cancel_left grown).symm

theorem BodyVisit.lastVisited (visited : BodyVisit resources lines progress i line)
    (done : visit progress.passed i line (lines.drop (i + 1)) = .ok made)
    (copied : made.output = [.copy i line]) :
    LastVisited resources lines (progress.after i line made) (i + 1 + made.extra)
      ⟨i, line, progress.output.length⟩ where
  linked := visited.linked
  before := Nat.lt_add_right _ (Nat.lt_succ_self i)
  visited := ⟨progress, visited⟩
  latest := by
    intro other k another again before _
    exact visited.le_of_lt done again before
  behind := by
    intro other _
    have ended : (progress.after i line made).output.drop (progress.output.length + 1) = [] := by
      apply List.drop_eq_nil_of_le
      rw [Progress.after, copied, List.length_append, List.length_singleton]
    rw [ended]
    constructor
    · intro member
      cases member
    · intro kept
      obtain ⟨j, _, later, before, keeps, _⟩ := kept
      obtain ⟨_, _, _, again, _⟩ := keeps.visited
      have order := visited.le_of_lt done again before
      simp only at later
      omega

theorem LastVisited.after (known : LastVisited resources lines progress i shown)
    (remembered : IsRemembered lines progress.output shown)
    (visited : BodyVisit resources lines progress i line)
    (done : visit progress.passed i line (lines.drop (i + 1)) = .ok made)
    (unlike : isShowPicture line = false) :
    LastVisited resources lines (progress.after i line made) (i + 1 + made.extra) shown where
  linked := known.linked
  before := Nat.lt_of_lt_of_le known.before (by omega)
  visited := known.visited
  latest := by
    intro other k another again before shows
    have order := visited.le_of_lt done again before
    by_cases here : k = i
    · subst here
      obtain rfl := Option.some.inj (visited.there.symm.trans again.there)
      rw [unlike] at shows
      cases shows
    · exact known.latest other k another again (by omega) shows
  behind := by
    intro copied shows
    have grown : (progress.after i line made).output.drop (shown.output + 1) =
        progress.output.drop (shown.output + 1) ++ made.output :=
      List.drop_append_of_le_length remembered.inside
    rw [grown, List.mem_append, known.behind copied shows]
    -- The blocks before this place stay as they are, and this visit may be one more.
    constructor
    · intro copies
      cases copies with
      | inl earlier =>
          obtain ⟨j, kept, behind, before, keeps, member⟩ := earlier
          exact ⟨j, kept, behind, by omega, keeps, member⟩
      | inr member =>
          have opens := isShowChoices_of_output done unlike member shows
          have keeps : KeepsChoices resources lines i made.output :=
            ⟨⟨progress, line, _, visited, opens, visited.turn done, rfl⟩⟩
          exact ⟨i, made.output, known.before, by omega, keeps, member⟩
    · intro copies
      obtain ⟨j, kept, behind, before, keeps, member⟩ := copies
      obtain ⟨_, _, _, again, _⟩ := keeps.visited
      have order := visited.le_of_lt done again before
      by_cases here : j = i
      · -- A place is visited once, so what is kept there is what this visit puts out.
        subst here
        right
        rw [← keeps.unique visited done]
        exact member
      · left
        exact ⟨j, kept, behind, by omega, keeps, member⟩

/-- What one turn keeps: the picture that is remembered is the last one that was visited. -/
theorem Turn.lastVisited {next : Progress × Nat} (turn : Turn resources lines (progress, i) next)
    (here : Reaches resources lines progress i)
    (known : ∀ shown, progress.picture = some shown →
      LastVisited resources lines progress i shown) :
    ∀ shown, next.1.picture = some shown → LastVisited resources lines next.1 next.2 shown := by
  intro shown remembered
  cases linkage : progress.linkage with
  | none =>
      -- The preamble keeps the picture, and there is none before the defeat event is known.
      have kept : next.1.picture = progress.picture := by
        obtain ⟨later, place⟩ := next
        have made := (turn.preamble linkage).1
        simp only at made
        cases made <;> rfl
      have linked := (known shown (kept.symm.trans remembered)).linked
      rw [linkage] at linked
      cases linked
  | some number =>
      obtain ⟨line, made, visited, done, rfl⟩ :=
        turn.body here (Option.isSome_iff_exists.mpr ⟨number, linkage⟩)
      simp only [Progress.after] at remembered
      cases pictureVisit_of_visit done with
      | kept unlike silent =>
          rw [silent] at remembered
          exact (known shown remembered).after (here.remembered shown remembered) visited done
            unlike
      | fresh _ copied recorded =>
          rw [recorded] at remembered
          cases remembered
          exact visited.lastVisited done copied

theorem Reaches.lastVisited (here : Reaches resources lines progress i) :
    ∀ shown, progress.picture = some shown → LastVisited resources lines progress i shown := by
  have along : ∀ {state}, ReflTransGen (Turn resources lines) ({}, 0) state →
      ∀ shown, state.1.picture = some shown →
        LastVisited resources lines state.1 state.2 shown := by
    intro state turns
    induction turns with
    | refl => exact nofun
    | tail turns turn ih => exact Turn.lastVisited turn turns ih
  exact along here

/-- The picture that is remembered is the last one of the output exactly if no block of choices
behind it keeps a picture. -/
theorem Reaches.isLastPicture_iff (here : Reaches resources lines progress i)
    (remembered : progress.picture = some shown) :
    IsLastPicture progress.output shown.output ↔
      ∀ j kept, shown.source < j → j < i → KeepsChoices resources lines j kept →
        ∀ line ∈ kept, line.isShowPicture = false := by
  have known := here.lastVisited shown remembered
  have placed := here.remembered shown remembered
  constructor
  · intro final j kept behind before keeps line member
    by_contra shows
    rw [Bool.not_eq_false] at shows
    have later := (known.behind line shows).mpr ⟨j, kept, behind, before, keeps, member⟩
    rw [final.last line later] at shows
    cases shows
  · intro pictureless
    refine ⟨⟨.copy shown.source shown.line, ?_, placed.shows⟩, ?_⟩
    · rw [List.getElem?_eq_getElem placed.inside, placed.copied]
    · intro line member
      by_contra shows
      rw [Bool.not_eq_false] at shows
      obtain ⟨j, kept, behind, before, keeps, inside⟩ := (known.behind line shows).mp member
      rw [pictureless j kept behind before keeps line inside] at shows
      cases shows

end Way

/-- A conversion with pictures puts a line in to continue the given picture, the one that the loop
ends with. -/
structure ContinuedFrom (event : UInt32 → Option (List String)) (exists? : String → Bool)
    (lines : List String) (before after : List OutputLine) (shown : ShownPicture) : Prop where
  remembered : ∃ last, Reaches ⟨event, none⟩ lines last lines.length ∧ last.output = before ∧
    last.picture = some shown
  continued : ∃ name next place, Continues exists? before shown name next place ∧
    after = before.insertIdx place (continuingLine shown name next)

theorem ContinuedFrom.unique {event : UInt32 → Option (List String)} {exists? : String → Bool}
    {lines : List String} {before after : List OutputLine} {shown other : ShownPicture}
    (continued : ContinuedFrom event exists? lines before after shown)
    (again : ContinuedFrom event exists? lines before after other) : shown = other := by
  obtain ⟨last, ended, _, remembered⟩ := continued.remembered
  obtain ⟨_, endedAgain, _, rememberedAgain⟩ := again.remembered
  obtain rfl := ended.unique endedAgain
  exact Option.some.inj (remembered.symm.trans rememberedAgain)

/-- The picture that is continued is the last one of which the loop visits the line. It is the last
picture of the output exactly if no block of choices that is visited behind it keeps a picture. -/
theorem continued_last_iff {event : UInt32 → Option (List String)} {exists? : String → Bool}
    {lines : List String} {before after : Conversion}
    (plain : convert ⟨event, none⟩ lines = .ok before)
    (extended : convert ⟨event, some exists?⟩ lines = .ok after)
    (inserted : after.lines ≠ before.lines) :
    ∃ shown, ContinuedFrom event exists? lines before.lines after.lines shown ∧
      (∃ progress, BodyVisit ⟨event, none⟩ lines progress shown.source shown.line) ∧
      (∀ progress i line, BodyVisit ⟨event, none⟩ lines progress i line →
        isShowPicture line = true → i ≤ shown.source) ∧
      (IsLastPicture before.lines shown.output ↔
        ∀ i kept, shown.source < i → KeepsChoices ⟨event, none⟩ lines i kept →
          ∀ line ∈ kept, line.isShowPicture = false) := by
  obtain ⟨last, output, ended, put, converted, extension⟩ := extended_of_convert plain exists?
  rw [extended] at converted
  cases converted
  cases extension with
  | same => exact absurd rfl inserted
  | @added shown name next place remembered continues =>
      have known := ended.lastVisited shown remembered
      have decides := ended.isLastPicture_iff remembered
      rw [put] at decides
      refine ⟨shown, ⟨⟨last, ended, put, remembered⟩, name, next, place, continues, rfl⟩,
        known.visited, ?_, ?_⟩
      · intro progress i line visited shows
        exact known.latest progress i line visited visited.inside shows
      · rw [decides]
        constructor
        · intro pictureless i kept behind keeps
          obtain ⟨_, _, _, visited, _⟩ := keeps.visited
          exact pictureless i kept behind visited.inside keeps
        · intro pictureless i kept behind _ keeps
          exact pictureless i kept behind keeps

theorem EndsPictured.continuedFrom {kept : String} {last : Progress}
    (ends : EndsPictured kept last) (unlike : isTextAttributes kept = false) :
    ContinuedFrom (fun _ => none) almaPictures (linkedEvent (pictureBody kept))
      (pictureOutput kept)
      ((pictureOutput kept).insertIdx 5 ⟨.continuation, .verbatim (pictureLine "alma_h2")⟩)
      ⟨4, pictureLine "alma_h1", 1⟩ where
  remembered := ⟨last, ends.ended, ends.put, ends.remembered⟩
  continued := by
    refine ⟨_, _, _, continues_pictureOutput unlike, ?_⟩
    rw [continuingLine_pictureLine]

theorem continued_last_iff_keptText :
    let lines := linkedEvent (pictureBody keptText)
    let before := pictureOutput keptText
    let after := before.insertIdx 5 ⟨.continuation, .verbatim (pictureLine "alma_h2")⟩
    convert ⟨fun _ => none, none⟩ lines = .ok ⟨before, 3101⟩ ∧
      convert ⟨fun _ => none, some almaPictures⟩ lines = .ok ⟨after, 3101⟩ ∧
      after ≠ before ∧
      ∃ shown, ContinuedFrom (fun _ => none) almaPictures lines before after shown ∧
        ∀ i kept, shown.source < i → KeepsChoices ⟨fun _ => none, none⟩ lines i kept →
          ∀ line ∈ kept, line.isShowPicture = false := by
  intro lines before after
  obtain ⟨_, ends⟩ := endsPictured_keptText
  obtain ⟨plain, extended⟩ := ends.converted isTextAttributes_keptText
  have inserted : after ≠ before := by
    intro same
    have longer := congrArg List.length same
    cases longer
  obtain ⟨shown, continued, _, _, decides⟩ := continued_last_iff plain extended inserted
  obtain rfl := continued.unique (ends.continuedFrom isTextAttributes_keptText)
  have final : IsLastPicture before 1 := ⟨⟨_, rfl, by decide +kernel⟩, by decide +kernel⟩
  exact ⟨plain, extended, inserted, _, continued, decides.mp final⟩

/-- A picture in a branch that is kept is the last one that is shown, but the one before it is
continued: it is followed by the picture that has been shown already. -/
theorem not_isLastPicture_keptPicture :
    let lines := linkedEvent (pictureBody (pictureLine "alma_h2"))
    let before := pictureOutput (pictureLine "alma_h2")
    let after := before.insertIdx 5 ⟨.continuation, .verbatim (pictureLine "alma_h2")⟩
    convert ⟨fun _ => none, none⟩ lines = .ok ⟨before, 3101⟩ ∧
      convert ⟨fun _ => none, some almaPictures⟩ lines = .ok ⟨after, 3101⟩ ∧
      ContinuedFrom (fun _ => none) almaPictures lines before after
        ⟨4, pictureLine "alma_h1", 1⟩ ∧
      IsLastPicture before 2 ∧ ¬ IsLastPicture before 1 := by
  intro lines before after
  have unlike : isTextAttributes (pictureLine "alma_h2") = false := by decide +kernel
  obtain ⟨_, ends⟩ : ∃ last, EndsPictured (pictureLine "alma_h2") last :=
    exists_endsPictured (by decide +kernel)
  obtain ⟨plain, extended⟩ := ends.converted unlike
  have later : IsLastPicture before 2 := ⟨⟨_, rfl, by decide +kernel⟩, by decide +kernel⟩
  refine ⟨plain, extended, ends.continuedFrom unlike, later, ?_⟩
  intro final
  obtain ⟨line, there, shows⟩ := later.shows
  have following : (before.drop 2)[0]? = some line := there
  rw [final.last line (List.mem_of_getElem? following)] at shows
  cases shows

end SceneGallery.Event
