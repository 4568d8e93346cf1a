import SceneGallery.Proofs.Event.Branches
import SceneGallery.Proofs.Event.Decoration
import SceneGallery.Proofs.Event.MatchingEnd
set_option autoImplicit false

namespace SceneGallery.Event

/-- A block of choices that is opened at a place: the lines behind it up to the first end of
choices. -/
structure ChoicesBlock (lines : List String) (place : Nat) (block : List String) : Prop where
  opens : ∃ line, lines[place]? = some line ∧ isShowChoices line = true
  ends : ∃ line rest, lines.drop (place + 1) = block ++ line :: rest ∧ isChoicesEnd line = true
  endless : ∀ line ∈ block, isChoicesEnd line = false

/-- What an error says about the lines of the event. -/
def Error.Holds (lines : List String) : Error → Prop
  | .missingLinkage place text =>
    IsLinkagePlace lines place ∧ lines[place]? = some text ∧ defeatId? text = none
  | .linkageBelowFloor place id =>
    IsLinkagePlace lines place ∧ id < linkageFloor ∧
      ∃ text number, lines[place]? = some text ∧ defeatId? text = some number ∧
        id = correctLinkage number
  | .unterminatedPreamble => ¬ ∃ place, IsLinkagePlace lines place
  | .unterminatedBranch place =>
    (∃ line, lines[place]? = some line ∧ isConditionalBranch line = true) ∧
      ∀ stretch, stretch <+: lines.drop place → stretch ≠ [] →
        stretch.countP isBranchEnd < stretch.countP isConditionalBranch
  | .unterminatedChoices place =>
    (∃ line, lines[place]? = some line ∧ isShowChoices line = true) ∧
      ∀ line ∈ lines.drop (place + 1), isChoicesEnd line = false
  | .degenerateChoices place count =>
    count < 2 ∧ ∃ block, ChoicesBlock lines place block ∧ count = block.countP isWhen
  | .exitingChoices place =>
    ∃ block, ChoicesBlock lines place block ∧ 2 ≤ block.countP isWhen ∧
      ∀ before opening after, block = before ++ opening :: after → isWhen opening = true →
        ∃ line ∈ after.takeWhile fun other => !isWhen other, isExit line = true

theorem Error.Holds.exists_line {lines : List String} {error : Error} (holds : error.Holds lines)
    {place : Nat} (named : error.line? = some place) : ∃ line, lines[place]? = some line := by
  cases error with
  | unterminatedPreamble => cases named
  | missingLinkage _ text =>
      cases named
      exact ⟨text, holds.2.1⟩
  | linkageBelowFloor _ id =>
      cases named
      obtain ⟨_, _, text, _, there, _⟩ := holds
      exact ⟨text, there⟩
  | unterminatedBranch _ =>
      cases named
      obtain ⟨⟨line, there, _⟩, _⟩ := holds
      exact ⟨line, there⟩
  | unterminatedChoices _ =>
      cases named
      obtain ⟨⟨line, there, _⟩, _⟩ := holds
      exact ⟨line, there⟩
  | degenerateChoices _ count =>
      cases named
      obtain ⟨_, block, found, _⟩ := holds
      obtain ⟨line, there, _⟩ := found.opens
      exact ⟨line, there⟩
  | exitingChoices _ =>
      cases named
      obtain ⟨block, found, _⟩ := holds
      obtain ⟨line, there, _⟩ := found.opens
      exact ⟨line, there⟩

theorem length_branchesOf (position : Nat) (block : List String) :
    (branchesOf position block).length = block.countP isWhen := by
  rw [branchesOf_eq_map, List.length_map, length_branchLines]

theorem visitChoices_error {passed : Bool} {position : Nat} {line : String} {rest : List String}
    {error : Error} (failed : visitChoices passed position line rest = .error error) :
    (rest.findIdx? isChoicesEnd = none ∧ error = .unterminatedChoices position) ∨
      ∃ length, rest.findIdx? isChoicesEnd = some length ∧
        (((rest.take length).countP isWhen < 2 ∧
            error = .degenerateChoices position ((rest.take length).countP isWhen)) ∨
          (2 ≤ (rest.take length).countP isWhen ∧ error = .exitingChoices position ∧
            ∀ branch ∈ branchesOf (position + 1) (rest.take length), branch.exits = true)) := by
  rw [visitChoices] at failed
  cases found : rest.findIdx? isChoicesEnd with
  | none =>
      rw [found] at failed
      exact .inl ⟨rfl, (Except.error.inj failed).symm⟩
  | some length =>
      refine .inr ⟨length, rfl, ?_⟩
      rw [found] at failed
      simp only [length_branchesOf] at failed
      split at failed
      · cases failed
      · split at failed
        · rename_i few
          exact .inl ⟨few, (Except.error.inj failed).symm⟩
        · split at failed
          · cases failed
          · split at failed
            · cases failed
            · rename_i many _ _ none
              refine .inr ⟨Nat.le_of_not_lt many, (Except.error.inj failed).symm, ?_⟩
              intro branch member
              have exits := List.find?_eq_none.mp none branch member
              simpa using exits

theorem visit_error {passed : Bool} {position : Nat} {line : String} {rest : List String}
    {error : Error} (failed : visit passed position line rest = .error error) :
    (isConditionalBranch line = true ∧ toBranchEnd 0 rest = none ∧
        error = .unterminatedBranch position) ∨
      (isShowChoices line = true ∧ visitChoices passed position line rest = .error error) := by
  rw [visit] at failed
  split at failed
  · cases failed
  · split at failed
    · cases failed
    · split at failed
      · rename_i opens
        exact .inr ⟨opens, failed⟩
      · split at failed
        · rename_i branch
          split at failed
          · rename_i endless
            exact .inl ⟨branch, endless, (Except.error.inj failed).symm⟩
          · cases failed
        · split at failed <;> cases failed

end SceneGallery.Event
