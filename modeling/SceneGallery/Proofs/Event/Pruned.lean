import SceneGallery.Proofs.Event.Branches
import SceneGallery.Proofs.Event.Nesting
import SceneGallery.Proofs.Event.Reached
set_option autoImplicit false

namespace SceneGallery.Event

open Relation

/-- What is left of the block of choices from a place on, by whether another one was visited before
it, or why the event cannot be converted. -/
inductive PrunedTo (position : Nat) (opening : String) (block : List String) (closing : String) :
    Bool → Except Error (List OutputLine) → Prop where
  | first : PrunedTo position opening block closing false (.ok [])
  | degenerate (few : (branchLines (position + 1) block).length < 2) :
    PrunedTo position opening block closing true
      (.error (.degenerateChoices position (branchLines (position + 1) block).length))
  /-- No branch ends the event. -/
  | harmless (many : 2 ≤ (branchLines (position + 1) block).length)
    (stay : ∀ branch ∈ branchLines (position + 1) block, endsEvent branch = false) :
    PrunedTo position opening block closing true
      (.ok (OutputLine.copies position (opening :: (block ++ [closing]))))
  /-- Some branches end the event, and the given one is the first that does not. -/
  | pruned (many : 2 ≤ (branchLines (position + 1) block).length)
    (mixed : ∃ branch ∈ branchLines (position + 1) block, endsEvent branch = true)
    {before after : List (List (String × Nat))} {branch : List (String × Nat)}
    (split : branchLines (position + 1) block = before ++ branch :: after)
    (ends : ∀ earlier ∈ before, endsEvent earlier = true) (stays : endsEvent branch = false) :
    PrunedTo position opening block closing true (.ok (shownLines branch))
  /-- Every branch ends the event. -/
  | exiting (many : 2 ≤ (branchLines (position + 1) block).length)
    (all : ∀ branch ∈ branchLines (position + 1) block, endsEvent branch = true) :
    PrunedTo position opening block closing true (.error (.exitingChoices position))

section Block

variable {position : Nat} {opening closing : String} {block : List String} {passed : Bool}
  {outcome : Except Error (List OutputLine)}

theorem visitChoices_block (passed : Bool) (position : Nat) (opening : String) (rest : List String)
    (endless : ∀ line ∈ block, isChoicesEnd line = false) (closes : isChoicesEnd closing = true) :
    visitChoices passed position opening (block ++ closing :: rest) =
      if !passed then .ok { extra := block.length + 1, passesChoices := true }
      else if (branchLines (position + 1) block).length < 2 then
        .error (.degenerateChoices position (branchLines (position + 1) block).length)
      else if (branchLines (position + 1) block).all fun branch => !endsEvent branch then
        .ok {
          output := OutputLine.copies position (opening :: (block ++ [closing]))
          extra := block.length + 1 }
      else
        match (branchLines (position + 1) block).find? fun branch => !endsEvent branch with
        | some branch => .ok { output := shownLines branch, extra := block.length + 1 }
        | none => .error (.exitingChoices position) := by
  have found : (block ++ closing :: rest).findIdx? isChoicesEnd = some block.length := by
    rw [List.findIdx?_append, List.findIdx?_eq_none_iff.mpr endless, List.findIdx?_cons,
      if_pos closes]
    simp only [Option.map_some, Nat.zero_add, Option.none_or]
  rw [visitChoices, found]
  simp only [List.take_left, branchesOf_eq_map, List.length_map, take_through, List.all_map,
    List.find?_map, Function.comp_def]
  cases (branchLines (position + 1) block).find? fun branch => !endsEvent branch <;> rfl

/-- A visit of a block of choices follows the rule, whatever stands behind the block. -/
theorem visitChoices_of_prunedTo
    (pruned : PrunedTo position opening block closing passed outcome)
    (endless : ∀ line ∈ block, isChoicesEnd line = false) (closes : isChoicesEnd closing = true)
    (rest : List String) :
    visitChoices passed position opening (block ++ closing :: rest) =
      outcome.map fun output =>
        { output := output, extra := block.length + 1, passesChoices := !passed } := by
  rw [visitChoices_block passed position opening rest endless closes]
  cases pruned with
  | first => rfl
  | degenerate few =>
      rw [if_neg (by decide), if_pos few]
      rfl
  | harmless many stay =>
      have all : (branchLines (position + 1) block).all (fun branch => !endsEvent branch) =
          true := by
        simpa using stay
      rw [if_neg (by decide), if_neg (Nat.not_lt.mpr many), if_pos all]
      rfl
  | @pruned many mixed before after branch split ends stays =>
      have harmful : ¬ (branchLines (position + 1) block).all (fun branch => !endsEvent branch) =
          true := by
        simpa using mixed
      have reached : (branchLines (position + 1) block).find? (fun branch => !endsEvent branch) =
          .some branch := by
        rw [List.find?_eq_some_iff_append]
        exact ⟨by rw [stays]; rfl, before, after, split, fun earlier member => by
          rw [ends earlier member]; rfl⟩
      rw [if_neg (by decide), if_neg (Nat.not_lt.mpr many), if_neg harmful, reached]
      rfl
  | exiting many all =>
      have none : (branchLines (position + 1) block).find? (fun branch => !endsEvent branch) =
          .none := by
        simpa using all
      have mixed : ¬ (branchLines (position + 1) block).all (fun branch => !endsEvent branch) =
          true := by
        obtain ⟨branch, member⟩ := List.exists_mem_of_length_pos (by omega :
          0 < (branchLines (position + 1) block).length)
        simpa using ⟨branch, member, all branch member⟩
      rw [if_neg (by decide), if_neg (Nat.not_lt.mpr many), if_neg mixed, none]
      rfl

theorem PrunedTo.unique {other : Except Error (List OutputLine)}
    (one : PrunedTo position opening block closing passed outcome)
    (another : PrunedTo position opening block closing passed other)
    (endless : ∀ line ∈ block, isChoicesEnd line = false) (closes : isChoicesEnd closing = true) :
    outcome = other := by
  have same := (visitChoices_of_prunedTo one endless closes []).symm.trans
    (visitChoices_of_prunedTo another endless closes [])
  rcases outcome with error | output <;> rcases other with another | again <;> cases same
  · rfl
  · rfl

end Block

section Loop

variable {resources : Resources} {lines : List String}

end Loop

end SceneGallery.Event
