import SceneGallery.Proofs.Library.Outcome
set_option autoImplicit false

namespace SceneGallery.Library

open SceneGallery.Field

/-- Whether exactly the lines of a block are read, and give a value, whatever follows them. -/
def ReadsAs {α : Type} (outcome : List String → α × List String) (block : List String)
    (value : α) : Prop :=
  ∀ later, outcome (block ++ later) = (value, later)

/-- How far reading has come: a reader stops within its lines, and it has read a whole block of them
if it has not run out of lines. -/
structure Stops {α : Type} (outcome : List String → α × List String) (lines : List String)
    (result : α × List String) : Prop where
  within : result.2 <:+ lines
  whole : result.2 ≠ [] → ∃ block, lines = block ++ result.2 ∧ ReadsAs outcome block result.1

theorem stops_line {α : Type} {outcome : List String → α × List String} {line : String}
    {value : α} (read : ∀ rest, outcome (line :: rest) = (value, rest)) (rest : List String) :
    Stops outcome (line :: rest) (value, rest) :=
  ⟨List.suffix_cons line rest, fun _ => ⟨[line], rfl, read⟩⟩

theorem stops_cons {α : Type} {outcome next : List String → α × List String} {line : String}
    {rest : List String} {result : α × List String}
    (read : ∀ rest, outcome (line :: rest) = next rest) (later : Stops next rest result) :
    Stops outcome (line :: rest) result where
  within := later.within.trans (List.suffix_cons line rest)
  whole := by
    intro remain
    obtain ⟨block, spelled, reads⟩ := later.whole remain
    exact ⟨line :: block, congrArg (line :: ·) spelled, fun after => (read _).trans (reads after)⟩

/-- A line after which a part is read, and then another reader goes on with its value. -/
theorem stops_part {α β : Type} {outcome : List String → α × List String} {line : String}
    {rest : List String} {result : α × List String} {part : List String → β × List String}
    (next : β → List String → α × List String)
    (read : ∀ rest, outcome (line :: rest) = next (part rest).1 (part rest).2)
    (inner : Stops part rest (part rest))
    (later : Stops (next (part rest).1) (part rest).2 result) :
    Stops outcome (line :: rest) result where
  within := (later.within.trans inner.within).trans (List.suffix_cons line rest)
  whole := by
    intro remain
    obtain ⟨block, spelled, reads⟩ := later.whole remain
    have partRemains : (part rest).2 ≠ [] := by
      intro none
      rw [none] at spelled
      exact remain (List.append_eq_nil_iff.mp spelled.symm).2
    obtain ⟨partBlock, partSpelled, partReads⟩ := inner.whole partRemains
    refine ⟨line :: (partBlock ++ block), ?_, ?_⟩
    · rw [List.cons_append, List.append_assoc, ← spelled, ← partSpelled]
    · intro after
      rw [List.cons_append, read, List.append_assoc, partReads]
      exact reads after

/-- Reading line by line up to a closer, where each line puts in what it tells. -/
structure ReadsLines {α : Type} (outcome : α → List String → α × List String)
    (put : α → String → α) : Prop where
  ended : ∀ value, outcome value [] = (value, [])
  closer : ∀ value {line} rest, isCloser line = true → outcome value (line :: rest) = (value, rest)
  line : ∀ value {line} rest, isCloser line = false →
    outcome value (line :: rest) = outcome (put value line) rest

namespace ReadsLines

variable {α : Type} {outcome : α → List String → α × List String} {put : α → String → α}

theorem stops (reads : ReadsLines outcome put) (value : α) (lines : List String) :
    Stops (outcome value) lines (outcome value lines) := by
  induction lines generalizing value with
  | nil =>
      rw [reads.ended]
      exact ⟨List.suffix_rfl, fun remain => absurd rfl remain⟩
  | cons line rest ih =>
      cases closer : isCloser line with
      | true =>
          rw [reads.closer value rest closer]
          exact stops_line (fun rest => reads.closer value rest closer) rest
      | false =>
          rw [reads.line value rest closer]
          exact stops_cons (fun rest => reads.line value rest closer) (ih _)

/-- What no line takes away holds of what is read. -/
theorem keeps (reads : ReadsLines outcome put) (holds : α → Prop) {lines : List String}
    (each : ∀ value, ∀ line ∈ lines, holds value → holds (put value line)) {value : α}
    (start : holds value) : holds (outcome value lines).1 := by
  induction lines generalizing value with
  | nil =>
      rw [reads.ended]
      exact start
  | cons line rest ih =>
      cases closer : isCloser line with
      | true =>
          rw [reads.closer value rest closer]
          exact start
      | false =>
          rw [reads.line value rest closer]
          exact ih (fun value other member => each value other (List.mem_cons_of_mem line member))
            (each value line List.mem_cons_self start)

end ReadsLines

theorem readsLines_condition : ReadsLines conditionOutcome
    fun condition line => (putCondition? condition (ofLine? line)).getD condition where
  ended _ := rfl
  closer := conditionOutcome_closer
  line := conditionOutcome_line

theorem readsLines_background : ReadsLines backgroundOutcome
    fun background line => ⟨(id? line).getD background.id⟩ where
  ended _ := rfl
  closer := backgroundOutcome_closer
  line := backgroundOutcome_line

/-- What holds where the lines of a scene end, and is handed on from what follows a line or a part
to the line, holds of every scene that is read. -/
theorem sceneOutcome_induction {holds : Scene → List String → Scene × List String → Prop}
    (empty : ∀ scene, holds scene [] (scene, []))
    (condition : ∀ scene line rest result, isConditionOpener line = true →
      holds { scene with condition := some (conditionOutcome {} rest).1 }
        (conditionOutcome {} rest).2 result → holds scene (line :: rest) result)
    (background : ∀ scene line rest result, isConditionOpener line = false →
      isBackgroundOpener line = true →
      holds { scene with background := some (backgroundOutcome {} rest).1 }
        (backgroundOutcome {} rest).2 result → holds scene (line :: rest) result)
    (closer : ∀ scene line rest, isConditionOpener line = false →
      isBackgroundOpener line = false → isCloser line = true →
      holds scene (line :: rest) (scene, rest))
    (field : ∀ scene line rest result, isConditionOpener line = false →
      isBackgroundOpener line = false → isCloser line = false →
      holds ((putScene? scene (ofLine? line)).getD scene) rest result →
      holds scene (line :: rest) result)
    (scene : Scene) (lines : List String) : holds scene lines (sceneOutcome scene lines) := by
  match lines with
  | [] =>
      have none : sceneOutcome scene [] = (scene, []) := by
        rw [sceneOutcome, readScene]
        rfl
      rw [none]
      exact empty scene
  | line :: rest =>
      have again : ∀ (next : Scene) (later : List String), later.length ≤ rest.length →
          holds next later (sceneOutcome next later) := fun next later shorter =>
        sceneOutcome_induction empty condition background closer field next later
      cases opensCondition : isConditionOpener line with
      | true =>
          have shorter := (readsLines_condition.stops {} rest).within.length_le
          rw [sceneOutcome_condition scene rest opensCondition]
          exact condition scene line rest _ opensCondition (again _ _ shorter)
      | false =>
          cases opensBackground : isBackgroundOpener line with
          | true =>
              have shorter := (readsLines_background.stops {} rest).within.length_le
              rw [sceneOutcome_background scene rest opensCondition opensBackground]
              exact background scene line rest _ opensCondition opensBackground
                (again _ _ shorter)
          | false =>
              cases closes : isCloser line with
              | true =>
                  rw [sceneOutcome_closer scene rest opensCondition opensBackground closes]
                  exact closer scene line rest opensCondition opensBackground closes
              | false =>
                  rw [sceneOutcome_line scene rest opensCondition opensBackground closes]
                  exact field scene line rest _ opensCondition opensBackground closes
                    (again _ _ (Nat.le_refl _))
termination_by lines.length

theorem stops_sceneOutcome (scene : Scene) (lines : List String) :
    Stops (sceneOutcome scene) lines (sceneOutcome scene lines) := by
  induction scene, lines using sceneOutcome_induction with
  | empty scene => exact ⟨List.suffix_rfl, fun remain => absurd rfl remain⟩
  | condition scene line rest result opener ih =>
      exact stops_part (fun value => sceneOutcome { scene with condition := some value })
        (fun rest => sceneOutcome_condition scene rest opener)
        (readsLines_condition.stops {} rest) ih
  | background scene line rest result noCondition opener ih =>
      exact stops_part (fun value => sceneOutcome { scene with background := some value })
        (fun rest => sceneOutcome_background scene rest noCondition opener)
        (readsLines_background.stops {} rest) ih
  | closer scene line rest noCondition noBackground closer =>
      exact stops_line (fun rest => sceneOutcome_closer scene rest noCondition noBackground closer)
        rest
  | field scene line rest result noCondition noBackground unclosed ih =>
      exact stops_cons (fun rest => sceneOutcome_line scene rest noCondition noBackground unclosed)
        ih

end SceneGallery.Library
