import SceneGallery.Proofs.Event.Visit
set_option autoImplicit false

namespace SceneGallery.Event

/-- What comes of a walk through a body: the lines that are put out, and whether the first block of
choices was passed by the end. -/
abbrev Passage := List OutputLine × Bool

def Walk.passage (walk : Walk) : Passage :=
  (walk.output, walk.passed)

/-- A passage with lines in front of it. -/
def Passage.after (output : List OutputLine) (passage : Passage) : Passage :=
  (output ++ passage.1, passage.2)

def Passage.shift (n : Nat) (passage : Passage) : Passage :=
  (passage.1.map (OutputLine.shift n), passage.2)

theorem map_after_nil (walked : Except Error Passage) :
    walked.map (Passage.after []) = walked := by
  cases walked <;> rfl

theorem map_after_after (walked : Except Error Passage) (front back : List OutputLine) :
    (walked.map (Passage.after back)).map (Passage.after front) =
      walked.map (Passage.after (front ++ back)) := by
  cases walked with
  | error error => rfl
  | ok passage => simp only [Except.map, Passage.after, List.append_assoc]

theorem after_shift (n : Nat) (walked : Except Error Passage) (output : List OutputLine) :
    ((walked.map (Passage.shift n)).mapError (Error.shift n)).map
        (Passage.after (output.map (OutputLine.shift n))) =
      ((walked.map (Passage.after output)).map (Passage.shift n)).mapError (Error.shift n) := by
  cases walked with
  | error error => rfl
  | ok passage =>
      have lines : output.map (OutputLine.shift n) ++ passage.1.map (OutputLine.shift n) =
          (output ++ passage.1).map (OutputLine.shift n) := List.map_append.symm
      show Except.ok (output.map (OutputLine.shift n) ++ passage.1.map (OutputLine.shift n),
        passage.2) = Except.ok ((output ++ passage.1).map (OutputLine.shift n), passage.2)
      rw [lines]

theorem exists_of_map_ok {ε α β : Type} {f : α → β} {outcome : Except ε α} {b : β}
    (mapped : outcome.map f = .ok b) : ∃ a, outcome = .ok a ∧ f a = b := by
  cases outcome with
  | error error => cases mapped
  | ok a => exact ⟨a, rfl, Except.ok.inj mapped⟩

theorem error_of_map {ε α β : Type} {f : α → β} {outcome : Except ε α} {error : ε}
    (mapped : outcome.map f = .error error) : outcome = .error error := by
  cases outcome with
  | error other => exact congrArg Except.error (Except.error.inj mapped)
  | ok a => cases mapped

theorem exists_of_bind_ok {ε α β : Type} {f : α → Except ε β} {outcome : Except ε α} {b : β}
    (bound : outcome.bind f = .ok b) : ∃ a, outcome = .ok a ∧ f a = .ok b := by
  cases outcome with
  | error error => cases bound
  | ok a => exact ⟨a, rfl, bound⟩

/-- Walks through a body that starts at the given place. -/
def runBody (passed : Bool) (position : Nat) (body : List String) : Except Error Passage :=
  (Walk.run ⟨position, body, [], passed, none⟩).map Walk.passage

theorem Walk.run_of_nil {walk : Walk} (ended : walk.pending = []) : walk.run = .ok walk := by
  rw [Walk.run]
  split
  · rfl
  · rename_i line rest pending
    rw [ended] at pending
    cases pending

theorem Walk.run_of_cons {walk : Walk} {line : String} {rest : List String}
    (next : walk.pending = line :: rest) :
    walk.run =
      match visit walk.passed walk.position line rest with
      | .error error => .error error
      | .ok made => (walk.after line rest made).run := by
  rw [Walk.run]
  split
  · rename_i pending
    rw [next] at pending
    cases pending
  · rename_i first others pending
    rw [next] at pending
    obtain ⟨rfl, rfl⟩ := List.cons.inj pending
    rfl

/-- What was put out before and the picture shown before do not change the rest of a walk. -/
theorem Walk.run_frame (walk : Walk) (older : List OutputLine) (picture : Option ShownPicture) :
    (Walk.run ⟨walk.position, walk.pending, walk.newest ++ older, walk.passed, picture⟩).map
        Walk.passage =
      (walk.run.map Walk.passage).map (Passage.after older.reverse) := by
  induction remaining : walk.pending.length using Nat.strongRecOn generalizing walk picture with
  | ind length ih =>
      cases next : walk.pending with
      | nil =>
          rw [Walk.run_of_nil next, Walk.run_of_nil rfl]
          simp only [Except.map, Walk.passage, Walk.output, Passage.after, List.reverse_append]
      | cons line rest =>
          rw [Walk.run_of_cons next, Walk.run_of_cons rfl]
          cases visited : visit walk.passed walk.position line rest with
          | error error => rfl
          | ok made =>
              have shorter := walk.after_pending_length_lt line rest made next
              have framed := fun picture => ih _ (by omega) (walk.after line rest made) picture rfl
              simp only [Walk.after, ← List.append_assoc] at framed ⊢
              rw [framed]

theorem Walk.run_passage (walk : Walk) :
    walk.run.map Walk.passage =
      (runBody walk.passed walk.position walk.pending).map (Passage.after walk.output) :=
  Walk.run_frame ⟨walk.position, walk.pending, [], walk.passed, none⟩ walk.newest walk.picture

theorem runBody_nil (passed : Bool) (position : Nat) :
    runBody passed position [] = .ok ([], passed) := by
  rw [runBody, Walk.run_of_nil rfl]
  rfl

theorem runBody_cons (passed : Bool) (position : Nat) (line : String) (rest : List String) :
    runBody passed position (line :: rest) =
      match visit passed position line rest with
      | .error error => .error error
      | .ok made =>
        (runBody (passed || made.passesChoices) (position + 1 + made.extra)
          (rest.drop made.extra)).map (Passage.after made.output) := by
  rw [runBody, Walk.run_of_cons rfl]
  cases visited : visit passed position line rest with
  | error error => rfl
  | ok made =>
      simp only [Walk.run_passage, Walk.output_after]
      rfl

theorem runBody_cons_ok {passed : Bool} {position : Nat} {line : String} {rest : List String}
    {passage : Passage} (ended : runBody passed position (line :: rest) = .ok passage) :
    ∃ made later, visit passed position line rest = .ok made ∧
      runBody (passed || made.passesChoices) (position + 1 + made.extra) (rest.drop made.extra) =
        .ok later ∧ passage = later.after made.output := by
  rw [runBody_cons] at ended
  cases visited : visit passed position line rest with
  | error error =>
      rw [visited] at ended
      cases ended
  | ok made =>
      rw [visited] at ended
      obtain ⟨later, walked, whole⟩ := exists_of_map_ok ended
      exact ⟨made, later, rfl, walked, whole.symm⟩

/-- What holds of the empty body, and of a body if it holds of the lines behind the visit of its
first line, holds of every body. -/
theorem body_induction {motive : Bool → Nat → List String → Prop}
    (nil : ∀ passed position, motive passed position [])
    (cons : ∀ passed position line rest,
      (∀ made, visit passed position line rest = .ok made →
        motive (passed || made.passesChoices) (position + 1 + made.extra)
          (rest.drop made.extra)) →
      motive passed position (line :: rest))
    (passed : Bool) (position : Nat) (body : List String) : motive passed position body := by
  induction remaining : body.length using Nat.strongRecOn generalizing passed position body with
  | ind length ih =>
      cases body with
      | nil => exact nil passed position
      | cons line rest =>
          apply cons
          intro made _
          have shorter : (rest.drop made.extra).length < length := by
            rw [List.length_drop, ← remaining, List.length_cons]
            omega
          exact ih _ shorter _ _ _ rfl

/-- A walk that fails comes to a line whose visit fails. -/
theorem runBody_error {passed : Bool} {position : Nat} {body : List String} {error : Error}
    (failed : runBody passed position body = .error error) :
    ∃ front line rest flag, body = front ++ line :: rest ∧
      visit flag (position + front.length) line rest = .error error := by
  induction passed, position, body using body_induction with
  | nil passed position =>
      rw [runBody_nil] at failed
      cases failed
  | cons passed position line rest ih =>
      rw [runBody_cons] at failed
      cases visited : visit passed position line rest with
      | error other =>
          rw [visited] at failed
          cases failed
          exact ⟨[], line, rest, passed, rfl, visited⟩
      | ok made =>
          rw [visited] at failed
          obtain ⟨front, other, back, flag, behind, there⟩ := ih made visited (error_of_map failed)
          have used := visit_extra_le visited
          have place : position + (line :: rest.take made.extra ++ front).length =
              position + 1 + made.extra + front.length := by
            rw [List.length_append, List.length_cons, List.length_take, Nat.min_eq_left used]
            omega
          refine ⟨line :: rest.take made.extra ++ front, other, back, flag, ?_, ?_⟩
          · rw [List.append_assoc, ← behind, List.cons_append, List.take_append_drop]
          · rw [place]
            exact there

theorem runBody_shift (n : Nat) (passed : Bool) (position : Nat) (body : List String) :
    runBody passed (position + n) body =
      ((runBody passed position body).map (Passage.shift n)).mapError (Error.shift n) := by
  induction passed, position, body using body_induction with
  | nil passed position =>
      rw [runBody_nil, runBody_nil]
      rfl
  | cons passed position line rest ih =>
      rw [runBody_cons, runBody_cons, shift_visit]
      cases visited : visit passed position line rest with
      | error error => rfl
      | ok made =>
          have framed := after_shift n (runBody (passed || made.passesChoices)
            (position + 1 + made.extra) (rest.drop made.extra)) made.output
          have place : position + n + 1 + made.extra = position + 1 + made.extra + n := by omega
          rw [← ih made visited, ← place] at framed
          exact framed

/-- Walking through two pieces, the first of which ends well by itself. -/
theorem runBody_append {passed flag : Bool} {position : Nat} {front : List String}
    {output : List OutputLine} (unlabelled : ∀ line ∈ front, isLabel line = false)
    (ended : runBody passed position front = .ok (output, flag)) (back : List String) :
    runBody passed position (front ++ back) =
      (runBody flag (position + front.length) back).map (Passage.after output) := by
  induction passed, position, front using body_induction generalizing output with
  | nil passed position =>
      rw [runBody_nil] at ended
      obtain ⟨rfl, rfl⟩ := Prod.mk.inj (Except.ok.inj ended)
      rw [List.nil_append, List.length_nil, Nat.add_zero, map_after_nil]
  | cons passed position line rest ih =>
      obtain ⟨made, ⟨others, last⟩, visited, walked, whole⟩ := runBody_cons_ok ended
      obtain ⟨rfl, rfl⟩ := Prod.mk.inj whole
      have used := visit_extra_le visited
      have still := visit_append (unlabelled line List.mem_cons_self) back visited
      have inner := ih made visited
        (fun other member => unlabelled other
          (List.mem_cons_of_mem line (List.mem_of_mem_drop member))) walked
      have place : position + 1 + made.extra + (rest.drop made.extra).length =
          position + (line :: rest).length := by
        rw [List.length_drop, List.length_cons]
        omega
      rw [List.cons_append, runBody_cons, still]
      simp only [List.drop_append_of_le_length used]
      rw [inner, place, map_after_after]

/-- Conversion is local. Lines behind a piece without labels that ends well are converted as they
would be without it, from the flag that it leaves. Only the numbers of the lines tell the
difference. -/
theorem runBody_local {passed flag : Bool} {position : Nat} {front : List String}
    {output : List OutputLine} (unlabelled : ∀ line ∈ front, isLabel line = false)
    (ended : runBody passed position front = .ok (output, flag)) (back : List String) :
    (∀ others last, runBody flag position back = .ok (others, last) →
      runBody passed position (front ++ back) =
        .ok (output ++ others.map (OutputLine.shift front.length), last)) ∧
    ∀ error, runBody flag position back = .error error →
      runBody passed position (front ++ back) = .error (error.shift front.length) := by
  have whole := runBody_append unlabelled ended back
  rw [runBody_shift] at whole
  constructor
  · intro others last walked
    rw [whole, walked]
    rfl
  · intro error walked
    rw [whole, walked]
    rfl

/-- The second block of choices fails behind the first one as it fails by itself. -/
theorem runBody_local_of_choices :
    runBody false 3 ["ShowText([\"Ah!\"])", "ShowChoices([[\"Yes\"]])", "ChoicesEnd",
        "ShowChoices([[\"No\"]])", "ChoicesEnd"] = .error (.degenerateChoices 6 0) := by
  have unlabelled : ∀ line ∈ ["ShowText([\"Ah!\"])", "ShowChoices([[\"Yes\"]])", "ChoicesEnd"],
      isLabel line = false := by decide
  have shown : visit false 3 "ShowText([\"Ah!\"])" ["ShowChoices([[\"Yes\"]])", "ChoicesEnd"] =
      .ok { output := [.copy 3 "ShowText([\"Ah!\"])"] } := rfl
  have left : visit false 4 "ShowChoices([[\"Yes\"]])" ["ChoicesEnd"] =
      .ok { extra := 1, passesChoices := true } := rfl
  have ended : runBody false 3 ["ShowText([\"Ah!\"])", "ShowChoices([[\"Yes\"]])", "ChoicesEnd"] =
      .ok ([.copy 3 "ShowText([\"Ah!\"])"], true) := by
    rw [runBody_cons, shown]
    simp only [List.drop_zero, Bool.or_false, Nat.add_zero]
    rw [runBody_cons, left]
    simp only [List.drop_succ_cons, List.drop_nil, runBody_nil]
    rfl
  have degenerate : visit true 3 "ShowChoices([[\"No\"]])" ["ChoicesEnd"] =
      .error (.degenerateChoices 3 0) := rfl
  have failed : runBody true 3 ["ShowChoices([[\"No\"]])", "ChoicesEnd"] =
      .error (.degenerateChoices 3 0) := by
    rw [runBody_cons, degenerate]
  exact (runBody_local unlabelled ended _).2 _ failed

end SceneGallery.Event
