import SceneGallery.Proofs.Event.Keyword
import SceneGallery.Event.Choices
set_option autoImplicit false

namespace SceneGallery.Event

/-- The branches of a block of choices that starts at the given place, each with its numbered lines.
What stands in front of the first branch belongs to none. -/
def branchLines (position : Nat) (block : List String) : List (List (String × Nat)) :=
  ((block.zipIdx position).splitOnP fun entry => isWhen entry.1).tail

/-- Whether some of the lines end the event. -/
def endsEvent (lines : List (String × Nat)) : Bool :=
  lines.any fun entry => isExit entry.1

/-- Those of the lines that show something. -/
def shownLines (lines : List (String × Nat)) : List OutputLine :=
  (lines.filter fun entry => isShown entry.1).map fun entry => .copy entry.2 entry.1

theorem length_splitOnP {α : Type} (p : α → Bool) (items : List α) :
    (items.splitOnP p).length = items.countP p + 1 := by
  induction items with
  | nil => rfl
  | cons item rest ih =>
      rw [List.splitOnP_cons_eq_if_modifyHead, List.countP_cons]
      cases p item with
      | true => simp only [↓reduceIte, List.length_cons, ih]
      | false => simp only [Bool.false_eq_true, ↓reduceIte, List.length_modifyHead, ih]

theorem length_branchLines (position : Nat) (block : List String) :
    (branchLines position block).length = block.countP isWhen := by
  have places : (block.zipIdx position).countP (fun entry => isWhen entry.1) =
      ((block.zipIdx position).map Prod.fst).countP isWhen := List.countP_map.symm
  rw [branchLines, List.length_tail, length_splitOnP, places, List.zipIdx_map_fst,
    Nat.add_sub_cancel]

/-- A branch that goes on with some lines, its newest line first. -/
def Branch.extend (branch : Branch) (lines : List (String × Nat)) : Branch where
  exits := branch.exits || endsEvent lines
  kept := (shownLines lines).reverse ++ branch.kept

theorem Branch.extend_nil (branch : Branch) : branch.extend [] = branch := by
  show Branch.mk (branch.exits || false) branch.kept = branch
  rw [Bool.or_false]

theorem Branch.extend_cons (branch : Branch) (entry : String × Nat) (lines : List (String × Nat)) :
    branch.extend (entry :: lines) = (branch.extend [entry]).extend lines := by
  have ends : endsEvent (entry :: lines) = (endsEvent [entry] || endsEvent lines) := by
    simp only [endsEvent, List.any_cons, List.any_nil, Bool.or_false]
  have shown : shownLines (entry :: lines) = shownLines [entry] ++ shownLines lines := by
    rw [shownLines, ← List.singleton_append, List.filter_append, List.map_append]
    rfl
  simp only [Branch.extend, ends, shown, Bool.or_assoc, List.reverse_append, List.append_assoc]

theorem noteLine_when {line : String} (opens : isWhen line = true) (branches : List Branch)
    (position : Nat) : noteLine branches (line, position) = ⟨false, []⟩ :: branches := by
  have written : ¬ (Text.trim line.toList).isEmpty = true := by
    intro empty
    rw [isWhen, isCommand_of_blank (by decide) (List.isEmpty_iff.mp empty)] at opens
    cases opens
  simp only [noteLine]
  rw [if_neg written, if_pos opens]

theorem isAnyCommand_of_blank {commands : List String} {line : String}
    (written : ∀ command ∈ commands, command ≠ "") (blank : Text.trim line.toList = []) :
    isAnyCommand commands line = false := by
  rw [isAnyCommand, List.any_eq_false]
  intro command member
  rw [isCommand_of_blank (written command member) blank]
  exact Bool.false_ne_true

theorem isShown_of_exit {line : String} (exits : isExit line = true) : isShown line = false := by
  have apart : ∀ command ∈ shownCommands, ∀ other ∈ exitCommands, Apart other command := by decide
  rw [isShown, isAnyCommand, List.any_eq_false]
  intro command member
  rw [isCommand_of_any (apart command member) exits]
  exact Bool.false_ne_true

theorem noteLine_other {line : String} (unopened : isWhen line = false) (branches : List Branch)
    (position : Nat) :
    noteLine branches (line, position) =
      branches.modifyHead fun branch => branch.extend [(line, position)] := by
  have kept : branches.modifyHead (fun branch => branch) = branches := by
    cases branches <;> rfl
  simp only [noteLine, Branch.extend, endsEvent, shownLines, List.any_cons, List.any_nil,
    Bool.or_false, List.filter_cons, List.filter_nil]
  by_cases empty : (Text.trim line.toList).isEmpty = true
  · have blank := List.isEmpty_iff.mp empty
    have stays : isExit line = false := isAnyCommand_of_blank (by decide) blank
    have hidden : isShown line = false := isAnyCommand_of_blank (by decide) blank
    rw [if_pos empty, stays, hidden]
    simp only [Bool.or_false, Bool.false_eq_true, ↓reduceIte, List.map_nil, List.reverse_nil,
      List.nil_append]
    exact kept.symm
  · rw [if_neg empty, unopened, if_neg Bool.false_ne_true]
    cases exits : isExit line with
    | true =>
        rw [isShown_of_exit exits]
        simp only [Bool.or_true, Bool.false_eq_true, ↓reduceIte, List.map_nil, List.reverse_nil,
          List.nil_append]
    | false =>
        cases isShown line with
        | true =>
            simp only [Bool.or_false, Bool.false_eq_true, ↓reduceIte, List.map_cons, List.map_nil,
              List.reverse_singleton, List.singleton_append]
        | false =>
            simp only [Bool.or_false, Bool.false_eq_true, ↓reduceIte, List.map_nil,
              List.reverse_nil, List.nil_append]
            exact kept.symm

/-- Noted one by one, the lines up to the next opening go to the newest branch, and every piece
behind that is a branch of its own. -/
theorem foldl_noteLine {numbered front : List (String × Nat)}
    {later : List (List (String × Nat))} (branches : List Branch)
    (cut : (numbered.splitOnP fun entry => isWhen entry.1) = front :: later) :
    numbered.foldl noteLine branches =
      (later.map (Branch.extend ⟨false, []⟩)).reverse ++
        branches.modifyHead fun branch => branch.extend front := by
  induction numbered generalizing front later branches with
  | nil =>
      rw [List.splitOnP_nil] at cut
      cases cut
      simp only [Branch.extend_nil]
      cases branches <;> rfl
  | cons entry rest ih =>
      obtain ⟨line, position⟩ := entry
      obtain ⟨front', later', cut'⟩ :=
        List.exists_cons_of_ne_nil (List.splitOnP_ne_nil (fun entry => isWhen entry.1) rest)
      rw [List.splitOnP_cons_eq_if_modifyHead, cut'] at cut
      rw [List.foldl_cons]
      cases opens : isWhen line with
      | true =>
          simp only [opens, ↓reduceIte] at cut
          cases cut
          rw [noteLine_when opens, ih _ cut']
          simp only [List.modifyHead_cons, List.map_cons, List.reverse_cons, List.append_assoc,
            List.singleton_append, Branch.extend_nil]
          cases branches <;> rfl
      | false =>
          simp only [opens, Bool.false_eq_true, ↓reduceIte, List.modifyHead_cons] at cut
          cases cut
          rw [noteLine_other opens, ih _ cut', List.modifyHead_modifyHead]
          congr 2
          funext branch
          rw [Branch.extend_cons branch (line, position)]
          rfl

/-- What is gathered of a block are its pieces, each by whether it ends the event and by what it
shows. -/
theorem branchesOf_eq_map (position : Nat) (block : List String) :
    branchesOf position block =
      (branchLines position block).map fun lines => ⟨endsEvent lines, shownLines lines⟩ := by
  obtain ⟨front, later, cut⟩ := List.exists_cons_of_ne_nil
    (List.splitOnP_ne_nil (fun entry => isWhen entry.1) (block.zipIdx position))
  rw [branchesOf, foldl_noteLine [] cut, branchLines, cut, List.modifyHead_nil, List.append_nil,
    List.map_reverse, List.reverse_reverse, List.map_map, List.tail_cons]
  congr 1
  funext lines
  simp only [Function.comp_apply, Branch.extend, Bool.false_or, List.append_nil,
    List.reverse_reverse]

end SceneGallery.Event
