import SceneGallery.Event.Choices
import SceneGallery.Event.Error
set_option autoImplicit false

namespace SceneGallery.Event

/-- What one visit of a line does. -/
structure Visit where
  output : List OutputLine := []
  /-- The number of lines after the visited one that are used up too. -/
  extra : Nat := 0
  passesChoices : Bool := false
  showsPicture : Bool := false
deriving DecidableEq, Repr

/-- The number of lines up to the one that closes a conditional branch, in which the given number of
other branches is open. -/
def toBranchEnd (depth : Nat) : List String → Option Nat
  | [] => none
  | line :: rest =>
    if isConditionalBranch line then (toBranchEnd (depth + 1) rest).map (· + 1)
    else if isBranchEnd line then
      match depth with
      | 0 => some 1
      | depth + 1 => (toBranchEnd depth rest).map (· + 1)
    else (toBranchEnd depth rest).map (· + 1)

/-- The number of lines up to the last label, or none without a label. -/
def toLastLabel : List String → Nat
  | [] => 0
  | line :: rest =>
    match toLastLabel rest with
    | 0 => if isLabel line then 1 else 0
    | count + 1 => count + 2

/-- Visits a line that opens a block of choices. The first block only decides whether the scene
happens at all and is left out. Of any other block the first branch that goes on is kept, or the
whole block if every branch goes on. -/
def visitChoices (passed : Bool) (position : Nat) (line : String) (rest : List String) :
    Except Error Visit :=
  match rest.findIdx? isChoicesEnd with
  | none => .error (.unterminatedChoices position)
  | some length =>
    if !passed then .ok { extra := length + 1, passesChoices := true }
    else
      let branches := branchesOf (position + 1) (rest.take length)
      if branches.length < 2 then .error (.degenerateChoices position branches.length)
      else if branches.all fun branch => !branch.exits then
        .ok {
          output := OutputLine.copies position (line :: rest.take (length + 1))
          extra := length + 1 }
      else
        match branches.find? fun branch => !branch.exits with
        | some branch => .ok { output := branch.kept, extra := length + 1 }
        | none => .error (.exitingChoices position)

/-- Visits a line of the body. -/
def visit (passed : Bool) (position : Nat) (line : String) (rest : List String) :
    Except Error Visit :=
  if isBattleOnly line then .ok {}
  else if isShowPicture line then .ok { output := [.copy position line], showsPicture := true }
  else if isShowChoices line then visitChoices passed position line rest
  else if isConditionalBranch line then
    match toBranchEnd 0 rest with
    | none => .error (.unterminatedBranch position)
    | some length => .ok { extra := length }
  else if isLabel line then .ok { extra := toLastLabel rest }
  else .ok { output := [.copy position line] }

/-- A picture that was shown. -/
structure ShownPicture where
  /-- The place of the line that shows it in the event. -/
  source : Nat
  line : String
  /-- The place of that line in the output. -/
  output : Nat
deriving DecidableEq, Repr

/-- A walk through the body, between two visits. -/
structure Walk where
  /-- The place of the next line in the event. -/
  position : Nat
  pending : List String
  /-- What was put out so far, the newest line first. -/
  newest : List OutputLine
  passed : Bool
  /-- The picture that was shown last by a line that was visited. -/
  picture : Option ShownPicture
deriving DecidableEq, Repr

/-- What was put out so far, in order. -/
def Walk.output (walk : Walk) : List OutputLine :=
  walk.newest.reverse

/-- The walk after a visit of the given line. -/
def Walk.after (walk : Walk) (line : String) (rest : List String) (visit : Visit) : Walk where
  position := walk.position + 1 + visit.extra
  pending := rest.drop visit.extra
  newest := visit.output.reverse ++ walk.newest
  passed := walk.passed || visit.passesChoices
  picture :=
    if visit.showsPicture then some ⟨walk.position, line, walk.newest.length⟩ else walk.picture

@[simp] theorem Walk.output_after (walk : Walk) (line : String) (rest : List String)
    (visit : Visit) : (walk.after line rest visit).output = walk.output ++ visit.output := by
  simp [Walk.output, Walk.after]

/-- Every visit uses up at least one line. -/
theorem Walk.after_pending_length_lt (walk : Walk) (line : String) (rest : List String)
    (visit : Visit) (h : walk.pending = line :: rest) :
    (walk.after line rest visit).pending.length < walk.pending.length := by
  simp only [Walk.after, List.length_drop, h, List.length_cons]
  omega

/-- Walks to the end of the body. -/
def Walk.run (walk : Walk) : Except Error Walk :=
  match _pending : walk.pending with
  | [] => .ok walk
  | line :: rest =>
    match visit walk.passed walk.position line rest with
    | .error error => .error error
    | .ok visit => (walk.after line rest visit).run
termination_by walk.pending.length
decreasing_by
  exact walk.after_pending_length_lt line rest _ (by assumption)

end SceneGallery.Event
