import SceneGallery.Proofs.Access
import SceneGallery.Proofs.Event.Branches
import SceneGallery.Proofs.Event.LastEnding
import SceneGallery.Proofs.Event.Machine
set_option autoImplicit false

namespace SceneGallery.Event

/-- The places of an event from one on. -/
def placesFrom (lines : List String) (first : Nat) : List Nat :=
  List.range' first (lines.length - first)

/-- The first of the places with a line of a kind. -/
def findPlace? (is : String → Bool) (lines : List String) : List Nat → Option (Option Nat)
  | [] => some none
  | place :: later =>
    lines[place]?.bind fun line =>
      if is line then some (some place) else findPlace? is lines later

/-- The place behind the end of a conditional branch, with the number of branches that are open in
front of the places. -/
def branchEnd? (lines : List String) (depth : Int) : List Nat → Option (Option Nat)
  | [] => some none
  | place :: later =>
    lines[place]?.bind fun line =>
      if isConditionalBranch line then branchEnd? lines (depth + 1) later
      else if isBranchEnd line then
        if depth - 1 = 0 then some (some (place + 1)) else branchEnd? lines (depth - 1) later
      else branchEnd? lines depth later

/-- Whether a line in a block of choices is blank, or counts for a branch. -/
def isNoted (line : String) : Bool :=
  (Text.trim line.toList).isEmpty || isWhen line || isExit line || isShown line

/-- The branches of a block of choices, the newest first, and the place of its end. -/
def block? (lines : List String) (branches : List Branch) :
    List Nat → Option (List Branch × Option Nat)
  | [] => some (branches, none)
  | place :: later =>
    lines[place]?.bind fun line =>
      if isNoted line then block? lines (noteLine branches (line, place)) later
      else if isChoicesEnd line then some (branches, some place)
      else block? lines branches later

section Scans

variable {lines : List String} {first : Nat}

theorem placesFrom_of_le (outside : lines.length ≤ first) : placesFrom lines first = [] := by
  rw [placesFrom, Nat.sub_eq_zero_of_le outside]
  rfl

theorem placesFrom_of_lt (inside : first < lines.length) :
    placesFrom lines first = first :: placesFrom lines (first + 1) := by
  have count : lines.length - first = (lines.length - (first + 1)) + 1 := by omega
  rw [placesFrom, count, List.range'_succ]
  rfl

/-- What holds at the end of an event, and is handed on from each place to the one before, holds
from every place on. -/
theorem placesFrom_induction (lines : List String) {holds : Nat → Prop}
    (ended : ∀ first, lines.length ≤ first → holds first)
    (line : ∀ first, first < lines.length → holds (first + 1) → holds first) (first : Nat) :
    holds first := by
  induction left : lines.length - first using Nat.strongRecOn generalizing first with
  | ind left ih =>
      by_cases inside : first < lines.length
      · exact line first inside (ih (lines.length - (first + 1)) (by omega) (first + 1) rfl)
      · exact ended first (by omega)

theorem findPlace?_eq (is : String → Bool) (lines : List String) (first : Nat) :
    findPlace? is lines (placesFrom lines first) =
      some (((lines.drop first).findIdx? is).map (first + ·)) := by
  induction first using placesFrom_induction lines with
  | ended first outside =>
      rw [placesFrom_of_le outside, List.drop_of_length_le outside]
      rfl
  | line first inside ih =>
      rw [placesFrom_of_lt inside, findPlace?, List.getElem?_eq_getElem inside, Option.bind_some,
        ih, List.drop_eq_getElem_cons inside, List.findIdx?_cons]
      cases is lines[first] with
      | true => rfl
      | false =>
          simp only [Bool.false_eq_true, ↓reduceIte, Option.map_map]
          congr 2
          funext count
          simp only [Function.comp_apply]
          omega

theorem branchEnd?_eq (lines : List String) (depth first : Nat) :
    branchEnd? lines (depth + 1) (placesFrom lines first) =
      some ((toBranchEnd depth (lines.drop first)).map (first + ·)) := by
  induction first using placesFrom_induction lines generalizing depth with
  | ended first outside =>
      rw [placesFrom_of_le outside, List.drop_of_length_le outside]
      rfl
  | line first inside ih =>
      have onward : ∀ depth, (toBranchEnd depth (lines.drop (first + 1))).map (first + 1 + ·) =
          ((toBranchEnd depth (lines.drop (first + 1))).map (· + 1)).map (first + ·) := by
        intro depth
        rw [Option.map_map]
        congr 1
        funext count
        simp only [Function.comp_apply]
        omega
      rw [placesFrom_of_lt inside, branchEnd?, List.getElem?_eq_getElem inside, Option.bind_some,
        List.drop_eq_getElem_cons inside, toBranchEnd_cons]
      split
      · have deeper := ih (depth + 1)
        rw [Int.natCast_succ] at deeper
        rw [deeper, onward]
      · split
        · cases depth with
          | zero => rfl
          | succ depth =>
              rw [Int.natCast_succ, if_neg (by omega), Int.add_sub_cancel, ih depth, onward]
        · rw [ih depth, onward]

theorem isChoicesEnd_of_noted {line : String} (noted : isNoted line = true) :
    isChoicesEnd line = false := by
  simp only [isNoted, Bool.or_eq_true] at noted
  rcases noted with ((blank | opens) | exits) | shown
  · exact isCommand_of_blank (by decide) (List.isEmpty_iff.mp blank)
  · exact isCommand_of_apart (by decide) opens
  · exact isCommand_of_any (by decide) exits
  · exact isCommand_of_any (by decide) shown

theorem noteLine_of_not_noted {line : String} (ignored : isNoted line = false)
    (branches : List Branch) (position : Nat) : noteLine branches (line, position) = branches := by
  simp only [isNoted, Bool.or_eq_false_iff] at ignored
  obtain ⟨⟨⟨written, unopened⟩, onward⟩, hidden⟩ := ignored
  simp only [noteLine, written, unopened, onward, hidden, Bool.false_eq_true, ↓reduceIte]

/-- The end of a block of choices is found where it is, with the branches in front of it. -/
theorem block?_eq (lines : List String) (branches : List Branch) (first : Nat) :
    (lines.drop first).findIdx? isChoicesEnd = none ∧
      (∃ newest, block? lines branches (placesFrom lines first) = some (newest, none)) ∨
    ∃ length, (lines.drop first).findIdx? isChoicesEnd = some length ∧
      block? lines branches (placesFrom lines first) =
        some ((((lines.drop first).take length).zipIdx first).foldl noteLine branches,
          some (first + length)) := by
  induction first using placesFrom_induction lines generalizing branches with
  | ended first outside =>
      rw [placesFrom_of_le outside, List.drop_of_length_le outside]
      exact .inl ⟨rfl, branches, rfl⟩
  | line first inside ih =>
      rw [placesFrom_of_lt inside, block?, List.getElem?_eq_getElem inside, Option.bind_some,
        List.drop_eq_getElem_cons inside, List.findIdx?_cons]
      by_cases closes : isChoicesEnd lines[first] = true
      · have ignored : ¬ isNoted lines[first] = true := by
          intro noted
          rw [isChoicesEnd_of_noted noted] at closes
          cases closes
        rw [if_pos closes, if_neg ignored, if_pos closes]
        exact .inr ⟨0, rfl, rfl⟩
      · have passed : (if isNoted lines[first] then
              block? lines (noteLine branches (lines[first], first)) (placesFrom lines (first + 1))
            else if isChoicesEnd lines[first] then some (branches, some first)
            else block? lines branches (placesFrom lines (first + 1))) =
            block? lines (noteLine branches (lines[first], first))
              (placesFrom lines (first + 1)) := by
          split
          · rfl
          · rename_i ignored
            rw [noteLine_of_not_noted (Bool.eq_false_iff.mpr ignored)]
        rw [passed, if_neg closes]
        rcases ih (noteLine branches (lines[first], first)) with
          ⟨endless, newest, scanned⟩ | ⟨length, ends, scanned⟩
        · exact .inl ⟨by rw [endless]; rfl, newest, scanned⟩
        · refine .inr ⟨length + 1, by rw [ends]; rfl, ?_⟩
          rw [scanned, List.take_succ_cons, List.zipIdx_cons, List.foldl_cons,
            Nat.succ_add_eq_add_succ]

theorem findPlace?_label {lines : List String} {first count : Nat}
    (within : first + count ≤ lines.length)
    (below : ∀ line ∈ lines.drop (first + count), isLabel line = false) :
    findPlace? isLabel lines (List.range' first count).reverse = some none ∧
        (∀ line ∈ lines.drop first, isLabel line = false) ∨
      ∃ last, findPlace? isLabel lines (List.range' first count).reverse = some (some last) ∧
        first ≤ last ∧ IsLastLabel lines last := by
  induction count with
  | zero => exact .inl ⟨rfl, below⟩
  | succ count ih =>
      have inside : first + count < lines.length := by omega
      have scan : findPlace? isLabel lines (List.range' first (count + 1)).reverse =
          if isLabel lines[first + count] then some (some (first + count))
          else findPlace? isLabel lines (List.range' first count).reverse := by
        rw [List.range'_1_concat, List.reverse_concat, findPlace?, List.getElem?_eq_getElem inside,
          Option.bind_some]
      rw [scan]
      cases marked : isLabel lines[first + count] with
      | true =>
          exact .inr ⟨first + count, rfl, Nat.le_add_right _ _,
            ⟨_, List.getElem?_eq_getElem inside, marked⟩, below⟩
      | false =>
          refine ih (Nat.le_of_lt inside) ?_
          rw [List.drop_eq_getElem_cons inside]
          exact List.forall_mem_cons.mpr ⟨marked, below⟩

end Scans

/-- The branches of a block of choices, in the order of the lines. -/
def inOrder (newest : List Branch) : List Branch :=
  (newest.map fun branch => { branch with kept := branch.kept.reverse }).reverse

/-- Visits a line that opens a block of choices. -/
def choicesAt? (lines : List String) (passed : Bool) (i : Nat) : Option (Except Error Visit) :=
  if !passed then
    (findPlace? isChoicesEnd lines (placesFrom lines i)).map fun
      | none => .error (.unterminatedChoices i)
      | some last => .ok { extra := last - i, passesChoices := true }
  else
    (block? lines [] (placesFrom lines (i + 1))).bind fun
      | (_, none) => some (.error (.unterminatedChoices i))
      | (newest, some last) =>
        let branches := inOrder newest
        if branches.length < 2 then some (.error (.degenerateChoices i branches.length))
        else if branches.all fun branch => !branch.exits then
          (slice? lines i last).map fun block =>
            .ok { output := OutputLine.copies i block, extra := last - i }
        else
          match branches.find? fun branch => !branch.exits with
          | some branch => some (.ok { output := branch.kept, extra := last - i })
          | none => some (.error (.exitingChoices i))

/-- Visits a line that opens a conditional branch. -/
def branchAt? (lines : List String) (i : Nat) : Option (Except Error Visit) :=
  (branchEnd? lines 0 (placesFrom lines i)).map fun
    | none => .error (.unterminatedBranch i)
    | some next => .ok { extra := next - (i + 1) }

/-- Visits a label. -/
def labelAt? (lines : List String) (i : Nat) : Option Visit :=
  (findPlace? isLabel lines (placesFrom lines (i + 1)).reverse).map fun
    | none => {}
    | some last => { extra := last - i }

/-- Visits a line of the body. -/
def visitAt? (lines : List String) (passed : Bool) (i : Nat) (line : String) :
    Option (Except Error Visit) :=
  if isBattleOnly line then some (.ok {})
  else if isShowPicture line then
    some (.ok { output := [.copy i line], showsPicture := true })
  else if isShowChoices line then choicesAt? lines passed i
  else if isConditionalBranch line then branchAt? lines i
  else if isLabel line then (labelAt? lines i).map .ok
  else some (.ok { output := [.copy i line] })

section Visits

variable {lines : List String} {i : Nat}

theorem isChoicesEnd_of_showChoices {line : String} (opens : isShowChoices line = true) :
    isChoicesEnd line = false :=
  isCommand_of_apart (by decide) opens

theorem choicesAt?_eq (passed : Bool) (inside : i < lines.length)
    (opens : isShowChoices lines[i] = true) :
    choicesAt? lines passed i = some (visitChoices passed i lines[i] (lines.drop (i + 1))) := by
  rw [choicesAt?, visitChoices]
  cases passed with
  | false =>
      have other := isChoicesEnd_of_showChoices opens
      rw [findPlace?_eq, List.drop_eq_getElem_cons inside, List.findIdx?_cons, other]
      simp only [Bool.not_false, ↓reduceIte, Bool.false_eq_true]
      cases (lines.drop (i + 1)).findIdx? isChoicesEnd with
      | none => rfl
      | some length =>
          simp only [Option.map_some, Nat.add_sub_cancel_left]
  | true =>
      simp only [Bool.not_true, Bool.false_eq_true, ↓reduceIte]
      rcases block?_eq lines [] (i + 1) with
        ⟨endless, newest, scanned⟩ | ⟨length, ends, scanned⟩
      · rw [endless, scanned]
        rfl
      · have within : i + 1 + length < lines.length := by
          have below := findIdx?_lt ends
          rw [List.length_drop] at below
          omega
        have block : slice? lines i (i + 1 + length) =
            some (lines[i] :: (lines.drop (i + 1)).take (length + 1)) := by
          have count : i + 1 + length + 1 - i = length + 1 + 1 := by omega
          rw [slice?_eq (by omega) within, count, List.drop_eq_getElem_cons inside,
            List.take_succ_cons]
        have extra : i + 1 + length - i = length + 1 := by omega
        generalize read : (((lines.drop (i + 1)).take length).zipIdx (i + 1)).foldl noteLine [] =
          newest at scanned
        have branches : branchesOf (i + 1) ((lines.drop (i + 1)).take length) = inOrder newest :=
          congrArg inOrder read
        rw [ends, scanned, Option.bind_some]
        dsimp only
        rw [branches, block, extra]
        by_cases few : (inOrder newest).length < 2
        · rw [if_pos few, if_pos few]
        · rw [if_neg few, if_neg few]
          by_cases onward : ((inOrder newest).all fun branch => !branch.exits) = true
          · rw [if_pos onward, if_pos onward, Option.map_some]
          · rw [if_neg onward, if_neg onward]
            cases (inOrder newest).find? fun branch => !branch.exits with
            | none => rfl
            | some branch => rfl

theorem branchAt?_eq (inside : i < lines.length) (opens : isConditionalBranch lines[i] = true) :
    branchAt? lines i = some (match toBranchEnd 0 (lines.drop (i + 1)) with
      | none => .error (.unterminatedBranch i)
      | some length => .ok { extra := length }) := by
  have first : branchEnd? lines 0 (placesFrom lines i) =
      branchEnd? lines ((0 : Nat) + 1) (placesFrom lines (i + 1)) := by
    rw [placesFrom_of_lt inside, branchEnd?, List.getElem?_eq_getElem inside, Option.bind_some,
      if_pos opens]
    rfl
  rw [branchAt?, first, branchEnd?_eq]
  cases toBranchEnd 0 (lines.drop (i + 1)) with
  | none => rfl
  | some length => simp only [Option.map_some, Nat.add_sub_cancel_left]

theorem labelAt?_eq (inside : i < lines.length) :
    labelAt? lines i = some { extra := toLastLabel (lines.drop (i + 1)) } := by
  have below : ∀ line ∈ lines.drop (i + 1 + (lines.length - (i + 1))), isLabel line = false := by
    intro line member
    rw [List.drop_of_length_le (by omega)] at member
    cases member
  rw [labelAt?, placesFrom]
  rcases findPlace?_label (by omega) below with
    ⟨scanned, unlabelled⟩ | ⟨last, scanned, order, least⟩
  · rw [scanned, toLastLabel_of_unlabelled unlabelled]
    rfl
  · have reached := least.extra (show i ≤ last by omega)
    have extra : last - i = toLastLabel (lines.drop (i + 1)) := by omega
    rw [scanned, ← extra]
    rfl

theorem visitAt?_eq (passed : Bool) (inside : i < lines.length) :
    visitAt? lines passed i lines[i] = some (visit passed i lines[i] (lines.drop (i + 1))) := by
  rw [visitAt?, visit]
  by_cases battle : isBattleOnly lines[i] = true
  · rw [if_pos battle, if_pos battle]
  rw [if_neg battle, if_neg battle]
  by_cases shows : isShowPicture lines[i] = true
  · rw [if_pos shows, if_pos shows]
  rw [if_neg shows, if_neg shows]
  by_cases chooses : isShowChoices lines[i] = true
  · rw [if_pos chooses, if_pos chooses]
    exact choicesAt?_eq passed inside chooses
  rw [if_neg chooses, if_neg chooses]
  by_cases opens : isConditionalBranch lines[i] = true
  · rw [if_pos opens, if_pos opens]
    exact branchAt?_eq inside opens
  rw [if_neg opens, if_neg opens]
  by_cases marked : isLabel lines[i] = true
  · rw [if_pos marked, if_pos marked, labelAt?_eq inside, Option.map_some]
  · rw [if_neg marked, if_neg marked]

end Visits

end SceneGallery.Event
