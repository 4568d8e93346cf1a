import SceneGallery.Event.Body
set_option autoImplicit false

namespace SceneGallery.Event

/-- The same place, the given number of lines further on. -/
def Origin.shift (n : Nat) : Origin → Origin
  | .source line => .source (line + n)
  | .opening => .opening
  | .continuation => .continuation

def OutputLine.shift (n : Nat) (line : OutputLine) : OutputLine :=
  { line with origin := line.origin.shift n }

def Error.shift (n : Nat) : Error → Error
  | .missingLinkage line text => .missingLinkage (line + n) text
  | .linkageBelowFloor line id => .linkageBelowFloor (line + n) id
  | .unterminatedPreamble => .unterminatedPreamble
  | .unterminatedBranch line => .unterminatedBranch (line + n)
  | .unterminatedChoices line => .unterminatedChoices (line + n)
  | .degenerateChoices line count => .degenerateChoices (line + n) count
  | .exitingChoices line => .exitingChoices (line + n)

def Branch.shift (n : Nat) (branch : Branch) : Branch :=
  { branch with kept := branch.kept.map (OutputLine.shift n) }

def Visit.shift (n : Nat) (visit : Visit) : Visit :=
  { visit with output := visit.output.map (OutputLine.shift n) }

theorem toBranchEnd_cons (depth : Nat) (line : String) (rest : List String) :
    toBranchEnd depth (line :: rest) =
      if isConditionalBranch line then (toBranchEnd (depth + 1) rest).map (· + 1)
      else if isBranchEnd line then
        match depth with
        | 0 => some 1
        | depth + 1 => (toBranchEnd depth rest).map (· + 1)
      else (toBranchEnd depth rest).map (· + 1) := rfl

theorem toBranchEnd_le {depth length : Nat} {lines : List String}
    (found : toBranchEnd depth lines = some length) : length ≤ lines.length := by
  induction lines generalizing depth length with
  | nil => cases found
  | cons line rest ih =>
      have later : ∀ {depth length}, (toBranchEnd depth rest).map (· + 1) = some length →
          length ≤ (line :: rest).length := by
        intro depth length found
        obtain ⟨inner, reached, rfl⟩ := Option.map_eq_some_iff.mp found
        have := ih reached
        rw [List.length_cons]
        omega
      rw [toBranchEnd_cons] at found
      by_cases opens : isConditionalBranch line = true
      · rw [if_pos opens] at found
        exact later found
      · rw [if_neg opens] at found
        by_cases closes : isBranchEnd line = true
        · rw [if_pos closes] at found
          cases depth with
          | zero =>
              have := Option.some.inj found
              rw [List.length_cons]
              omega
          | succ depth => exact later found
        · rw [if_neg closes] at found
          exact later found

theorem toBranchEnd_append {depth length : Nat} {lines : List String} (more : List String)
    (found : toBranchEnd depth lines = some length) :
    toBranchEnd depth (lines ++ more) = some length := by
  induction lines generalizing depth length with
  | nil => cases found
  | cons line rest ih =>
      have later : ∀ {depth length}, (toBranchEnd depth rest).map (· + 1) = some length →
          (toBranchEnd depth (rest ++ more)).map (· + 1) = some length := by
        intro depth length found
        obtain ⟨inner, reached, rfl⟩ := Option.map_eq_some_iff.mp found
        rw [ih reached, Option.map_some]
      rw [toBranchEnd_cons] at found
      rw [List.cons_append, toBranchEnd_cons]
      by_cases opens : isConditionalBranch line = true
      · rw [if_pos opens] at found ⊢
        exact later found
      · rw [if_neg opens] at found ⊢
        by_cases closes : isBranchEnd line = true
        · rw [if_pos closes] at found ⊢
          cases depth with
          | zero => exact found
          | succ depth => exact later found
        · rw [if_neg closes] at found ⊢
          exact later found

theorem toLastLabel_le (lines : List String) : toLastLabel lines ≤ lines.length := by
  induction lines with
  | nil => exact Nat.le_refl 0
  | cons line rest ih =>
      rw [toLastLabel, List.length_cons]
      cases reached : toLastLabel rest with
      | zero =>
          by_cases label : isLabel line = true
          · simp only [label, ↓reduceIte]
            omega
          · simp only [label, Bool.false_eq_true, ↓reduceIte]
            omega
      | succ count =>
          rw [reached] at ih
          show count + 2 ≤ rest.length + 1
          omega

theorem visitChoices_cases {passed : Bool} {position : Nat} {line : String} {rest : List String}
    {visit : Visit} (visited : visitChoices passed position line rest = .ok visit) :
    ∃ length, rest.findIdx? isChoicesEnd = some length ∧ visit.extra = length + 1 ∧
      visit.showsPicture = false ∧ (visit.output = [] ∨
        visit.output = OutputLine.copies position (line :: rest.take (length + 1)) ∨
        ∃ branch ∈ branchesOf (position + 1) (rest.take length), visit.output = branch.kept) := by
  rw [visitChoices] at visited
  cases found : rest.findIdx? isChoicesEnd with
  | none =>
      rw [found] at visited
      cases visited
  | some length =>
      rw [found] at visited
      refine ⟨length, rfl, ?_⟩
      simp only at visited
      split at visited
      · cases visited
        exact ⟨rfl, rfl, Or.inl rfl⟩
      · split at visited
        · cases visited
        · split at visited
          · cases visited
            exact ⟨rfl, rfl, Or.inr (Or.inl rfl)⟩
          · split at visited
            · rename_i branch reached
              cases visited
              exact ⟨rfl, rfl, Or.inr (Or.inr ⟨branch, List.mem_of_find?_eq_some reached, rfl⟩)⟩
            · cases visited

theorem findIdx?_lt {p : String → Bool} {lines : List String} {length : Nat}
    (found : lines.findIdx? p = some length) : length < lines.length :=
  (List.findIdx?_eq_some_iff_getElem.mp found).1

/-- A block of choices that ends is visited whatever follows its end. -/
theorem visitChoices_append {passed : Bool} {position : Nat} {line : String} {rest : List String}
    {visit : Visit} (more : List String)
    (visited : visitChoices passed position line rest = .ok visit) :
    visitChoices passed position line (rest ++ more) = .ok visit := by
  obtain ⟨length, found, _⟩ := visitChoices_cases visited
  have inside := findIdx?_lt found
  have within : length ≤ rest.length := by omega
  have still : (rest ++ more).findIdx? isChoicesEnd = some length := by
    rw [List.findIdx?_append, found]
    rfl
  rw [← visited, visitChoices, visitChoices, still, found]
  simp only [List.take_append_of_le_length within,
    List.take_append_of_le_length (show length + 1 ≤ rest.length from inside)]

/-- What a visit of a line does, by what the line is. -/
inductive Visits (passed : Bool) (position : Nat) (line : String) (rest : List String) :
    Visit → Prop where
  | battleOnly (battle : isBattleOnly line = true) : Visits passed position line rest {}
  | picture (battle : isBattleOnly line = false) (picture : isShowPicture line = true) :
    Visits passed position line rest
      { output := [.copy position line], showsPicture := true }
  | choices (battle : isBattleOnly line = false) (picture : isShowPicture line = false)
    (choices : isShowChoices line = true) {made : Visit}
    (visited : visitChoices passed position line rest = .ok made) :
    Visits passed position line rest made
  | branch (battle : isBattleOnly line = false) (picture : isShowPicture line = false)
    (choices : isShowChoices line = false) (branch : isConditionalBranch line = true)
    {length : Nat} (ended : toBranchEnd 0 rest = some length) :
    Visits passed position line rest { extra := length }
  | label (battle : isBattleOnly line = false) (picture : isShowPicture line = false)
    (choices : isShowChoices line = false) (branch : isConditionalBranch line = false)
    (label : isLabel line = true) :
    Visits passed position line rest { extra := toLastLabel rest }
  | other (battle : isBattleOnly line = false) (picture : isShowPicture line = false)
    (choices : isShowChoices line = false) (branch : isConditionalBranch line = false)
    (label : isLabel line = false) :
    Visits passed position line rest { output := [.copy position line] }

theorem visits_of_visit {passed : Bool} {position : Nat} {line : String} {rest : List String}
    {made : Visit} (visited : visit passed position line rest = .ok made) :
    Visits passed position line rest made := by
  rw [visit] at visited
  cases battle : isBattleOnly line with
  | true =>
      rw [battle] at visited
      cases visited
      exact .battleOnly battle
  | false =>
  cases picture : isShowPicture line with
  | true =>
      rw [battle, picture] at visited
      cases visited
      exact .picture battle picture
  | false =>
  cases choices : isShowChoices line with
  | true =>
      rw [battle, picture, choices] at visited
      exact .choices battle picture choices visited
  | false =>
  cases branch : isConditionalBranch line with
  | true =>
      rw [battle, picture, choices, branch] at visited
      cases ended : toBranchEnd 0 rest with
      | none =>
          rw [ended] at visited
          cases visited
      | some length =>
          rw [ended] at visited
          cases visited
          exact .branch battle picture choices branch ended
  | false =>
  rw [battle, picture, choices, branch] at visited
  cases label : isLabel line with
  | true =>
      rw [label] at visited
      cases visited
      exact .label battle picture choices branch label
  | false =>
      rw [label] at visited
      cases visited
      exact .other battle picture choices branch label

theorem visit_of_visits {passed : Bool} {position : Nat} {line : String} {rest : List String}
    {made : Visit} (visited : Visits passed position line rest made) :
    visit passed position line rest = .ok made := by
  cases visited with
  | battleOnly battle => rw [visit, if_pos battle]
  | picture battle picture =>
      rw [visit, battle, picture]
      rfl
  | choices battle picture choices visited =>
      rw [visit, battle, picture, choices]
      exact visited
  | branch battle picture choices branch ended =>
      rw [visit, battle, picture, choices, branch, ended]
      rfl
  | label battle picture choices branch label =>
      rw [visit, battle, picture, choices, branch, label]
      rfl
  | other battle picture choices branch label =>
      rw [visit, battle, picture, choices, branch, label]
      rfl

theorem visit_extra_le {passed : Bool} {position : Nat} {line : String} {rest : List String}
    {made : Visit} (visited : visit passed position line rest = .ok made) :
    made.extra ≤ rest.length := by
  cases visits_of_visit visited with
  | battleOnly => exact Nat.zero_le _
  | picture => exact Nat.zero_le _
  | choices _ _ _ visited =>
      obtain ⟨length, found, used, _⟩ := visitChoices_cases visited
      rw [used]
      exact findIdx?_lt found
  | branch _ _ _ _ ended => exact toBranchEnd_le ended
  | label => exact toLastLabel_le rest
  | other => exact Nat.zero_le _

/-- A visit that succeeds does not depend on later lines, unless it is the visit of a label. -/
theorem visit_append {passed : Bool} {position : Nat} {line : String} {rest : List String}
    {made : Visit} (unlabelled : isLabel line = false) (more : List String)
    (visited : visit passed position line rest = .ok made) :
    visit passed position line (rest ++ more) = .ok made := by
  apply visit_of_visits
  cases visits_of_visit visited with
  | battleOnly battle => exact .battleOnly battle
  | picture battle picture => exact .picture battle picture
  | choices battle picture choices visited =>
      exact .choices battle picture choices (visitChoices_append more visited)
  | branch battle picture choices branch ended =>
      exact .branch battle picture choices branch (toBranchEnd_append more ended)
  | label _ _ _ _ label =>
      rw [unlabelled] at label
      cases label
  | other battle picture choices branch label => exact .other battle picture choices branch label

theorem copies_nil (position : Nat) : OutputLine.copies position [] = [] := rfl

theorem copies_cons (position : Nat) (line : String) (rest : List String) :
    OutputLine.copies position (line :: rest) =
      .copy position line :: OutputLine.copies (position + 1) rest := rfl

theorem copies_append (position : Nat) (front back : List String) :
    OutputLine.copies position (front ++ back) =
      OutputLine.copies position front ++ OutputLine.copies (position + front.length) back := by
  induction front generalizing position with
  | nil => rfl
  | cons line rest ih =>
      have later : position + 1 + rest.length = position + (line :: rest).length := by
        rw [List.length_cons]
        omega
      rw [List.cons_append, copies_cons, copies_cons, ih (position + 1), later]
      rfl

theorem copies_sublist_of_start (position : Nat) {front lines : List String}
    (starts : front <+: lines) :
    (OutputLine.copies position front).Sublist (OutputLine.copies position lines) := by
  obtain ⟨back, rfl⟩ := starts
  rw [copies_append]
  exact List.sublist_append_left _ _

section Shift

variable (n : Nat)

theorem shift_copies (position : Nat) (lines : List String) :
    OutputLine.copies (position + n) lines =
      (OutputLine.copies position lines).map (OutputLine.shift n) := by
  induction lines generalizing position with
  | nil => rfl
  | cons line rest ih =>
      have later := ih (position + 1)
      rw [Nat.add_right_comm] at later
      rw [copies_cons, copies_cons, later]
      rfl

theorem shift_noteLine (branches : List Branch) (line : String) (position : Nat) :
    noteLine (branches.map (Branch.shift n)) (line, position + n) =
      (noteLine branches (line, position)).map (Branch.shift n) := by
  simp only [noteLine]
  split
  · rfl
  · split
    · rfl
    · split
      · cases branches <;> rfl
      · split
        · cases branches <;> rfl
        · rfl

theorem shift_notes (block : List String) (branches : List Branch) (position : Nat) :
    (block.zipIdx (position + n)).foldl noteLine (branches.map (Branch.shift n)) =
      ((block.zipIdx position).foldl noteLine branches).map (Branch.shift n) := by
  induction block generalizing branches position with
  | nil => rfl
  | cons line rest ih =>
      have later := ih (noteLine branches (line, position)) (position + 1)
      rw [Nat.add_right_comm] at later
      rw [List.zipIdx_cons, List.zipIdx_cons, List.foldl_cons, List.foldl_cons, shift_noteLine,
        later]

theorem shift_branchesOf (position : Nat) (block : List String) :
    branchesOf (position + n) block = (branchesOf position block).map (Branch.shift n) := by
  have notes := shift_notes n block [] position
  rw [List.map_nil] at notes
  rw [branchesOf, branchesOf, notes, List.map_map, List.map_reverse, List.map_map]
  congr 2
  funext branch
  simp only [Function.comp_apply, Branch.shift, List.map_reverse]

theorem find?_goesOn (branches : List Branch) :
    (branches.map (Branch.shift n)).find? (fun branch => !branch.exits) =
      (branches.find? fun branch => !branch.exits).map (Branch.shift n) := by
  rw [List.find?_map]
  rfl

theorem shift_visitChoices (passed : Bool) (position : Nat) (line : String) (rest : List String) :
    visitChoices passed (position + n) line rest =
      ((visitChoices passed position line rest).map (Visit.shift n)).mapError (Error.shift n) := by
  rw [visitChoices, visitChoices]
  cases rest.findIdx? isChoicesEnd with
  | none => rfl
  | some length =>
      have branches := shift_branchesOf n (position + 1) (rest.take length)
      rw [Nat.add_right_comm] at branches
      simp only [branches, List.length_map, List.all_map, Function.comp_def, find?_goesOn,
        shift_copies, Branch.shift]
      split
      · rfl
      · split
        · rfl
        · split
          · rfl
          · cases (branchesOf (position + 1) (rest.take length)).find? fun branch =>
              !branch.exits with
            | none => rfl
            | some branch => rfl

/-- The place of a line only numbers what comes of visiting it. -/
theorem shift_visit (passed : Bool) (position : Nat) (line : String) (rest : List String) :
    visit passed (position + n) line rest =
      ((visit passed position line rest).map (Visit.shift n)).mapError (Error.shift n) := by
  rw [visit, visit]
  split
  · rfl
  · split
    · rfl
    · split
      · exact shift_visitChoices n passed position line rest
      · split
        · cases toBranchEnd 0 rest with
          | none => rfl
          | some length => rfl
        · split
          · rfl
          · rfl

end Shift

/-- A line that is noted is kept by the last branch at most, behind what that branch kept before. -/
theorem sublist_of_noteLine {position : Nat} {line : String} {branches : List Branch}
    {done : List OutputLine} (kept : ∀ branch ∈ branches, branch.kept.reverse.Sublist done) :
    ∀ branch ∈ noteLine branches (line, position),
      branch.kept.reverse.Sublist (done ++ [.copy position line]) := by
  have wider : ∀ branch ∈ branches,
      branch.kept.reverse.Sublist (done ++ [.copy position line]) :=
    fun branch member => (kept branch member).trans (List.sublist_append_left _ _)
  have changed : ∀ change : Branch → Branch,
      (∀ branch ∈ branches,
        (change branch).kept.reverse.Sublist (done ++ [.copy position line])) →
        ∀ branch ∈ branches.modifyHead change,
          branch.kept.reverse.Sublist (done ++ [.copy position line]) := by
    intro change sound branch member
    cases branches with
    | nil => cases member
    | cons first others =>
        rcases List.mem_cons.mp member with rfl | later
        · exact sound first List.mem_cons_self
        · exact wider branch (List.mem_cons_of_mem _ later)
  simp only [noteLine]
  split
  · exact wider
  · split
    · intro branch member
      rcases List.mem_cons.mp member with rfl | later
      · exact List.nil_sublist _
      · exact wider branch later
    · split
      · exact changed _ wider
      · split
        · apply changed
          intro branch member
          rw [List.reverse_cons]
          exact (kept branch member).append (List.Sublist.refl _)
        · exact wider

theorem sublist_of_notes {block : List String} {position : Nat} {branches : List Branch}
    {done : List OutputLine} (kept : ∀ branch ∈ branches, branch.kept.reverse.Sublist done) :
    ∀ branch ∈ (block.zipIdx position).foldl noteLine branches,
      branch.kept.reverse.Sublist (done ++ OutputLine.copies position block) := by
  induction block generalizing position branches done with
  | nil =>
      intro branch member
      rw [copies_nil, List.append_nil]
      exact kept branch member
  | cons line rest ih =>
      intro branch member
      have later := ih (sublist_of_noteLine kept) branch member
      rw [List.append_assoc] at later
      exact later

theorem kept_sublist {block : List String} {position : Nat} {branch : Branch}
    (member : branch ∈ branchesOf position block) :
    branch.kept.Sublist (OutputLine.copies position block) := by
  rw [branchesOf, List.mem_reverse, List.mem_map] at member
  obtain ⟨noted, present, rfl⟩ := member
  have all : ∀ branch ∈ (block.zipIdx position).foldl noteLine [],
      branch.kept.reverse.Sublist ([] ++ OutputLine.copies position block) :=
    sublist_of_notes nofun
  exact all noted present

/-- A visit puts out some of the lines that it uses up, as they are and in order. -/
theorem visit_output_sublist {passed : Bool} {position : Nat} {line : String} {rest : List String}
    {made : Visit} (visited : visit passed position line rest = .ok made) :
    made.output.Sublist (OutputLine.copies position (line :: rest.take made.extra)) := by
  cases visits_of_visit visited with
  | battleOnly => exact List.nil_sublist _
  | picture => exact List.Sublist.refl _
  | choices _ _ _ visited =>
      obtain ⟨length, _, used, _, nothing | whole | ⟨branch, member, kept⟩⟩ :=
        visitChoices_cases visited
      · rw [nothing]
        exact List.nil_sublist _
      · have same : made.output =
            OutputLine.copies position (line :: rest.take made.extra) := by rw [whole, used]
        exact same ▸ List.Sublist.refl _
      · rw [kept, used, copies_cons]
        apply List.Sublist.cons
        exact (kept_sublist member).trans
          (copies_sublist_of_start _ (List.take_prefix_take_left (Nat.le_succ length)))
  | branch => exact List.nil_sublist _
  | label => exact List.nil_sublist _
  | other => exact List.Sublist.refl _

end SceneGallery.Event
