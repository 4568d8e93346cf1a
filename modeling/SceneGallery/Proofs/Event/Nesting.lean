import SceneGallery.Proofs.Event.Keyword
import SceneGallery.Proofs.Event.Visit
set_option autoImplicit false

namespace SceneGallery.Event

/-- The lines that blocks are made of. -/
inductive Mark where
  | showChoices
  | when
  | choicesEnd
  | conditionalBranch
  | branchEnd
  | label
deriving DecidableEq, Repr

/-- The words of the command of a mark. -/
def Mark.word : Mark → String
  | .showChoices => "ShowChoices"
  | .when => "When"
  | .choicesEnd => "ChoicesEnd"
  | .conditionalBranch => "ConditionalBranch"
  | .branchEnd => "BranchEnd"
  | .label => "Label("

def Mark.all : List Mark :=
  [.showChoices, .when, .choicesEnd, .conditionalBranch, .branchEnd, .label]

/-- The mark of a line, if it has one. -/
def mark? (line : String) : Option Mark :=
  Mark.all.find? fun mark => isCommand mark.word line

/-- A block that is open. -/
inductive Block where
  | choices
  | branch
deriving DecidableEq, Repr

/-- The blocks that are open after a mark, the innermost first, if it may stand there: an end closes
the innermost block, a branch of choices is directly inside its block, and a label is in no
block. -/
def Mark.nest : Mark → List Block → Option (List Block)
  | .showChoices, blocks => some (.choices :: blocks)
  | .conditionalBranch, blocks => some (.branch :: blocks)
  | .choicesEnd, .choices :: outer => some outer
  | .branchEnd, .branch :: outer => some outer
  | .when, .choices :: outer => some (.choices :: outer)
  | .label, [] => some []
  | _, _ => none

/-- The blocks that are open after a line, if it may stand where the given blocks are open. -/
def nest (blocks : List Block) (line : String) : Option (List Block) :=
  match mark? line with
  | none => some blocks
  | some mark => mark.nest blocks

/-- The blocks that are open after some lines. -/
def nestAll (blocks : List Block) : List String → Option (List Block)
  | [] => some blocks
  | line :: rest => (nest blocks line).bind fun blocks => nestAll blocks rest

/-- Every block is closed, and every mark stands where it may. -/
def WellNested (lines : List String) : Prop :=
  nestAll [] lines = some []

instance (lines : List String) : Decidable (WellNested lines) :=
  inferInstanceAs (Decidable (_ = _))

theorem isCommand_of_mark? {line : String} {mark : Mark} (marked : mark? line = some mark) :
    isCommand mark.word line = true := by
  rw [mark?] at marked
  have found := List.find?_some marked
  exact found

theorem apart_of_ne : ∀ mark ∈ Mark.all, ∀ other ∈ Mark.all, mark ≠ other →
    Apart mark.word other.word := by
  decide

theorem Mark.mem_all (mark : Mark) : mark ∈ Mark.all := by
  cases mark <;> decide

theorem mark?_eq_some_iff {line : String} {mark : Mark} :
    mark? line = some mark ↔ isCommand mark.word line = true := by
  constructor
  · exact isCommand_of_mark?
  · intro here
    obtain ⟨other, marked⟩ : ∃ other, mark? line = some other :=
      Option.isSome_iff_exists.mp (List.find?_isSome.mpr ⟨mark, mark.mem_all, here⟩)
    have there := isCommand_of_mark? marked
    rw [marked]
    by_contra different
    have unlike : mark ≠ other := fun same => different (congrArg some same.symm)
    have apart := apart_of_ne mark mark.mem_all other other.mem_all unlike
    rw [isCommand_of_apart apart here] at there
    cases there

theorem mark?_eq_none_iff {line : String} :
    mark? line = none ↔ ∀ mark : Mark, isCommand mark.word line = false := by
  rw [mark?, List.find?_eq_none]
  simp only [Bool.not_eq_true]
  exact ⟨fun absent mark => absent mark mark.mem_all, fun absent mark _ => absent mark⟩

theorem mark?_of_any {commands : List String} {line : String}
    (apart : ∀ mark ∈ Mark.all, ∀ other ∈ commands, Apart other mark.word)
    (any : isAnyCommand commands line = true) : mark? line = none :=
  mark?_eq_none_iff.mpr fun mark => isCommand_of_any (apart mark mark.mem_all) any

theorem mark?_of_battleOnly {line : String} (battle : isBattleOnly line = true) :
    mark? line = none :=
  mark?_of_any (by decide) battle

theorem mark?_of_shown {line : String} (shown : isShown line = true) : mark? line = none :=
  mark?_of_any (by decide) shown

theorem mark?_of_showPicture {line : String} (shows : isShowPicture line = true) :
    mark? line = none := by
  have any : isAnyCommand ["ShowPicture("] line = true := by
    rw [isAnyCommand, List.any_cons, List.any_nil, Bool.or_false]
    exact shows
  exact mark?_of_any (by decide) any

theorem isShowChoices_iff {line : String} :
    isShowChoices line = true ↔ mark? line = some .showChoices := by
  rw [mark?_eq_some_iff]
  rfl

theorem isChoicesEnd_iff {line : String} :
    isChoicesEnd line = true ↔ mark? line = some .choicesEnd := by
  rw [mark?_eq_some_iff]
  rfl

theorem isConditionalBranch_iff {line : String} :
    isConditionalBranch line = true ↔ mark? line = some .conditionalBranch := by
  rw [mark?_eq_some_iff]
  rfl

theorem isBranchEnd_iff {line : String} :
    isBranchEnd line = true ↔ mark? line = some .branchEnd := by
  rw [mark?_eq_some_iff]
  rfl

theorem isBranchEnd_of_conditionalBranch {line : String}
    (opens : isConditionalBranch line = true) : isBranchEnd line = false := by
  rw [← Bool.not_eq_true, isBranchEnd_iff, isConditionalBranch_iff.mp opens]
  nofun

theorem isLabel_iff {line : String} : isLabel line = true ↔ mark? line = some .label := by
  rw [mark?_eq_some_iff]
  rfl

/-- A line that a block is made of, or a label, is neither left out nor a picture. -/
theorem plain_of_mark? {line : String} {mark : Mark} (marked : mark? line = some mark) :
    isBattleOnly line = false ∧ isShowPicture line = false := by
  constructor
  · rw [← Bool.not_eq_true]
    intro battle
    rw [mark?_of_battleOnly battle] at marked
    cases marked
  · rw [← Bool.not_eq_true]
    intro picture
    rw [mark?_of_showPicture picture] at marked
    cases marked

theorem visit_of_showChoices {line : String} (opens : isShowChoices line = true) (passed : Bool)
    (position : Nat) (rest : List String) :
    visit passed position line rest = visitChoices passed position line rest := by
  obtain ⟨battle, picture⟩ := plain_of_mark? (isShowChoices_iff.mp opens)
  rw [visit, battle, picture, opens]
  rfl

theorem visit_of_conditionalBranch {line : String} (opens : isConditionalBranch line = true)
    (passed : Bool) (position : Nat) (rest : List String) :
    visit passed position line rest =
      match toBranchEnd 0 rest with
      | none => .error (.unterminatedBranch position)
      | some length => .ok { extra := length } := by
  have marked := isConditionalBranch_iff.mp opens
  obtain ⟨battle, picture⟩ := plain_of_mark? marked
  have choices : isShowChoices line = false := by
    rw [← Bool.not_eq_true, isShowChoices_iff, marked]
    nofun
  rw [visit, battle, picture, choices, opens]
  rfl

theorem visit_of_label {line : String} (label : isLabel line = true) (passed : Bool)
    (position : Nat) (rest : List String) :
    visit passed position line rest = .ok { extra := toLastLabel rest } := by
  have marked := isLabel_iff.mp label
  obtain ⟨battle, picture⟩ := plain_of_mark? marked
  have choices : isShowChoices line = false := by
    rw [← Bool.not_eq_true, isShowChoices_iff, marked]
    nofun
  have branch : isConditionalBranch line = false := by
    rw [← Bool.not_eq_true, isConditionalBranch_iff, marked]
    nofun
  rw [visit, battle, picture, choices, branch, label]
  rfl

theorem nest_of_unmarked {line : String} (unmarked : mark? line = none) (blocks : List Block) :
    nest blocks line = some blocks := by
  rw [nest, unmarked]

theorem nest_of_mark? {line : String} {mark : Mark} (marked : mark? line = some mark)
    (blocks : List Block) : nest blocks line = mark.nest blocks := by
  rw [nest, marked]

@[simp] theorem nestAll_nil (blocks : List Block) : nestAll blocks [] = some blocks := rfl

theorem nestAll_cons (blocks : List Block) (line : String) (rest : List String) :
    nestAll blocks (line :: rest) =
      (nest blocks line).bind fun blocks => nestAll blocks rest := rfl

theorem nestAll_append (blocks : List Block) (front back : List String) :
    nestAll blocks (front ++ back) =
      (nestAll blocks front).bind fun blocks => nestAll blocks back := by
  induction front generalizing blocks with
  | nil => rfl
  | cons line rest ih =>
      rw [List.cons_append, nestAll_cons, nestAll_cons, Option.bind_assoc]
      congr 1
      funext inner
      exact ih inner

theorem nestAll_cons_eq_some {blocks after : List Block} {line : String} {rest : List String} :
    nestAll blocks (line :: rest) = some after ↔
      ∃ inner, nest blocks line = some inner ∧ nestAll inner rest = some after :=
  Option.bind_eq_some_iff

theorem nestAll_append_eq_some {blocks after : List Block} {front back : List String} :
    nestAll blocks (front ++ back) = some after ↔
      ∃ inner, nestAll blocks front = some inner ∧ nestAll inner back = some after := by
  rw [nestAll_append, Option.bind_eq_some_iff]

theorem nestAll_of_unmarked {lines : List String} (unmarked : ∀ line ∈ lines, mark? line = none)
    (blocks : List Block) : nestAll blocks lines = some blocks := by
  induction lines with
  | nil => rfl
  | cons line rest ih =>
      obtain ⟨first, later⟩ := List.forall_mem_cons.mp unmarked
      rw [nestAll_cons, nest_of_unmarked first]
      exact ih later

theorem exists_of_findIdx? {kind : String → Bool} {lines : List String} {length : Nat}
    (found : lines.findIdx? kind = some length) :
    ∃ front line back, lines = front ++ line :: back ∧ front.length = length ∧
      kind line = true ∧ ∀ other ∈ front, kind other = false := by
  obtain ⟨inside, here, first⟩ := List.findIdx?_eq_some_iff_getElem.mp found
  refine ⟨lines.take length, lines[length], lines.drop (length + 1), ?_, ?_, here, ?_⟩
  · rw [List.getElem_cons_drop, List.take_append_drop]
  · rw [List.length_take]
    omega
  · intro other member
    obtain ⟨i, before, rfl⟩ := List.mem_take_iff_getElem.mp member
    exact Bool.eq_false_iff.mpr (first i (by omega))

theorem take_through (front back : List String) (line : String) :
    (front ++ line :: back).take (front.length + 1) = front ++ [line] := by
  rw [List.append_cons]
  exact List.take_left' List.length_append

theorem drop_through (front back : List String) (line : String) :
    (front ++ line :: back).drop (front.length + 1) = back := by
  rw [List.append_cons]
  exact List.drop_left' List.length_append

/-- The mark that opens a block. -/
def Block.opener : Block → Mark
  | .choices => .showChoices
  | .branch => .conditionalBranch

/-- The mark that closes a block. -/
def Block.closer : Block → Mark
  | .choices => .choicesEnd
  | .branch => .branchEnd

/-- Inside an open block a line opens or closes blocks that are in it, or closes it. -/
theorem nest_inside {inside outer after : List Block} {block : Block} {line : String}
    (nested : nest (inside ++ block :: outer) line = some after) :
    (inside = [] ∧ after = outer ∧ mark? line = some block.closer) ∨
      ∃ still, after = still ++ block :: outer ∧ ∀ kind : Block,
        still.count kind + (if mark? line = some kind.closer then 1 else 0) =
          inside.count kind + (if mark? line = some kind.opener then 1 else 0) := by
  cases marked : mark? line with
  | none =>
      rw [nest_of_unmarked marked] at nested
      cases nested
      exact .inr ⟨inside, rfl, fun kind => rfl⟩
  | some mark =>
      rw [nest_of_mark? marked] at nested
      cases mark with
      | showChoices =>
          cases nested
          refine .inr ⟨.choices :: inside, rfl, fun kind => ?_⟩
          cases kind <;> simp [Block.opener, Block.closer]
      | conditionalBranch =>
          cases nested
          refine .inr ⟨.branch :: inside, rfl, fun kind => ?_⟩
          cases kind <;> simp [Block.opener, Block.closer]
      | when =>
          refine .inr ⟨inside, ?_, fun kind => by cases kind <;> rfl⟩
          rcases inside with _ | ⟨_ | _, inside⟩
          · cases block <;> cases nested
            rfl
          · cases nested
            rfl
          · cases nested
      | label => rcases inside with _ | ⟨_, inside⟩ <;> cases nested
      | choicesEnd =>
          rcases inside with _ | ⟨_ | _, inside⟩
          · cases block <;> cases nested
            exact .inl ⟨rfl, rfl, rfl⟩
          · cases nested
            refine .inr ⟨inside, rfl, fun kind => ?_⟩
            cases kind <;> simp [Block.opener, Block.closer]
          · cases nested
      | branchEnd =>
          rcases inside with _ | ⟨_ | _, inside⟩
          · cases block <;> cases nested
            exact .inl ⟨rfl, rfl, rfl⟩
          · cases nested
          · cases nested
            refine .inr ⟨inside, rfl, fun kind => ?_⟩
            cases kind <;> simp [Block.opener, Block.closer]

/-- Lines without an end of choices leave a block of choices open, and with it the ones in it that
they open. -/
theorem nestAll_endless {inside outer after : List Block} {lines : List String}
    (endless : ∀ line ∈ lines, isChoicesEnd line = false)
    (nested : nestAll (inside ++ .choices :: outer) lines = some after) :
    ∃ still, after = still ++ .choices :: outer ∧
      still.count .choices = inside.count .choices + lines.countP isShowChoices := by
  induction lines generalizing inside with
  | nil =>
      cases nested
      exact ⟨inside, rfl, rfl⟩
  | cons line rest ih =>
      obtain ⟨unended, later⟩ := List.forall_mem_cons.mp endless
      obtain ⟨between, one, others⟩ := nestAll_cons_eq_some.mp nested
      rcases nest_inside one with ⟨_, _, closed⟩ | ⟨still, rfl, counts⟩
      · rw [isChoicesEnd_iff.mpr closed] at unended
        cases unended
      · obtain ⟨last, rfl, total⟩ := ih later others
        have unclosed : mark? line ≠ some Block.choices.closer := by
          intro closed
          rw [isChoicesEnd_iff.mpr closed] at unended
          cases unended
        have opened : (if isShowChoices line = true then 1 else 0) =
            if mark? line = some Block.choices.opener then 1 else 0 :=
          if_congr isShowChoices_iff rfl rfl
        have own := counts .choices
        rw [if_neg unclosed, ← opened] at own
        refine ⟨last, rfl, ?_⟩
        rw [total, List.countP_cons]
        omega

/-- The first end of choices behind the opening of a block closes it, unless another block is opened
before that end. -/
theorem nestAll_choices {blocks after : List Block} {line : String} {rest : List String}
    {length : Nat} (opens : isShowChoices line = true)
    (found : rest.findIdx? isChoicesEnd = some length)
    (nested : nestAll blocks (line :: rest.take (length + 1)) = some after) :
    ((∀ inner ∈ rest.take (length + 1), isShowChoices inner = false) ∧ after = blocks) ∨
      (∃ inner ∈ rest.take (length + 1), isShowChoices inner = true) ∧
        blocks.length < after.length := by
  obtain ⟨front, closing, back, rfl, rfl, closes, endless⟩ := exists_of_findIdx? found
  have ended := isChoicesEnd_iff.mp closes
  have unopened : isShowChoices closing = false := by
    rw [← Bool.not_eq_true, isShowChoices_iff, ended]
    nofun
  rw [take_through] at nested ⊢
  obtain ⟨first, opened, nested⟩ := nestAll_cons_eq_some.mp nested
  rw [nest_of_mark? (isShowChoices_iff.mp opens)] at opened
  obtain ⟨last, inner, closed⟩ := nestAll_append_eq_some.mp nested
  have inside : nestAll ([] ++ .choices :: blocks) front = some last := by
    cases opened
    exact inner
  obtain ⟨still, rfl, counted⟩ := nestAll_endless endless inside
  obtain ⟨final, closed, same⟩ := nestAll_cons_eq_some.mp closed
  cases same
  rw [nest_of_mark? ended] at closed
  rw [List.count_nil, Nat.zero_add] at counted
  -- What is still open in the block decides whether the end is its own.
  rcases still with _ | ⟨_ | _, still⟩
  · cases closed
    have none : ∀ inner ∈ front, isShowChoices inner = false := by
      intro inner member
      exact Bool.eq_false_iff.mpr (List.countP_eq_zero.mp counted.symm inner member)
    exact .inl ⟨List.forall_mem_append.mpr ⟨none, List.forall_mem_singleton.mpr unopened⟩, rfl⟩
  · cases closed
    have some : 0 < front.countP isShowChoices := by
      rw [← counted, List.count_cons_self]
      exact Nat.zero_lt_succ _
    obtain ⟨inner, member, opens⟩ := List.countP_pos_iff.mp some
    refine .inr ⟨⟨inner, List.mem_append_left _ member, opens⟩, ?_⟩
    show blocks.length < (still ++ .choices :: blocks).length
    rw [List.length_append, List.length_cons]
    omega
  · cases closed

/-- The end that a conditional branch is followed to closes that branch. -/
theorem nestAll_toBranchEnd {depth length : Nat} {lines : List String}
    {inside outer after : List Block} (reached : toBranchEnd depth lines = some length)
    (counted : inside.count .branch = depth)
    (nested : nestAll (inside ++ .branch :: outer) (lines.take length) = some after) :
    after = outer := by
  induction lines generalizing depth length inside with
  | nil => cases reached
  | cons line rest ih =>
      -- One line on, with the number of branches that are open in the block by then.
      have later : ∀ {open_ : Nat}, (toBranchEnd open_ rest).map (· + 1) = some length →
          mark? line ≠ some .branchEnd ∨ 0 < depth →
          depth + (if mark? line = some .conditionalBranch then 1 else 0) =
            open_ + (if mark? line = some .branchEnd then 1 else 0) →
          after = outer := by
        intro open_ reached proper balance
        obtain ⟨further, there, rfl⟩ := Option.map_eq_some_iff.mp reached
        rw [List.take_succ_cons] at nested
        obtain ⟨between, one, others⟩ := nestAll_cons_eq_some.mp nested
        rcases nest_inside one with ⟨rfl, _, closed⟩ | ⟨still, rfl, counts⟩
        · rcases proper with other | deep
          · exact absurd closed other
          · rw [List.count_nil] at counted
            omega
        · refine ih there ?_ others
          have own : still.count .branch + (if mark? line = some .branchEnd then 1 else 0) =
              inside.count .branch + (if mark? line = some .conditionalBranch then 1 else 0) :=
            counts .branch
          omega
      rw [toBranchEnd_cons] at reached
      by_cases opens : isConditionalBranch line = true
      · rw [if_pos opens] at reached
        have marked := isConditionalBranch_iff.mp opens
        exact later reached (.inl (by rw [marked]; nofun)) (by simp [marked])
      · rw [if_neg opens] at reached
        rw [isConditionalBranch_iff] at opens
        by_cases closes : isBranchEnd line = true
        · rw [if_pos closes] at reached
          have marked := isBranchEnd_iff.mp closes
          cases depth with
          | succ depth => exact later reached (.inr (Nat.zero_lt_succ _)) (by simp [marked])
          | zero =>
              cases reached
              rw [List.take_succ_cons, List.take_zero] at nested
              obtain ⟨between, one, same⟩ := nestAll_cons_eq_some.mp nested
              cases same
              rcases nest_inside one with ⟨_, rfl, _⟩ | ⟨still, _, counts⟩
              · rfl
              · have own := counts .branch
                simp only [Block.closer, Block.opener, marked, ↓reduceIte, counted] at own
                simp at own
        · rw [if_neg closes] at reached
          rw [isBranchEnd_iff] at closes
          exact later reached (.inl closes) (by rw [if_neg opens, if_neg closes])

theorem nest_label {blocks after : List Block} {line : String} (label : isLabel line = true)
    (nested : nest blocks line = some after) : blocks = [] ∧ after = [] := by
  rw [nest_of_mark? (isLabel_iff.mp label)] at nested
  cases blocks with
  | nil =>
      cases nested
      exact ⟨rfl, rfl⟩
  | cons block outer => cases nested

theorem exists_last_label {lines : List String} (labelled : 0 < toLastLabel lines) :
    ∃ front line, lines.take (toLastLabel lines) = front ++ [line] ∧ isLabel line = true := by
  induction lines with
  | nil => exact absurd labelled (Nat.lt_irrefl 0)
  | cons line rest ih =>
      rw [toLastLabel] at labelled ⊢
      cases reached : toLastLabel rest with
      | zero =>
          rw [reached] at labelled
          by_cases label : isLabel line = true
          · rw [if_pos label]
            exact ⟨[], line, rfl, label⟩
          · simp only [label, Bool.false_eq_true, ↓reduceIte] at labelled
            exact absurd labelled (Nat.lt_irrefl 0)
      | succ count =>
          obtain ⟨front, last, taken, label⟩ := ih (by omega)
          rw [reached] at taken
          refine ⟨line :: front, last, ?_, label⟩
          show (line :: rest).take (count + 2) = _
          rw [List.take_succ_cons, taken, List.cons_append]

/-- From a label to the last one no block is left open. -/
theorem nestAll_toLastLabel {blocks after : List Block} {line : String} {rest : List String}
    (label : isLabel line = true)
    (nested : nestAll blocks (line :: rest.take (toLastLabel rest)) = some after) :
    blocks = [] ∧ after = [] := by
  obtain ⟨between, one, others⟩ := nestAll_cons_eq_some.mp nested
  obtain ⟨rfl, rfl⟩ := nest_label label one
  refine ⟨rfl, ?_⟩
  by_cases further : 0 < toLastLabel rest
  · obtain ⟨front, last, taken, labelled⟩ := exists_last_label further
    rw [taken] at others
    obtain ⟨before, _, final⟩ := nestAll_append_eq_some.mp others
    obtain ⟨last, final, same⟩ := nestAll_cons_eq_some.mp final
    cases same
    exact (nest_label labelled final).2
  · rw [Nat.eq_zero_of_not_pos further, List.take_zero] at others
    cases others
    rfl

end SceneGallery.Event
