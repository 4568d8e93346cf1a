import SceneGallery.Proofs.Event.Decoration
import SceneGallery.Proofs.Event.Nesting
import SceneGallery.Proofs.Event.Reached
set_option autoImplicit false

namespace SceneGallery.Event

/-- The text of a line that is taken over. -/
def OutputLine.text? (line : OutputLine) : Option String :=
  match line.content with
  | .verbatim text => some text
  | .header | .dispatch => none

/-- The texts of lines that are taken over. -/
def texts (output : List OutputLine) : List String :=
  output.filterMap OutputLine.text?

@[simp] theorem texts_nil : texts [] = [] := rfl

theorem texts_append (front back : List OutputLine) :
    texts (front ++ back) = texts front ++ texts back :=
  List.filterMap_append

theorem texts_copies (position : Nat) (lines : List String) :
    texts (OutputLine.copies position lines) = lines := by
  induction lines generalizing position with
  | nil => rfl
  | cons line rest ih => exact congrArg (line :: ·) (ih (position + 1))

/-- A line that shows something. -/
def Shows (line : OutputLine) : Prop :=
  ∃ text, line.text? = some text ∧ isShown text = true

theorem shows_noteLine {branches : List Branch} {numbered : String × Nat}
    (shown : ∀ branch ∈ branches, ∀ line ∈ branch.kept, Shows line) :
    ∀ branch ∈ noteLine branches numbered, ∀ line ∈ branch.kept, Shows line := by
  obtain ⟨text, position⟩ := numbered
  simp only [noteLine]
  split
  · exact shown
  · split
    · exact List.forall_mem_cons.mpr ⟨List.forall_mem_nil _, shown⟩
    · split
      · cases branches with
        | nil => exact shown
        | cons branch others => exact List.forall_mem_cons.mpr (List.forall_mem_cons.mp shown)
      · split
        · rename_i shows
          cases branches with
          | nil => exact shown
          | cons branch others =>
              obtain ⟨first, later⟩ := List.forall_mem_cons.mp shown
              exact List.forall_mem_cons.mpr
                ⟨List.forall_mem_cons.mpr ⟨⟨text, rfl, shows⟩, first⟩, later⟩
        · exact shown

theorem shows_branchesOf {position : Nat} {block : List String} :
    ∀ branch ∈ branchesOf position block, ∀ line ∈ branch.kept, Shows line := by
  have noted : ∀ (numbered : List (String × Nat)) (branches : List Branch),
      (∀ branch ∈ branches, ∀ line ∈ branch.kept, Shows line) →
        ∀ branch ∈ numbered.foldl noteLine branches, ∀ line ∈ branch.kept, Shows line := by
    intro numbered
    induction numbered with
    | nil => exact fun branches shown => shown
    | cons first rest ih => exact fun branches shown => ih _ (shows_noteLine shown)
  intro branch member line kept
  obtain ⟨found, there, rfl⟩ := List.mem_map.mp (List.mem_reverse.mp member)
  exact noted _ [] nofun found there line (List.mem_reverse.mp kept)

/-- A block of choices with another one before its first end, of which not all lines up to that end
are put out. -/
structure CutsBlock (position : Nat) (line : String) (rest : List String) (made : Visit) :
    Prop where
  opens : isShowChoices line = true
  inner : ∃ inner ∈ rest.take made.extra, isShowChoices inner = true
  shortened : made.output ≠ OutputLine.copies position (line :: rest.take made.extra)

/-- A visit of a block of choices puts out the whole of it up to its first end, or lines that show
something. -/
theorem visitChoices_output {passed : Bool} {position : Nat} {line : String} {rest : List String}
    {made : Visit} (visited : visitChoices passed position line rest = .ok made) :
    made.output = OutputLine.copies position (line :: rest.take made.extra) ∨
      ∀ other ∈ made.output, Shows other := by
  obtain ⟨length, _, used, _, nothing | whole | ⟨branch, member, kept⟩⟩ :=
    visitChoices_cases visited
  · rw [nothing]
    exact .inr nofun
  · exact .inl (used ▸ whole)
  · rw [kept]
    exact .inr (shows_branchesOf branch member)

theorem unmarked_of_shows {output : List OutputLine} (shown : ∀ line ∈ output, Shows line) :
    ∀ text ∈ texts output, mark? text = none := by
  intro text member
  obtain ⟨line, there, same⟩ := List.mem_filterMap.mp member
  obtain ⟨other, spelled, shows⟩ := shown line there
  rw [same] at spelled
  cases spelled
  exact mark?_of_shown shows

section Step

variable {passed : Bool} {position : Nat} {line : String} {rest : List String} {made : Visit}
  {blocks after : List Block}

/-- What a visit puts out opens and closes the blocks that the visited lines do. Only where a block
of choices is cut it leaves blocks open, of which nothing is put out. -/
theorem visit_nests (visited : visit passed position line rest = .ok made)
    (nested : nestAll blocks (line :: rest.take made.extra) = some after) :
    (¬ CutsBlock position line rest made → nestAll blocks (texts made.output) = some after) ∧
      (CutsBlock position line rest made →
        nestAll blocks (texts made.output) = some blocks ∧ blocks.length < after.length) := by
  have whole : made.output = OutputLine.copies position (line :: rest.take made.extra) →
      nestAll blocks (texts made.output) = some after := by
    intro whole
    rw [whole, texts_copies]
    exact nested
  cases visits_of_visit visited with
  | battleOnly battle =>
      have unmarked := mark?_of_battleOnly battle
      rw [List.take_zero, nestAll_cons, nest_of_unmarked unmarked] at nested
      refine ⟨fun _ => nested, fun cuts => ?_⟩
      rw [isShowChoices_iff.mp cuts.opens] at unmarked
      cases unmarked
  | picture => exact ⟨fun _ => whole rfl, fun cuts => absurd rfl cuts.shortened⟩
  | other => exact ⟨fun _ => whole rfl, fun cuts => absurd rfl cuts.shortened⟩
  | @branch _ _ unlike branch length ended =>
      have opened := nest_of_mark? (isConditionalBranch_iff.mp branch) blocks
      obtain ⟨first, one, others⟩ := nestAll_cons_eq_some.mp nested
      rw [opened] at one
      have inside : nestAll ([] ++ .branch :: blocks) (rest.take length) = some after := by
        cases one
        exact others
      obtain rfl := nestAll_toBranchEnd ended rfl inside
      refine ⟨fun _ => rfl, fun cuts => ?_⟩
      rw [cuts.opens] at unlike
      cases unlike
  | label _ _ unlike _ label =>
      obtain ⟨rfl, rfl⟩ := nestAll_toLastLabel label nested
      refine ⟨fun _ => rfl, fun cuts => ?_⟩
      rw [cuts.opens] at unlike
      cases unlike
  | choices _ _ opens visited =>
      obtain ⟨length, found, used, _⟩ := visitChoices_cases visited
      rcases visitChoices_output visited with same | shown
      · exact ⟨fun _ => whole same, fun cuts => absurd same cuts.shortened⟩
      · have kept := nestAll_of_unmarked (unmarked_of_shows shown) blocks
        have shortened : made.output ≠ OutputLine.copies position
            (line :: rest.take made.extra) := by
          intro same
          obtain ⟨text, spelled, shows⟩ := shown (.copy position line) (by
            rw [same, copies_cons]
            exact List.mem_cons_self)
          cases spelled
          have unmarked := mark?_of_shown shows
          rw [isShowChoices_iff.mp opens] at unmarked
          cases unmarked
        rw [used] at nested
        rcases nestAll_choices opens found nested with ⟨none, rfl⟩ | ⟨inner, deeper⟩
        · refine ⟨fun _ => kept, fun cuts => ?_⟩
          obtain ⟨other, member, opened⟩ := cuts.inner
          rw [used] at member
          rw [none other member] at opened
          cases opened
        · rw [← used] at inner
          exact ⟨fun uncut => absurd ⟨opens, inner, shortened⟩ uncut, fun _ => ⟨kept, deeper⟩⟩

end Step

/-- A walk through a body that comes to a block of choices and cuts it. -/
inductive Cuts : Bool → Nat → List String → Prop
  | here {passed : Bool} {position : Nat} {line : String} {rest : List String} {made : Visit}
    (visited : visit passed position line rest = .ok made)
    (cuts : CutsBlock position line rest made) : Cuts passed position (line :: rest)
  | later {passed : Bool} {position : Nat} {line : String} {rest : List String} {made : Visit}
    (visited : visit passed position line rest = .ok made)
    (cuts : Cuts (passed || made.passesChoices) (position + 1 + made.extra)
      (rest.drop made.extra)) : Cuts passed position (line :: rest)

/-- A walk that cuts no block puts out lines that open and close the blocks that its lines do. -/
theorem runBody_nests {passed flag : Bool} {position : Nat} {body : List String}
    {output : List OutputLine} {blocks after : List Block}
    (ended : runBody passed position body = .ok (output, flag))
    (nested : nestAll blocks body = some after) (uncut : ¬ Cuts passed position body) :
    nestAll blocks (texts output) = some after := by
  induction passed, position, body using body_induction generalizing output blocks with
  | nil passed position =>
      rw [runBody_nil] at ended
      obtain ⟨rfl, -⟩ := Prod.mk.inj (Except.ok.inj ended)
      exact nested
  | cons passed position line rest ih =>
      obtain ⟨made, ⟨others, last⟩, visited, walked, whole⟩ := runBody_cons_ok ended
      obtain ⟨rfl, rfl⟩ := Prod.mk.inj whole
      rw [← List.take_append_drop made.extra rest, ← List.cons_append,
        nestAll_append_eq_some] at nested
      obtain ⟨between, front, back⟩ := nested
      rw [texts_append, nestAll_append_eq_some]
      exact ⟨between, (visit_nests visited front).1 fun cuts => uncut (.here visited cuts),
        ih made visited walked back fun cuts => uncut (.later visited cuts)⟩

/-- By how much a line changes the number of blocks that are open. -/
def lineRise (line : String) : Int :=
  match mark? line with
  | some .showChoices | some .conditionalBranch => 1
  | some .choicesEnd | some .branchEnd => -1
  | some .when | some .label | none => 0

/-- By how much lines change the number of blocks that are open. -/
def rise : List String → Int
  | [] => 0
  | line :: rest => lineRise line + rise rest

theorem rise_cons (line : String) (rest : List String) :
    rise (line :: rest) = lineRise line + rise rest := rfl

theorem rise_append (front back : List String) : rise (front ++ back) = rise front + rise back := by
  induction front with
  | nil => exact (Int.zero_add _).symm
  | cons line front ih => rw [List.cons_append, rise_cons, rise_cons, ih, Int.add_assoc]

theorem length_of_nest {blocks after : List Block} {line : String}
    (nested : nest blocks line = some after) :
    (after.length : Int) = blocks.length + lineRise line := by
  rw [nest] at nested
  rw [lineRise]
  cases marked : mark? line with
  | none =>
      rw [marked] at nested
      cases nested
      simp
  | some mark =>
      rw [marked] at nested
      rcases mark <;> rcases blocks with _ | ⟨_ | _, outer⟩ <;> cases nested <;>
        simp only [List.length_cons, List.length_nil] <;> omega

theorem length_of_nestAll {blocks after : List Block} {lines : List String}
    (nested : nestAll blocks lines = some after) :
    (after.length : Int) = blocks.length + rise lines := by
  induction lines generalizing blocks with
  | nil =>
      cases nested
      exact (Int.add_zero _).symm
  | cons line rest ih =>
      obtain ⟨between, first, later⟩ := nestAll_cons_eq_some.mp nested
      rw [ih later, length_of_nest first, rise_cons, Int.add_assoc]

/-- More ends than openings are put out if a block is cut, and never more openings than ends of
lines that are well nested. -/
theorem rise_runBody {passed flag : Bool} {position : Nat} {body : List String}
    {output : List OutputLine} {blocks after : List Block}
    (ended : runBody passed position body = .ok (output, flag))
    (nested : nestAll blocks body = some after) :
    rise (texts output) ≤ rise body ∧
      (Cuts passed position body → rise (texts output) < rise body) := by
  induction passed, position, body using body_induction generalizing output blocks with
  | nil passed position =>
      rw [runBody_nil] at ended
      obtain ⟨rfl, -⟩ := Prod.mk.inj (Except.ok.inj ended)
      exact ⟨Int.le_refl _, nofun⟩
  | cons passed position line rest ih =>
      obtain ⟨made, ⟨others, last⟩, visited, walked, whole⟩ := runBody_cons_ok ended
      obtain ⟨rfl, rfl⟩ := Prod.mk.inj whole
      have split : line :: rest = (line :: rest.take made.extra) ++ rest.drop made.extra := by
        rw [List.cons_append, List.take_append_drop]
      rw [split] at nested
      obtain ⟨between, front, back⟩ := nestAll_append_eq_some.mp nested
      obtain ⟨behind, strictly⟩ := ih made visited walked back
      have taken := length_of_nestAll front
      obtain ⟨same, shorter⟩ := visit_nests visited front
      show rise (texts (made.output ++ others)) ≤ _ ∧
        (_ → rise (texts (made.output ++ others)) < _)
      rw [split, rise_append, texts_append, rise_append, ← split]
      by_cases cuts : CutsBlock position line rest made
      · obtain ⟨kept, deeper⟩ := shorter cuts
        have level := length_of_nestAll kept
        exact ⟨by omega, fun _ => by omega⟩
      · have level := length_of_nestAll (same cuts)
        refine ⟨by omega, fun cut => ?_⟩
        cases cut with
        | here again cut =>
            obtain rfl := Except.ok.inj (visited.symm.trans again)
            exact absurd cut cuts
        | later again cut =>
            obtain rfl := Except.ok.inj (visited.symm.trans again)
            have := strictly cut
            omega

/-- The body of an event comes out well nested exactly if none of its blocks of choices is cut. -/
theorem wellNested_runBody {passed flag : Bool} {position : Nat} {body : List String}
    {output : List OutputLine} (ended : runBody passed position body = .ok (output, flag))
    (nested : WellNested body) : WellNested (texts output) ↔ ¬ Cuts passed position body := by
  constructor
  · intro still cuts
    have lower := (rise_runBody ended nested).2 cuts
    have before := length_of_nestAll nested
    have after := length_of_nestAll still
    omega
  · exact runBody_nests ended nested

theorem nestAll_insert {text : String} (unmarked : mark? text = none) (front back : List String)
    (blocks : List Block) :
    nestAll blocks (front ++ text :: back) = nestAll blocks (front ++ back) := by
  rw [nestAll_append, nestAll_append]
  congr 1
  funext inner
  rw [nestAll_cons, nest_of_unmarked unmarked]
  rfl

/-- The text of a line that comes from behind a place of the event, or that continues a picture. -/
def OutputLine.bodyText? (place : Nat) (line : OutputLine) : Option String :=
  match line.origin with
  | .source i => if place < i then line.text? else none
  | .opening => none
  | .continuation => line.text?

/-- The texts of the lines that come from behind a place of the event, with the one that continues a
picture. -/
def Conversion.bodyTexts (place : Nat) (conversion : Conversion) : List String :=
  conversion.lines.filterMap (OutputLine.bodyText? place)

theorem bodyTexts_opening (place : Nat) (picture : Option DefaultPicture) :
    (openingLines picture).filterMap (OutputLine.bodyText? place) = [] := by
  rw [List.filterMap_eq_nil_iff]
  intro line member
  obtain ⟨text, rfl⟩ := openingLines_verbatim picture line member
  rfl

theorem Continued.wellNested {place : Nat} {output lines : List OutputLine}
    (continued : Continued output lines) :
    WellNested (lines.filterMap (OutputLine.bodyText? place)) ↔
      WellNested (output.filterMap (OutputLine.bodyText? place)) := by
  cases continued with
  | same => exact Iff.rfl
  | @added front back text spelled shows =>
      have inserted : (front ++ ⟨.continuation, .verbatim text⟩ :: back).filterMap
          (OutputLine.bodyText? place) = front.filterMap (OutputLine.bodyText? place) ++
            text :: back.filterMap (OutputLine.bodyText? place) :=
        List.filterMap_append
      rw [spelled, inserted, WellNested, WellNested, List.filterMap_append,
        nestAll_insert (mark?_of_showPicture shows)]

/-- The lines that come from behind the line that names the defeat event are those that the walk
through the body puts out. -/
theorem wellNested_bodyTexts {resources : Resources} {lines : List String}
    {conversion : Conversion} {place : Nat}
    (converted : convert resources lines = .ok conversion) (named : IsLinkagePlace lines place) :
    ∃ output flag, runBody false (place + 1) (lines.drop (place + 1)) = .ok (output, flag) ∧
      (WellNested (conversion.bodyTexts place) ↔ WellNested (texts output)) := by
  obtain ⟨preamble, output, flag, read, walked, _, continued⟩ := convert_shape converted
  obtain rfl := named.unique (isLinkagePlace_of_read read)
  rw [body_of_read read] at walked
  have front : preamble.output.filterMap (OutputLine.bodyText? preamble.position) = [] := by
    rw [List.filterMap_eq_nil_iff]
    intro line member
    obtain ⟨i, before, sourced⟩ := ofLines_output read line member
    rw [OutputLine.bodyText?, sourced]
    exact if_neg (Nat.lt_asymm before)
  have back : output.filterMap (OutputLine.bodyText? preamble.position) = texts output := by
    apply List.filterMap_congr
    intro line member
    obtain ⟨i, text, behind, rfl⟩ := runBody_output walked line member
    exact if_pos behind
  refine ⟨output, flag, walked, ?_⟩
  rw [Conversion.bodyTexts, continued.wellNested, List.filterMap_append, List.filterMap_append,
    front, bodyTexts_opening, back]
  rfl

/-- Whether a block of choices is opened in another one. -/
def HasInnerChoices (lines : List String) : Prop :=
  ∃ front outer between inner back, lines = front ++ outer :: (between ++ inner :: back) ∧
    isShowChoices outer = true ∧ isShowChoices inner = true ∧
    ∀ line ∈ between, isChoicesEnd line = false

theorem HasInnerChoices.append {lines : List String} (inner : HasInnerChoices lines)
    (front : List String) : HasInnerChoices (front ++ lines) := by
  obtain ⟨before, outer, between, inner, back, rfl, found⟩ := inner
  exact ⟨front ++ before, outer, between, inner, back, (List.append_assoc _ _ _).symm, found⟩

theorem hasInnerChoices_of_cuts {passed : Bool} {position : Nat} {body : List String}
    (cuts : Cuts passed position body) : HasInnerChoices body := by
  induction cuts with
  | @here passed position line rest made visited cuts =>
      obtain ⟨inner, member, opens⟩ := cuts.inner
      rw [visit_of_showChoices cuts.opens] at visited
      obtain ⟨length, found, used, _⟩ := visitChoices_cases visited
      obtain ⟨front, closing, back, rfl, rfl, closes, endless⟩ := exists_of_findIdx? found
      rw [used, take_through, List.mem_append, List.mem_singleton] at member
      rcases member with inside | rfl
      · obtain ⟨between, behind, rfl⟩ := List.append_of_mem inside
        refine ⟨[], line, between, inner, behind ++ closing :: back, ?_, cuts.opens, opens,
          fun other member => endless other (List.mem_append_left _ member)⟩
        rw [List.nil_append, List.append_assoc, List.cons_append]
      · rw [isChoicesEnd_iff, isShowChoices_iff.mp opens] at closes
        cases closes
  | @later passed position line rest made visited cuts ih =>
      rw [← List.take_append_drop made.extra rest, ← List.cons_append]
      exact ih.append _

/-- An event whose body is well nested is converted to one whose body is well nested, unless one of
its blocks of choices is cut at the end of another one that is inside. -/
theorem convert_blocks {resources : Resources} {lines : List String} {conversion : Conversion}
    {place : Nat} (converted : convert resources lines = .ok conversion)
    (named : IsLinkagePlace lines place) (nested : WellNested (lines.drop (place + 1))) :
    (WellNested (conversion.bodyTexts place) ↔
      ¬ Cuts false (place + 1) (lines.drop (place + 1))) ∧
    (¬ HasInnerChoices (lines.drop (place + 1)) → WellNested (conversion.bodyTexts place)) := by
  obtain ⟨output, flag, walked, same⟩ := wellNested_bodyTexts converted named
  have iff := wellNested_runBody walked nested
  rw [same]
  exact ⟨iff, fun plain => iff.mpr fun cuts => plain (hasInnerChoices_of_cuts cuts)⟩

/-- Blocks behind each other, of which the last one is kept. -/
def keptChoices : List String :=
  ["  ConditionalBranch([0])", "  BranchEnd", "  ShowChoices([[\"Yes\"]])", "  ChoicesEnd",
    "  ShowChoices([[\"A\", \"B\"]])", "  When([0])", "  When([1])", "  ChoicesEnd"]

theorem convert_blocks_keptChoices :
    convert ⟨fun _ => none, none⟩ (linkedEvent keptChoices) =
        .ok ⟨⟨.source 0, .header⟩ :: OutputLine.copies 6 (keptChoices.drop 4), 3101⟩ ∧
      WellNested keptChoices ∧ ¬ Cuts false 2 keptChoices := by
  have converted : convert ⟨fun _ => none, none⟩ (linkedEvent keptChoices) =
      .ok ⟨⟨.source 0, .header⟩ :: OutputLine.copies 6 (keptChoices.drop 4), 3101⟩ := by
    decide +kernel
  have nested : WellNested keptChoices := by decide
  exact ⟨converted, nested,
    (convert_blocks converted (isLinkagePlace_linkedEvent _) nested).1.mp (by decide)⟩

/-- A block of choices in the first one. -/
def nestedChoices : List String :=
  ["  ShowChoices([[\"Yes\", \"No\"]])", "  When([0])", "    ShowChoices([[\"A\"]])",
    "    When([0])", "    ChoicesEnd", "  When([1])", "  ChoicesEnd", "  ShowText([\"Ah!\"])"]

/-- The first block is taken to end where the one in it does, so that its second branch and its end
are put out. -/
theorem not_wellNested_nestedChoices :
    ∃ conversion, convert ⟨fun _ => none, none⟩ (linkedEvent nestedChoices) = .ok conversion ∧
      IsLinkagePlace (linkedEvent nestedChoices) 1 ∧ WellNested nestedChoices ∧
      conversion.bodyTexts 1 = nestedChoices.drop 5 ∧
      ¬ WellNested (conversion.bodyTexts 1) := by
  refine ⟨⟨⟨.source 0, .header⟩ :: OutputLine.copies 7 (nestedChoices.drop 5), 3101⟩,
    ?_, isLinkagePlace_linkedEvent _, ?_, ?_, ?_⟩
  · decide +kernel
  · decide
  · decide
  · decide

end SceneGallery.Event
