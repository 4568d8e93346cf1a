import Mathlib.Logic.Relation
import SceneGallery.Proofs.Event.Provenance
set_option autoImplicit false

namespace SceneGallery.Event

open Relation

/-- One turn of the loop, from a place with what has been done before it to the next place. -/
def Turn (resources : Resources) (lines : List String) (state next : Progress × Nat) : Prop :=
  ∃ inside : state.2 < lines.length, processLine resources lines state.1 state.2 inside = .ok next

/-- The loop comes to a place with the given progress. -/
def Reaches (resources : Resources) (lines : List String) (progress : Progress) (i : Nat) : Prop :=
  ReflTransGen (Turn resources lines) ({}, 0) (progress, i)

/-- The loop visits a line of the body: it comes there, and the defeat event is known. -/
structure BodyVisit (resources : Resources) (lines : List String) (progress : Progress) (i : Nat)
    (line : String) : Prop where
  reached : Reaches resources lines progress i
  there : lines[i]? = some line
  linked : progress.linkage.isSome = true

section Way

variable {resources : Resources} {lines : List String} {progress other : Progress} {i k : Nat}
  {state next : Progress × Nat}

theorem turn_unique : Relator.RightUnique (Turn resources lines) := by
  rintro state first second ⟨_, one⟩ ⟨_, another⟩
  exact Except.ok.inj (one.symm.trans another)

theorem Turn.lt (turn : Turn resources lines state next) : state.2 < next.2 := by
  obtain ⟨_, processed⟩ := turn
  exact (processLine_advances processed).1

theorem le_of_turns (turns : ReflTransGen (Turn resources lines) state next) :
    state.2 ≤ next.2 := by
  induction turns with
  | refl => exact Nat.le_refl _
  | tail _ turn ih => exact Nat.le_trans ih (Nat.le_of_lt turn.lt)

/-- From one place that the loop comes to it goes on to every later one. -/
theorem Reaches.turns (here : Reaches resources lines progress i)
    (there : Reaches resources lines other k) (order : i ≤ k) :
    ReflTransGen (Turn resources lines) (progress, i) (other, k) := by
  rcases ReflTransGen.total_of_right_unique turn_unique here there with onward | back
  · exact onward
  · rcases ReflTransGen.cases_head back with same | ⟨between, turn, turns⟩
    · rw [same]
    · have onward : k < i := Nat.lt_of_lt_of_le turn.lt (le_of_turns turns)
      omega

/-- Between a place that the loop comes to and the next one it comes to none. -/
theorem Reaches.next_le (here : Reaches resources lines progress i)
    (turn : Turn resources lines (progress, i) next) (there : Reaches resources lines other k)
    (order : i < k) : next.2 ≤ k := by
  rcases ReflTransGen.cases_head (here.turns there (Nat.le_of_lt order)) with
    same | ⟨between, first, turns⟩
  · cases same
    omega
  · obtain rfl := turn_unique turn first
    exact le_of_turns turns

theorem Reaches.unique (here : Reaches resources lines progress i)
    (there : Reaches resources lines other i) : progress = other := by
  rcases ReflTransGen.cases_head (here.turns there (Nat.le_refl i)) with
    same | ⟨between, turn, turns⟩
  · exact (Prod.mk.inj same).1
  · have onward : i < i := Nat.lt_of_lt_of_le turn.lt (le_of_turns turns)
    omega

theorem Reaches.pos (here : Reaches resources lines progress i)
    (linked : progress.linkage.isSome = true) : 0 < i := by
  rcases ReflTransGen.cases_tail here with same | ⟨between, _, turn⟩
  · cases same
    cases linked
  · exact Nat.lt_of_le_of_lt (Nat.zero_le _) turn.lt

/-- The loop has done what there is to do before a place that it comes to. -/
theorem Reaches.processFrom (here : Reaches resources lines progress i) :
    Event.processFrom resources lines {} 0 = Event.processFrom resources lines progress i := by
  have onward : ∀ {state}, ReflTransGen (Turn resources lines) ({}, 0) state →
      Event.processFrom resources lines {} 0 =
        Event.processFrom resources lines state.1 state.2 := by
    intro state turns
    induction turns with
    | refl => rfl
    | tail _ turn ih =>
        obtain ⟨inside, processed⟩ := turn
        rw [ih, processFrom_of_lt inside, processed]
  exact onward here

/-- What comes of an event is what comes of it from a place that the loop comes to. -/
theorem Reaches.convert (here : Reaches resources lines progress i) :
    convert resources lines =
      (Event.processFrom resources lines progress i).bind (finish resources) := by
  rw [convert_eq_loop, here.processFrom]

end Way

section Body

variable {resources : Resources} {lines : List String} {progress : Progress} {i : Nat}
  {line : String}

theorem BodyVisit.inside (visited : BodyVisit resources lines progress i line) :
    i < lines.length :=
  (List.getElem?_eq_some_iff.mp visited.there).1

theorem BodyVisit.processLine (visited : BodyVisit resources lines progress i line) :
    Event.processLine resources lines progress i visited.inside =
      (visit progress.passed i line (lines.drop (i + 1))).map fun made =>
        (progress.after i line made, i + 1 + made.extra) := by
  obtain ⟨linkage, known⟩ := Option.isSome_iff_exists.mp visited.linked
  obtain ⟨_, rfl⟩ := List.getElem?_eq_some_iff.mp visited.there
  have behind : i ≠ 0 := Nat.pos_iff_ne_zero.mp (visited.reached.pos visited.linked)
  rw [Event.processLine, if_neg behind, known]

theorem BodyVisit.turn {made : Visit} (visited : BodyVisit resources lines progress i line)
    (done : visit progress.passed i line (lines.drop (i + 1)) = .ok made) :
    Turn resources lines (progress, i) (progress.after i line made, i + 1 + made.extra) :=
  ⟨visited.inside, by rw [visited.processLine, done]; rfl⟩

theorem BodyVisit.exists_made {next : Progress × Nat}
    (visited : BodyVisit resources lines progress i line)
    (turn : Turn resources lines (progress, i) next) :
    ∃ made, visit progress.passed i line (lines.drop (i + 1)) = .ok made ∧
      next = (progress.after i line made, i + 1 + made.extra) := by
  obtain ⟨_, processed⟩ := turn
  rw [visited.processLine] at processed
  obtain ⟨made, done, same⟩ := exists_of_map_ok processed
  exact ⟨made, done, same.symm⟩

/-- In the body, what a turn of the loop does is a visit of some line. -/
theorem Turn.body {next : Progress × Nat} (turn : Turn resources lines (progress, i) next)
    (here : Reaches resources lines progress i) (linked : progress.linkage.isSome = true) :
    ∃ line made, BodyVisit resources lines progress i line ∧
      visit progress.passed i line (lines.drop (i + 1)) = .ok made ∧
      next = (progress.after i line made, i + 1 + made.extra) := by
  obtain ⟨inside, _⟩ := id turn
  have visited : BodyVisit resources lines progress i lines[i] :=
    ⟨here, List.getElem?_eq_getElem inside, linked⟩
  obtain ⟨made, done, same⟩ := visited.exists_made turn
  exact ⟨_, made, visited, done, same⟩

theorem after_silent (progress : Progress) (i : Nat) (line : String) (extra : Nat) :
    progress.after i line { extra := extra } = progress := by
  rw [Progress.after, List.append_nil, Bool.or_false, if_neg Bool.false_ne_true]

theorem BodyVisit.convert_error {error : Error}
    (visited : BodyVisit resources lines progress i line)
    (failed : visit progress.passed i line (lines.drop (i + 1)) = .error error) :
    convert resources lines = .error error := by
  rw [visited.reached.convert, processFrom_of_lt visited.inside, visited.processLine, failed]
  rfl

end Body

/-- What a turn of the loop does before the defeat event is known. -/
inductive PreambleTurn (resources : Resources) (lines : List String) (progress : Progress)
    (i : Nat) : Progress → Prop where
  | header (first : i = 0) :
    PreambleTurn resources lines progress i
      { progress with output := progress.output ++ [⟨.source 0, .header⟩] }
  | line {line : String} (behind : 0 < i) (there : lines[i]? = some line)
    (passed : isDispatch line = true ∨ namesDefeat line = false) :
    PreambleTurn resources lines progress i
      { progress with output := progress.output ++ [sourced (i, preambleContent line)] }
  | naming {line : String} {linkage : UInt32} (behind : 0 < i) (there : lines[i]? = some line)
    (called : isDispatch line = false) (names : namesDefeat line = true)
    (read : readLinkage i line = .ok linkage) :
    PreambleTurn resources lines progress i
      { progress with
        linkage := some linkage
        output := progress.output ++ openingLines (resources.openingPicture? linkage) }

section Preamble

variable {resources : Resources} {lines : List String} {progress : Progress} {i : Nat}

theorem Turn.preamble {next : Progress × Nat} (turn : Turn resources lines (progress, i) next)
    (unknown : progress.linkage = none) :
    PreambleTurn resources lines progress i next.1 ∧ next.2 = i + 1 := by
  obtain ⟨output, _, passed, picture⟩ := progress
  cases unknown
  obtain ⟨inside, processed⟩ := turn
  have there : lines[i]? = some lines[i] := List.getElem?_eq_getElem inside
  rw [processLine] at processed
  by_cases first : i = 0
  · rw [if_pos first] at processed
    cases processed
    exact ⟨.header first, by rw [first]⟩
  · rw [if_neg first] at processed
    have behind := Nat.pos_iff_ne_zero.mpr first
    have line := @PreambleTurn.line resources lines ⟨output, none, passed, picture⟩ i _ behind there
    rw [preambleContent] at line
    simp only at processed
    by_cases dispatch : isDispatch lines[i] = true
    · rw [if_pos dispatch] at processed line
      cases processed
      exact ⟨line (.inl dispatch), rfl⟩
    · rw [if_neg dispatch] at processed line
      by_cases names : namesDefeat lines[i] = true
      · rw [if_pos names] at processed
        obtain ⟨linkage, read, same⟩ := exists_of_map_ok processed
        cases same
        exact ⟨.naming behind there (Bool.eq_false_iff.mpr dispatch) names read, rfl⟩
      · rw [if_neg names] at processed
        cases processed
        exact ⟨line (.inr (Bool.eq_false_iff.mpr names)), rfl⟩

theorem PreambleTurn.of_line {others : List String} {next : Progress}
    (made : PreambleTurn resources lines progress i next) (same : others[i]? = lines[i]?) :
    PreambleTurn resources others progress i next := by
  cases made with
  | header first => exact .header first
  | line behind there passed => exact .line behind (same.trans there) passed
  | naming behind there called names read =>
      exact .naming behind (same.trans there) called names read

theorem PreambleTurn.turn {next : Progress} (made : PreambleTurn resources lines progress i next)
    (unknown : progress.linkage = none) (inside : i < lines.length) :
    Turn resources lines (progress, i) (next, i + 1) := by
  obtain ⟨output, _, passed, picture⟩ := progress
  cases unknown
  refine ⟨inside, ?_⟩
  rw [processLine]
  cases made with
  | header first => rw [if_pos first, first]
  | line behind there passed =>
      obtain ⟨_, rfl⟩ := List.getElem?_eq_some_iff.mp there
      rw [if_neg (Nat.pos_iff_ne_zero.mp behind), preambleContent]
      simp only
      by_cases dispatch : isDispatch lines[i] = true
      · rw [if_pos dispatch, if_pos dispatch]
        rfl
      · have other : ¬ namesDefeat lines[i] = true :=
          Bool.eq_false_iff.mp (passed.resolve_left dispatch)
        rw [if_neg dispatch, if_neg other, if_neg dispatch]
        rfl
  | naming behind there called names read =>
      obtain ⟨_, rfl⟩ := List.getElem?_eq_some_iff.mp there
      rw [if_neg (Nat.pos_iff_ne_zero.mp behind)]
      simp only
      rw [if_neg (Bool.eq_false_iff.mp called), if_pos names, read]
      rfl

theorem turns_preamble {output : List OutputLine} {passed : Bool} {picture : Option ShownPicture}
    {before rest : List String} (behind : 0 < i) (ahead : lines.drop i = before ++ rest)
    (others : ∀ line ∈ before, isDispatch line = true ∨ namesDefeat line = false) :
    ReflTransGen (Turn resources lines) (⟨output, none, passed, picture⟩, i)
      (⟨output ++ (before.zipIdx i).map fun (line, place) => sourced (place, preambleContent line),
        none, passed, picture⟩, i + before.length) := by
  induction before generalizing output i with
  | nil =>
      rw [List.zipIdx_nil, List.map_nil, List.append_nil]
      exact .refl
  | cons line before ih =>
      obtain ⟨first, later⟩ := List.forall_mem_cons.mp others
      have there : lines[i]? = some line := by
        rw [← Nat.add_zero i, ← List.getElem?_drop, ahead]
        rfl
      have onward : lines.drop (i + 1) = before ++ rest := by
        rw [← List.drop_drop, ahead]
        rfl
      have made : PreambleTurn resources lines ⟨output, none, passed, picture⟩ i
          ⟨output ++ [sourced (i, preambleContent line)], none, passed, picture⟩ :=
        .line behind there first
      have turns := @ih (i + 1) (output ++ [sourced (i, preambleContent line)])
        (Nat.zero_lt_succ i) onward later
      rw [List.append_assoc, List.singleton_append, Nat.succ_add_eq_add_succ] at turns
      exact turns.head (made.turn rfl (List.getElem?_eq_some_iff.mp there).1)

theorem PreambleParts.there {rest before : List String} {preamble : Preamble} {naming : String}
    (parts : PreambleParts 1 rest preamble before naming) (header : String) :
    (header :: rest)[preamble.position]? = some naming := by
  rw [parts.place, Nat.add_comm, List.getElem?_cons_succ, parts.lines,
    List.getElem?_append_right (Nat.le_refl _), Nat.sub_self]
  rfl

/-- Behind the preamble the loop comes to the body. -/
theorem reaches_body {preamble : Preamble} (read : Preamble.ofLines lines = .ok preamble) :
    Reaches resources lines
      ⟨preamble.output ++ openingLines (resources.openingPicture? preamble.linkage),
        some preamble.linkage, false, none⟩ (preamble.position + 1) := by
  obtain ⟨header, rest, inner, before, naming, rfl, rfl, parts⟩ := ofLines_parts read
  have first : Turn resources (header :: rest) ({}, 0)
      (⟨[⟨.source 0, .header⟩], none, false, none⟩, 1) :=
    (PreambleTurn.header rfl).turn rfl (Nat.zero_lt_succ _)
  have turns : ReflTransGen (Turn resources (header :: rest))
      (⟨[⟨.source 0, .header⟩], none, false, none⟩, 1)
      (⟨⟨.source 0, .header⟩ :: inner.output, none, false, none⟩, inner.position) := by
    rw [parts.output, parts.place]
    exact turns_preamble Nat.one_pos parts.lines parts.before
  have there := parts.there header
  have named : IsLinkagePlace (header :: rest) inner.position := isLinkagePlace_of_parts parts
  exact (ReflTransGen.head first turns).tail
    ((PreambleTurn.naming named.behind there parts.called parts.names parts.linkage).turn rfl
      (List.getElem?_eq_some_iff.mp there).1)

end Preamble

/-- A short event with the given body. -/
def linkedEvent (body : List String) : List String :=
  "CommonEvent 2101" :: "  Script([\"$game_troop.lose_event_id = 3101\"])" :: body

theorem isLinkagePlace_linkedEvent (body : List String) : IsLinkagePlace (linkedEvent body) 1 where
  behind := by decide
  names := ⟨_, rfl, by decide, by decide⟩
  first := by omega

theorem ofLines_linkedEvent (body : List String) :
    Preamble.ofLines (linkedEvent body) = .ok ⟨[⟨.source 0, .header⟩], 3101, 1, body⟩ := by
  have called : isDispatch "  Script([\"$game_troop.lose_event_id = 3101\"])" = false := by decide
  have names : namesDefeat "  Script([\"$game_troop.lose_event_id = 3101\"])" = true := by decide
  have number : defeatId? "  Script([\"$game_troop.lose_event_id = 3101\"])" = some 3101 := by
    decide
  have read : readLinkage 1 "  Script([\"$game_troop.lose_event_id = 3101\"])" = .ok 3101 := by
    rw [readLinkage, number]
    rfl
  rw [linkedEvent, Preamble.ofLines, readPreamble, called, names, read]
  rfl

theorem reaches_linkedEvent (body : List String) :
    Reaches ⟨fun _ => none, none⟩ (linkedEvent body)
      ⟨[⟨.source 0, .header⟩], some 3101, false, none⟩ 2 :=
  reaches_body (ofLines_linkedEvent body)

end SceneGallery.Event
