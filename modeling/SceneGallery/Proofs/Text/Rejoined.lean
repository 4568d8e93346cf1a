import SceneGallery.Proofs.Text.Splitting
set_option autoImplicit false

namespace SceneGallery.Text

/-- Whether a text has a line feed with no carriage return before it. -/
def HasBareFeed (s : List Char) : Prop :=
  ∃ front back, s = front ++ '\n' :: back ∧ front.getLast? ≠ some '\r'

/-- The ending is the only one of a text: carriage returns stand before all line feeds or before
none. -/
def Ending.Throughout (ending : Ending) (s : List Char) : Prop :=
  ∀ front back, s = front ++ '\n' :: back → (front.getLast? = some '\r' ↔ ending = .crlf)

theorem Ending.Throughout.exists_line {ending : Ending} {line rest : List Char}
    (only : ending.Throughout (line ++ '\n' :: rest))
    (plain : '\n' ∉ line) :
    ∃ kept, '\n' ∉ kept ∧ line ++ '\n' :: rest = kept ++ (ending.text.toList ++ rest) ∧
      (ending = .lf → kept.getLast? ≠ some '\r') := by
  have here := only line rest rfl
  cases ending with
  | lf => exact ⟨line, plain, rfl, fun _ last => nomatch here.mp last⟩
  | crlf =>
      obtain ⟨kept, spelled⟩ := List.getLast?_eq_some_iff.mp (here.mpr rfl)
      refine ⟨kept, ?_, ?_, nofun⟩
      · rw [spelled, List.mem_append, not_or] at plain
        exact plain.1
      · rw [spelled, List.append_assoc]
        rfl

theorem Ending.Throughout.below {ending : Ending} {line rest : List Char}
    (only : ending.Throughout (line ++ '\n' :: rest)) : ending.Throughout rest := by
  intro front back spelled
  have whole := only (line ++ '\n' :: front) back (by rw [spelled]; simp)
  rw [← whole, List.getLast?_append_of_ne_nil _ (List.cons_ne_nil _ _)]
  cases front with
  | nil => exact ⟨nofun, nofun⟩
  | cons c front => rw [List.getLast?_cons_cons]

/-- A text in which an ending is the only one is what its lines make with that ending. -/
theorem toList_join_linesFrom {layout : Layout} {s : List Char}
    (only : layout.ending.Throughout s)
    (terminated : layout.terminated = (s.getLast? == some '\n')) :
    (layout.join ((linesFrom [] s).map String.ofList)).toList = s := by
  induction s using text_induction with
  | empty => rfl
  | unended line plain nonempty =>
      have unterminated : layout.terminated = false := by
        rw [terminated, beq_eq_false_iff_ne]
        exact fun last => plain (List.mem_of_getLast? last)
      rw [linesFrom_unended plain nonempty, List.map_singleton, Layout.join_singleton, unterminated,
        String.toList_ofList, if_neg Bool.false_ne_true, List.append_nil]
  | ended line rest plain ih =>
      obtain ⟨kept, plainKept, spelled, bare⟩ := only.exists_line plain
      have later : rest ≠ [] → layout.terminated = (rest.getLast? == some '\n') := by
        intro more
        rw [terminated, List.getLast?_append_of_ne_nil _ (List.cons_ne_nil _ _),
          List.getLast?_cons_of_ne_nil more]
      rw [spelled, linesFrom_ending plainKept _ bare, List.map_cons]
      by_cases last : rest = []
      · subst last
        rw [List.getLast?_concat, beq_self_eq_true] at terminated
        rw [show linesFrom [] [] = [] from rfl, List.map_nil, Layout.join_singleton, terminated,
          String.toList_ofList, if_pos rfl, List.append_nil]
      · have again := ih only.below (later last)
        obtain ⟨next, others, cut⟩ := List.exists_cons_of_ne_nil (linesFrom_ne_nil last)
        rw [cut, List.map_cons] at again ⊢
        rw [Layout.join_cons_cons, again, String.toList_ofList]

theorem not_hasBareFeed_paired {line s : List Char} (plain : '\n' ∉ line)
    (paired : ¬ HasBareFeed s) : ¬ HasBareFeed (line ++ '\r' :: '\n' :: s) := by
  rintro ⟨front, back, spelled, bare⟩
  rcases List.append_eq_append_iff.mp spelled with ⟨more, rfl, later⟩ | ⟨more, rfl, later⟩
  · match more with
    | [] => exact absurd (List.cons.inj later).1 (by decide)
    | [c] =>
        obtain ⟨rfl, _⟩ := List.cons.inj later
        exact bare (List.getLast?_concat ..)
    | c :: d :: more =>
        simp only [List.cons_append, List.cons.injEq] at later
        obtain ⟨rfl, rfl, rfl⟩ := later
        refine paired ⟨more, back, rfl, ?_⟩
        rw [List.getLast?_append_of_ne_nil _ (List.cons_ne_nil _ _), List.getLast?_cons_cons]
          at bare
        intro last
        cases more with
        | nil => cases last
        | cons e more => exact bare (by rw [List.getLast?_cons_cons, last])
  · match more with
    | [] => exact absurd (List.cons.inj later).1 (by decide)
    | c :: more =>
        obtain ⟨rfl, _⟩ := List.cons.inj later
        exact plain (List.mem_append_right _ List.mem_cons_self)

theorem not_hasBareFeed_of_plain {line : List Char} (plain : '\n' ∉ line) :
    ¬ HasBareFeed line := by
  rintro ⟨front, back, rfl, _⟩
  exact plain (List.mem_append_right _ List.mem_cons_self)

theorem not_hasBareFeed_join {layout : Layout} (crlf : layout.ending = .crlf)
    {lines : List String} (plain : ∀ line ∈ lines, '\n' ∉ line.toList) :
    ¬ HasBareFeed (layout.join lines).toList := by
  induction lines with
  | nil => exact not_hasBareFeed_of_plain List.not_mem_nil
  | cons line rest ih =>
      obtain ⟨first, others⟩ := List.forall_mem_cons.mp plain
      cases rest with
      | nil =>
          rw [Layout.join_singleton, crlf]
          cases layout.terminated with
          | false =>
              rw [if_neg Bool.false_ne_true, List.append_nil]
              exact not_hasBareFeed_of_plain first
          | true =>
              exact not_hasBareFeed_paired first (not_hasBareFeed_of_plain List.not_mem_nil)
      | cons next rest =>
          rw [Layout.join_cons_cons, crlf]
          exact not_hasBareFeed_paired first (ih others)

theorem throughout_layoutOf {content : String}
    (single : ¬ ("\r\n".toList <:+: content.toList ∧ HasBareFeed content.toList)) :
    (layoutOf content).ending.Throughout content.toList := by
  intro front back spelled
  have pair := Pattern.occurs_iff (w := "\r\n") (s := content.toList)
  cases found : Pattern.occurs "\r\n" content.toList with
  | true =>
      have crlf : (layoutOf content).ending = .crlf := if_pos found
      refine ⟨fun _ => crlf, fun _ => ?_⟩
      by_contra bare
      exact single ⟨pair.mp found, front, back, spelled, bare⟩
  | false =>
      have lf : (layoutOf content).ending = .lf := if_neg (Bool.eq_false_iff.mp found)
      rw [lf]
      refine ⟨fun last => ?_, nofun⟩
      obtain ⟨line, rfl⟩ := List.getLast?_eq_some_iff.mp last
      have inside : "\r\n".toList <:+: content.toList := ⟨line, back, by rw [spelled]; simp⟩
      rw [pair.mpr inside] at found
      cases found

/-- A text is what its lines make in its layout, unless it has both kinds of ending. -/
theorem join_lines_iff (content : String) :
    (layoutOf content).join (lines content) = content ↔
      ¬ ("\r\n".toList <:+: content.toList ∧ HasBareFeed content.toList) := by
  constructor
  · rintro same ⟨pair, bare⟩
    have crlf : (layoutOf content).ending = .crlf := if_pos (Pattern.occurs_iff.mpr pair)
    rw [← same] at bare
    exact not_hasBareFeed_join crlf (plain_lines content) bare
  · intro single
    exact String.toList_inj.mp (toList_join_linesFrom (throughout_layoutOf single) rfl)

theorem Layout.ended_ne_nil_iff {layout : Layout} {lines : List String} (nonempty : lines ≠ []) :
    layout.ended lines ≠ [] ↔ 2 ≤ lines.length ∨ layout.terminated = true := by
  cases lines with
  | nil => exact absurd rfl nonempty
  | cons line rest =>
      cases terminated : layout.terminated <;> cases rest <;> simp [ended, terminated]

/-- Where a layout comes back, an empty last line has an ending. -/
theorem visible_of_layoutOf {layout : Layout} {lines : List String}
    (same : layoutOf (layout.join lines) = layout) (back : Text.lines (layout.join lines) = lines)
    (unterminated : layout.terminated = false) : lines.getLast? ≠ some "" := by
  have shown : (Text.lines (layout.join lines)).getLast? ≠ some "" :=
    visible_lines (by rw [same, unterminated])
  rwa [back] at shown

/-- Where a layout with carriage returns comes back, one of its endings is written. -/
theorem written_of_layoutOf {layout : Layout} {lines : List String} (nonempty : lines ≠ [])
    (plain : ∀ line ∈ lines, '\n' ∉ line.toList) (same : layoutOf (layout.join lines) = layout)
    (crlf : layout.ending = .crlf) : layout.ended lines ≠ [] := by
  intro unwritten
  have few : ¬ (2 ≤ lines.length ∨ layout.terminated = true) :=
    (Layout.ended_ne_nil_iff nonempty).not.mp (not_not.mpr unwritten)
  obtain ⟨line, rest, rfl⟩ := List.exists_cons_of_ne_nil nonempty
  rw [not_or, List.length_cons] at few
  obtain rfl : rest = [] := List.eq_nil_of_length_eq_zero (by omega)
  -- The text is the only line, which has no pair that would tell the ending.
  have alone : (layout.join [line]).toList = line.toList := by
    rw [Layout.join_singleton, if_neg few.2, List.append_nil]
  have unpaired : ¬ Pattern.occurs "\r\n" (layout.join [line]).toList = true := by
    rw [Pattern.occurs_iff, alone]
    exact no_pair_of_plain (plain line List.mem_cons_self)
  have ending := congrArg Layout.ending same
  rw [crlf, layoutOf, if_neg unpaired] at ending
  cases ending

/-- Splitting and joining are inverse to each other where they can be: a text comes back from its
lines unless it has both kinds of ending, and lines without a line feed come back with their layout
if the layout of no lines is the one of the empty text, an unterminated last line is not empty, no
line before a bare line feed ends in a carriage return, and a pair of carriage return and line feed
is written where it is the ending. -/
theorem split_inverse_join :
    (∀ content : String, (layoutOf content).join (lines content) = content ↔
      ¬ ("\r\n".toList <:+: content.toList ∧ HasBareFeed content.toList)) ∧
    ∀ (layout : Layout) (lines : List String), (∀ line ∈ lines, '\n' ∉ line.toList) →
      ((Text.lines (layout.join lines) = lines ∧ layoutOf (layout.join lines) = layout) ↔
        (lines = [] ∧ layout.ending = .lf ∧ layout.terminated = false) ∨
        (lines ≠ [] ∧ (layout.terminated = false → lines.getLast? ≠ some "") ∧
          (layout.ending = .lf →
            ∀ line ∈ layout.ended lines, line.toList.getLast? ≠ some '\r') ∧
          (layout.ending = .crlf → 2 ≤ lines.length ∨ layout.terminated = true))) := by
  refine ⟨join_lines_iff, ?_⟩
  intro layout lines plain
  by_cases nonempty : lines = []
  · subst nonempty
    have none : layoutOf "" = ⟨.lf, false⟩ := by decide
    obtain ⟨ending, terminated⟩ := layout
    simp only [Layout.join_nil, lines_empty, none, true_and, ne_eq, not_true_eq_false, false_and,
      or_false, Layout.mk.injEq, eq_comm]
  · simp only [nonempty, false_and, false_or, ne_eq, not_false_eq_true, true_and]
    constructor
    · rintro ⟨back, same⟩
      refine ⟨visible_of_layoutOf same back, unambiguous_of_layoutOf same, fun crlf => ?_⟩
      exact (Layout.ended_ne_nil_iff nonempty).mp (written_of_layoutOf nonempty plain same crlf)
    · rintro ⟨visible, clear, written⟩
      exact ⟨lines_join plain clear visible, layoutOf_join nonempty plain clear visible
        fun crlf => (Layout.ended_ne_nil_iff nonempty).mpr (written crlf)⟩

theorem split_inverse_join_doubledReturn :
    Text.lines ((⟨.crlf, false⟩ : Layout).join ["a\r", "", "b\r"]) = ["a\r", "", "b\r"] ∧
      layoutOf ((⟨.crlf, false⟩ : Layout).join ["a\r", "", "b\r"]) = ⟨.crlf, false⟩ :=
  (split_inverse_join.2 ⟨.crlf, false⟩ ["a\r", "", "b\r"] (by decide)).mpr
    (.inr ⟨by decide, by decide, nofun, by decide⟩)

end SceneGallery.Text
