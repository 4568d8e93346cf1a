import SceneGallery.Proofs.Text.Lines
set_option autoImplicit false

namespace SceneGallery.Text

/-- A text is empty, a line without an ending, or a line and its line feed in front of a text. -/
theorem text_induction {holds : List Char → Prop} (empty : holds [])
    (unended : ∀ line, '\n' ∉ line → line ≠ [] → holds line)
    (ended : ∀ line rest, '\n' ∉ line → holds rest → holds (line ++ '\n' :: rest))
    (s : List Char) : holds s := by
  by_cases fed : '\n' ∈ s
  · obtain ⟨line, rest, spelled, plain⟩ := List.eq_append_cons_of_mem fed
    have shorter : rest.length < s.length := by
      rw [spelled, List.length_append, List.length_cons]
      omega
    rw [spelled]
    exact ended line rest plain (text_induction empty unended ended rest)
  · by_cases blank : s = []
    · rw [blank]
      exact empty
    · exact unended s fed blank
termination_by s.length

theorem linesFrom_line_feed {line : List Char} (plain : '\n' ∉ line) (rest : List Char) :
    linesFrom [] (line ++ '\n' :: rest) = endedLine line.reverse :: linesFrom [] rest := by
  rw [linesFrom_append plain, List.append_nil]
  rfl

theorem mem_of_mem_endedLine {reversed : List Char} {c : Char} (member : c ∈ endedLine reversed) :
    c ∈ reversed := by
  unfold endedLine at member
  split at member
  · exact List.mem_cons_of_mem _ (List.mem_reverse.mp member)
  · exact List.mem_reverse.mp member

theorem plain_linesFrom (s : List Char) : ∀ line ∈ linesFrom [] s, '\n' ∉ line := by
  induction s using text_induction with
  | empty => exact List.forall_mem_nil _
  | unended line plain nonempty =>
      rw [linesFrom_unended plain nonempty]
      intro other member
      rw [List.mem_singleton.mp member]
      exact plain
  | ended line rest plain ih =>
      rw [linesFrom_line_feed plain, List.forall_mem_cons]
      exact ⟨fun member => plain (List.mem_reverse.mp (mem_of_mem_endedLine member)), ih⟩

theorem linesFrom_ne_nil {s : List Char} (nonempty : s ≠ []) : linesFrom [] s ≠ [] := by
  induction s using text_induction with
  | empty => exact absurd rfl nonempty
  | unended line plain solid =>
      rw [linesFrom_unended plain solid]
      exact List.cons_ne_nil _ _
  | ended line rest plain ih =>
      rw [linesFrom_line_feed plain]
      exact List.cons_ne_nil _ _

/-- The last line of a text without an ending behind it is not empty. -/
theorem visible_linesFrom {s : List Char} (unterminated : s.getLast? ≠ some '\n') :
    (linesFrom [] s).getLast? ≠ some [] := by
  induction s using text_induction with
  | empty => exact nofun
  | unended line plain nonempty =>
      rw [linesFrom_unended plain nonempty, List.getLast?_singleton]
      exact fun empty => nonempty (Option.some.inj empty)
  | ended line rest plain ih =>
      by_cases blank : rest = []
      · rw [blank, List.getLast?_concat] at unterminated
        exact absurd rfl unterminated
      · rw [List.getLast?_append_of_ne_nil _ (List.cons_ne_nil _ _),
          List.getLast?_cons_of_ne_nil blank] at unterminated
        rw [linesFrom_line_feed plain, List.getLast?_cons_of_ne_nil (linesFrom_ne_nil blank)]
        exact ih unterminated

theorem plain_lines (content : String) : ∀ line ∈ Text.lines content, '\n' ∉ line.toList := by
  intro line member
  obtain ⟨s, cut, rfl⟩ := List.mem_map.mp member
  rw [String.toList_ofList]
  exact plain_linesFrom content.toList s cut

theorem visible_lines {content : String} (unterminated : (layoutOf content).terminated = false) :
    (Text.lines content).getLast? ≠ some "" := by
  have last : content.toList.getLast? ≠ some '\n' := beq_eq_false_iff_ne.mp unterminated
  intro empty
  rw [Text.lines, List.getLast?_map, Option.map_eq_some_iff] at empty
  obtain ⟨s, final, blank⟩ := empty
  have none : s = [] := by
    rw [← String.toList_ofList (l := s), blank]
    rfl
  exact visible_linesFrom last (none ▸ final)

theorem join_lf_pair {layout : Layout} {lines : List String} (lf : layout.ending = .lf)
    {line : String} (ended : line ∈ layout.ended lines) (last : line.toList.getLast? = some '\r') :
    ['\r', '\n'] <:+: (layout.join lines).toList := by
  have meets : ∀ s, ['\r', '\n'] <:+: line.toList ++ '\n' :: s := by
    intro s
    obtain ⟨front, spelled⟩ := List.getLast?_eq_some_iff.mp last
    exact ⟨front, s, by rw [spelled]; simp⟩
  induction lines with
  | nil => simp [Layout.ended] at ended
  | cons first rest ih =>
      cases rest with
      | nil =>
          cases terminated : layout.terminated with
          | false => simp [Layout.ended, terminated] at ended
          | true =>
              obtain rfl : line = first := by simpa [Layout.ended, terminated] using ended
              rw [Layout.join_singleton, terminated, lf]
              exact meets []
      | cons next rest =>
          have split : line = first ∨ line ∈ layout.ended (next :: rest) := by
            cases terminated : layout.terminated <;>
              simpa [Layout.ended, terminated] using ended
          rw [Layout.join_cons_cons, lf]
          rcases split with rfl | later
          · exact meets _
          · exact (ih later).trans
              (((List.suffix_append _ _).trans (List.suffix_append _ _)).isInfix)

/-- Lines whose layout comes back from their text bring no carriage return to a bare line feed. -/
theorem unambiguous_of_layoutOf {layout : Layout} {lines : List String}
    (same : layoutOf (layout.join lines) = layout) : layout.Unambiguous lines := by
  intro lf line ended last
  have found : Pattern.occurs "\r\n" (layout.join lines).toList = true :=
    Pattern.occurs_iff.mpr (join_lf_pair lf ended last)
  have ending := congrArg Layout.ending same
  rw [lf, layoutOf, found] at ending
  cases ending

end SceneGallery.Text
