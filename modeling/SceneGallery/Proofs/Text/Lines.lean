import Mathlib.Data.List.Basic
import Mathlib.Data.List.Infix
import SceneGallery.Proofs.Text.Search
import SceneGallery.Text.Lines
set_option autoImplicit false

namespace SceneGallery.Text

/-- The lines that an ending follows. -/
def Layout.ended (layout : Layout) (lines : List String) : List String :=
  if layout.terminated then lines else lines.dropLast

/-- No line before a bare line feed ends in a carriage return. -/
def Layout.Unambiguous (layout : Layout) (lines : List String) : Prop :=
  layout.ending = .lf → ∀ line ∈ layout.ended lines, line.toList.getLast? ≠ some '\r'

/-- A line that keeps its end in front of the ending. -/
structure Layout.Keeps (layout : Layout) (line : String) : Prop where
  plain : '\n' ∉ line.toList
  bare : layout.ending = .lf → line.toList.getLast? ≠ some '\r'

theorem Layout.keeps_of_last {layout : Layout} {line : String} (plain : '\n' ∉ line.toList)
    (last : line.toList.getLast? ≠ some '\r') : layout.Keeps line :=
  ⟨plain, fun _ => last⟩

/-- What stands at the end of a line decides whether the line keeps its end. -/
theorem Layout.keeps_append_of_plain {layout : Layout} {front back : String}
    (plain : '\n' ∉ front.toList) (nonempty : back ≠ "") (keeps : layout.Keeps back) :
    layout.Keeps (front ++ back) := by
  constructor
  · rw [String.toList_append, List.mem_append, not_or]
    exact ⟨plain, keeps.plain⟩
  · intro lf
    rw [String.toList_append,
      List.getLast?_append_of_ne_nil _ (String.toList_eq_nil_iff.not.mpr nonempty)]
    exact keeps.bare lf

theorem Layout.keeps_append {layout : Layout} {front back : String}
    (keepsFront : layout.Keeps front) (keepsBack : layout.Keeps back) :
    layout.Keeps (front ++ back) := by
  by_cases empty : back = ""
  · rw [empty, String.append_empty]
    exact keepsFront
  · exact keeps_append_of_plain keepsFront.plain empty keepsBack

theorem Layout.ended_append (layout : Layout) (front : List String) {back : List String}
    (nonempty : back ≠ []) : layout.ended (front ++ back) = front ++ layout.ended back := by
  cases terminated : layout.terminated with
  | true => simp only [ended, terminated, ↓reduceIte]
  | false =>
      simp only [ended, terminated, Bool.false_eq_true, ↓reduceIte,
        List.dropLast_append_of_ne_nil nonempty]

theorem Layout.join_singleton (layout : Layout) (line : String) :
    (layout.join [line]).toList =
      line.toList ++ if layout.terminated then layout.ending.text.toList else [] := by
  cases terminated : layout.terminated <;> simp [join, terminated]

theorem Layout.join_cons_cons (layout : Layout) (line next : String) (rest : List String) :
    (layout.join (line :: next :: rest)).toList =
      line.toList ++ (layout.ending.text.toList ++ (layout.join (next :: rest)).toList) := by
  simp only [join, String.intercalate_cons_cons, String.toList_append, List.append_assoc]

theorem Layout.unambiguous_tail {layout : Layout} {line next : String} {rest : List String}
    (clear : layout.Unambiguous (line :: next :: rest)) : layout.Unambiguous (next :: rest) := by
  intro lf other member
  apply clear lf
  cases terminated : layout.terminated <;>
    simp only [ended, terminated, Bool.false_eq_true, ↓reduceIte,
      List.dropLast_cons_cons] at member ⊢
  · exact List.mem_cons_of_mem _ member
  · exact List.mem_cons_of_mem _ member

theorem Layout.unambiguous_head {layout : Layout} {line next : String} {rest : List String}
    (clear : layout.Unambiguous (line :: next :: rest)) (lf : layout.ending = .lf) :
    line.toList.getLast? ≠ some '\r' := by
  apply clear lf
  cases terminated : layout.terminated <;> simp [ended, terminated]

theorem linesFrom_append {front : List Char} (plain : '\n' ∉ front) (reversed s : List Char) :
    linesFrom reversed (front ++ s) = linesFrom (front.reverse ++ reversed) s := by
  induction front generalizing reversed with
  | nil => rfl
  | cons c front ih =>
      have other : c ≠ '\n' := by
        rintro rfl
        exact plain List.mem_cons_self
      have later : '\n' ∉ front := fun member => plain (List.mem_cons_of_mem _ member)
      simp only [List.cons_append, linesFrom, other, ↓reduceIte, ih later, List.reverse_cons,
        List.append_assoc, List.nil_append]

theorem endedLine_of_head {reversed : List Char} (bare : reversed.head? ≠ some '\r') :
    endedLine reversed = reversed.reverse := by
  unfold endedLine
  split
  · exact absurd rfl bare
  · rfl

theorem linesFrom_ending {line : List Char} (plain : '\n' ∉ line) (ending : Ending)
    (bare : ending = .lf → line.getLast? ≠ some '\r') (s : List Char) :
    linesFrom [] (line ++ (ending.text.toList ++ s)) = line :: linesFrom [] s := by
  rw [linesFrom_append plain, List.append_nil]
  cases ending with
  | lf =>
      have last : line.reverse.head? ≠ some '\r' := by
        rw [List.head?_reverse]
        exact bare rfl
      change endedLine line.reverse :: linesFrom [] s = _
      rw [endedLine_of_head last, List.reverse_reverse]
  | crlf =>
      change line.reverse.reverse :: linesFrom [] s = _
      rw [List.reverse_reverse]

theorem linesFrom_unended {line : List Char} (plain : '\n' ∉ line) (nonempty : line ≠ []) :
    linesFrom [] line = [line] := by
  have whole := linesFrom_append plain [] []
  rw [List.append_nil, List.append_nil] at whole
  rw [whole]
  simp [linesFrom, nonempty]

theorem linesFrom_join {layout : Layout} {lines : List String}
    (plain : ∀ line ∈ lines, '\n' ∉ line.toList) (clear : layout.Unambiguous lines)
    (visible : layout.terminated = false → lines.getLast? ≠ some "") :
    linesFrom [] (layout.join lines).toList = lines.map String.toList := by
  induction lines with
  | nil => rfl
  | cons line rest ih =>
      have plainLine : '\n' ∉ line.toList := plain line List.mem_cons_self
      cases rest with
      | nil =>
          rw [Layout.join_singleton]
          cases terminated : layout.terminated with
          | true =>
              have bare : layout.ending = .lf → line.toList.getLast? ≠ some '\r' := by
                intro lf
                exact clear lf line (by simp [Layout.ended, terminated])
              have cut := linesFrom_ending plainLine layout.ending bare []
              rw [List.append_nil] at cut
              simp only [↓reduceIte, cut, linesFrom, List.isEmpty_nil, List.map_cons, List.map_nil]
          | false =>
              have nonempty : line.toList ≠ [] := by
                intro empty
                apply visible terminated
                rw [String.toList_eq_nil_iff.mp empty]
                rfl
              simp only [Bool.false_eq_true, ↓reduceIte, List.append_nil, List.map_cons,
                List.map_nil]
              exact linesFrom_unended plainLine nonempty
      | cons next rest =>
          have later := ih (fun other member => plain other (List.mem_cons_of_mem _ member))
            (Layout.unambiguous_tail clear) (by simpa only [List.getLast?_cons_cons] using visible)
          rw [Layout.join_cons_cons, linesFrom_ending plainLine _ (Layout.unambiguous_head clear),
            later]
          rfl

/-- Lines come back from the text that they make. -/
theorem lines_join {layout : Layout} {lines : List String}
    (plain : ∀ line ∈ lines, '\n' ∉ line.toList) (clear : layout.Unambiguous lines)
    (visible : layout.terminated = false → lines.getLast? ≠ some "") :
    Text.lines (layout.join lines) = lines := by
  rw [Text.lines, linesFrom_join plain clear visible, List.map_map]
  simp

/-- A line feed after a line that ends in no carriage return makes no pair with it. -/
theorem pair_infix_append {line : List Char} (plain : '\n' ∉ line)
    (bare : line.getLast? ≠ some '\r') {s : List Char}
    (pair : ['\r', '\n'] <:+: line ++ '\n' :: s) : ['\r', '\n'] <:+: s := by
  induction line with
  | nil =>
      rcases List.infix_cons_iff.mp pair with first | later
      · exact absurd (List.cons_prefix_cons.mp first).1 (by decide)
      · exact later
  | cons c line ih =>
      rw [List.cons_append] at pair
      rcases List.infix_cons_iff.mp pair with first | later
      · obtain ⟨rfl, next⟩ := List.cons_prefix_cons.mp first
        cases line with
        | nil => exact absurd rfl bare
        | cons d line =>
            obtain ⟨rfl, _⟩ := List.cons_prefix_cons.mp next
            exact absurd (List.mem_cons_of_mem _ List.mem_cons_self) plain
      · refine ih (fun member => plain (List.mem_cons_of_mem _ member)) ?_ later
        intro last
        cases line with
        | nil => cases last
        | cons d line => exact bare (by rw [List.getLast?_cons_cons]; exact last)

theorem no_pair_of_plain {line : List Char} (plain : '\n' ∉ line) :
    ¬ ['\r', '\n'] <:+: line := by
  rintro ⟨before, after, rfl⟩
  exact plain (by simp)

theorem join_lf_no_pair {layout : Layout} {lines : List String} (lf : layout.ending = .lf)
    (plain : ∀ line ∈ lines, '\n' ∉ line.toList) (clear : layout.Unambiguous lines) :
    ¬ ['\r', '\n'] <:+: (layout.join lines).toList := by
  induction lines with
  | nil => exact no_pair_of_plain (by simp)
  | cons line rest ih =>
      have plainLine : '\n' ∉ line.toList := plain line List.mem_cons_self
      cases rest with
      | nil =>
          rw [Layout.join_singleton, lf]
          cases terminated : layout.terminated with
          | true =>
              have bare := clear lf line (by simp [Layout.ended, terminated])
              intro pair
              exact no_pair_of_plain List.not_mem_nil (pair_infix_append plainLine bare pair)
          | false =>
              simp only [Bool.false_eq_true, ↓reduceIte, List.append_nil]
              exact no_pair_of_plain plainLine
      | cons next rest =>
          rw [Layout.join_cons_cons, lf]
          intro pair
          exact ih (fun other member => plain other (List.mem_cons_of_mem _ member))
            (Layout.unambiguous_tail clear)
            (pair_infix_append plainLine (Layout.unambiguous_head clear lf) pair)

theorem join_crlf_pair {layout : Layout} {lines : List String} (crlf : layout.ending = .crlf)
    (written : layout.ended lines ≠ []) : ['\r', '\n'] <:+: (layout.join lines).toList := by
  cases lines with
  | nil => exact absurd (by simp [Layout.ended]) written
  | cons line rest =>
      cases rest with
      | nil =>
          cases terminated : layout.terminated with
          | true =>
              rw [Layout.join_singleton, terminated, crlf]
              exact (List.suffix_append _ _).isInfix
          | false => exact absurd (by simp [Layout.ended, terminated]) written
      | cons next rest =>
          rw [Layout.join_cons_cons, crlf, ← List.append_assoc]
          exact ⟨line.toList, _, rfl⟩

theorem Ending.getLast?_text (ending : Ending) : ending.text.toList.getLast? = some '\n' := by
  cases ending <;> rfl

theorem join_ne_nil {layout : Layout} {lines : List String} (nonempty : lines ≠ [])
    (visible : layout.terminated = false → lines.getLast? ≠ some "") :
    (layout.join lines).toList ≠ [] := by
  have ended : layout.ending.text.toList ≠ [] := by cases layout.ending <;> decide
  cases lines with
  | nil => exact absurd rfl nonempty
  | cons line rest =>
      cases rest with
      | nil =>
          rw [Layout.join_singleton]
          cases terminated : layout.terminated with
          | true => simp [ended]
          | false =>
              intro empty
              apply visible terminated
              simp only [Bool.false_eq_true, ↓reduceIte, List.append_nil] at empty
              rw [String.toList_eq_nil_iff.mp empty]
              rfl
      | cons next rest =>
          rw [Layout.join_cons_cons]
          simp [ended]

theorem getLast?_join {layout : Layout} {lines : List String} (nonempty : lines ≠ [])
    (plain : ∀ line ∈ lines, '\n' ∉ line.toList)
    (visible : layout.terminated = false → lines.getLast? ≠ some "") :
    (layout.join lines).toList.getLast? = some '\n' ↔ layout.terminated = true := by
  induction lines with
  | nil => exact absurd rfl nonempty
  | cons line rest ih =>
      cases rest with
      | nil =>
          rw [Layout.join_singleton]
          cases terminated : layout.terminated with
          | true => simp [Ending.getLast?_text]
          | false =>
              simp only [Bool.false_eq_true, ↓reduceIte, List.append_nil, iff_false]
              intro last
              exact plain line List.mem_cons_self (List.mem_of_getLast? last)
      | cons next rest =>
          have visibleLater : layout.terminated = false → (next :: rest).getLast? ≠ some "" := by
            simpa only [List.getLast?_cons_cons] using visible
          have solid := join_ne_nil (List.cons_ne_nil next rest) visibleLater
          have later := ih (List.cons_ne_nil next rest)
            (fun other member => plain other (List.mem_cons_of_mem _ member)) visibleLater
          rw [← later, Layout.join_cons_cons, ← List.append_assoc,
            List.getLast?_append_of_ne_nil _ solid]

/-- The layout comes back from a text in which an ending is written. -/
theorem layoutOf_join {layout : Layout} {lines : List String} (nonempty : lines ≠ [])
    (plain : ∀ line ∈ lines, '\n' ∉ line.toList) (clear : layout.Unambiguous lines)
    (visible : layout.terminated = false → lines.getLast? ≠ some "")
    (written : layout.ending = .crlf → layout.ended lines ≠ []) :
    layoutOf (layout.join lines) = layout := by
  have last := getLast?_join nonempty plain visible
  have pair : Pattern.occurs "\r\n" (layout.join lines).toList = true ↔
      layout.ending = .crlf := by
    rw [Pattern.occurs_iff]
    constructor
    · intro found
      cases ending : layout.ending with
      | lf => exact absurd found (join_lf_no_pair ending plain clear)
      | crlf => rfl
    · intro crlf
      exact join_crlf_pair crlf (written crlf)
  have ending : (if Pattern.occurs "\r\n" (layout.join lines).toList then Ending.crlf else .lf) =
      layout.ending := by
    cases found : layout.ending with
    | lf => exact if_neg (by rw [pair, found]; exact nofun)
    | crlf => exact if_pos (pair.mpr found)
  have terminated : ((layout.join lines).toList.getLast? == some '\n') = layout.terminated := by
    rw [Bool.eq_iff_iff, beq_iff_eq]
    exact last
  rw [layoutOf, ending, terminated]

/-- In a terminated layout every line is followed by the ending. -/
theorem Layout.join_of_terminated {layout : Layout} (terminated : layout.terminated = true)
    (lines : List String) :
    layout.join lines = String.join (lines.map (· ++ layout.ending.text)) := by
  induction lines with
  | nil => rfl
  | cons line rest ih =>
      apply String.toList_inj.mp
      cases rest with
      | nil => simp [Layout.join_singleton, terminated]
      | cons next rest =>
          rw [Layout.join_cons_cons, ih, List.map_cons (a := line), String.join_cons,
            String.toList_append, String.toList_append, List.append_assoc]

/-- One pair of carriage return and line feed decides the ending. -/
theorem ending_layoutOf (source : String) :
    (layoutOf source).ending.text =
      if "\r\n".toList <:+: source.toList then "\r\n" else "\n" := by
  have pair := Pattern.occurs_iff (w := "\r\n") (s := source.toList)
  by_cases found : "\r\n".toList <:+: source.toList
  · rw [if_pos found, layoutOf, if_pos (pair.mpr found)]
    rfl
  · rw [if_neg found, layoutOf, if_neg (fun occurs => found (pair.mp occurs))]
    rfl

/-- The number of characters of lines that all have an ending of the given length. -/
def sizeWith (ending : Nat) : List String → Nat
  | [] => 0
  | line :: rest => line.length + ending + sizeWith ending rest

theorem sizeWith_append (ending : Nat) (front back : List String) :
    sizeWith ending (front ++ back) = sizeWith ending front + sizeWith ending back := by
  induction front with
  | nil => rw [List.nil_append, sizeWith, Nat.zero_add]
  | cons line rest ih =>
      rw [List.cons_append, sizeWith, sizeWith, ih]
      exact (Nat.add_assoc _ _ _).symm

theorem sizeWith_cons (ending : Nat) (line : String) (rest : List String) :
    sizeWith ending (line :: rest) = line.length + ending + sizeWith ending rest := rfl

theorem Layout.length_join (layout : Layout) {lines : List String} (nonempty : lines ≠ []) :
    (layout.join lines).length + (if layout.terminated then 0 else layout.ending.text.length) =
      sizeWith layout.ending.text.length lines := by
  induction lines with
  | nil => exact absurd rfl nonempty
  | cons line rest ih =>
      rw [sizeWith_cons, ← String.length_toList]
      cases rest with
      | nil =>
          rw [Layout.join_singleton]
          cases layout.terminated <;> simp [sizeWith, String.length_toList]
      | cons next rest =>
          have later := ih (List.cons_ne_nil next rest)
          rw [Layout.join_cons_cons, List.length_append, List.length_append,
            String.length_toList, String.length_toList, String.length_toList]
          omega

end SceneGallery.Text
