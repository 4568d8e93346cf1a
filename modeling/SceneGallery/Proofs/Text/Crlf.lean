import SceneGallery.Proofs.Text.Splitting
set_option autoImplicit false

namespace SceneGallery.Text

/-- The characters with a carriage return in front of every line feed. -/
def crlfChars (s : List Char) : List Char :=
  s.flatMap fun c => if c = '\n' then ['\r', '\n'] else [c]

/-- The text with a carriage return in front of every line feed. -/
def crlf (content : String) : String :=
  String.ofList (crlfChars content.toList)

@[simp] theorem toList_crlf (content : String) :
    (crlf content).toList = crlfChars content.toList :=
  String.toList_ofList

theorem crlfChars_append (front back : List Char) :
    crlfChars (front ++ back) = crlfChars front ++ crlfChars back :=
  List.flatMap_append

theorem crlfChars_of_plain {line : List Char} (plain : '\n' ∉ line) : crlfChars line = line := by
  induction line with
  | nil => rfl
  | cons c line ih =>
      have other : c ≠ '\n' := by
        rintro rfl
        exact plain List.mem_cons_self
      have later := ih fun member => plain (List.mem_cons_of_mem c member)
      rw [crlfChars, List.flatMap_cons, if_neg other]
      exact congrArg (c :: ·) later

theorem crlfChars_ended {line : List Char} (plain : '\n' ∉ line) (rest : List Char) :
    crlfChars (line ++ '\n' :: rest) = line ++ '\r' :: '\n' :: crlfChars rest := by
  rw [crlfChars_append, crlfChars_of_plain plain]
  rfl

theorem crlfChars_ending : crlfChars Ending.lf.text.toList = Ending.crlf.text.toList := by
  decide

/-- A pair of carriage return and line feed ends the line that the line feed ended. -/
theorem linesFrom_crlfChars {s : List Char} (unix : '\r' ∉ s) :
    linesFrom [] (crlfChars s) = linesFrom [] s := by
  induction s using text_induction with
  | empty => rfl
  | unended line plain nonempty => rw [crlfChars_of_plain plain]
  | ended line rest plain ih =>
      rw [List.mem_append, not_or] at unix
      obtain ⟨bare, later⟩ := unix
      have last : line.getLast? ≠ some '\r' := fun last => bare (List.mem_of_getLast? last)
      have paired := linesFrom_ending plain .crlf nofun (crlfChars rest)
      have single := linesFrom_ending plain .lf (fun _ => last) rest
      rw [ih fun member => later (List.mem_cons_of_mem _ member)] at paired
      rw [crlfChars_ended plain]
      exact paired.trans single.symm

theorem lines_crlf {content : String} (unix : '\r' ∉ content.toList) :
    lines (crlf content) = lines content := by
  rw [lines, lines, toList_crlf, linesFrom_crlfChars unix]

theorem getLast?_crlfChars (s : List Char) : (crlfChars s).getLast? = s.getLast? := by
  rcases List.eq_nil_or_concat' s with rfl | ⟨front, last, rfl⟩
  · rfl
  · rw [crlfChars_append, List.getLast?_concat]
    by_cases feed : last = '\n'
    · subst feed
      exact List.getLast?_append_of_ne_nil _ (List.cons_ne_nil _ _)
    · have single : crlfChars [last] = [last] := crlfChars_of_plain (by simpa using Ne.symm feed)
      rw [single, List.getLast?_concat]

theorem pair_crlfChars {s : List Char} : ['\r', '\n'] <:+: crlfChars s ↔ '\n' ∈ s := by
  constructor
  · intro pair
    by_contra plain
    rw [crlfChars_of_plain plain] at pair
    exact no_pair_of_plain plain pair
  · intro fed
    obtain ⟨line, rest, rfl, plain⟩ := List.eq_append_cons_of_mem fed
    rw [crlfChars_ended plain]
    exact ⟨line, crlfChars rest, by simp⟩

theorem ending_of_unix {content : String} (unix : '\r' ∉ content.toList) :
    (layoutOf content).ending = .lf := by
  apply if_neg
  rw [Pattern.occurs_iff]
  intro pair
  exact unix (pair.subset List.mem_cons_self)

/-- Only the ending tells that a text with a line feed got carriage returns. -/
theorem layoutOf_crlf {content : String} (fed : '\n' ∈ content.toList) :
    layoutOf (crlf content) = { layoutOf content with ending := .crlf } := by
  have found : Pattern.occurs "\r\n" (crlfChars content.toList) = true :=
    Pattern.occurs_iff.mpr (pair_crlfChars.mpr fed)
  rw [layoutOf, toList_crlf, found, getLast?_crlfChars]
  rfl

theorem mem_of_length_lines {content : String} (more : 1 < (lines content).length) :
    '\n' ∈ content.toList := by
  by_contra plain
  rw [lines, List.length_map] at more
  by_cases empty : content.toList = []
  · rw [empty] at more
    exact absurd more (by decide)
  · rw [linesFrom_unended plain empty] at more
    exact absurd more (Nat.lt_irrefl 1)

/-- Lines make the same text with a carriage return more in every ending. -/
theorem crlf_join {layout : Layout} (lf : layout.ending = .lf) {lines : List String}
    (plain : ∀ line ∈ lines, '\n' ∉ line.toList) :
    crlf (layout.join lines) = { layout with ending := .crlf : Layout }.join lines := by
  apply String.toList_inj.mp
  rw [toList_crlf]
  induction lines with
  | nil => rfl
  | cons line rest ih =>
      obtain ⟨first, later⟩ := List.forall_mem_cons.mp plain
      cases rest with
      | nil =>
          rw [Layout.join_singleton, Layout.join_singleton, lf, crlfChars_append,
            crlfChars_of_plain first]
          cases layout.terminated with
          | true => exact congrArg (line.toList ++ ·) crlfChars_ending
          | false => rfl
      | cons next rest =>
          rw [Layout.join_cons_cons, Layout.join_cons_cons, lf, crlfChars_append,
            crlfChars_append, crlfChars_of_plain first, ih later, crlfChars_ending]

end SceneGallery.Text
