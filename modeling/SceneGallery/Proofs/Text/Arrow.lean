import Mathlib.Data.List.Basic
import Mathlib.Data.List.TakeWhile
import SceneGallery.Proofs.Text.Search
set_option autoImplicit false

namespace SceneGallery.Text

theorem trimEnd_append_blanks {s blanks : List Char} (allBlank : ∀ c ∈ blanks, isBlank c = true) :
    trimEnd (s ++ blanks) = trimEnd s := by
  have reversed : ∀ c ∈ blanks.reverse, isBlank c = true := by
    intro c member
    exact allBlank c (List.mem_reverse.mp member)
  simp only [trimEnd, List.reverse_append, List.dropWhile_append_of_pos reversed]

theorem trimEnd_of_getLast {s : List Char} (solid : ∀ c ∈ s.getLast?, isBlank c = false) :
    trimEnd s = s := by
  rw [← List.head?_reverse] at solid
  have unchanged : s.reverse.dropWhile isBlank = s.reverse := by
    cases spelled : s.reverse with
    | nil => rfl
    | cons c others =>
        have last : isBlank c = false := solid c (by rw [spelled]; rfl)
        simp [last]
  rw [trimEnd, unchanged, List.reverse_reverse]

theorem exists_blanks_of_trim (s : List Char) :
    ∃ lead trail, s = lead ++ (trim s ++ trail) ∧ (∀ c ∈ lead, isBlank c = true) ∧
      ∀ c ∈ trail, isBlank c = true := by
  refine ⟨s.takeWhile isBlank, ((trimStart s).reverse.takeWhile isBlank).reverse, ?_,
    fun c member => List.mem_takeWhile_imp member,
    fun c member => List.mem_takeWhile_imp (List.mem_reverse.mp member)⟩
  rw [trim, trimEnd, ← List.reverse_append, List.takeWhile_append_dropWhile, List.reverse_reverse]
  exact List.takeWhile_append_dropWhile.symm

namespace Pattern

variable {α : Type}

/-- Whether an arrow stands in a text. -/
def HasArrow (s : List Char) : Prop := ['=', '>'] <:+: s

theorem hasArrow_append_right {s : List Char} (front : List Char) (present : HasArrow s) :
    HasArrow (front ++ s) :=
  present.trans (List.suffix_append front s).isInfix

theorem hasArrow_arrow (front back : List Char) : HasArrow (front ++ '=' :: '>' :: back) :=
  ⟨front, back, by simp⟩

/-- The arrow of a text stands at one place only. -/
theorem arrow_unique {front back before after : List Char} (unequal : '=' ∉ front)
    (noArrow : ¬ HasArrow back)
    (same : front ++ '=' :: '>' :: back = before ++ '=' :: '>' :: after) :
    before = front ∧ after = back := by
  rcases List.append_eq_append_iff.mp same with ⟨extra, longer, rest⟩ | ⟨extra, longer, rest⟩
  · cases extra with
    | nil =>
        rw [List.append_nil] at longer
        simp only [List.nil_append, List.cons.injEq, true_and] at rest
        exact ⟨longer, rest.symm⟩
    | cons c extra =>
        cases extra with
        | nil =>
            simp only [List.cons_append, List.nil_append, List.cons.injEq] at rest
            exact absurd rest.2.1 (by decide)
        | cons d extra =>
            simp only [List.cons_append, List.cons.injEq] at rest
            refine absurd ?_ noArrow
            rw [rest.2.2]
            exact hasArrow_arrow extra after
  · cases extra with
    | nil =>
        rw [List.append_nil] at longer
        simp only [List.nil_append, List.cons.injEq, true_and] at rest
        exact ⟨longer.symm, rest⟩
    | cons c extra =>
        simp only [List.cons_append, List.cons.injEq] at rest
        refine absurd ?_ unequal
        rw [longer, ← rest.1]
        exact List.mem_append_right _ List.mem_cons_self

theorem exists_of_arrow {next : Pattern α} {s : List Char} {a : α} (found : arrow next s = some a) :
    ∃ blanks rest, s = blanks ++ '=' :: '>' :: rest ∧ (∀ c ∈ blanks, isBlank c = true) ∧
      gap next rest = some a := by
  obtain ⟨blanks, text, rfl, allBlank, read⟩ := exists_of_gap found
  obtain ⟨rest, rfl, value⟩ := word_eq_some_iff.mp read
  exact ⟨blanks, rest, rfl, allBlank, value⟩

theorem exists_of_entry {key : String} {value : Pattern α} {s : List Char} {a : α}
    (found : entry key value s = some a) :
    ∃ blanks rest, s = key.toList ++ blanks ++ '=' :: '>' :: rest ∧
      (∀ c ∈ blanks, isBlank c = true) ∧ gap value rest = some a := by
  obtain ⟨text, rfl, read⟩ := word_eq_some_iff.mp found
  obtain ⟨blanks, rest, rfl, allBlank, inner⟩ := exists_of_arrow read
  exact ⟨blanks, rest, by rw [List.append_assoc], allBlank, inner⟩

theorem arrow_append {next : Pattern α} {blanks s : List Char}
    (allBlank : ∀ c ∈ blanks, isBlank c = true) :
    arrow next (blanks ++ '=' :: '>' :: s) = gap next s :=
  gap_word_append rfl (by decide) allBlank

theorem entry_append {key : String} {value : Pattern α} {blanks s : List Char}
    (allBlank : ∀ c ∈ blanks, isBlank c = true) :
    entry key value (key.toList ++ (blanks ++ '=' :: '>' :: s)) = gap value s := by
  rw [entry, word_append, arrow_append allBlank]

theorem search_entry_of_noArrow {key : String} {value : Pattern α} {s : List Char}
    (noArrow : ¬ HasArrow s) : search (entry key value) s = none := by
  rw [Option.eq_none_iff_forall_ne_some]
  intro a found
  obtain ⟨before, after, rfl, read⟩ := exists_of_search found
  obtain ⟨blanks, rest, rfl, _, _⟩ := exists_of_entry read
  exact noArrow (hasArrow_append_right _ (hasArrow_arrow _ _))

/-- An entry in a text with one arrow stands right before that arrow. -/
theorem split_of_entry {key : String} {value : Pattern α} {front back before after : List Char}
    {a : α} (unequal : '=' ∉ front) (noArrow : ¬ HasArrow back)
    (split : front ++ '=' :: '>' :: back = before ++ after)
    (found : entry key value after = some a) :
    ∃ blanks, front = before ++ key.toList ++ blanks ∧ ∀ c ∈ blanks, isBlank c = true := by
  obtain ⟨blanks, rest, rfl, allBlank, _⟩ := exists_of_entry found
  rw [← List.append_assoc] at split
  obtain ⟨same, _⟩ := arrow_unique unequal noArrow split
  exact ⟨blanks, by rw [← same, List.append_assoc], allBlank⟩

/-- A text with one arrow has no entry under a key that does not stand before the arrow. -/
theorem search_entry_of_other {key : String} {value : Pattern α} {front back : List Char}
    (unequal : '=' ∉ front) (noArrow : ¬ HasArrow back)
    (solid : ∀ c ∈ key.toList.getLast?, isBlank c = false) (nonempty : key.toList ≠ [])
    (other : ¬ key.toList <:+ trimEnd front) :
    search (entry key value) (front ++ '=' :: '>' :: back) = none := by
  rw [Option.eq_none_iff_forall_ne_some]
  intro a found
  obtain ⟨before, after, split, read⟩ := exists_of_search found
  obtain ⟨blanks, rfl, allBlank⟩ := split_of_entry unequal noArrow split read
  apply other
  rw [trimEnd_append_blanks allBlank, trimEnd_of_getLast]
  · exact List.suffix_append _ _
  · rw [List.getLast?_append_of_ne_nil _ nonempty]
    exact solid

/-- The entry under the key that stands before the only arrow has what follows as its value. -/
theorem search_entry_of_key {key : String} {value : Pattern α} {indent blanks back : List Char}
    (unequal : '=' ∉ indent ++ key.toList ++ blanks) (noArrow : ¬ HasArrow back)
    (solid : ∀ c ∈ key.toList.getLast?, isBlank c = false) (nonempty : key.toList ≠ [])
    (allBlank : ∀ c ∈ blanks, isBlank c = true) :
    search (entry key value) (indent ++ key.toList ++ blanks ++ '=' :: '>' :: back) =
      gap value back := by
  have regrouped : indent ++ key.toList ++ blanks ++ '=' :: '>' :: back =
      indent ++ (key.toList ++ (blanks ++ '=' :: '>' :: back)) := by simp only [List.append_assoc]
  rw [regrouped, search_eq_of_elsewhere, entry_append allBlank]
  intro before after split different
  rw [Option.eq_none_iff_forall_ne_some]
  intro a found
  obtain ⟨spaces, same, allSpaces⟩ :=
    split_of_entry unequal noArrow (regrouped.trans split) found
  have trimmed := congrArg trimEnd same
  have lastSolid : ∀ x : List Char, ∀ c ∈ (x ++ key.toList).getLast?, isBlank c = false := by
    intro x c last
    rw [List.getLast?_append_of_ne_nil _ nonempty] at last
    exact solid c last
  rw [trimEnd_append_blanks allBlank, trimEnd_append_blanks allSpaces,
    trimEnd_of_getLast (lastSolid indent), trimEnd_of_getLast (lastSolid before)] at trimmed
  exact different (List.append_cancel_right trimmed).symm

end Pattern

end SceneGallery.Text
