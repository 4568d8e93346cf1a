import SceneGallery.Library.Field
import SceneGallery.Proofs.Text.Arrow
import SceneGallery.Proofs.Text.Number
set_option autoImplicit false

namespace SceneGallery

open Text Text.Pattern

namespace Field

theorem recordPattern_eq_some_iff {s number : List Char} :
    recordPattern s = some number ↔
      number ≠ [] ∧ (∀ c ∈ number, isDecimal c = true) ∧
        ∃ blanks gap rest, s = number ++ (blanks ++ '=' :: '>' :: (gap ++ '\x7b' :: rest)) ∧
          (∀ c ∈ blanks, isBlank c = true) ∧ ∀ c ∈ gap, isBlank c = true := by
  constructor
  · intro found
    rw [recordPattern, digits, run_eq_some_iff] at found
    obtain ⟨nonempty, read⟩ := found
    obtain ⟨blanks, text, spelled, allBlank, inner⟩ := exists_of_arrow read
    obtain ⟨spaces, tail, rfl, allSpaces, opened⟩ := exists_of_gap inner
    obtain ⟨rest, rfl, taken⟩ := word_eq_some_iff.mp opened
    obtain rfl : s.takeWhile isDecimal = number := Option.some.inj taken
    refine ⟨nonempty, fun c member => List.mem_takeWhile_imp member, blanks, spaces, rest, ?_,
      allBlank, allSpaces⟩
    have whole := List.takeWhile_append_dropWhile (p := isDecimal) (l := s)
    rw [spelled] at whole
    exact whole.symm
  · rintro ⟨nonempty, decimal, blanks, spaces, rest, rfl, allBlank, allSpaces⟩
    have outside : ∀ c ∈ (blanks ++ '=' :: '>' :: (spaces ++ '\x7b' :: rest)).head?,
        isDecimal c = false := by
      cases blanks with
      | nil => exact forall_head?_cons (by decide)
      | cons b blanks =>
          exact forall_head?_cons (isDecimal_of_isBlank (allBlank b List.mem_cons_self))
    rw [recordPattern, digits_append nonempty decimal outside, arrow_append allBlank]
    exact gap_word_append rfl (by decide) allSpaces

theorem hasArrow_of_recordPattern {s number : List Char} (found : recordPattern s = some number) :
    HasArrow s := by
  obtain ⟨_, _, blanks, spaces, rest, rfl, _, _⟩ := recordPattern_eq_some_iff.mp found
  rw [← List.append_assoc]
  exact hasArrow_arrow _ _

theorem search_recordPattern_of_noArrow {s : List Char} (noArrow : ¬ HasArrow s) :
    search recordPattern s = none := by
  rw [Option.eq_none_iff_forall_ne_some]
  intro number found
  obtain ⟨before, after, rfl, read⟩ := exists_of_search found
  exact noArrow (hasArrow_append_right before (hasArrow_of_recordPattern read))

/-- A record's opener needs a digit before its arrow. -/
theorem search_recordPattern_of_last {front back : List Char} (unequal : '=' ∉ front)
    (noArrow : ¬ HasArrow back) (last : ∀ c ∈ (trimEnd front).getLast?, isDecimal c = false) :
    search recordPattern (front ++ '=' :: '>' :: back) = none := by
  rw [Option.eq_none_iff_forall_ne_some]
  intro number found
  obtain ⟨before, after, split, read⟩ := exists_of_search found
  obtain ⟨nonempty, decimal, blanks, spaces, rest, rfl, allBlank, _⟩ :=
    recordPattern_eq_some_iff.mp read
  rw [← List.append_assoc, ← List.append_assoc] at split
  obtain ⟨rfl, _⟩ := arrow_unique unequal noArrow split
  obtain ⟨digit, final⟩ : ∃ digit, number.getLast? = some digit :=
    Option.ne_none_iff_exists'.mp fun empty => nonempty (List.getLast?_eq_none_iff.mp empty)
  have isDigit : isDecimal digit = true := decimal digit (List.mem_of_getLast? final)
  have ends : (before ++ number).getLast? = some digit := by
    rw [List.getLast?_append_of_ne_nil _ nonempty, final]
  have solid : ∀ c ∈ (before ++ number).getLast?, isBlank c = false := by
    intro c there
    obtain rfl : digit = c := Option.some.inj (ends.symm.trans there)
    exact isBlank_of_isDecimal isDigit
  rw [trimEnd_append_blanks allBlank, trimEnd_of_getLast solid] at last
  rw [last digit ends] at isDigit
  cases isDigit

theorem prefix_of_mark {inner : List Char} (text back : List Char) {mark : Char}
    (unmarked : mark ∉ inner) (fits : inner <+: text ++ mark :: back) : inner <+: text := by
  obtain ⟨rest, spelled⟩ := fits
  rcases List.append_eq_append_iff.mp spelled with ⟨extra, longer, _⟩ | ⟨extra, longer, shorter⟩
  · exact ⟨extra, longer.symm⟩
  · cases extra with
    | nil => exact ⟨[], by rw [longer, List.append_nil, List.append_nil]⟩
    | cons c extra =>
        obtain rfl : mark = c := (List.cons.inj shorter).1
        refine absurd ?_ unmarked
        rw [longer]
        exact List.mem_append_right _ List.mem_cons_self

theorem recordPattern_of_quoted (text : List Char) {back number : List Char}
    (found : recordPattern (text ++ '"' :: back) = some number) :
    recordPattern text = some number := by
  obtain ⟨nonempty, decimal, blanks, spaces, rest, spelled, allBlank, allSpaces⟩ :=
    recordPattern_eq_some_iff.mp found
  have unmarked : '"' ∉ number ++ (blanks ++ '=' :: '>' :: (spaces ++ ['\x7b'])) := by
    simp only [List.mem_append, List.mem_cons, List.not_mem_nil, or_false, not_or]
    refine ⟨fun member => ?_, fun member => ?_, by decide, by decide, fun member => ?_, by decide⟩
    · exact absurd (decimal _ member) (by decide)
    · exact absurd (allBlank _ member) (by decide)
    · exact absurd (allSpaces _ member) (by decide)
  obtain ⟨tail, inside⟩ := prefix_of_mark text back unmarked
    ⟨rest, by rw [spelled]; simp⟩
  rw [recordPattern_eq_some_iff]
  exact ⟨nonempty, decimal, blanks, spaces, tail, by rw [← inside]; simp, allBlank, allSpaces⟩

/-- A text in quotes opens a record only if it does so without the quotes. -/
theorem search_recordPattern_quoted {text back : List Char}
    (absent : search recordPattern text = none) (noArrow : ¬ HasArrow ('"' :: back)) :
    search recordPattern (text ++ '"' :: back) = none := by
  induction text with
  | nil => exact search_recordPattern_of_noArrow noArrow
  | cons c text ih =>
      rw [search_cons, Option.or_eq_none_iff] at absent
      have here : recordPattern (c :: (text ++ '"' :: back)) = none := by
        rw [Option.eq_none_iff_forall_ne_some]
        intro number found
        have unquoted := recordPattern_of_quoted (c :: text) found
        rw [absent.1] at unquoted
        cases unquoted
      rw [List.cons_append, search_cons, here, ih absent.2, Option.or_none]

theorem search_recordPattern_append {front : List Char} (back : List Char)
    (undigited : ∀ c ∈ front, isDecimal c = false) :
    search recordPattern (front ++ back) = search recordPattern back := by
  apply search_append_of_fails
  intro c member s
  rw [recordPattern, digits]
  exact run_eq_none_of_head (forall_head?_cons (undigited c member))

theorem recordStart?_of_absent {line : String} (absent : search recordPattern line.toList = none) :
    recordStart? line = none := by
  rw [recordStart?, absent, Option.bind_none]

/-- The keys that an arrow follows. -/
def keys : List String :=
  [":name", ":common", ":type", ":op", ":value", ":id", ":fadeout"]

/-- No key ends in another one. -/
theorem keys_unlike :
    ∀ key ∈ keys, ∀ other ∈ keys, key ≠ other → ¬ key.toList <:+ other.toList := by
  decide

theorem key_ne_nil : ∀ key ∈ keys, key.toList ≠ [] := by
  decide

theorem key_unequal : ∀ key ∈ keys, '=' ∉ key.toList := by
  decide

theorem key_last (key : String) (known : key ∈ keys) :
    ∀ c ∈ key.toList.getLast?, isBlank c = false ∧ isDecimal c = false := by
  have checked : ∀ key ∈ keys,
      (key.toList.getLast?.all fun c => !isBlank c && !isDecimal c) = true := by
    decide
  intro c last
  have here := checked key known
  rw [Option.mem_def.mp last] at here
  simpa using here

/-- A line that gives a value under a key. -/
structure IsEntry (line key : String) (value : List Char) : Prop where
  /-- The key is one of those that an arrow follows. -/
  known : key ∈ keys
  /-- Blanks, the key, the arrow and the value make the line. -/
  spelled : ∃ indent, (∀ c ∈ indent, isBlank c = true) ∧
    line.toList = indent ++ key.toList ++ [' '] ++ '=' :: '>' :: ' ' :: value
  /-- The value has no arrow of its own. -/
  plain : ¬ HasArrow (' ' :: value)

namespace IsEntry

variable {line key : String} {value : List Char}

theorem front_unequal {indent : List Char} (known : key ∈ keys)
    (allBlank : ∀ c ∈ indent, isBlank c = true) : '=' ∉ indent ++ key.toList ++ [' '] := by
  have outside : '=' ∉ indent := fun member => absurd (allBlank _ member) (by decide)
  simp [outside, key_unequal key known]

theorem trimEnd_front {indent : List Char} (known : key ∈ keys) :
    trimEnd (indent ++ key.toList ++ [' ']) = indent ++ key.toList := by
  rw [trimEnd_append_blanks (forall_of_all (by decide)), trimEnd_of_getLast]
  intro c last
  rw [List.getLast?_append_of_ne_nil _ (key_ne_nil key known)] at last
  exact (key_last key known c last).1

theorem recordStart?_eq_none (entry : IsEntry line key value) : recordStart? line = none := by
  obtain ⟨indent, allBlank, spelled⟩ := entry.spelled
  apply recordStart?_of_absent
  rw [spelled]
  apply search_recordPattern_of_last (front_unequal entry.known allBlank) entry.plain
  rw [trimEnd_front entry.known]
  intro c last
  rw [List.getLast?_append_of_ne_nil _ (key_ne_nil key entry.known)] at last
  exact (key_last key entry.known c last).2

/-- An entry has nothing under another key. -/
theorem search_other {α : Type} (line_entry : IsEntry line key value) {other : String}
    {pattern : Pattern α} (known : other ∈ keys) (different : other ≠ key) :
    search (entry other pattern) line.toList = none := by
  obtain ⟨indent, allBlank, spelled⟩ := line_entry.spelled
  rw [spelled]
  apply search_entry_of_other (front_unequal line_entry.known allBlank) line_entry.plain
    (fun c last => (key_last other known c last).1) (key_ne_nil other known)
  rw [trimEnd_front line_entry.known]
  intro ends
  rcases List.suffix_or_suffix_of_suffix ends (List.suffix_append indent key.toList) with
    inner | outer
  · exact keys_unlike other known key line_entry.known different inner
  · exact keys_unlike key line_entry.known other known (Ne.symm different) outer

/-- An entry has its value under its own key. -/
theorem search_key {α : Type} (line_entry : IsEntry line key value) (pattern : Pattern α) :
    search (entry key pattern) line.toList = gap pattern (' ' :: value) := by
  obtain ⟨indent, allBlank, spelled⟩ := line_entry.spelled
  have known := line_entry.known
  rw [spelled]
  exact search_entry_of_key (front_unequal known allBlank) line_entry.plain
    (fun c last => (key_last key known c last).1) (key_ne_nil key known)
    (forall_of_all (by decide))

end IsEntry

end Field

end SceneGallery
