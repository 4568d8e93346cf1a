import Mathlib.Data.List.Basic
import Mathlib.Data.List.Infix
import SceneGallery.Event.Command
import SceneGallery.Proofs.Text.Arrow
set_option autoImplicit false

namespace SceneGallery.Event

open Text

/-- The words of a command, whatever their case. -/
def folded (words : List Char) : List Char :=
  words.map Char.toLower

/-- Neither of two commands starts with the words of the other. -/
def Apart (command other : String) : Prop :=
  ¬ folded command.toList <+: folded other.toList ∧ ¬ folded other.toList <+: folded command.toList

instance (command other : String) : Decidable (Apart command other) :=
  inferInstanceAs (Decidable (_ ∧ _))

theorem isCommand_iff {command line : String} :
    isCommand command line = true ↔ folded command.toList <+: folded (trim line.toList) :=
  List.isPrefixOf_iff_prefix

/-- A line of one command is not of another, if their words part. -/
theorem isCommand_of_apart {command other line : String} (apart : Apart command other)
    (here : isCommand command line = true) : isCommand other line = false := by
  rw [← Bool.not_eq_true, isCommand_iff]
  rw [isCommand_iff] at here
  intro there
  rcases List.prefix_or_prefix_of_prefix here there with first | second
  · exact apart.1 first
  · exact apart.2 second

theorem isCommand_of_any {commands : List String} {command line : String}
    (apart : ∀ other ∈ commands, Apart other command) (any : isAnyCommand commands line = true) :
    isCommand command line = false := by
  obtain ⟨other, member, here⟩ := List.any_eq_true.mp any
  exact isCommand_of_apart (apart other member) here

theorem isCommand_of_blank {command line : String} (nonempty : command ≠ "")
    (blank : trim line.toList = []) : isCommand command line = false := by
  rw [← Bool.not_eq_true, isCommand_iff, blank]
  intro starts
  exact nonempty (String.toList_eq_nil_iff.mp (List.map_eq_nil_iff.mp (List.prefix_nil.mp starts)))

theorem exists_words_of_isCommand {command line : String} (here : isCommand command line = true) :
    ∃ blanks words rest, line.toList = blanks ++ (words ++ rest) ∧
      (∀ c ∈ blanks, isBlank c = true) ∧ folded words = folded command.toList := by
  obtain ⟨others, spelled⟩ := isCommand_iff.mp here
  obtain ⟨words, rest, trimmed, same, _⟩ := List.map_eq_append_iff.mp spelled.symm
  obtain ⟨lead, trail, whole, blank, _⟩ := exists_blanks_of_trim line.toList
  refine ⟨lead, words, rest ++ trail, ?_, blank, same⟩
  rw [← List.append_assoc words, ← trimmed]
  exact whole

theorem isBlank_of_letter {c : Char} (low : 65 ≤ c.toNat) (high : c.toNat ≤ 122) :
    isBlank c = false := by
  rw [← Bool.not_eq_true]
  intro blank
  have code := toNat_mem_blankCodes blank
  simp only [blankCodes, List.mem_cons, List.not_mem_nil, or_false] at code
  omega

theorem isBlank_toLower (c : Char) : isBlank c.toLower = isBlank c := by
  by_cases upper : c.val ≥ 'A'.val ∧ c.val ≤ 'Z'.val
  · have low : 65 ≤ c.toNat := upper.1
    have high : c.toNat ≤ 90 := upper.2
    have lower : c.toLower.toNat = c.toNat + 32 := by
      have moved : c.toLower = ⟨c.val + 32, _⟩ := dif_pos upper
      rw [moved]
      show (c.val + 32).toNat = c.val.toNat + 32
      rw [UInt32.toNat_add]
      show (c.toNat + 32) % 4294967296 = c.toNat + 32
      omega
    rw [isBlank_of_letter (by omega) (by omega), isBlank_of_letter low (by omega)]
  · have kept : c.toLower = c := dif_neg upper
    rw [kept]

/-- Whatever stands behind its words, a line is of the command that they make. -/
theorem isCommand_of_words {command line : String} {blanks words rest : List Char}
    (nonempty : command ≠ "") (unbroken : ∀ c ∈ folded command.toList, isBlank c = false)
    (spelled : line.toList = blanks ++ (words ++ rest)) (blank : ∀ c ∈ blanks, isBlank c = true)
    (same : folded words = folded command.toList) : isCommand command line = true := by
  have solid : ∀ c ∈ words, isBlank c = false := by
    intro c member
    rw [← isBlank_toLower]
    exact unbroken _ (same ▸ List.mem_map_of_mem member)
  obtain ⟨head, others, rfl⟩ : ∃ head others, words = head :: others := by
    apply List.exists_cons_of_ne_nil
    rintro rfl
    exact nonempty (String.toList_eq_nil_iff.mp (List.map_eq_nil_iff.mp same.symm))
  have started : trimStart line.toList = head :: others ++ rest := by
    rw [spelled, trimStart, List.dropWhile_append_of_pos blank, List.cons_append,
      List.dropWhile_cons, solid head List.mem_cons_self]
    rfl
  have kept : head :: others <+: trim line.toList := by
    have unchanged : (head :: others).reverse.dropWhile isBlank = (head :: others).reverse := by
      have whole := trimEnd_of_getLast fun c last => solid c (List.mem_of_getLast? last)
      rw [trimEnd] at whole
      exact List.reverse_inj.mp (whole.trans (List.reverse_reverse _).symm)
    rw [trim, started, trimEnd, List.reverse_append, List.dropWhile_append]
    split
    · rw [unchanged, List.reverse_reverse]
    · rw [List.reverse_append, List.reverse_reverse]
      exact List.prefix_append _ _
  rw [isCommand_iff, ← same]
  exact kept.map _

end SceneGallery.Event
