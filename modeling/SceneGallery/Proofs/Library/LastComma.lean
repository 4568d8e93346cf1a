import Mathlib.Data.List.TakeWhile
import SceneGallery.Library.Field
import SceneGallery.Proofs.Text.Search
set_option autoImplicit false

namespace SceneGallery

namespace Text.Pattern

variable {α : Type}

/-- Whether a pattern reads the same with a comma at the end of the text. -/
def IgnoresComma (p : Pattern α) : Prop := ∀ s, p (s ++ [',']) = p s

theorem ignoresComma_done (a : α) : IgnoresComma (done a) := fun _ => rfl

theorem after?_append_comma {w : List Char} (undivided : ',' ∉ w) (s : List Char) :
    after? w (s ++ [',']) = (after? w s).map (· ++ [',']) := by
  induction w generalizing s with
  | nil => rfl
  | cons a w ih =>
      have other : a ≠ ',' := fun same => undivided (by rw [same]; exact List.mem_cons_self)
      cases s with
      | nil => simp [after?, other]
      | cons c s =>
          simp only [List.cons_append, after?]
          by_cases same : a = c
          · simp only [same, ↓reduceIte]
            exact ih (fun member => undivided (List.mem_cons_of_mem a member)) s
          · simp only [same, ↓reduceIte, Option.map_none]

theorem ignoresComma_word {w : String} {next : Pattern α} (undivided : ',' ∉ w.toList)
    (ignores : IgnoresComma next) : IgnoresComma (word w next) := by
  intro s
  rw [word, word, after?_append_comma undivided]
  cases after? w.toList s with
  | none => rfl
  | some rest => exact ignores rest

theorem run_of_all {p : Char → Bool} {next : List Char → Pattern α} {s : List Char}
    (inside : ∀ c ∈ s, p c = true) (unread : ∀ text, next text [] = none) :
    run p next s = none := by
  have dropped : s.dropWhile p = [] := List.dropWhile_eq_nil_iff.mpr inside
  rw [run, dropped, unread, ite_self]

/-- A run that a character of another class has to follow does not reach a comma at the end. -/
theorem ignoresComma_run_of_closed {p : Char → Bool} {next : List Char → Pattern α}
    (unread : ∀ text, next text [] = none) (ignores : ∀ text, IgnoresComma (next text)) :
    IgnoresComma (run p next) := by
  intro s
  cases closed : s.dropWhile p with
  | nil =>
      have inside := List.dropWhile_eq_nil_iff.mp closed
      have ended : ∀ text, next text [','] = none :=
        fun text => (ignores text []).trans (unread text)
      rw [run_of_all inside unread, run, List.dropWhile_append_of_pos inside]
      by_cases longer : p ',' = true
      · have dropped : [','].dropWhile p = [] := by simp [longer]
        rw [dropped, unread, ite_self]
      · have dropped : [','].dropWhile p = [','] := by simp [longer]
        rw [dropped, ended, ite_self]
  | cons c back =>
      have shorter : (s.takeWhile p).length ≠ s.length := by
        intro same
        have whole := congrArg List.length (List.takeWhile_append_dropWhile (p := p) (l := s))
        rw [List.length_append, same, closed, List.length_cons] at whole
        omega
      rw [run, run, List.takeWhile_append, List.dropWhile_append, if_neg shorter, closed,
        List.isEmpty_cons, if_neg Bool.false_ne_true, ignores]

/-- A run that stops before a comma is not longer with a comma behind it. -/
theorem ignoresComma_run_of_stops {p : Char → Bool} {next : List Char → Pattern α}
    (stops : p ',' = false) (ignores : ∀ text, IgnoresComma (next text)) :
    IgnoresComma (run p next) := by
  intro s
  have unread : [','].takeWhile p = [] ∧ [','].dropWhile p = [','] := by simp [stops]
  have taken : (s ++ [',']).takeWhile p = s.takeWhile p := by
    rw [List.takeWhile_append, unread.1, List.append_nil]
    split
    · rename_i same
      exact ((List.takeWhile_prefix p).eq_of_length same).symm
    · rfl
  have dropped : (s ++ [',']).dropWhile p = s.dropWhile p ++ [','] := by
    rw [List.dropWhile_append, unread.2]
    cases s.dropWhile p <;> rfl
  rw [run, run, taken, dropped, ignores]

theorem ignoresComma_gap {next : Pattern α} (ignores : IgnoresComma next) :
    IgnoresComma (gap next) := by
  intro s
  induction s with
  | nil => exact (gap_of_head (forall_head?_cons (by decide))).trans (ignores [])
  | cons c s ih =>
      have here : next (c :: (s ++ [','])) = next (c :: s) := ignores (c :: s)
      simp only [List.cons_append, gap, ih, here]

theorem ignoresComma_arrow {next : Pattern α} (ignores : IgnoresComma next) :
    IgnoresComma (arrow next) :=
  ignoresComma_gap (ignoresComma_word (by decide) (ignoresComma_gap ignores))

theorem ignoresComma_entry {key : String} {value : Pattern α} (undivided : ',' ∉ key.toList)
    (ignores : IgnoresComma value) : IgnoresComma (entry key value) :=
  ignoresComma_word undivided (ignoresComma_arrow ignores)

theorem ignoresComma_digits {next : List Char → Pattern α}
    (ignores : ∀ text, IgnoresComma (next text)) : IgnoresComma (digits next) :=
  ignoresComma_run_of_stops (by decide) ignores

theorem ignoresComma_numeral {next : Numeral → Pattern α}
    (ignores : ∀ number, IgnoresComma (next number)) : IgnoresComma (numeral next) := by
  intro s
  have signed := ignoresComma_digits fun digits => ignores ⟨true, digits⟩
  have unsigned := ignoresComma_digits fun digits => ignores ⟨false, digits⟩
  cases s with
  | nil => exact unsigned []
  | cons c s =>
      by_cases negative : c = '-'
      · subst negative
        exact signed s
      · have other : ∀ back, c :: s ++ [','] = '-' :: back → False :=
          fun back same => negative (List.cons.inj same).1
        have otherAlone : ∀ back, c :: s = '-' :: back → False :=
          fun back same => negative (List.cons.inj same).1
        rw [numeral.eq_2 _ _ other, numeral.eq_2 _ _ otherAlone]
        exact unsigned (c :: s)

theorem ignoresComma_quoted {next : List Char → Pattern α}
    (ignores : ∀ text, IgnoresComma (next text)) : IgnoresComma (quoted next) :=
  ignoresComma_word (by decide) (ignoresComma_run_of_closed (fun _ => rfl)
    fun text => ignoresComma_word (by decide) (ignores text))

theorem ignoresComma_fieldEnd (a : α) : IgnoresComma (fieldEnd a) := by
  intro s
  cases s <;> rfl

theorem ignoresComma_search {p : Pattern α} (ignores : IgnoresComma p) :
    IgnoresComma (search p) := by
  intro s
  induction s with
  | nil =>
      have here : p [','] = p [] := ignores []
      have last : search p [] = p [] := rfl
      rw [List.nil_append, search_cons, here, last, Option.or_self]
  | cons c s ih =>
      have here : p (c :: (s ++ [','])) = p (c :: s) := ignores (c :: s)
      rw [List.cons_append, search_cons, search_cons, here, ih]

end Text.Pattern

namespace Field

open Text.Pattern

theorem search_append_comma {α : Type} {p : Text.Pattern α} (ignores : IgnoresComma p)
    (line : String) : search p (line ++ ",").toList = search p line.toList := by
  rw [String.toList_append]
  exact ignoresComma_search ignores line.toList

theorem id?_append_comma (line : String) : id? (line ++ ",") = id? line := by
  have numeric : IgnoresComma numericIdPattern := ignoresComma_entry (by decide)
    (ignoresComma_digits fun id => ignoresComma_gap (ignoresComma_fieldEnd id))
  have symbolic : IgnoresComma symbolicIdPattern := ignoresComma_entry (by decide)
    (ignoresComma_run_of_stops (by decide) ignoresComma_done)
  rw [id?, id?, search_append_comma numeric, search_append_comma symbolic]

/-- A line gives the same field with a comma at its end. -/
theorem ofLine?_append_comma (line : String) : ofLine? (line ++ ",") = ofLine? line := by
  have record : IgnoresComma recordPattern := ignoresComma_digits fun number =>
    ignoresComma_arrow (ignoresComma_word (by decide) (ignoresComma_done number))
  have name : IgnoresComma namePattern :=
    ignoresComma_entry (by decide) (ignoresComma_quoted ignoresComma_done)
  have map : IgnoresComma mapPattern := ignoresComma_word (by decide) (ignoresComma_gap
    (ignoresComma_run_of_closed (fun _ => rfl)
      fun _ => ignoresComma_word (by decide) (ignoresComma_done _)))
  have number : ∀ key : String, ',' ∉ key.toList →
      number? key (line ++ ",") = number? key line := by
    intro key undivided
    have ignores : IgnoresComma (numberPattern key) :=
      ignoresComma_entry undivided (ignoresComma_digits ignoresComma_done)
    rw [number?, number?, search_append_comma ignores]
  have signed : ∀ key : String, ',' ∉ key.toList →
      signed? key (line ++ ",") = signed? key line := by
    intro key undivided
    have ignores : IgnoresComma (numeralPattern key) :=
      ignoresComma_entry undivided (ignoresComma_numeral ignoresComma_done)
    rw [signed?, signed?, search_append_comma ignores]
  simp (disch := decide) only [ofLine?, recordStart?, name?, map?, id?_append_comma, number, signed,
    search_append_comma record, search_append_comma name, search_append_comma map]

end Field

end SceneGallery
