import SceneGallery.Text.Pattern
set_option autoImplicit false

namespace SceneGallery.Text

/-- The numbers of the blanks. -/
def blankCodes : List Nat :=
  [9, 10, 11, 12, 13, 32, 133, 160, 5760, 8192, 8193, 8194, 8195, 8196, 8197, 8198, 8199, 8200,
    8201, 8202, 8232, 8233, 8239, 8287, 12288]

theorem toNat_mem_blankCodes {c : Char} (blank : isBlank c = true) : c.toNat ∈ blankCodes := by
  simp only [isBlank, Bool.or_eq_true, Bool.and_eq_true, decide_eq_true_eq, beq_iff_eq] at blank
  simp only [blankCodes, List.mem_cons, List.not_mem_nil, or_false]
  omega

theorem isDecimal_of_isBlank {c : Char} (blank : isBlank c = true) : isDecimal c = false := by
  have apart : ∀ code ∈ blankCodes,
      (zeroCodes.any fun first => first ≤ code && code < first + 10) = false := by
    decide +kernel
  exact apart c.toNat (toNat_mem_blankCodes blank)

theorem isBlank_of_isDecimal {c : Char} (decimal : isDecimal c = true) : isBlank c = false := by
  rw [← Bool.not_eq_true]
  intro blank
  rw [isDecimal_of_isBlank blank] at decimal
  cases decimal

theorem forall_head?_cons {P : Char → Prop} {c : Char} {s : List Char} (holds : P c) :
    ∀ d ∈ (c :: s).head?, P d := by
  intro d first
  obtain rfl : c = d := Option.some.inj first
  exact holds

theorem forall_of_all {p : Char → Bool} {value : Bool} {s : List Char}
    (checked : s.all (fun c => p c == value) = true) : ∀ c ∈ s, p c = value := by
  intro c member
  exact eq_of_beq (List.all_eq_true.mp checked c member)

namespace Pattern

variable {α : Type}

theorem word_eq_some_iff {w : String} {next : Pattern α} {s : List Char} {a : α} :
    word w next s = some a ↔ ∃ rest, s = w.toList ++ rest ∧ next rest = some a := by
  simp only [word, Option.bind_eq_some_iff, after?_eq_some_iff]

theorem word_eq_none {w : String} {next : Pattern α} {s : List Char}
    (absent : ¬ w.toList <+: s) : word w next s = none := by
  rw [Option.eq_none_iff_forall_ne_some]
  intro a found
  obtain ⟨rest, rfl, _⟩ := word_eq_some_iff.mp found
  exact absent (List.prefix_append _ _)

theorem gap_of_head {next : Pattern α} {s : List Char}
    (solid : ∀ c ∈ s.head?, isBlank c = false) : gap next s = next s := by
  cases s with
  | nil => rfl
  | cons c s =>
      have first : isBlank c = false := solid c rfl
      simp only [gap, first, Bool.false_eq_true, ↓reduceIte]

/-- A gap takes a blank when the rest can be read without it. -/
theorem gap_cons_of_some {next : Pattern α} {c : Char} {s : List Char} {a : α}
    (blank : isBlank c = true) (found : gap next s = some a) : gap next (c :: s) = some a := by
  simp only [gap, blank, ↓reduceIte, found]

theorem gap_cons_of_none {next : Pattern α} {c : Char} {s : List Char}
    (fails : next (c :: s) = none) (rest : gap next s = none) : gap next (c :: s) = none := by
  simp only [gap, rest, fails, ite_self]

theorem exists_of_gap {next : Pattern α} {s : List Char} {a : α} (found : gap next s = some a) :
    ∃ blanks rest, s = blanks ++ rest ∧ (∀ c ∈ blanks, isBlank c = true) ∧ next rest = some a := by
  induction s with
  | nil => exact ⟨[], [], rfl, by simp, found⟩
  | cons c s ih =>
      by_cases blank : isBlank c = true
      · cases inner : gap next s with
        | none =>
            simp only [gap, blank, ↓reduceIte, inner] at found
            exact ⟨[], c :: s, rfl, by simp, found⟩
        | some b =>
            simp only [gap, blank, ↓reduceIte, inner, Option.some.injEq] at found
            subst found
            obtain ⟨blanks, rest, rfl, allBlank, read⟩ := ih inner
            refine ⟨c :: blanks, rest, rfl, ?_, read⟩
            intro d member
            rcases List.mem_cons.mp member with rfl | later
            · exact blank
            · exact allBlank d later
      · simp only [gap, blank, Bool.false_eq_true, ↓reduceIte] at found
        exact ⟨[], c :: s, rfl, by simp, found⟩

/-- A gap before a word that starts with no blank takes all blanks there are. -/
theorem gap_word_append {w : String} {next : Pattern α} {blanks s : List Char} {first : Char}
    {others : List Char} (spelled : w.toList = first :: others) (solid : isBlank first = false)
    (allBlank : ∀ c ∈ blanks, isBlank c = true) :
    gap (word w next) (blanks ++ (w.toList ++ s)) = next s := by
  have headed : ∀ c ∈ (w.toList ++ s).head?, isBlank c = false := by
    rw [spelled, List.cons_append]
    exact forall_head?_cons solid
  induction blanks with
  | nil =>
      rw [List.nil_append, gap_of_head headed, word_append]
  | cons b blanks ih =>
      have blank : isBlank b = true := allBlank b List.mem_cons_self
      have inner := ih fun c member => allBlank c (List.mem_cons_of_mem _ member)
      have fails : word w next (b :: (blanks ++ (w.toList ++ s))) = none := by
        apply word_eq_none
        intro starts
        rw [spelled, List.cons_prefix_cons] at starts
        rw [starts.1, blank] at solid
        cases solid
      cases read : next s with
      | none => exact gap_cons_of_none fails (inner.trans read)
      | some a => exact gap_cons_of_some blank (inner.trans read)

theorem run_eq_some_iff {p : Char → Bool} {next : List Char → Pattern α} {s : List Char} {a : α} :
    run p next s = some a ↔ s.takeWhile p ≠ [] ∧ next (s.takeWhile p) (s.dropWhile p) = some a := by
  simp only [run, List.isEmpty_iff]
  split <;> simp_all

theorem run_append {p : Char → Bool} {next : List Char → Pattern α} {front back : List Char}
    (nonempty : front ≠ []) (inside : ∀ c ∈ front, p c = true)
    (outside : ∀ c ∈ back.head?, p c = false) : run p next (front ++ back) = next front back := by
  have stop : back.takeWhile p = [] ∧ back.dropWhile p = back := by
    cases back with
    | nil => exact ⟨rfl, rfl⟩
    | cons c back =>
        have first : p c = false := outside c rfl
        simp [first]
  have taken : (front ++ back).takeWhile p = front := by
    rw [List.takeWhile_append_of_pos inside, stop.1, List.append_nil]
  have dropped : (front ++ back).dropWhile p = back := by
    rw [List.dropWhile_append_of_pos inside, stop.2]
  simp only [run, taken, dropped, List.isEmpty_iff, nonempty, ↓reduceIte]

theorem run_eq_none_of_head {p : Char → Bool} {next : List Char → Pattern α} {s : List Char}
    (outside : ∀ c ∈ s.head?, p c = false) : run p next s = none := by
  cases s with
  | nil => rfl
  | cons c s =>
      have first : p c = false := outside c rfl
      simp [run, first]

theorem exactly_eq_some_iff {n : Nat} {p : Char → Bool} {next : List Char → Pattern α}
    {s : List Char} {a : α} :
    exactly n p next s = some a ↔ ∃ front rest, s = front ++ rest ∧ front.length = n ∧
      (∀ c ∈ front, p c = true) ∧ next front rest = some a := by
  constructor
  · intro found
    by_cases fits : (s.take n).length = n ∧ (s.take n).all p = true
    · rw [exactly, if_pos fits] at found
      exact ⟨_, _, (List.take_append_drop n s).symm, fits.1, List.all_eq_true.mp fits.2, found⟩
    · rw [exactly, if_neg fits] at found
      cases found
  · rintro ⟨front, rest, rfl, rfl, inside, found⟩
    rw [exactly, List.take_left, List.drop_left, if_pos ⟨rfl, List.all_eq_true.mpr inside⟩, found]

/-- A search succeeds at the first place where the pattern does. -/
theorem exists_first_of_search {p : Pattern α} {s : List Char} {a : α}
    (found : search p s = some a) :
    ∃ before after, s = before ++ after ∧ p after = some a ∧
      ∀ earlier later, s = earlier ++ later → earlier.length < before.length → p later = none := by
  induction s with
  | nil => exact ⟨[], [], rfl, found, fun _ _ _ shorter => absurd shorter (Nat.not_lt_zero _)⟩
  | cons c s ih =>
      rw [search_cons] at found
      cases here : p (c :: s) with
      | some b =>
          rw [here, Option.some_or] at found
          exact ⟨[], c :: s, rfl, here.trans found,
            fun _ _ _ shorter => absurd shorter (Nat.not_lt_zero _)⟩
      | none =>
          rw [here, Option.none_or] at found
          obtain ⟨before, after, rfl, read, first⟩ := ih found
          refine ⟨c :: before, after, rfl, read, ?_⟩
          intro earlier later split shorter
          cases earlier with
          | nil =>
              obtain rfl : c :: (before ++ after) = later := split
              exact here
          | cons d earlier =>
              exact first earlier later (List.cons.inj split).2 (Nat.lt_of_succ_lt_succ shorter)

theorem exists_of_search {p : Pattern α} {s : List Char} {a : α} (found : search p s = some a) :
    ∃ before after, s = before ++ after ∧ p after = some a := by
  obtain ⟨before, after, split, read, _⟩ := exists_first_of_search found
  exact ⟨before, after, split, read⟩

/-- A search that can succeed at one place only is settled there. -/
theorem search_eq_of_elsewhere {p : Pattern α} (front back : List Char)
    (elsewhere : ∀ before after, front ++ back = before ++ after → before ≠ front →
      p after = none) : search p (front ++ back) = p back := by
  induction front with
  | nil =>
      cases back with
      | nil => rfl
      | cons c back =>
          have later : search p back = none := by
            rw [search_eq_none_iff]
            rintro before after rfl
            exact elsewhere (c :: before) after rfl (List.cons_ne_nil c before)
          rw [List.nil_append, search_cons, later, Option.or_none]
  | cons c front ih =>
      have here : p (c :: (front ++ back)) = none :=
        elsewhere [] (c :: (front ++ back)) rfl (List.cons_ne_nil c front).symm
      rw [List.cons_append, search_cons, here, Option.none_or]
      apply ih
      intro before after split other
      refine elsewhere (c :: before) after (by rw [List.cons_append, split, List.cons_append]) ?_
      intro same
      exact other (List.cons.inj same).2

/-- A search passes over characters at which the pattern fails whatever follows them. -/
theorem search_append_of_fails {p : Pattern α} {front : List Char} (back : List Char)
    (fails : ∀ c ∈ front, ∀ s, p (c :: s) = none) : search p (front ++ back) = search p back := by
  induction front with
  | nil => rfl
  | cons c front ih =>
      have here : p (c :: (front ++ back)) = none := fails c List.mem_cons_self _
      rw [List.cons_append, search_cons, here, Option.none_or]
      exact ih fun d member => fails d (List.mem_cons_of_mem _ member)

theorem search_of_some {p : Pattern α} {s : List Char} {a : α} (found : p s = some a) :
    search p s = some a := by
  cases s with
  | nil => exact found
  | cons c s => rw [search_cons, found, Option.some_or]

theorem occurs_iff {w : String} {s : List Char} : occurs w s = true ↔ w.toList <:+: s := by
  simp only [occurs, Option.isSome_iff_exists]
  constructor
  · rintro ⟨u, found⟩
    obtain ⟨before, after, rfl, read⟩ := exists_of_search found
    obtain ⟨rest, rfl, _⟩ := word_eq_some_iff.mp read
    exact ⟨before, rest, by rw [List.append_assoc]⟩
  · rintro ⟨before, rest, rfl⟩
    rw [← Option.ne_none_iff_exists', ne_eq, search_eq_none_iff]
    intro nowhere
    have here := nowhere before (w.toList ++ rest) (by rw [List.append_assoc])
    rw [word_append] at here
    cases here

end Pattern

end SceneGallery.Text
