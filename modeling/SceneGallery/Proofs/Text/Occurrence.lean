import Mathlib.Data.List.Infix
import SceneGallery.Text.Replace
set_option autoImplicit false

namespace SceneGallery.Text

/-- What comes of a text: the word stands nowhere in it, or the first place where it stands is
replaced and the search goes on behind. -/
inductive FirstReplaced (old new s : List Char) : List Char → Prop
  | nowhere (absent : ¬ old <:+: s) : FirstReplaced old new s s
  | first {front back : List Char} (spelled : s = front ++ (old ++ back))
      (least : ∀ before after, s = before ++ (old ++ after) → front.length ≤ before.length) :
      FirstReplaced old new s (front ++ (new ++ replaceFrom old new 0 back))

theorem firstReplaced_replaceFrom {old : List Char} (new : List Char) (nonempty : old ≠ [])
    (s : List Char) : FirstReplaced old new s (replaceFrom old new 0 s) := by
  induction s with
  | nil =>
      apply FirstReplaced.nowhere
      intro inside
      exact nonempty (List.infix_nil.mp inside)
  | cons c s ih =>
      rw [replaceFrom]
      by_cases here : old.isPrefixOf (c :: s) = true
      · obtain ⟨back, spelled⟩ := List.isPrefixOf_iff_prefix.mp here
        obtain ⟨first, others, rfl⟩ := List.exists_cons_of_ne_nil nonempty
        rw [List.cons_append] at spelled
        obtain ⟨rfl, rest⟩ := List.cons.inj spelled
        rw [if_pos here, List.length_cons, Nat.add_sub_cancel, ← rest, replaceFrom_skip]
        exact @FirstReplaced.first _ new _ [] _ rfl fun _ _ _ => Nat.zero_le _
      · have absent : ∀ after, c :: s ≠ old ++ after := by
          intro after spelled
          exact here (List.isPrefixOf_iff_prefix.mpr ⟨after, spelled.symm⟩)
        rw [if_neg here]
        generalize replaceFrom old new 0 s = replaced at ih
        cases ih with
        | nowhere nowhere =>
            apply FirstReplaced.nowhere
            intro inside
            obtain ⟨after, spelled⟩ | later := List.infix_cons_iff.mp inside
            · exact absent after spelled.symm
            · exact nowhere later
        | @first front back spelled least =>
            refine @FirstReplaced.first _ new _ (c :: front) _ (congrArg (c :: ·) spelled) ?_
            intro before after split
            cases before with
            | nil => exact absurd split (absent after)
            | cons d before => exact Nat.succ_le_succ (least before after (List.cons.inj split).2)

/-- The new word agrees with the old one up to its last character and differs from it there. -/
def DifferAtLast (old new : List Char) : Prop :=
  ∃ stem last first rest, old = stem ++ [last] ∧ new = stem ++ first :: rest ∧ first ≠ last

section Differ

variable {old new : List Char}

theorem DifferAtLast.ne_nil (differ : DifferAtLast old new) : old ≠ [] := by
  obtain ⟨stem, last, _, _, rfl, _, _⟩ := differ
  exact List.append_ne_nil_of_right_ne_nil stem (List.cons_ne_nil last [])

theorem DifferAtLast.append_ne (differ : DifferAtLast old new) (s t : List Char) :
    new ++ s ≠ old ++ t := by
  obtain ⟨stem, last, first, rest, rfl, rfl, unlike⟩ := differ
  intro same
  rw [List.append_assoc, List.append_assoc] at same
  exact unlike (List.cons.inj (List.append_cancel_left same)).1

/-- A text that starts with the old word and has it further on as well does not start with the new
word when it is replaced further on. -/
theorem DifferAtLast.eq_nil (differ : DifferAtLast old new) {gap s t back : List Char}
    (unchanged : old ++ s = gap ++ (old ++ back)) (changed : new ++ t = gap ++ (new ++ back)) :
    gap = [] := by
  obtain ⟨stem, last, first, rest, rfl, rfl, unlike⟩ := differ
  by_contra nonempty
  have long : stem.length + 1 ≤ (gap ++ stem).length := by
    have positive := List.length_pos_of_ne_nil nonempty
    rw [List.length_append]
    omega
  -- Up to and with the place where the words differ, the two texts are the same.
  have front : ∀ more, ((gap ++ stem) ++ more).take (stem.length + 1) =
      (gap ++ stem).take (stem.length + 1) :=
    fun more => List.take_append_of_le_length long
  have starts : ∀ (c : Char) (more : List Char),
      (stem ++ c :: more).take (stem.length + 1) = stem ++ [c] := by
    intro c more
    rw [List.take_append, List.take_of_length_le (Nat.le_succ _), Nat.add_sub_cancel_left]
    rfl
  have old := congrArg (List.take (stem.length + 1)) unchanged
  have new := congrArg (List.take (stem.length + 1)) changed
  simp only [List.append_assoc, List.cons_append] at old new front
  rw [starts, front] at old new
  exact unlike (List.cons.inj (List.append_cancel_left (new.trans old.symm))).1

theorem eq_nil_of_marked {old gap back after : List Char} {mark : Char} (unmarked : mark ∉ old)
    (marked : back.head? = some mark) (absent : ¬ old <:+: back)
    (split : old ++ back = gap ++ (old ++ after)) : gap = [] := by
  obtain ⟨later, rfl⟩ := List.head?_eq_some_iff.mp marked
  rcases List.append_eq_append_iff.mp split with ⟨more, rfl, rest⟩ | ⟨tail, whole, rest⟩
  · exact absurd ⟨more, after, (List.append_assoc _ _ _).trans rest.symm⟩ absent
  · -- What is left of the word behind the gap ends where the mark stands.
    by_contra nonempty
    have shorter : tail.length < old.length := by
      have positive := List.length_pos_of_ne_nil nonempty
      have sizes := congrArg List.length whole
      rw [List.length_append] at sizes
      omega
    have inside : mark ∈ old := by
      have there := congrArg (·[tail.length]?) rest
      simp only [List.getElem?_append_left shorter, List.getElem?_append_right (Nat.le_refl _),
        Nat.sub_self, List.getElem?_cons_zero] at there
      exact List.mem_of_getElem? there
    exact unmarked inside

/-- A word behind which a mark stands that it does not have is replaced at that place alone exactly
if it stands there alone. -/
theorem DifferAtLast.replaceFrom_eq_iff (differ : DifferAtLast old new) {front back : List Char}
    {mark : Char} (unmarked : mark ∉ old) (marked : back.head? = some mark) :
    replaceFrom old new 0 (front ++ (old ++ back)) = front ++ (new ++ back) ↔
      ∀ before after, front ++ (old ++ back) = before ++ (old ++ after) → before = front := by
  have replaced := firstReplaced_replaceFrom new differ.ne_nil (front ++ (old ++ back))
  generalize replaceFrom old new 0 (front ++ (old ++ back)) = result at replaced
  cases replaced with
  | nowhere absent => exact absurd ⟨front, back, List.append_assoc _ _ _⟩ absent
  | @first start rest spelled least =>
      have behind := firstReplaced_replaceFrom new differ.ne_nil rest
      constructor
      · intro same
        -- The first place is the given one, since the texts agree in front of it.
        obtain ⟨gap, rfl⟩ : start <+: front := List.prefix_of_prefix_length_le
          ⟨_, spelled.symm⟩ (List.prefix_append front _) (least front back rfl)
        simp only [List.append_assoc, List.append_cancel_left_eq] at spelled same
        obtain rfl := differ.eq_nil spelled.symm same
        obtain rfl : back = rest := List.append_cancel_left spelled
        rw [List.append_nil] at least ⊢
        have absent : ¬ old <:+: back := by
          rw [List.nil_append, List.append_cancel_left_eq] at same
          generalize replaceFrom old new 0 back = result at behind same
          cases behind with
          | nowhere absent => exact absent
          | @first gap later spelled =>
              rw [spelled, List.append_cancel_left_eq] at same
              exact absurd same (differ.append_ne _ _)
        intro before after split
        obtain ⟨gap, rfl⟩ : start <+: before := List.prefix_of_prefix_length_le
          (List.prefix_append start _) ⟨_, split.symm⟩ (least before after split)
        rw [List.append_assoc, List.append_cancel_left_eq] at split
        rw [eq_nil_of_marked unmarked marked absent split, List.append_nil]
      · intro unique
        obtain rfl := unique start rest spelled
        obtain rfl : back = rest := List.append_cancel_left (List.append_cancel_left spelled)
        -- Behind the place the word does not stand again.
        generalize replaceFrom old new 0 back = result at behind
        cases behind with
        | nowhere => rfl
        | @first gap later spelled =>
            have again := unique (start ++ (old ++ gap)) later (by
              rw [spelled]
              simp only [List.append_assoc])
            rw [List.append_right_eq_self, List.append_eq_nil_iff] at again
            exact absurd again.1 differ.ne_nil

end Differ

end SceneGallery.Text
