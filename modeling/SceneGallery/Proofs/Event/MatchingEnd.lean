import SceneGallery.Proofs.Event.Nesting
import SceneGallery.Proofs.Event.Reached
set_option autoImplicit false

namespace SceneGallery.Event

/-- Lines that close the given number of branches, besides those that they open themselves, and that
never close a branch which is not open. With none open before them they are balanced. -/
structure ClosesBranches (depth : Nat) (lines : List String) : Prop where
  starts : ∀ front, front <+: lines →
    front.countP isBranchEnd ≤ depth + front.countP isConditionalBranch
  total : lines.countP isBranchEnd = depth + lines.countP isConditionalBranch

/-- The lines behind the opening of a branch up to the place `n`: balanced lines, and the end of the
branch. -/
def MatchingEnd (lines : List String) (i n : Nat) : Prop :=
  ∃ inner closing, lines.drop (i + 1) = inner ++ closing :: lines.drop n ∧
    n = i + inner.length + 2 ∧ ClosesBranches 0 inner ∧ isBranchEnd closing = true

theorem closesBranches_nil {depth : Nat} : ClosesBranches depth [] ↔ depth = 0 := by
  constructor
  · intro closes
    exact closes.total.symm
  · rintro rfl
    refine ⟨fun front starts => ?_, rfl⟩
    rw [List.prefix_nil.mp starts]
    exact Nat.zero_le _

section Line

variable {depth after : Nat} {line : String} {rest : List String}

theorem closesBranches_cons
    (counted : depth + [line].countP isConditionalBranch = after + [line].countP isBranchEnd) :
    ClosesBranches depth (line :: rest) ↔ ClosesBranches after rest := by
  have opened : ∀ others : List String, (line :: others).countP isConditionalBranch =
      [line].countP isConditionalBranch + others.countP isConditionalBranch := by
    intro others
    rw [← List.countP_append, List.singleton_append]
  have closed : ∀ others : List String, (line :: others).countP isBranchEnd =
      [line].countP isBranchEnd + others.countP isBranchEnd := by
    intro others
    rw [← List.countP_append, List.singleton_append]
  constructor
  · rintro ⟨starts, total⟩
    rw [opened, closed] at total
    refine ⟨fun front within => ?_, by omega⟩
    have longer := starts (line :: front) ((List.prefix_cons_inj line).mpr within)
    rw [opened, closed] at longer
    omega
  · rintro ⟨starts, total⟩
    refine ⟨fun front within => ?_, by rw [opened, closed]; omega⟩
    rcases List.prefix_cons_iff.mp within with rfl | ⟨others, rfl, shorter⟩
    · exact Nat.zero_le _
    · have later := starts others shorter
      rw [opened, closed]
      omega

theorem toBranchEnd_step
    (counted : depth + [line].countP isConditionalBranch = after + [line].countP isBranchEnd) :
    toBranchEnd depth (line :: rest) = (toBranchEnd after rest).map (· + 1) := by
  rw [toBranchEnd_cons]
  simp only [List.countP_singleton] at counted
  by_cases opens : isConditionalBranch line = true
  · rw [if_pos opens, isBranchEnd_of_conditionalBranch opens, if_neg Bool.false_ne_true] at counted
    rw [if_pos opens, counted, Nat.add_zero]
  · rw [if_neg opens] at counted ⊢
    by_cases closes : isBranchEnd line = true
    · rw [if_pos closes] at counted ⊢
      obtain rfl : depth = after + 1 := by omega
      rfl
    · rw [if_neg closes] at counted ⊢
      obtain rfl : depth = after := by omega
      rfl

theorem toBranchEnd_end (closes : isBranchEnd line = true) :
    toBranchEnd 0 (line :: rest) = some 1 := by
  have unopened : ¬ isConditionalBranch line = true := by
    intro opens
    rw [isBranchEnd_of_conditionalBranch opens] at closes
    cases closes
  rw [toBranchEnd_cons, if_neg unopened, if_pos closes]

theorem end_of_uncounted
    (surplus : ¬ [line].countP isBranchEnd ≤ depth + [line].countP isConditionalBranch) :
    isBranchEnd line = true ∧ depth = 0 := by
  simp only [List.countP_singleton] at surplus
  have closes : isBranchEnd line = true := by
    by_contra unclosed
    rw [if_neg unclosed] at surplus
    exact surplus (Nat.zero_le _)
  rw [if_pos closes] at surplus
  exact ⟨closes, by omega⟩

end Line

/-- The scan finds the matching end, whatever stands behind it. -/
theorem toBranchEnd_of_closes {depth : Nat} {inner : List String} {closing : String}
    (balanced : ClosesBranches depth inner) (closes : isBranchEnd closing = true)
    (rest : List String) :
    toBranchEnd depth (inner ++ closing :: rest) = some (inner.length + 1) := by
  induction inner generalizing depth with
  | nil =>
      obtain rfl := closesBranches_nil.mp balanced
      exact toBranchEnd_end closes
  | cons line inner ih =>
      have here := balanced.starts [line] (List.prefix_append [line] inner)
      obtain ⟨after, counted⟩ := Nat.exists_eq_add_of_le' here
      rw [List.cons_append, toBranchEnd_step counted,
        ih ((closesBranches_cons counted).mp balanced)]
      rfl

theorem exists_of_toBranchEnd {depth length : Nat} {lines : List String}
    (found : toBranchEnd depth lines = some length) :
    ∃ inner closing rest, lines = inner ++ closing :: rest ∧ length = inner.length + 1 ∧
      ClosesBranches depth inner ∧ isBranchEnd closing = true := by
  induction lines generalizing depth length with
  | nil => cases found
  | cons line rest ih =>
      by_cases here : [line].countP isBranchEnd ≤ depth + [line].countP isConditionalBranch
      · obtain ⟨after, counted⟩ := Nat.exists_eq_add_of_le' here
        rw [toBranchEnd_step counted] at found
        obtain ⟨further, later, rfl⟩ := Option.map_eq_some_iff.mp found
        obtain ⟨inner, closing, behind, rfl, rfl, balanced, closes⟩ := ih later
        exact ⟨line :: inner, closing, behind, rfl, rfl, (closesBranches_cons counted).mpr balanced,
          closes⟩
      · obtain ⟨closes, rfl⟩ := end_of_uncounted here
        rw [toBranchEnd_end closes] at found
        cases found
        exact ⟨[], line, rest, rfl, rfl, closesBranches_nil.mpr rfl, closes⟩

theorem matchingEnd_iff {lines : List String} {i n : Nat} :
    MatchingEnd lines i n ↔
      ∃ length, toBranchEnd 0 (lines.drop (i + 1)) = some length ∧ n = i + 1 + length := by
  constructor
  · rintro ⟨inner, closing, split, rfl, balanced, closes⟩
    refine ⟨inner.length + 1, ?_, by omega⟩
    rw [split]
    exact toBranchEnd_of_closes balanced closes _
  · rintro ⟨length, found, rfl⟩
    obtain ⟨inner, closing, rest, split, rfl, balanced, closes⟩ := exists_of_toBranchEnd found
    refine ⟨inner, closing, ?_, by omega, balanced, closes⟩
    rw [← List.drop_drop (i := inner.length + 1), split, drop_through]

/-- From the opening of a branch the loop goes on behind the matching end, and nothing else is
done. -/
theorem BodyVisit.turn_branch_iff {resources : Resources} {lines : List String}
    {progress later : Progress} {i n : Nat} {opening : String}
    (visited : BodyVisit resources lines progress i opening)
    (opens : isConditionalBranch opening = true) :
    Turn resources lines (progress, i) (later, n) ↔ later = progress ∧ MatchingEnd lines i n := by
  constructor
  · intro turn
    obtain ⟨made, done, same⟩ := visited.exists_made turn
    rw [visit_of_conditionalBranch opens] at done
    cases found : toBranchEnd 0 (lines.drop (i + 1)) with
    | none =>
        rw [found] at done
        cases done
    | some length =>
        rw [found] at done
        cases done
        cases same
        exact ⟨after_silent progress i opening length, matchingEnd_iff.mpr ⟨length, found, rfl⟩⟩
  · rintro ⟨rfl, matching⟩
    obtain ⟨length, found, rfl⟩ := matchingEnd_iff.mp matching
    have done : visit later.passed i opening (lines.drop (i + 1)) = .ok { extra := length } := by
      rw [visit_of_conditionalBranch opens, found]
    have turn := visited.turn done
    rw [after_silent] at turn
    exact turn

/-- A conditional branch of the body is left out up to its matching end. If balanced lines and the
end of a branch stand behind its opening, nothing is put out and the loop goes on with the line
behind that end. If the loop goes on from there, it is at the matching end of the branch and with
nothing put out. It does not go on exactly if there is no matching end, and then the conversion
fails. -/
theorem branch_skipped {resources : Resources} {lines : List String} {progress : Progress} {i : Nat}
    {opening : String} (visited : BodyVisit resources lines progress i opening)
    (opens : isConditionalBranch opening = true) :
    (∀ inner closing rest, lines.drop (i + 1) = inner ++ closing :: rest →
      ClosesBranches 0 inner → isBranchEnd closing = true →
        Turn resources lines (progress, i) (progress, i + inner.length + 2) ∧
          lines.drop (i + inner.length + 2) = rest) ∧
    (∀ later n, Turn resources lines (progress, i) (later, n) →
      later = progress ∧ MatchingEnd lines i n) ∧
    ((¬ ∃ next, Turn resources lines (progress, i) next) ↔ ¬ ∃ n, MatchingEnd lines i n) ∧
    ((¬ ∃ n, MatchingEnd lines i n) →
      convert resources lines = .error (.unterminatedBranch i)) := by
  refine ⟨?_, fun later n => (visited.turn_branch_iff opens).mp, ?_, ?_⟩
  · intro inner closing rest split balanced closes
    have behind : lines.drop (i + inner.length + 2) = rest := by
      have place : i + inner.length + 2 = i + 1 + (inner.length + 1) := by omega
      rw [place, ← List.drop_drop, split, drop_through]
    have matching : MatchingEnd lines i (i + inner.length + 2) :=
      ⟨inner, closing, by rw [behind, split], rfl, balanced, closes⟩
    exact ⟨(visited.turn_branch_iff opens).mpr ⟨rfl, matching⟩, behind⟩
  · refine not_congr ⟨?_, ?_⟩
    · rintro ⟨⟨later, n⟩, turn⟩
      exact ⟨n, ((visited.turn_branch_iff opens).mp turn).2⟩
    · rintro ⟨n, matching⟩
      exact ⟨_, (visited.turn_branch_iff opens).mpr ⟨rfl, matching⟩⟩
  · intro unmatched
    apply visited.convert_error
    rw [visit_of_conditionalBranch opens]
    cases found : toBranchEnd 0 (lines.drop (i + 1)) with
    | none => rfl
    | some length => exact absurd ⟨_, matchingEnd_iff.mpr ⟨length, found, rfl⟩⟩ unmatched

/-- A branch with another one inside. -/
def nestedBranches : List String :=
  ["  ConditionalBranch([0])", "    ConditionalBranch([1])", "    BranchEnd", "  BranchEnd",
    "  ShowText([\"Ah!\"])"]

theorem branch_skipped_nestedBranches :
    BodyVisit ⟨fun _ => none, none⟩ (linkedEvent nestedBranches)
        ⟨[⟨.source 0, .header⟩], some 3101, false, none⟩ 2 "  ConditionalBranch([0])" ∧
      isConditionalBranch "  ConditionalBranch([0])" = true ∧
      Turn ⟨fun _ => none, none⟩ (linkedEvent nestedBranches)
        (⟨[⟨.source 0, .header⟩], some 3101, false, none⟩, 2)
        (⟨[⟨.source 0, .header⟩], some 3101, false, none⟩, 6) := by
  have visited : BodyVisit ⟨fun _ => none, none⟩ (linkedEvent nestedBranches)
      ⟨[⟨.source 0, .header⟩], some 3101, false, none⟩ 2 "  ConditionalBranch([0])" :=
    ⟨reaches_linkedEvent nestedBranches, rfl, rfl⟩
  have opens : isConditionalBranch "  ConditionalBranch([0])" = true := by decide
  have balanced : ClosesBranches 0 ["    ConditionalBranch([1])", "    BranchEnd"] := by
    have last : ClosesBranches 1 ["    BranchEnd"] :=
      (closesBranches_cons (by decide)).mpr (closesBranches_nil.mpr rfl)
    exact (closesBranches_cons (by decide)).mpr last
  exact ⟨visited, opens,
    ((branch_skipped visited opens).1 _ "  BranchEnd" _ rfl balanced (by decide)).1⟩

end SceneGallery.Event
