import SceneGallery.Proofs.Event.Replaced
import SceneGallery.Proofs.Text.Number
set_option autoImplicit false

namespace SceneGallery.Event

open Relation Text Text.Pattern

section Way

variable {resources : Resources} {lines : List String} {place i : Nat} {naming : String}
  {number : UInt32} {progress : Progress}

/-- One turn keeps what is known of the defeat event, unless it is the turn that reads it. -/
theorem Reaches.linkage_turn {later : Progress} {next : Nat}
    (here : Reaches resources lines progress i)
    (named : IsLinkagePlace lines place) (there : lines[place]? = some naming)
    (read : readLinkage place naming = .ok number)
    (known : progress.linkage = if i ≤ place then none else some number)
    (turn : Turn resources lines (progress, i) (later, next)) :
    later.linkage = if next ≤ place then none else some number := by
  obtain ⟨line, found, called, names⟩ := named.names
  by_cases before : i ≤ place
  · rw [if_pos before] at known
    obtain ⟨made, onward⟩ := turn.preamble known
    simp only at made onward
    subst onward
    cases made with
    | header first =>
        have behind := named.behind
        rw [if_pos (by omega)]
        exact known
    | line behind at_i passed =>
        have other : i ≠ place := by
          rintro rfl
          obtain rfl := Option.some.inj (at_i.symm.trans found)
          exact not_passed_of_names called names passed
        rw [if_pos (by omega)]
        exact known
    | naming behind at_i uncalled namesHere readHere =>
        have same : i = place := by
          by_contra other
          exact not_passed_of_names uncalled namesHere (named.first i _ behind (by omega) at_i)
        subst same
        obtain rfl := Option.some.inj (at_i.symm.trans there)
        rw [if_neg (Nat.not_succ_le_self i)]
        exact congrArg some (Except.ok.inj (readHere.symm.trans read))
  · rw [if_neg before] at known
    obtain ⟨_, made, _, _, same⟩ := turn.body here (Option.isSome_iff_exists.mpr ⟨_, known⟩)
    cases same
    rw [if_neg (by omega)]
    exact known

/-- The defeat event is not known up to the line that names it, and known without a change behind
it. -/
theorem Reaches.linkage (here : Reaches resources lines progress i)
    (named : IsLinkagePlace lines place) (there : lines[place]? = some naming)
    (read : readLinkage place naming = .ok number) :
    progress.linkage = if i ≤ place then none else some number := by
  have along : ∀ {state}, ReflTransGen (Turn resources lines) ({}, 0) state →
      state.1.linkage = if state.2 ≤ place then none else some number := by
    intro state turns
    induction turns with
    | refl => rw [if_pos (Nat.zero_le place)]
    | tail turns turn ih => exact Reaches.linkage_turn turns named there read ih turn
  exact along here

end Way

end SceneGallery.Event
