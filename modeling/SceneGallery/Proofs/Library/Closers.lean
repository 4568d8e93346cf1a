import Mathlib.Order.Bounds.Basic
import Mathlib.Order.Nat
import SceneGallery.Library.Field
set_option autoImplicit false

namespace SceneGallery.Library

/-- The line at a place is of the given kind. -/
def LineAt (lines : List String) (is : String → Bool) (place : Nat) : Prop :=
  ∃ line, lines[place]? = some line ∧ is line = true

theorem lineAt_iff {lines : List String} {is : String → Bool} {place : Nat} {line : String}
    (here : lines[place]? = some line) : LineAt lines is place ↔ is line = true := by
  constructor
  · rintro ⟨other, there, holds⟩
    rwa [Option.some_inj.mp (here.symm.trans there)]
  · exact fun holds => ⟨line, here, holds⟩

theorem not_lineAt {lines : List String} {is : String → Bool} {place : Nat} {line : String}
    (here : lines[place]? = some line) (unlike : is line = false) : ¬ LineAt lines is place :=
  (lineAt_iff here).not.mpr (Bool.eq_false_iff.mp unlike)

theorem LineAt.lt {lines : List String} {is : String → Bool} {place : Nat}
    (there : LineAt lines is place) : place < lines.length := by
  obtain ⟨_, found, _⟩ := there
  exact List.getElem?_eq_some_iff.mp found |>.1

/-- Whether a place is inside a part. The part opens at a place above, which is not inside a part
itself, and no closer of that part is in between. -/
def Inside (opens : Nat → Prop) (closes : Nat → Nat → Prop) (start place : Nat) : Prop :=
  ∃ opener, ∃ _above : opener < place, start ≤ opener ∧ opens opener ∧
    ¬ Inside opens closes start opener ∧
      ∀ between, opener < between → between < place → ¬ closes (opener + 1) between
termination_by place

section Inside

variable {opens : Nat → Prop} {closes : Nat → Nat → Prop} {start place : Nat}

theorem lt_of_inside (inside : Inside opens closes start place) : start < place := by
  rw [Inside] at inside
  obtain ⟨opener, above, behind, _⟩ := inside
  exact Nat.lt_of_le_of_lt behind above

/-- Where no part opens, it is the next place that parts open from. -/
theorem inside_succ_iff (unopened : ¬ opens start) :
    Inside opens closes start place ↔ Inside opens closes (start + 1) place := by
  induction place using Nat.strongRecOn with
  | ind place ih =>
      rw [Inside, Inside]
      constructor
      · rintro ⟨opener, above, behind, opened, outside, unclosed⟩
        have other : opener ≠ start := fun same => unopened (same ▸ opened)
        exact ⟨opener, above, by omega, opened, (ih opener above).not.mp outside, unclosed⟩
      · rintro ⟨opener, above, behind, opened, outside, unclosed⟩
        exact ⟨opener, above, by omega, opened, (ih opener above).not.mpr outside, unclosed⟩

theorem inside_of_unclosed (opened : opens start) (behind : start < place)
    (unclosed : ∀ between, start < between → between < place → ¬ closes (start + 1) between) :
    Inside opens closes start place := by
  rw [Inside]
  exact ⟨start, behind, Nat.le_refl _, opened, fun inside => Nat.lt_irrefl _ (lt_of_inside inside),
    unclosed⟩

/-- Behind a part, it is the place behind its closer that parts open from. -/
theorem inside_behind_iff {closer : Nat} (opened : opens start)
    (ends : IsLeast {place | closes (start + 1) place} closer) (below : start < closer)
    (behind : closer < place) :
    Inside opens closes start place ↔ Inside opens closes (closer + 1) place := by
  induction place using Nat.strongRecOn with
  | ind place ih =>
      rw [Inside, Inside]
      constructor
      · rintro ⟨opener, above, fromStart, opensHere, outside, unclosed⟩
        have later : closer < opener := by
          -- An opener up to the closer would be the one at the start, or inside its part.
          by_contra early
          rcases Nat.eq_or_lt_of_le fromStart with rfl | inner
          · exact unclosed closer below behind ends.1
          · refine outside (inside_of_unclosed opened inner ?_)
            intro between _ before closesThere
            have least := ends.2 closesThere
            omega
        exact ⟨opener, above, later, opensHere, (ih opener above later).not.mp outside, unclosed⟩
      · rintro ⟨opener, above, later, opensHere, outside, unclosed⟩
        exact ⟨opener, above, by omega, opensHere, (ih opener above later).not.mpr outside,
          unclosed⟩

end Inside

/-- A closer from a place on that is not inside a part that opens there or below. -/
structure OwnCloser (lines : List String) (opens : String → Bool) (closes : Nat → Nat → Prop)
    (start place : Nat) : Prop where
  behind : start ≤ place
  closer : LineAt lines isCloser place
  outside : ¬ Inside (LineAt lines opens) closes start place

section OwnCloser

variable {lines : List String} {opens : String → Bool} {closes : Nat → Nat → Prop}
  {start place : Nat}

theorem ownCloser_start (closer : LineAt lines isCloser start) :
    OwnCloser lines opens closes start start :=
  ⟨Nat.le_refl _, closer, fun inside => Nat.lt_irrefl _ (lt_of_inside inside)⟩

theorem ownCloser_succ_iff (unopened : ¬ LineAt lines opens start) (below : start < place) :
    OwnCloser lines opens closes start place ↔ OwnCloser lines opens closes (start + 1) place := by
  constructor
  · rintro ⟨_, closer, outside⟩
    exact ⟨below, closer, (inside_succ_iff unopened).not.mp outside⟩
  · rintro ⟨_, closer, outside⟩
    exact ⟨Nat.le_of_lt below, closer, (inside_succ_iff unopened).not.mpr outside⟩

theorem ownCloser_behind_iff {closer : Nat} (opened : LineAt lines opens start)
    (unclosed : ¬ LineAt lines isCloser start)
    (ends : IsLeast {place | closes (start + 1) place} closer) (below : start < closer) :
    OwnCloser lines opens closes start place ↔
      OwnCloser lines opens closes (closer + 1) place := by
  constructor
  · rintro ⟨behind, closesThere, outside⟩
    have other : start ≠ place := fun same => unclosed (same ▸ closesThere)
    have later : closer < place := by
      by_contra early
      refine outside (inside_of_unclosed opened (by omega) ?_)
      intro between _ before closesThere
      have least := ends.2 closesThere
      omega
    exact ⟨later, closesThere, (inside_behind_iff opened ends below later).not.mp outside⟩
  · rintro ⟨behind, closesThere, outside⟩
    exact ⟨by omega, closesThere, (inside_behind_iff opened ends below behind).not.mpr outside⟩

/-- All places behind the opener of a part that is not closed are inside the part. -/
theorem not_ownCloser_of_unclosed (opened : LineAt lines opens start)
    (unclosed : ¬ LineAt lines isCloser start) (endless : ∀ place, ¬ closes (start + 1) place) :
    ¬ OwnCloser lines opens closes start place := by
  rintro ⟨behind, closer, outside⟩
  have other : start ≠ place := fun same => unclosed (same ▸ closer)
  exact outside (inside_of_unclosed opened (by omega) fun between _ _ => endless between)

end OwnCloser

/-- Whether a line opens a condition or a background. -/
def opensBlock (line : String) : Bool :=
  isConditionOpener line || isBackgroundOpener line

/-- Whether a line among the scenes of a record opens a scene. -/
def opensScene (line : String) : Bool :=
  !isCloser line && (Field.recordStart? line).isSome

/-- A line that opens a condition or a background closes nothing: it starts with a colon. -/
theorem isCloser_of_opensBlock {line : String} (opens : opensBlock line = true) :
    isCloser line = false := by
  rw [opensBlock, isConditionOpener, isBackgroundOpener] at opens
  rw [isCloser]
  cases trimmed : Text.trimStart line.toList with
  | nil => rfl
  | cons c rest =>
      rw [trimmed] at opens
      by_contra closes
      have brace : c = '\x7d' := by simpa using closes
      subst brace
      simp at opens

section Ends

variable (lines : List String) (start : Nat)

/-- A closer in a condition or a background. -/
def BlockCloser (place : Nat) : Prop :=
  start ≤ place ∧ LineAt lines isCloser place

/-- A closer in a scene that is not inside a condition or a background. -/
def SceneCloser (place : Nat) : Prop :=
  OwnCloser lines opensBlock (BlockCloser lines) start place

/-- A closer among the scenes of a record that is not inside a scene. -/
def RecordCloser (place : Nat) : Prop :=
  OwnCloser lines opensScene (SceneCloser lines) start place

/-- The closer that ends a condition or a background. -/
def EndsBlock (closer : Nat) : Prop :=
  IsLeast {place | BlockCloser lines start place} closer

/-- The closer that ends a scene. -/
def EndsScene (closer : Nat) : Prop :=
  IsLeast {place | SceneCloser lines start place} closer

/-- The closer that ends the scenes of a record: the first one if their block is closed already, and
else the second one. -/
def EndsScenes (closed : Bool) (closer : Nat) : Prop :=
  if closed then IsLeast {place | RecordCloser lines start place} closer
  else ∃ first, IsLeast {place | RecordCloser lines start place} first ∧
    IsLeast {place | first < place ∧ RecordCloser lines start place} closer

/-- The closer that ends a record: the second one below the first marker of scenes that stands below
the first name. -/
def EndsRecord (closer : Nat) : Prop :=
  ∃ naming marker,
    IsLeast {place | start ≤ place ∧
      LineAt lines (fun line => (Field.name? line).isSome) place} naming ∧
    IsLeast {place | naming + 1 ≤ place ∧ LineAt lines isItemsMarker place} marker ∧
    EndsScenes lines (marker + 1) false closer

end Ends

theorem isLeast_iff_eq {holds : Nat → Prop} {start closer : Nat} (here : holds start)
    (behind : ∀ place, holds place → start ≤ place) :
    IsLeast {place | holds place} closer ↔ closer = start := by
  have least : IsLeast {place | holds place} start := ⟨here, behind⟩
  exact ⟨fun other => other.unique least, fun same => same ▸ least⟩

theorem isLeast_congr {holds others : Nat → Prop} (same : ∀ place, holds place ↔ others place)
    {closer : Nat} :
    IsLeast {place | holds place} closer ↔ IsLeast {place | others place} closer := by
  rw [Set.ext same]

section Steps

variable {lines : List String} {start closer : Nat}

theorem ownCloser_line {opens : String → Bool} {closes : Nat → Nat → Prop}
    (unopened : ¬ LineAt lines opens start) (unclosed : ¬ LineAt lines isCloser start)
    (place : Nat) :
    OwnCloser lines opens closes start place ↔ OwnCloser lines opens closes (start + 1) place := by
  by_cases below : start < place
  · exact ownCloser_succ_iff unopened below
  · constructor
    · rintro ⟨behind, there, _⟩
      have same : start = place := by omega
      exact absurd (same ▸ there) unclosed
    · rintro ⟨behind, _⟩
      omega

/-- Behind the opener of a part, closers of the whole are the ones behind the part, and there is
none if the part is not closed. -/
theorem ownCloser_part {opens : String → Bool} (closes : Nat → Nat → Prop)
    (opened : LineAt lines opens start) (unclosed : ¬ LineAt lines isCloser start)
    (behind : ∀ place, closes (start + 1) place → start < place) :
    (∃ inner, IsLeast {place | closes (start + 1) place} inner ∧ ∀ place,
      OwnCloser lines opens closes start place ↔ OwnCloser lines opens closes (inner + 1) place) ∨
    (∀ place, ¬ closes (start + 1) place) ∧
      ∀ place, ¬ OwnCloser lines opens closes start place := by
  classical
  by_cases some : ∃ place, closes (start + 1) place
  · have ends := Nat.isLeast_find some
    exact .inl ⟨_, ends, fun place =>
      ownCloser_behind_iff opened unclosed ends (behind _ ends.1)⟩
  · have endless := not_exists.mp some
    exact .inr ⟨endless, fun place => not_ownCloser_of_unclosed opened unclosed endless⟩

theorem endsBlock_closer (here : LineAt lines isCloser start) :
    EndsBlock lines start closer ↔ closer = start :=
  isLeast_iff_eq ⟨Nat.le_refl _, here⟩ fun _ => And.left

theorem endsBlock_line (unclosed : ¬ LineAt lines isCloser start) :
    EndsBlock lines start closer ↔ EndsBlock lines (start + 1) closer := by
  refine isLeast_congr fun place => and_congr_left fun there => ?_
  have other : start ≠ place := fun same => unclosed (same ▸ there)
  omega

theorem endsScene_closer (here : LineAt lines isCloser start) :
    EndsScene lines start closer ↔ closer = start :=
  isLeast_iff_eq (ownCloser_start here) fun _ => OwnCloser.behind

theorem endsScene_line (unopened : ¬ LineAt lines opensBlock start)
    (unclosed : ¬ LineAt lines isCloser start) :
    EndsScene lines start closer ↔ EndsScene lines (start + 1) closer :=
  isLeast_congr (ownCloser_line unopened unclosed)

theorem endsScene_block (opened : LineAt lines opensBlock start)
    (unclosed : ¬ LineAt lines isCloser start) :
    EndsScene lines start closer ↔
      ∃ inner, EndsBlock lines (start + 1) inner ∧ EndsScene lines (inner + 1) closer := by
  rcases ownCloser_part (BlockCloser lines) opened unclosed fun _ => And.left with
    ⟨first, ends, moved⟩ | ⟨endless, none⟩
  · constructor
    · exact fun least => ⟨first, ends, (isLeast_congr moved).mp least⟩
    · rintro ⟨inner, innerEnds, least⟩
      rw [innerEnds.unique ends] at least
      exact (isLeast_congr moved).mpr least
  · exact ⟨fun least => absurd least.1 (none _),
      fun ⟨_, innerEnds, _⟩ => absurd innerEnds.1 (endless _)⟩

theorem endsScenes_congr {closed : Bool} {other : Nat}
    (same : ∀ place, RecordCloser lines start place ↔ RecordCloser lines other place) :
    EndsScenes lines start closed closer ↔ EndsScenes lines other closed closer := by
  simp only [EndsScenes, same]

/-- Among scenes whose block is closed already, a closer is the one of the record. -/
theorem endsScenes_closer_of_closed (here : LineAt lines isCloser start) :
    EndsScenes lines start true closer ↔ closer = start :=
  isLeast_iff_eq (ownCloser_start here) fun _ => OwnCloser.behind

theorem not_opensScene_of_closer (here : LineAt lines isCloser start) :
    ¬ LineAt lines opensScene start := by
  obtain ⟨line, found, closes⟩ := here
  apply not_lineAt found
  rw [opensScene, closes]
  rfl

/-- Among scenes whose block is open, a closer closes the block. -/
theorem endsScenes_closer_of_open (here : LineAt lines isCloser start) :
    EndsScenes lines start false closer ↔ EndsScenes lines (start + 1) true closer := by
  have first : ∀ place, IsLeast {place | RecordCloser lines start place} place ↔ place = start :=
    fun place => isLeast_iff_eq (ownCloser_start here) fun _ => OwnCloser.behind
  have second : ∀ place, start < place ∧ RecordCloser lines start place ↔
      RecordCloser lines (start + 1) place := by
    intro place
    constructor
    · rintro ⟨below, own⟩
      exact (ownCloser_succ_iff (not_opensScene_of_closer here) below).mp own
    · intro own
      exact ⟨own.behind, (ownCloser_succ_iff (not_opensScene_of_closer here) own.behind).mpr own⟩
  simp only [EndsScenes, Bool.false_eq_true, ↓reduceIte, first, exists_eq_left, second]

theorem endsScenes_line {closed : Bool} (unopened : ¬ LineAt lines opensScene start)
    (unclosed : ¬ LineAt lines isCloser start) :
    EndsScenes lines start closed closer ↔ EndsScenes lines (start + 1) closed closer :=
  endsScenes_congr (ownCloser_line unopened unclosed)

theorem endsScenes_scene {closed : Bool} (opened : LineAt lines opensScene start)
    (unclosed : ¬ LineAt lines isCloser start) :
    EndsScenes lines start closed closer ↔
      ∃ inner, EndsScene lines (start + 1) inner ∧ EndsScenes lines (inner + 1) closed closer := by
  rcases ownCloser_part (SceneCloser lines) opened unclosed fun _ => OwnCloser.behind with
    ⟨first, ends, moved⟩ | ⟨endless, none⟩
  · constructor
    · exact fun least => ⟨first, ends, (endsScenes_congr moved).mp least⟩
    · rintro ⟨inner, innerEnds, least⟩
      rw [innerEnds.unique ends] at least
      exact (endsScenes_congr moved).mpr least
  · constructor
    · intro least
      rw [EndsScenes] at least
      split at least
      · exact absurd least.1 (none _)
      · obtain ⟨_, _, least⟩ := least
        exact absurd least.1.2 (none _)
    · rintro ⟨_, innerEnds, _⟩
      exact absurd innerEnds.1 (endless _)

/-- The closer that ends the scenes of a record is one of the closers that stand outside the
scenes. -/
theorem recordCloser_of_endsScenes {closed : Bool} (ends : EndsScenes lines start closed closer) :
    RecordCloser lines start closer := by
  rw [EndsScenes] at ends
  split at ends
  · exact ends.1
  · obtain ⟨_, _, second⟩ := ends
    exact second.1.2

end Steps

end SceneGallery.Library
