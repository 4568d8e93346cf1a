import SceneGallery.Proofs.Event.Replaced
set_option autoImplicit false

namespace SceneGallery.Event

open Relation

/-- The place of the last label of an event. -/
structure IsLastLabel (lines : List String) (place : Nat) : Prop where
  label : ∃ line, lines[place]? = some line ∧ isLabel line = true
  last : ∀ line ∈ lines.drop (place + 1), isLabel line = false

theorem toLastLabel_of_unlabelled {lines : List String}
    (unlabelled : ∀ line ∈ lines, isLabel line = false) : toLastLabel lines = 0 := by
  induction lines with
  | nil => rfl
  | cons line rest ih =>
      obtain ⟨first, later⟩ := List.forall_mem_cons.mp unlabelled
      rw [toLastLabel, ih later]
      simp only [first, Bool.false_eq_true, ↓reduceIte]

theorem toLastLabel_append {front back : List String} {label : String}
    (marked : isLabel label = true) (last : ∀ line ∈ back, isLabel line = false) :
    toLastLabel (front ++ label :: back) = front.length + 1 := by
  induction front with
  | nil =>
      rw [List.nil_append, toLastLabel, toLastLabel_of_unlabelled last]
      simp only [marked, ↓reduceIte, List.length_nil, Nat.zero_add]
  | cons line front ih =>
      rw [List.cons_append, toLastLabel, ih]
      rfl

theorem IsLastLabel.le {lines : List String} {i j : Nat} {line : String}
    (last : IsLastLabel lines j) (there : lines[i]? = some line) (marked : isLabel line = true) :
    i ≤ j := by
  by_contra behind
  have member : line ∈ lines.drop (j + 1) := by
    rw [List.mem_iff_getElem?]
    refine ⟨i - (j + 1), ?_⟩
    rw [List.getElem?_drop, ← there]
    congr 1
    omega
  rw [last.last line member] at marked
  cases marked

/-- From a label the loop goes on behind the last one. -/
theorem IsLastLabel.extra {lines : List String} {i j : Nat} (last : IsLastLabel lines j)
    (order : i ≤ j) : i + 1 + toLastLabel (lines.drop (i + 1)) = j + 1 := by
  rcases Nat.eq_or_lt_of_le order with rfl | before
  · rw [toLastLabel_of_unlabelled last.last]
  · obtain ⟨label, there, marked⟩ := last.label
    obtain ⟨inside, rfl⟩ := List.getElem?_eq_some_iff.mp there
    have split : lines.drop (i + 1) =
        (lines.drop (i + 1)).take (j - (i + 1)) ++ lines[j] :: lines.drop (j + 1) := by
      have reached : (lines.drop (i + 1)).drop (j - (i + 1)) = lines.drop j := by
        rw [List.drop_drop]
        congr 1
        omega
      rw [List.getElem_cons_drop, ← reached, List.take_append_drop]
    rw [split, toLastLabel_append marked last.last, List.length_take, List.length_drop,
      Nat.min_eq_left (by omega)]
    omega

section Ending

variable {resources : Resources} {lines : List String} {progress : Progress} {i j : Nat}
  {label : String}

theorem BodyVisit.turn_label (visited : BodyVisit resources lines progress i label)
    (marked : isLabel label = true) (last : IsLastLabel lines j) :
    Turn resources lines (progress, i) (progress, j + 1) := by
  have turn := visited.turn (visit_of_label marked progress.passed i (lines.drop (i + 1)))
  rw [after_silent, last.extra (last.le visited.there marked)] at turn
  exact turn

/-- The loop visits one label at most. -/
theorem BodyVisit.label_unique {other : Progress} {k : Nat} {another : String}
    (visited : BodyVisit resources lines progress i label) (marked : isLabel label = true)
    (again : BodyVisit resources lines other k another) (same : isLabel another = true)
    (last : IsLastLabel lines j) : k = i := by
  -- Of two labels the first one would be left for a place behind the second.
  have first := last.le visited.there marked
  have second := last.le again.there same
  rcases Nat.lt_trichotomy k i with before | rfl | behind
  · have skipped : j + 1 ≤ i :=
      again.reached.next_le (again.turn_label same last) visited.reached before
    omega
  · rfl
  · have skipped : j + 1 ≤ k :=
      visited.reached.next_le (visited.turn_label marked last) again.reached behind
    omega

end Ending

theorem map_map {ε α β γ : Type} (outcome : Except ε α) (f : α → β) (g : β → γ) :
    (outcome.map f).map g = outcome.map (g ∘ f) := by
  cases outcome <;> rfl

theorem output_processFrom {resources : Resources} {lines : List String} {progress : Progress}
    {i : Nat} (linked : progress.linkage.isSome = true) (behind : i ≠ 0) :
    (processFrom resources lines progress i).map (·.output) =
      (processFrom resources lines { progress with output := [] } i).map
        (progress.output ++ ·.output) := by
  obtain ⟨linkage, known⟩ := Option.isSome_iff_exists.mp linked
  -- What the loop puts out in the body is what a walk puts out.
  have walked : ∀ now : Progress, now.linkage = some linkage →
      (processFrom resources lines now i).map (·.output) =
        (runBody now.passed i (lines.drop i)).map fun passage => now.output ++ passage.1 := by
    intro now known
    have framed := congrArg (Except.map Prod.fst) (Walk.run_passage (now.walk lines i))
    rw [map_map, map_map, Walk.output, Progress.walk, List.reverse_reverse] at framed
    rw [processFrom_body known behind, map_map]
    exact framed
  have alone := congrArg (Except.map (progress.output ++ ·))
    (walked { progress with output := [] } known)
  rw [map_map, map_map] at alone
  exact (walked progress known).trans alone.symm

theorem IsLastLabel.replaced {lines : List String} {j : Nat} (last : IsLastLabel lines j)
    (front : List String) : IsLastLabel (front ++ lines.drop j) front.length where
  label := by
    obtain ⟨line, there, marked⟩ := last.label
    refine ⟨line, ?_, marked⟩
    rw [List.getElem?_append_right (Nat.le_refl _), Nat.sub_self, List.getElem?_drop]
    exact there
  last := by
    rw [← List.drop_drop, List.drop_left, List.drop_drop]
    exact last.last

theorem Walk.exists_line {walk : Walk} {error : Error} (failed : walk.run = .error error) :
    ∃ place, error.line? = some place := by
  have framed := walk.run_passage
  rw [failed] at framed
  obtain ⟨front, line, rest, flag, _, there⟩ := runBody_error (error_of_map framed.symm)
  rcases visit_error there with ⟨_, _, rfl⟩ | ⟨_, block⟩
  · exact ⟨_, rfl⟩
  · rcases visitChoices_error block with ⟨_, rfl⟩ | ⟨_, _, ⟨_, rfl⟩ | ⟨_, rfl, _⟩⟩ <;>
      exact ⟨_, rfl⟩

/-- The walk through the lines behind the last label, counted from there, with what has been done
so far. -/
def endingWalk (progress : Progress) (ending : List String) : Walk :=
  ⟨0, ending, progress.output.reverse, progress.passed, progress.picture⟩

/-- What comes of an event from a place that the loop comes to, apart from where that place is. -/
theorem contents_of_ending {resources : Resources} {lines ending : List String}
    {progress : Progress} {linkage : UInt32} {k : Nat} (known : progress.linkage = some linkage)
    (reached : Reaches resources lines progress (k + 1)) (behind : lines.drop (k + 1) = ending) :
    (convert resources lines).map Conversion.contents =
      ((((endingWalk progress ending).run.map fun walk => walk.progress linkage).bind
        (finish resources)).map Conversion.contents).mapError (Error.shift (k + 1)) := by
  have moved : (endingWalk progress ending).Moved (k + 1) (progress.walk lines (k + 1)) :=
    ⟨(Nat.zero_add _).symm, behind, rfl, rfl, rfl⟩
  rw [reached.convert, processFrom_body known (Nat.succ_ne_zero k), moved.finish]

/-- Only the last ending counts. From the label that it visits the loop goes on behind the last
label of the event, with what has been done so far, and it visits no other label of the body. The
lines between the two labels may be replaced by any others: the same contents are put out with the
same linkage, or the conversion fails with the same error at the line that has moved. -/
theorem last_ending_counts {resources : Resources} {lines : List String} {progress : Progress}
    {i j : Nat} {label : String} (visited : BodyVisit resources lines progress i label)
    (marked : isLabel label = true) (last : IsLastLabel lines j) :
    i ≤ j ∧ Turn resources lines (progress, i) (progress, j + 1) ∧
    convert resources lines =
      (processFrom resources lines progress (j + 1)).bind (finish resources) ∧
    (processFrom resources lines progress (j + 1)).map (·.output) =
      (processFrom resources lines { progress with output := [] } (j + 1)).map
        (progress.output ++ ·.output) ∧
    (∀ other k line, BodyVisit resources lines other k line → isLabel line = true → k = i) ∧
    (i < j → ∃ ending : Except Error (List Content × UInt32),
      (convert resources lines).map Conversion.contents = ending.mapError (Error.shift (j + 1)) ∧
      (∀ gap, (convert resources (lines.take (i + 1) ++ gap ++ lines.drop j)).map
          Conversion.contents = ending.mapError (Error.shift (i + gap.length + 2))) ∧
      ∀ error, ending = .error error → ∃ place, error.line? = some place) := by
  have turn := visited.turn_label marked last
  obtain ⟨linkage, known⟩ := Option.isSome_iff_exists.mp visited.linked
  have single : ∀ other k line, BodyVisit resources lines other k line → isLabel line = true →
      k = i := fun other k line again same => visited.label_unique marked again same last
  refine ⟨last.le visited.there marked, turn, Reaches.convert (visited.reached.tail turn),
    output_processFrom visited.linked (Nat.succ_ne_zero j), single, fun _ => ?_⟩
  -- What comes of the lines behind the last label if they are counted from there.
  let ending := (endingWalk progress (lines.drop (j + 1))).run
  refine ⟨((ending.map fun walk => walk.progress linkage).bind (finish resources)).map
    Conversion.contents, ?_, fun gap => ?_, ?_⟩
  · exact contents_of_ending known (visited.reached.tail turn) rfl
  · have inside : (lines.take (i + 1)).length = i + 1 := List.length_take_of_le visited.inside
    have place : (lines.take (i + 1) ++ gap).length = i + gap.length + 1 := by
      rw [List.length_append, inside]
      omega
    have final := last.replaced (lines.take (i + 1) ++ gap)
    have agree : (lines.take (i + 1) ++ gap ++ lines.drop j).take (i + 1) = lines.take (i + 1) := by
      rw [List.append_assoc, List.take_left' inside]
    have behind : (lines.take (i + 1) ++ gap ++ lines.drop j).drop (i + gap.length + 1 + 1) =
        lines.drop (j + 1) := by
      rw [← place, ← List.drop_drop, List.drop_left, List.drop_drop]
    have again := visited.of_agree agree fun other k line earlier met => by
      rw [← Bool.not_eq_true]
      intro same
      have := single other k line met same
      omega
    rw [place] at final
    exact contents_of_ending known (again.reached.tail (again.turn_label marked final)) behind
  · intro error failed
    cases ran : ending with
    | error other =>
        rw [ran] at failed
        cases failed
        exact Walk.exists_line ran
    | ok walk =>
        obtain ⟨conversion, finished⟩ := exists_finish resources walk linkage
        rw [ran] at failed
        simp only [Except.map, Except.bind, finished] at failed
        cases failed

/-- Two endings, with a branch in the first that is not closed. -/
def twoEndings : List String :=
  ["  Label([\"A\"])", "  ConditionalBranch([0])", "  Label([\"B\"])", "  ShowText([\"Ah!\"])"]

theorem last_ending_counts_twoEndings :
    BodyVisit ⟨fun _ => none, none⟩ (linkedEvent twoEndings)
        ⟨[⟨.source 0, .header⟩], some 3101, false, none⟩ 2 "  Label([\"A\"])" ∧
      isLabel "  Label([\"A\"])" = true ∧ IsLastLabel (linkedEvent twoEndings) 4 ∧ 2 < 4 ∧
      (convert ⟨fun _ => none, none⟩
          (linkedEvent ["  Label([\"A\"])", "  Label([\"B\"])", "  ShowText([\"Ah!\"])"])).map
        Conversion.contents = .ok ([.header, .verbatim "  ShowText([\"Ah!\"])"], 3101) := by
  have visited : BodyVisit ⟨fun _ => none, none⟩ (linkedEvent twoEndings)
      ⟨[⟨.source 0, .header⟩], some 3101, false, none⟩ 2 "  Label([\"A\"])" :=
    ⟨reaches_linkedEvent twoEndings, rfl, rfl⟩
  have marked : isLabel "  Label([\"A\"])" = true := by decide
  have last : IsLastLabel (linkedEvent twoEndings) 4 := ⟨⟨_, rfl, by decide⟩, by decide⟩
  have converted : convert ⟨fun _ => none, none⟩ (linkedEvent twoEndings) =
      .ok ⟨[⟨.source 0, .header⟩, .copy 5 "  ShowText([\"Ah!\"])"], 3101⟩ := by decide +kernel
  obtain ⟨ending, whole, replaced, _⟩ :=
    (last_ending_counts visited marked last).2.2.2.2.2 (by decide)
  refine ⟨visited, marked, last, by decide, (replaced []).trans ?_⟩
  rw [converted] at whole
  cases ending with
  | error error => cases whole
  | ok contents => exact whole.symm

end SceneGallery.Event
