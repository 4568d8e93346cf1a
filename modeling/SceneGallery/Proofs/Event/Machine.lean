import Mathlib.Data.List.InsertIdx
import SceneGallery.Event.Conversion
import SceneGallery.Proofs.Event.Locality
set_option autoImplicit false

/- A conversion as a loop over the places of the lines. One turn of the loop handles the line at a
place and gives the place to go on from, which is further on and not behind the end. The loop and
the conversion by parts have the same outcome. -/
namespace SceneGallery.Event

/-- What has been done when the loop comes to a line. -/
structure Progress where
  output : List OutputLine := []
  /-- The defeat event, as soon as it is known. Before that the loop is in the preamble. -/
  linkage : Option UInt32 := none
  passed : Bool := false
  picture : Option ShownPicture := none

/-- The progress after a visit of a line of the body. -/
def Progress.after (progress : Progress) (position : Nat) (line : String) (made : Visit) :
    Progress where
  output := progress.output ++ made.output
  linkage := progress.linkage
  passed := progress.passed || made.passesChoices
  picture :=
    if made.showsPicture then some ⟨position, line, progress.output.length⟩ else progress.picture

/-- Handles the line at a place, and gives the place of the line to handle next. -/
def processLine (resources : Resources) (lines : List String) (progress : Progress) (i : Nat)
    (inside : i < lines.length) : Except Error (Progress × Nat) :=
  if i = 0 then
    .ok ({ progress with output := progress.output ++ [⟨.source 0, .header⟩] }, 1)
  else
    match progress.linkage with
    | none =>
      if isDispatch lines[i] then
        .ok ({ progress with output := progress.output ++ [⟨.source i, .dispatch⟩] }, i + 1)
      else if namesDefeat lines[i] then
        (readLinkage i lines[i]).map fun linkage =>
          ({ progress with
              linkage := some linkage
              output := progress.output ++ openingLines (resources.openingPicture? linkage) },
            i + 1)
      else .ok ({ progress with output := progress.output ++ [.copy i lines[i]] }, i + 1)
    | some _ =>
      (visit progress.passed i lines[i] (lines.drop (i + 1))).map fun made =>
        (progress.after i lines[i] made, i + 1 + made.extra)

/-- Every turn goes on, and not beyond the end. -/
theorem processLine_advances {resources : Resources} {lines : List String}
    {progress later : Progress} {i next : Nat} {inside : i < lines.length}
    (processed : processLine resources lines progress i inside = .ok (later, next)) :
    i < next ∧ next ≤ lines.length := by
  rw [processLine] at processed
  by_cases first : i = 0
  · rw [if_pos first] at processed
    cases processed
    omega
  · rw [if_neg first] at processed
    cases known : progress.linkage with
    | none =>
        rw [known] at processed
        simp only at processed
        split at processed
        · cases processed
          omega
        · split at processed
          · obtain ⟨linkage, _, same⟩ := exists_of_map_ok processed
            cases same
            omega
          · cases processed
            omega
    | some linkage =>
        rw [known] at processed
        simp only at processed
        obtain ⟨made, visited, same⟩ := exists_of_map_ok processed
        cases same
        have used := visit_extra_le visited
        rw [List.length_drop] at used
        omega

/-- Handles the lines from a place on, turn by turn. -/
def processFrom (resources : Resources) (lines : List String) (progress : Progress) (i : Nat) :
    Except Error Progress :=
  if inside : i < lines.length then
    match _processed : processLine resources lines progress i inside with
    | .error error => .error error
    | .ok (later, next) => processFrom resources lines later next
  else .ok progress
termination_by lines.length - i
decreasing_by
  have advanced := processLine_advances (by assumption)
  omega

/-- What a conversion returns when the loop has ended. -/
def finish (resources : Resources) (progress : Progress) : Except Error Conversion :=
  match progress.linkage with
  | none => .error .unterminatedPreamble
  | some linkage =>
    match resources.pictures with
    | none => .ok ⟨progress.output, linkage⟩
    | some exists? =>
      .ok ⟨(Continuation.find exists? progress.output progress.picture).apply progress.output,
        linkage⟩

theorem finish_cases {resources : Resources} {progress : Progress} {conversion : Conversion}
    (finished : finish resources progress = .ok conversion) :
    progress.linkage = some conversion.linkage ∧
      (conversion.lines = progress.output ∨
        ∃ exists?, resources.pictures = some exists? ∧ conversion.lines =
          (Continuation.find exists? progress.output progress.picture).apply progress.output) := by
  rw [finish] at finished
  cases known : progress.linkage with
  | none =>
      rw [known] at finished
      cases finished
  | some linkage =>
      rw [known] at finished
      cases pictures : resources.pictures with
      | none =>
          rw [pictures] at finished
          cases finished
          exact ⟨rfl, .inl rfl⟩
      | some exists? =>
          rw [pictures] at finished
          cases finished
          exact ⟨rfl, .inr ⟨exists?, rfl, rfl⟩⟩

theorem mem_apply {output : List OutputLine} {continuation : Continuation} {line : OutputLine}
    (member : line ∈ continuation.apply output) :
    line ∈ output ∨ ∃ name next place text, continuation = .added name next place text ∧
      line = ⟨.continuation, .verbatim text⟩ := by
  cases continuation with
  | added name next place text =>
      rcases List.eq_or_mem_of_mem_insertIdx member with rfl | member
      · exact .inr ⟨name, next, place, text, rfl, rfl⟩
      · exact .inl member
  | _ => exact .inl member

theorem processFrom_of_lt {resources : Resources} {lines : List String} {progress : Progress}
    {i : Nat} (inside : i < lines.length) :
    processFrom resources lines progress i =
      match processLine resources lines progress i inside with
      | .error error => .error error
      | .ok (later, next) => processFrom resources lines later next := by
  rw [processFrom, dif_pos inside]
  split <;> rename_i processed <;> rw [processed]

theorem processFrom_of_le {resources : Resources} {lines : List String} {progress : Progress}
    {i : Nat} (outside : lines.length ≤ i) :
    processFrom resources lines progress i = .ok progress := by
  rw [processFrom, dif_neg (by omega)]

/-- The walk that goes on from a place in the body. -/
def Progress.walk (progress : Progress) (lines : List String) (i : Nat) : Walk :=
  ⟨i, lines.drop i, progress.output.reverse, progress.passed, progress.picture⟩

/-- What a walk has done. -/
def Walk.progress (walk : Walk) (linkage : UInt32) : Progress :=
  ⟨walk.output, some linkage, walk.passed, walk.picture⟩

/-- In the body, the turns of the loop are the visits of a walk. -/
theorem processFrom_body {resources : Resources} {lines : List String} {progress : Progress}
    {linkage : UInt32} {i : Nat} (known : progress.linkage = some linkage) (behind : i ≠ 0) :
    processFrom resources lines progress i =
      (progress.walk lines i).run.map fun walk => walk.progress linkage := by
  induction remaining : lines.length - i using Nat.strongRecOn generalizing progress i with
  | ind left ih =>
      by_cases inside : i < lines.length
      · have next : (progress.walk lines i).pending = lines[i] :: lines.drop (i + 1) :=
          List.drop_eq_getElem_cons inside
        rw [processFrom_of_lt inside, Walk.run_of_cons next, processLine, if_neg behind, known]
        simp only [Progress.walk]
        cases visited : visit progress.passed i lines[i] (lines.drop (i + 1)) with
        | error error => rfl
        | ok made =>
            have later : processFrom resources lines (progress.after i lines[i] made)
                (i + 1 + made.extra) = _ :=
              ih (lines.length - (i + 1 + made.extra)) (by omega) known (by omega) rfl
            simp only [Except.map] at later ⊢
            rw [later]
            simp only [Progress.walk, Progress.after, Walk.after, List.drop_drop,
              List.reverse_append, List.length_reverse]
      · have ended : (progress.walk lines i).pending = [] :=
          List.drop_eq_nil_of_le (by omega)
        rw [processFrom_of_le (by omega), Walk.run_of_nil ended]
        simp only [Except.map, Walk.progress, Walk.output, Progress.walk, List.reverse_reverse,
          ← known]

/-- Converts the rest of an event behind its preamble. -/
def convertBody (resources : Resources) (preamble : Preamble) : Except Error Conversion :=
  ((preamble.startWalk (openingLines (resources.openingPicture? preamble.linkage))).run.map
    fun walk => walk.progress preamble.linkage).bind (finish resources)

theorem convert_eq_bind (resources : Resources) (lines : List String) :
    convert resources lines = (Preamble.ofLines lines).bind (convertBody resources) := by
  rw [convert, attempt]
  cases Preamble.ofLines lines with
  | error error => rfl
  | ok preamble =>
      simp only [Except.bind, convertBody]
      cases (preamble.startWalk
        (openingLines (resources.openingPicture? preamble.linkage))).run with
      | error error => rfl
      | ok walk =>
          simp only [Except.map, Walk.progress, finish]
          cases resources.pictures with
          | none => rfl
          | some exists? => rfl

/-- A preamble with lines in front of it. -/
def Preamble.behind (output : List OutputLine) (preamble : Preamble) : Preamble :=
  { preamble with output := output ++ preamble.output }

theorem behind_cons (read : Except Error Preamble) (output : List OutputLine) (line : OutputLine) :
    (read.map (Preamble.cons line)).map (Preamble.behind output) =
      read.map (Preamble.behind (output ++ [line])) := by
  cases read with
  | error error => rfl
  | ok preamble =>
      simp only [Except.map, Preamble.cons, Preamble.behind, List.append_assoc,
        List.singleton_append]

/-- In the preamble, the turns of the loop read it line by line and then leave it. -/
theorem processFrom_preamble {resources : Resources} {lines : List String}
    {output : List OutputLine} {i : Nat} (behind : i ≠ 0) :
    (processFrom resources lines { output := output } i).bind (finish resources) =
      ((readPreamble i (lines.drop i)).map (Preamble.behind output)).bind
        (convertBody resources) := by
  induction remaining : lines.length - i using Nat.strongRecOn generalizing output i with
  | ind left ih =>
      by_cases inside : i < lines.length
      · have later : ∀ output, (processFrom resources lines { output := output } (i + 1)).bind
            (finish resources) = _ :=
          fun output => ih (lines.length - (i + 1)) (by omega) (by omega) rfl
        rw [processFrom_of_lt inside, processLine, if_neg behind,
          List.drop_eq_getElem_cons inside, readPreamble]
        simp only
        by_cases dispatch : isDispatch lines[i] = true
        · rw [if_pos dispatch, if_pos dispatch, behind_cons]
          exact later _
        · rw [if_neg dispatch, if_neg dispatch]
          by_cases names : namesDefeat lines[i] = true
          · rw [if_pos names, if_pos names]
            cases readLinkage i lines[i] with
            | error error => rfl
            | ok linkage =>
                simp only [Except.map]
                rw [processFrom_body rfl (by omega)]
                simp only [Except.bind, convertBody, Preamble.behind, Preamble.startWalk,
                  Progress.walk, List.append_nil]
          · rw [if_neg names, if_neg names, behind_cons]
            exact later _
      · rw [processFrom_of_le (by omega), List.drop_eq_nil_of_le (by omega)]
        rfl

/-- The loop and the conversion by parts have the same outcome. -/
theorem convert_eq_loop (resources : Resources) (lines : List String) :
    convert resources lines = (processFrom resources lines {} 0).bind (finish resources) := by
  rw [convert_eq_bind]
  cases lines with
  | nil =>
      have ended : processFrom resources [] {} 0 = .ok {} := processFrom_of_le (Nat.le_refl 0)
      rw [ended]
      rfl
  | cons line rest =>
      rw [processFrom_of_lt (Nat.zero_lt_succ _), processLine, if_pos rfl]
      simp only [List.nil_append]
      rw [processFrom_preamble (by omega)]
      rfl

end SceneGallery.Event
