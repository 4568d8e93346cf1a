import SceneGallery.Proofs.Event.Accesses
import SceneGallery.Proofs.Event.Remembered
set_option autoImplicit false

namespace SceneGallery.Event

/-- The picture that an event shows first. -/
def defaultPictureAt? (lines : List String) : Option (Option DefaultPicture) :=
  match lines.findIdx? (isCommand "ShowPicture") with
  | none => some none
  | some place =>
    lines[place]?.map fun shown =>
      match lines[place + 1]? with
      | some next =>
        if isCommand "MovePicture" next then some ⟨shown, some next⟩
        else some ⟨makeVisible shown, none⟩
      | none => some ⟨makeVisible shown, none⟩

theorem defaultPictureAt?_eq (lines : List String) :
    defaultPictureAt? lines = some (defaultPicture? lines) := by
  rw [defaultPictureAt?, defaultPicture?, List.dropWhile_eq_drop_findIdx_not]
  simp only [Bool.not_not]
  cases found : lines.findIdx? (isCommand "ShowPicture") with
  | none =>
      have absent := List.findIdx?_eq_none_iff_findIdx_eq.mp found
      rw [absent, List.drop_length]
  | some place =>
      obtain ⟨inside, here⟩ := List.findIdx?_eq_some_iff_findIdx_eq.mp found
      simp only [here, List.getElem?_eq_getElem inside, Option.map_some,
        List.drop_eq_getElem_cons inside]
      by_cases more : place + 1 < lines.length
      · simp only [List.getElem?_eq_getElem more, List.drop_eq_getElem_cons more]
      · simp only [List.getElem?_eq_none (Nat.le_of_not_lt more),
          List.drop_of_length_le (Nat.le_of_not_lt more)]

/-- The lines that show the first picture of a defeat event. The first of them is told too. -/
def openingAt? (resources : Resources) (linkage : UInt32) : Option (List OutputLine) :=
  match resources.event linkage with
  | none => some []
  | some lines =>
    (defaultPictureAt? lines).bind fun
      | none => some []
      | some picture => picture.lines[0]?.map fun _ => openingLines (some picture)

theorem openingAt?_eq (resources : Resources) (linkage : UInt32) :
    openingAt? resources linkage = some (openingLines (resources.openingPicture? linkage)) := by
  rw [openingAt?, Resources.openingPicture?]
  cases resources.event linkage with
  | none => rfl
  | some lines =>
      simp only [defaultPictureAt?_eq, Option.bind_some]
      cases defaultPicture? lines with
      | none => rfl
      | some picture => rfl

/-- The name of the picture that comes after the given one. -/
def nextPictureNameAt? (name : String) : Option (Option String) :=
  match name.toList.getLast? with
  | none => some none
  | some digit =>
    if digit.isDigit then
      (withoutLast? name digit).map fun stem =>
        some (stem ++ String.ofList (Nat.toDigits 10 (digit.toNat - '0'.toNat + 1)))
    else some none

theorem nextPictureNameAt?_eq (name : String) :
    nextPictureNameAt? name = some (nextPictureName? name) := by
  rw [nextPictureNameAt?, nextPictureName?]
  cases last : name.toList.getLast? with
  | none => rfl
  | some digit =>
      simp only
      by_cases numbered : digit.isDigit = true
      · rw [if_pos numbered, if_pos numbered, withoutLast?_eq last, Option.map_some,
          String.ofList_append]
      · rw [if_neg numbered, if_neg numbered]

/-- Looks for the picture that continues the last one, which is known by its places. -/
def continuationAt? (exists? : String → Bool) (lines : List String) (output : List OutputLine) :
    Option ShownPicture → Option Continuation
  | none => some .noPicture
  | some picture =>
    lines[picture.source]?.bind fun line =>
      match pictureName? (Text.trim line.toList) with
      | none => some (.unnamed line)
      | some name =>
        (nextPictureNameAt? name).bind fun
          | none => some (.unnumbered name)
          | some next =>
            if !exists? next then some (.missing name next)
            else
              (sliceFrom? output picture.output).map fun later =>
                match (later.zipIdx.filter fun (line, _) => line.isTextAttributes)[1]? with
                | none => .nowhere name next
                | some (_, count) =>
                  .added name next (picture.output + count) (Text.replaceAll name next line)

/-- The output with the picture put in. -/
def applyAt? (output : List OutputLine) : Continuation → Option (List OutputLine)
  | .added _ _ place line => insert? output place ⟨.continuation, .verbatim line⟩
  | _ => some output

section Pictures

variable {lines : List String} {output : List OutputLine} {picture : Option ShownPicture}

theorem secondTextAttributes_eq (output : List OutputLine) (start : Nat) :
    secondTextAttributes output start =
      (((output.drop start).zipIdx.filter fun (line, _) => line.isTextAttributes)[1]?).map
        fun (_, count) => start + count := by
  rw [secondTextAttributes, drop_zipIdx, List.zipIdx_eq_map_add, List.filter_map,
    List.getElem?_map, Option.map_map]
  rfl

/-- The remembered places are those of a line and of a line that was put out. -/
theorem continuationAt?_eq (exists? : String → Bool)
    (remembered : ∀ shown, picture = some shown → IsRemembered lines output shown) :
    continuationAt? exists? lines output picture =
      some (Continuation.find exists? output picture) := by
  cases picture with
  | none => rfl
  | some shown =>
      have known := remembered shown rfl
      simp only [continuationAt?, known.source, Option.bind_some, Continuation.find]
      cases pictureName? (Text.trim shown.line.toList) with
      | none => rfl
      | some name =>
          simp only [nextPictureNameAt?_eq, Option.bind_some]
          cases nextPictureName? name with
          | none => rfl
          | some next =>
              simp only
              by_cases missing : (!exists? next) = true
              · rw [if_pos missing, if_pos missing]
              · rw [if_neg missing, if_neg missing, sliceFrom?_eq (Nat.le_of_lt known.inside),
                  secondTextAttributes_eq, Option.map_some]
                cases ((output.drop shown.output).zipIdx.filter
                  fun (line, _) => line.isTextAttributes)[1]? with
                | none => rfl
                | some entry => rfl

/-- A line is put in within the output. -/
theorem applyAt?_find (exists? : String → Bool) (output : List OutputLine)
    (picture : Option ShownPicture) :
    applyAt? output (Continuation.find exists? output picture) =
      some ((Continuation.find exists? output picture).apply output) := by
  cases found : Continuation.find exists? output picture with
  | added name next place line =>
      obtain ⟨shown, _, continues, _⟩ := find_eq_added_iff_continues.mp found
      obtain ⟨_, there, _⟩ := continues.second.sets
      have inside := (List.getElem?_eq_some_iff.mp there).1
      exact insert?_eq _ (Nat.le_of_lt inside)
  | _ => rfl

end Pictures

/-- Handles the line at a place, and gives the place of the line to handle next. -/
def processLineAt? (resources : Resources) (lines : List String) (progress : Progress) (i : Nat) :
    Option (Except Error (Progress × Nat)) :=
  lines[i]?.bind fun line =>
    if i = 0 then
      some (.ok ({ progress with output := progress.output ++ [⟨.source 0, .header⟩] }, 1))
    else
      match progress.linkage with
      | none =>
        if isDispatch line then
          some (.ok
            ({ progress with output := progress.output ++ [⟨.source i, .dispatch⟩] }, i + 1))
        else if namesDefeat line then
          lines[i]?.bind fun naming =>
            match readLinkage i naming with
            | .error error => some (.error error)
            | .ok linkage =>
              (openingAt? resources linkage).map fun opening =>
                .ok ({ progress with
                  linkage := some linkage
                  output := progress.output ++ opening }, i + 1)
        else some (.ok ({ progress with output := progress.output ++ [.copy i line] }, i + 1))
      | some _ =>
        (visitAt? lines progress.passed i line).map fun visited =>
          visited.map fun made => (progress.after i line made, i + 1 + made.extra)

theorem processLineAt?_eq (resources : Resources) {lines : List String} (progress : Progress)
    {i : Nat} (inside : i < lines.length) :
    processLineAt? resources lines progress i =
      some (processLine resources lines progress i inside) := by
  rw [processLineAt?, processLine, List.getElem?_eq_getElem inside, Option.bind_some]
  by_cases first : i = 0
  · rw [if_pos first, if_pos first]
  · rw [if_neg first, if_neg first]
    cases progress.linkage with
    | some linkage => rw [visitAt?_eq progress.passed inside, Option.map_some]
    | none =>
        simp only
        by_cases dispatch : isDispatch lines[i] = true
        · rw [if_pos dispatch, if_pos dispatch]
        · rw [if_neg dispatch, if_neg dispatch]
          by_cases names : namesDefeat lines[i] = true
          · rw [if_pos names, if_pos names, Option.bind_some]
            cases readLinkage i lines[i] with
            | error error => rfl
            | ok linkage =>
                simp only [openingAt?_eq, Option.map_some]
                rfl
          · rw [if_neg names, if_neg names]

/-- Handles the lines from a place on, turn by turn. -/
def processFromAt? (resources : Resources) (lines : List String) (progress : Progress) (i : Nat) :
    Option (Except Error Progress) :=
  if _inside : i < lines.length then
    match _processed : processLineAt? resources lines progress i with
    | none => none
    | some (.error error) => some (.error error)
    | some (.ok (later, next)) => processFromAt? resources lines later next
  else some (.ok progress)
termination_by lines.length - i
decreasing_by
  have advanced := processLine_advances (Option.some_inj.mp
    ((processLineAt?_eq resources progress _inside).symm.trans (by assumption)))
  omega

theorem processFromAt?_eq (resources : Resources) (lines : List String) (progress : Progress)
    (i : Nat) :
    processFromAt? resources lines progress i = some (processFrom resources lines progress i) := by
  induction remaining : lines.length - i using Nat.strongRecOn generalizing progress i with
  | ind left ih =>
      rw [processFromAt?]
      by_cases inside : i < lines.length
      · have line := processLineAt?_eq resources progress inside
        rw [dif_pos inside, processFrom_of_lt inside]
        split <;> rename_i processed <;> rw [line] at processed
        · cases processed
        · rw [Option.some_inj.mp processed]
        · rw [Option.some_inj.mp processed]
          have advanced := processLine_advances (Option.some_inj.mp processed)
          exact ih _ (by omega) _ _ rfl
      · rw [dif_neg inside, processFrom_of_le (Nat.le_of_not_lt inside)]

/-- What a conversion returns when the loop has ended. -/
def finishAt? (resources : Resources) (lines : List String) (progress : Progress) :
    Option (Except Error Conversion) :=
  match progress.linkage with
  | none => some (.error .unterminatedPreamble)
  | some linkage =>
    match resources.pictures with
    | none => some (.ok ⟨progress.output, linkage⟩)
    | some exists? =>
      (continuationAt? exists? lines progress.output progress.picture).bind fun continuation =>
        (applyAt? progress.output continuation).map fun output => .ok ⟨output, linkage⟩

/-- Converts the lines of an event. -/
def convertAt? (resources : Resources) (lines : List String) : Option (Except Error Conversion) :=
  (processFromAt? resources lines {} 0).bind fun
    | .error error => some (.error error)
    | .ok progress => finishAt? resources lines progress

theorem finishAt?_eq (resources : Resources) {lines : List String} {progress : Progress}
    (remembered : ∀ shown, progress.picture = some shown →
      IsRemembered lines progress.output shown) :
    finishAt? resources lines progress = some (finish resources progress) := by
  rw [finishAt?, finish]
  cases progress.linkage with
  | none => rfl
  | some linkage =>
      cases resources.pictures with
      | none => rfl
      | some exists? =>
          simp only [continuationAt?_eq exists? remembered, Option.bind_some, applyAt?_find,
            Option.map_some]

/-- A conversion comes to no place outside. -/
theorem convertAt?_eq (resources : Resources) (lines : List String) :
    convertAt? resources lines = some (convert resources lines) := by
  rw [convertAt?, processFromAt?_eq, convert_eq_loop, Option.bind_some]
  cases done : processFrom resources lines {} 0 with
  | error error => rfl
  | ok last =>
      have reached : Reaches resources lines last lines.length :=
        Reaches.ended .refl (Nat.zero_le _) done
      exact finishAt?_eq resources reached.remembered

end SceneGallery.Event
