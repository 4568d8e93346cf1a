import SceneGallery.Proofs.Event.Keyword
import SceneGallery.Proofs.Event.Provenance
set_option autoImplicit false

namespace SceneGallery.Event

open Text

/-- Up to the last character of a word, nothing is replaced in a text that goes on with the word and
a start of its replacement. -/
theorem replaceFrom_front {stem new front : List Char} {last : Char} (kept : stem <+: new)
    (absent : last ∉ front) (rest : List Char) :
    ∃ others, replaceFrom (stem ++ [last]) new 0 (front ++ rest) = front ++ others := by
  induction front with
  | nil => exact ⟨_, rfl⟩
  | cons c front ih =>
      obtain ⟨others, later⟩ := ih fun member => absent (List.mem_cons_of_mem c member)
      rw [List.cons_append, replaceFrom]
      by_cases here : (stem ++ [last]).isPrefixOf (c :: (front ++ rest)) = true
      · have starts : stem ++ [last] <+: c :: front ++ rest := List.isPrefixOf_iff_prefix.mp here
        have within : c :: front <+: stem := by
          rcases List.prefix_or_prefix_of_prefix starts (List.prefix_append _ _) with whole | part
          · exact absurd (whole.subset (List.mem_append_right _ List.mem_cons_self)) absent
          · rcases List.prefix_concat_iff.mp part with same | part
            · exact absurd (same ▸ List.mem_append_right _ List.mem_cons_self) absent
            · exact part
        obtain ⟨more, spelled⟩ := within.trans kept
        rw [if_pos here, ← spelled, List.append_assoc]
        exact ⟨_, rfl⟩
      · rw [if_neg here, later]
        exact ⟨others, rfl⟩

theorem isBlank_of_isDigit {c : Char} (digit : c.isDigit = true) : isBlank c = false :=
  isBlank_of_isDecimal (isDecimal_of_isDigit digit)

theorem toLower_of_isDigit {c : Char} (digit : c.isDigit = true) : c.toLower = c := by
  have below : c.val ≤ '9'.val := by
    rw [Char.isDigit, Bool.and_eq_true, decide_eq_true_eq, decide_eq_true_eq] at digit
    exact digit.2
  refine dif_neg ?_
  rintro ⟨upper, _⟩
  exact absurd (UInt32.le_trans upper below) (by decide)

theorem isShowPicture_replaceAll {name next line : String} (shows : isShowPicture line = true)
    (continued : nextPictureName? name = some next) :
    isShowPicture (replaceAll name next line) = true := by
  obtain ⟨stem, digit, spelled, numbered, grown⟩ := nextPictureName?_eq_some_iff.mp continued
  have kept : stem <+: next.toList := ⟨_, grown.symm⟩
  obtain ⟨blanks, words, rest, standing, blank, same⟩ := exists_words_of_isCommand shows
  have unnumbered : digit ∉ blanks ++ words := by
    rw [List.mem_append, not_or]
    constructor
    · intro member
      have solid := isBlank_of_isDigit numbered
      rw [blank digit member] at solid
      cases solid
    · intro member
      have inside : digit ∈ folded "ShowPicture(".toList := by
        rw [← same, ← toLower_of_isDigit numbered]
        exact List.mem_map_of_mem member
      have letters : (folded "ShowPicture(".toList).any Char.isDigit = false := by decide
      exact List.any_eq_false.mp letters digit inside numbered
  obtain ⟨others, replaced⟩ := replaceFrom_front kept unnumbered rest
  have nonempty : name.isEmpty = false := by
    rw [← Bool.not_eq_true, String.isEmpty_iff, ← String.toList_eq_nil_iff, spelled]
    exact List.append_ne_nil_of_right_ne_nil _ (List.cons_ne_nil _ _)
  have written : (replaceAll name next line).toList = blanks ++ (words ++ others) := by
    rw [replaceAll, nonempty, if_neg Bool.false_ne_true, String.toList_ofList, spelled, standing,
      ← List.append_assoc, replaced, List.append_assoc]
  have solid : (folded "ShowPicture(".toList).any isBlank = false := by decide
  exact isCommand_of_words (by decide)
    (fun c member => Bool.eq_false_iff.mpr (List.any_eq_false.mp solid c member)) written blank same

theorem Walk.run_picture {holds : String → Prop} {walk ended : Walk}
    (finished : walk.run = .ok ended)
    (each : ∀ line ∈ walk.pending, isShowPicture line = true → holds line)
    (shown : ∀ picture ∈ walk.picture, holds picture.line) :
    ∀ picture ∈ ended.picture, holds picture.line := by
  induction remaining : walk.pending.length using Nat.strongRecOn generalizing walk with
  | ind length ih =>
      cases next : walk.pending with
      | nil =>
          rw [Walk.run_of_nil next] at finished
          cases finished
          exact shown
      | cons line rest =>
          rw [Walk.run_of_cons next] at finished
          cases visited : visit walk.passed walk.position line rest with
          | error error =>
              rw [visited] at finished
              cases finished
          | ok made =>
              rw [visited] at finished
              have shorter := walk.after_pending_length_lt line rest made next
              rw [next, List.forall_mem_cons] at each
              refine ih _ (by omega) finished
                (fun other member => each.2 other (List.mem_of_mem_drop member)) ?_ rfl
              intro picture there
              cases visits_of_visit visited with
              | picture _ shows =>
                  cases there
                  exact each.1 shows
              | choices _ _ _ block =>
                  obtain ⟨_, _, _, silent, _⟩ := visitChoices_cases block
                  simp only [Walk.after, silent, Bool.false_eq_true, ↓reduceIte] at there
                  exact shown picture there
              | _ => exact shown picture there

theorem insertIdx_cases {α : Type} (items : List α) (place : Nat) (new : α) :
    items.insertIdx place new = items ∨
      ∃ front back, items = front ++ back ∧ items.insertIdx place new = front ++ new :: back := by
  induction items generalizing place with
  | nil =>
      cases place with
      | zero => exact .inr ⟨[], [], rfl, rfl⟩
      | succ place => exact .inl (List.insertIdx_of_length_lt (Nat.zero_lt_succ place))
  | cons first items ih =>
      cases place with
      | zero => exact .inr ⟨[], first :: items, rfl, rfl⟩
      | succ place =>
          rw [List.insertIdx_succ_cons]
          rcases ih place with same | ⟨front, back, spelled, inserted⟩
          · exact .inl (congrArg (first :: ·) same)
          · exact .inr ⟨first :: front, back, congrArg (first :: ·) spelled,
              congrArg (first :: ·) inserted⟩

/-- The output, or the output with one line more, which shows a picture. -/
inductive Continued (output : List OutputLine) : List OutputLine → Prop
  | same : Continued output output
  | added {front back : List OutputLine} {text : String} (spelled : output = front ++ back)
      (shows : isShowPicture text = true) :
      Continued output (front ++ ⟨.continuation, .verbatim text⟩ :: back)

/-- A picture is added under the next name in the line of the last one, if there is such a picture
and a place for it. -/
theorem find_eq_added_iff {exists? : String → Bool} {output : List OutputLine}
    {picture : Option ShownPicture} {name next line : String} {place : Nat} :
    Continuation.find exists? output picture = .added name next place line ↔
      ∃ shown, picture = some shown ∧ pictureName? (trim shown.line.toList) = some name ∧
        nextPictureName? name = some next ∧ exists? next = true ∧
        secondTextAttributes output shown.output = some place ∧
        line = replaceAll name next shown.line := by
  constructor
  · intro found
    cases picture with
    | none => cases found
    | some shown =>
        simp only [Continuation.find] at found
        split at found
        · cases found
        · rename_i name' named
          split at found
          · cases found
          · rename_i next' follows
            split at found
            · cases found
            · rename_i stored
              split at found
              · cases found
              · rename_i place' second
                cases found
                exact ⟨shown, rfl, named, follows, by simpa using stored, second, rfl⟩
  · rintro ⟨shown, rfl, named, follows, stored, second, rfl⟩
    simp only [Continuation.find, named, follows, stored, second, Bool.not_true,
      Bool.false_eq_true, ↓reduceIte]

theorem continued_apply {exists? : String → Bool} {output : List OutputLine}
    {picture : Option ShownPicture}
    (shown : ∀ last ∈ picture, isShowPicture last.line = true) :
    Continued output ((Continuation.find exists? output picture).apply output) := by
  cases found : Continuation.find exists? output picture with
  | added name next place line =>
      obtain ⟨last, there, _, continued, _, _, rfl⟩ := find_eq_added_iff.mp found
      have shows := isShowPicture_replaceAll (shown last there) continued
      rw [Continuation.apply]
      rcases insertIdx_cases output place ⟨.continuation, .verbatim _⟩ with
        same | ⟨front, back, spelled, inserted⟩
      · rw [same]
        exact .same
      · rw [inserted]
        exact .added spelled shows
  | _ => exact .same

/-- What a conversion puts out: the preamble, the first picture of the defeat event, the body, and
one line at most that continues a picture. -/
theorem convert_shape {resources : Resources} {lines : List String} {conversion : Conversion}
    (converted : convert resources lines = .ok conversion) :
    ∃ preamble output flag, Preamble.ofLines lines = .ok preamble ∧
      runBody false (preamble.position + 1) preamble.body = .ok (output, flag) ∧
      conversion.linkage = preamble.linkage ∧
      Continued (preamble.output ++ openingLines (resources.openingPicture? preamble.linkage) ++
        output) conversion.lines := by
  obtain ⟨preamble, walk, output, flag, read, walked, passage, written, finished⟩ :=
    convert_walk converted
  refine ⟨preamble, output, flag, read, passage, ?_⟩
  obtain ⟨linked, extended⟩ := finish_cases finished
  refine ⟨(Option.some.inj linked).symm, ?_⟩
  rw [← written]
  rcases extended with same | ⟨exists?, _, extended⟩
  · rw [same]
    exact .same
  · rw [extended]
    exact continued_apply (Walk.run_picture walked (fun _ _ shows => shows) nofun)

end SceneGallery.Event
