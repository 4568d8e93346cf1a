import Mathlib.Data.List.InsertIdx
import SceneGallery.Proofs.Event.LastShown
import SceneGallery.Proofs.Text.Occurrence
set_option autoImplicit false

namespace SceneGallery.Event

open Text Text.Pattern

/-- What stands in front of the name of a picture: a bracket, a number of one digit, a comma and a
double quote, with blanks allowed between them. -/
inductive OpensName : List Char → Prop
  | spelled {ahead behind gap : List Char} {digit : Char}
      (blankAhead : ∀ c ∈ ahead, isBlank c = true) (decimal : isDecimal digit = true)
      (blankBehind : ∀ c ∈ behind, isBlank c = true) (blankGap : ∀ c ∈ gap, isBlank c = true) :
      OpensName ('[' :: (ahead ++ digit :: (behind ++ ',' :: (gap ++ ['"']))))

/-- What stands behind the name of a picture: a double quote and a comma, with blanks allowed
between them. -/
inductive ClosesName : List Char → Prop
  | spelled {gap rest : List Char} (blank : ∀ c ∈ gap, isBlank c = true) :
      ClosesName ('"' :: (gap ++ ',' :: rest))

/-- Where a line names its picture: all that stands in front of the name, and all that stands behind
it. The name is the one at the leftmost place where the line, without the blanks around it, has the
arguments of a picture. -/
inductive NamesPicture (line name : String) : List Char → List Char → Prop
  | leftmost {lead before opening closing trail : List Char}
      (spelled : line.toList = lead ++ (trim line.toList ++ trail))
      (blankLead : ∀ c ∈ lead, isBlank c = true) (blankTrail : ∀ c ∈ trail, isBlank c = true)
      (arguments : trim line.toList = before ++ (opening ++ (name.toList ++ closing)))
      (first : ∀ earlier later, trim line.toList = earlier ++ later →
        earlier.length < before.length → picturePattern later = none)
      (opens : OpensName opening) (unquoted : '"' ∉ name.toList) (closes : ClosesName closing) :
      NamesPicture line name (lead ++ (before ++ opening)) (closing ++ trail)

theorem spelled_of_picturePattern {s name : List Char} (read : picturePattern s = some name) :
    ∃ opening closing, s = opening ++ (name ++ closing) ∧ OpensName opening ∧ '"' ∉ name ∧
      ClosesName closing := by
  obtain ⟨_, rfl, numbered⟩ := word_eq_some_iff.mp read
  obtain ⟨ahead, _, rfl, blankAhead, single⟩ := exists_of_gap numbered
  obtain ⟨number, _, rfl, one, decimal, separated⟩ := exactly_eq_some_iff.mp single
  obtain ⟨digit, rfl⟩ := List.length_eq_one_iff.mp one
  obtain ⟨behind, _, rfl, blankBehind, comma⟩ := exists_of_gap separated
  obtain ⟨_, rfl, opened⟩ := word_eq_some_iff.mp comma
  obtain ⟨gap, _, rfl, blankGap, quote⟩ := exists_of_gap opened
  obtain ⟨s, rfl, naming⟩ := word_eq_some_iff.mp quote
  obtain ⟨_, closed⟩ := run_eq_some_iff.mp naming
  obtain ⟨closing, behindName, ended⟩ := word_eq_some_iff.mp closed
  obtain ⟨blanks, _, rfl, blank, last⟩ := exists_of_gap ended
  obtain ⟨rest, rfl, same⟩ := word_eq_some_iff.mp last
  obtain rfl : s.takeWhile (· != '"') = name := Option.some.inj same
  refine ⟨_, _, ?_, .spelled blankAhead (decimal digit List.mem_cons_self) blankBehind blankGap,
    ?_, @ClosesName.spelled _ rest blank⟩
  · have whole := List.takeWhile_append_dropWhile (p := (· != '"')) (l := s)
    rw [behindName] at whole
    simp only [List.append_assoc, List.cons_append, List.nil_append]
    conv => lhs; rw [← whole]
    rfl
  · intro member
    exact absurd (List.mem_takeWhile_imp member) (by decide)

theorem exists_namesPicture {line name : String}
    (named : pictureName? (trim line.toList) = some name) :
    ∃ front back, NamesPicture line name front back := by
  obtain ⟨text, found, rfl⟩ := Option.map_eq_some_iff.mp named
  obtain ⟨before, after, arguments, read, first⟩ := exists_first_of_search found
  obtain ⟨opening, closing, rfl, opens, unquoted, closes⟩ := spelled_of_picturePattern read
  obtain ⟨lead, trail, spelled, blankLead, blankTrail⟩ := exists_blanks_of_trim line.toList
  rw [← String.toList_ofList (l := text)] at arguments unquoted
  exact ⟨_, _, .leftmost spelled blankLead blankTrail arguments first opens unquoted closes⟩

theorem picturePattern_of_unbracketed {before rest earlier later : List Char}
    (unbracketed : '[' ∉ before) (split : before ++ rest = earlier ++ later)
    (shorter : earlier.length < before.length) : picturePattern later = none := by
  obtain ⟨more, rfl⟩ : earlier <+: before :=
    List.prefix_of_prefix_length_le ⟨later, split.symm⟩ (List.prefix_append before rest)
      (Nat.le_of_lt shorter)
  rw [List.append_assoc, List.append_cancel_left_eq] at split
  subst split
  cases more with
  | nil =>
      rw [List.append_nil] at shorter
      exact absurd shorter (Nat.lt_irrefl _)
  | cons c more =>
      apply word_eq_none
      intro starts
      have bracket : '[' = c := (List.cons_prefix_cons.mp starts).1
      exact unbracketed (bracket ▸ List.mem_append_right earlier List.mem_cons_self)

/-- The next name differs from the name at the digit that the name ends in. -/
theorem differAtLast_next {name next : String} (continued : nextPictureName? name = some next) :
    DifferAtLast name.toList next.toList := by
  obtain ⟨stem, digit, spelled, numbered, grown⟩ := nextPictureName?_eq_some_iff.mp continued
  obtain ⟨first, rest, counted⟩ := List.exists_cons_of_ne_nil
    (Nat.toDigits_ne_nil (b := 10) (n := digit.toNat - '0'.toNat + 1))
  refine ⟨stem, digit, first, rest, spelled, counted ▸ grown, ?_⟩
  rintro rfl
  have low : 48 ≤ first.toNat := (Char.isDigit_iff_toNat.mp numbered).1
  have high : first.toNat ≤ 57 := (Char.isDigit_iff_toNat.mp numbered).2
  have unlike : ∀ n : Fin 10,
      (Nat.toDigits 10 (n.val + 1)).head?.map Char.toNat ≠ some (48 + n.val) := by
    decide
  have digits := congrArg (fun digits => digits.head?.map Char.toNat) counted
  exact unlike ⟨first.toNat - 48, by omega⟩
    (digits.trans (congrArg some (Nat.add_sub_cancel' low).symm))

/-- The line of a picture changes where it names the picture, and nowhere else, exactly if the name
stands just there. -/
theorem NamesPicture.replaceAll_eq_iff {line name next : String} {front back : List Char}
    (names : NamesPicture line name front back) (continued : nextPictureName? name = some next) :
    replaceAll name next line = String.ofList (front ++ (next.toList ++ back)) ↔
      ∀ earlier later, line.toList = earlier ++ (name.toList ++ later) → earlier = front := by
  have differ := differAtLast_next continued
  have nonempty : name.isEmpty = false := by
    rw [← Bool.not_eq_true, String.isEmpty_iff, ← String.toList_eq_nil_iff]
    exact differ.ne_nil
  cases names with
  | @leftmost lead before opening closing trail spelled _ _ arguments _ _ unquoted closes =>
      have whole : line.toList =
          lead ++ (before ++ opening) ++ (name.toList ++ (closing ++ trail)) := by
        rw [spelled, arguments]
        simp only [List.append_assoc]
      have quoted : (closing ++ trail).head? = some '"' := by
        cases closes
        rfl
      rw [replaceAll, nonempty, if_neg Bool.false_ne_true, String.ofList_inj, whole]
      exact differ.replaceFrom_eq_iff unquoted quoted

/-- The line that is put in to continue a picture is the line of the picture with the next name in
place of the name where the line names the picture, and nothing else changed, exactly if the name
stands nowhere else in the line. -/
theorem continuing_renames_iff {event : UInt32 → Option (List String)} {exists? : String → Bool}
    {lines : List String} {before after : Conversion}
    (plain : convert ⟨event, none⟩ lines = .ok before)
    (extended : convert ⟨event, some exists?⟩ lines = .ok after)
    (inserted : after.lines ≠ before.lines) :
    ∃ shown name next place text, ContinuedFrom event exists? lines before.lines after.lines shown ∧
      pictureName? (trim shown.line.toList) = some name ∧ nextPictureName? name = some next ∧
      after.lines = before.lines.insertIdx place ⟨.continuation, .verbatim text⟩ ∧
      (∃ front back, NamesPicture shown.line name front back) ∧
      ∀ front back, NamesPicture shown.line name front back →
        (text = String.ofList (front ++ (next.toList ++ back)) ↔
          ∀ earlier later, shown.line.toList = earlier ++ (name.toList ++ later) →
            earlier = front) := by
  obtain ⟨last, output, ended, put, converted, extension⟩ := extended_of_convert plain exists?
  rw [extended] at converted
  cases converted
  cases extension with
  | same => exact absurd rfl inserted
  | @added shown name next place remembered continues =>
      exact ⟨shown, name, next, place, replaceAll name next shown.line,
        ⟨⟨last, ended, put, remembered⟩, name, next, place, continues, rfl⟩, continues.named,
        continues.follows, rfl, exists_namesPicture continues.named,
        fun _ _ names => names.replaceAll_eq_iff continues.follows⟩

theorem namesPicture_pictureLine {name : String} (unquoted : '"' ∉ name.toList) :
    NamesPicture (pictureLine name) name "  ShowPicture([5, \"".toList
      "\", 0, 0, 0, 0, 100, 100, 255, 0])".toList := by
  have blank : ∀ c ∈ "  ".toList, isBlank c = true := List.all_eq_true.mp (by decide)
  have front : "  ShowPicture([5, \"".toList =
      "  ".toList ++ ("ShowPicture(".toList ++ "[5, \"".toList) := by decide
  have whole : (pictureLine name).toList = "  ".toList ++ ("ShowPicture(".toList ++
      ("[5, \"".toList ++ (name.toList ++ "\", 0, 0, 0, 0, 100, 100, 255, 0])".toList))) := by
    rw [pictureLine_eq, String.toList_append, String.toList_append, front]
    simp only [List.append_assoc]
  have arguments : trim (pictureLine name).toList = "ShowPicture(".toList ++ ("[5, \"".toList ++
      (name.toList ++ "\", 0, 0, 0, 0, 100, 100, 255, 0])".toList)) := by
    have words : "ShowPicture(".toList = 'S' :: "howPicture(".toList := by decide
    have letter : ¬ isBlank 'S' = true := by decide
    rw [whole, trim, trimStart, List.dropWhile_append_of_pos blank, words, List.cons_append,
      List.dropWhile_cons_of_neg letter, ← List.cons_append, ← words]
    have last : "\", 0, 0, 0, 0, 100, 100, 255, 0])".toList.getLast? = some ')' := by decide
    have solid : isBlank ')' = false := by decide
    apply trimEnd_of_getLast
    rw [← List.append_assoc, ← List.append_assoc, List.getLast?_append, last, Option.some_or]
    exact fun c there => Option.mem_some_iff.mp there ▸ solid
  have spelled : (pictureLine name).toList =
      "  ".toList ++ (trim (pictureLine name).toList ++ []) := by
    rw [List.append_nil, arguments]
    exact whole
  have opens : OpensName "[5, \"".toList :=
    @OpensName.spelled [] [] [' '] '5' (List.forall_mem_nil _) (by decide) (List.forall_mem_nil _)
      (List.forall_mem_singleton.mpr (by decide))
  exact .leftmost spelled blank (List.forall_mem_nil _) arguments
    (fun _ _ split => picturePattern_of_unbracketed (by decide) (arguments.symm.trans split))
    opens unquoted (@ClosesName.spelled [] _ (List.forall_mem_nil _))

theorem continuing_renames_iff_keptText :
    let lines := linkedEvent (pictureBody keptText)
    let before := pictureOutput keptText
    let after := before.insertIdx 5 ⟨.continuation, .verbatim (pictureLine "alma_h2")⟩
    convert ⟨fun _ => none, none⟩ lines = .ok ⟨before, 3101⟩ ∧
      convert ⟨fun _ => none, some almaPictures⟩ lines = .ok ⟨after, 3101⟩ ∧ after ≠ before ∧
      ∃ shown, ContinuedFrom (fun _ => none) almaPictures lines before after shown ∧
        ∀ earlier later, shown.line.toList = earlier ++ ("alma_h1".toList ++ later) →
          earlier = "  ShowPicture([5, \"".toList := by
  intro lines before after
  obtain ⟨_, ends⟩ := endsPictured_keptText
  obtain ⟨plain, extended⟩ := ends.converted isTextAttributes_keptText
  have inserted : after ≠ before := by
    intro same
    have longer := congrArg List.length same
    cases longer
  obtain ⟨shown, name, next, place, text, continued, named, follows, put, _, decides⟩ :=
    continuing_renames_iff plain extended inserted
  obtain rfl := continued.unique (ends.continuedFrom isTextAttributes_keptText)
  have known : pictureName? (trim (pictureLine "alma_h1").toList) = some "alma_h1" := by
    decide +kernel
  obtain rfl := Option.some.inj (known.symm.trans named)
  have counted : nextPictureName? "alma_h1" = some "alma_h2" := by decide +kernel
  obtain rfl := Option.some.inj (counted.symm.trans follows)
  have written : text = pictureLine "alma_h2" := by
    -- No other line of the output continues a picture.
    have there : ⟨.continuation, .verbatim (pictureLine "alma_h2")⟩ ∈ after := by decide
    rw [show after = _ from put] at there
    rcases List.eq_or_mem_of_mem_insertIdx there with same | member
    · exact (Content.verbatim.inj (OutputLine.mk.inj same).2).symm
    · exact absurd member (by decide)
  refine ⟨plain, extended, inserted, _, continued, ?_⟩
  exact (decides _ _ (namesPicture_pictureLine (by decide))).mp (written.trans (by decide))

/-- A body that shows a picture whose name is a number among its arguments, then two texts. -/
def digitBody : List String :=
  [pictureLine "5", "  ShowTextAttributes([\"\", 0, 0, 2])", "  ShowText([\"Ah!\"])",
    "  ShowTextAttributes([\"\", 0, 0, 2])", "  ShowText([\"Oh!\"])"]

/-- What is put out of the body. -/
def digitOutput : List OutputLine :=
  [⟨.source 0, .header⟩, .copy 2 (pictureLine "5"),
    .copy 3 "  ShowTextAttributes([\"\", 0, 0, 2])", .copy 4 "  ShowText([\"Ah!\"])",
    .copy 5 "  ShowTextAttributes([\"\", 0, 0, 2])", .copy 6 "  ShowText([\"Oh!\"])"]

/-- A name that stands among the arguments of its picture too is replaced there as well: the picture
gets another number and another opacity. -/
theorem not_only_renamed_digitBody :
    let front := "  ShowPicture([5, \"".toList
    let back := "\", 0, 0, 0, 0, 100, 100, 255, 0])".toList
    let text := "  ShowPicture([6, \"6\", 0, 0, 0, 0, 100, 100, 266, 0])"
    convert ⟨fun _ => none, none⟩ (linkedEvent digitBody) = .ok ⟨digitOutput, 3101⟩ ∧
      convert ⟨fun _ => none, some (· == "6")⟩ (linkedEvent digitBody) =
        .ok ⟨digitOutput.insertIdx 4 ⟨.continuation, .verbatim text⟩, 3101⟩ ∧
      pictureName? (trim (pictureLine "5").toList) = some "5" ∧
      nextPictureName? "5" = some "6" ∧ NamesPicture (pictureLine "5") "5" front back ∧
      text ≠ String.ofList (front ++ ("6".toList ++ back)) := by
  intro front back text
  refine ⟨by decide +kernel, by decide +kernel, by decide +kernel, by decide +kernel,
    namesPicture_pictureLine (by decide), by decide⟩

end SceneGallery.Event
