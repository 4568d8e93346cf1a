import SceneGallery.Proofs.Event.Continued
import SceneGallery.Proofs.Event.Reached
set_option autoImplicit false

namespace SceneGallery.Event

open Relation Text

/-- A picture as it is remembered: a line of the event shows it, and is copied to its place in the
output. -/
structure IsRemembered (lines : List String) (output : List OutputLine) (shown : ShownPicture) :
    Prop where
  inside : shown.output < output.length
  copied : output[shown.output] = .copy shown.source shown.line
  source : lines[shown.source]? = some shown.line
  shows : isShowPicture shown.line = true

section Remembered

variable {lines : List String} {output : List OutputLine} {shown : ShownPicture}

theorem IsRemembered.append (remembered : IsRemembered lines output shown)
    (more : List OutputLine) : IsRemembered lines (output ++ more) shown where
  inside := by
    rw [List.length_append]
    exact Nat.lt_add_right _ remembered.inside
  copied := by
    rw [List.getElem_append_left remembered.inside]
    exact remembered.copied
  source := remembered.source
  shows := remembered.shows

theorem isRemembered_copy {i : Nat} {line : String} (output : List OutputLine)
    (there : lines[i]? = some line) (shows : isShowPicture line = true) :
    IsRemembered lines (output ++ [.copy i line]) ⟨i, line, output.length⟩ where
  inside := by
    rw [List.length_append, List.length_singleton]
    exact Nat.lt_succ_self _
  copied := List.getElem_concat_length rfl _
  source := there
  shows := shows

end Remembered

theorem isShowPicture_of_battleOnly {line : String} (battle : isBattleOnly line = true) :
    isShowPicture line = false :=
  isCommand_of_any (by decide) battle

/-- What a visit does with a picture: it copies a line that shows one and remembers it, and any
other line leaves the picture as it is. -/
inductive PictureVisit (position : Nat) (line : String) (made : Visit) : Prop
  | kept (unlike : isShowPicture line = false) (silent : made.showsPicture = false)
  | fresh (shows : isShowPicture line = true) (copied : made.output = [.copy position line])
    (recorded : made.showsPicture = true)

theorem pictureVisit_of_visit {passed : Bool} {position : Nat} {line : String} {rest : List String}
    {made : Visit} (visited : visit passed position line rest = .ok made) :
    PictureVisit position line made := by
  cases visits_of_visit visited with
  | battleOnly battle => exact .kept (isShowPicture_of_battleOnly battle) rfl
  | picture _ shows => exact .fresh shows rfl rfl
  | choices _ unlike _ block =>
      obtain ⟨_, _, _, silent, _⟩ := visitChoices_cases block
      exact .kept unlike silent
  | branch _ unlike => exact .kept unlike rfl
  | label _ unlike => exact .kept unlike rfl
  | other _ unlike => exact .kept unlike rfl

section Way

variable {resources : Resources} {lines : List String} {progress : Progress} {i : Nat}

/-- One turn puts lines out behind those before. It keeps the picture, or it remembers the line that
it copies. -/
theorem Turn.picture {next : Progress × Nat} (turn : Turn resources lines (progress, i) next)
    (here : Reaches resources lines progress i) :
    ∃ more, next.1.output = progress.output ++ more ∧
      (next.1.picture = progress.picture ∨
        ∃ line, lines[i]? = some line ∧ isShowPicture line = true ∧ more = [.copy i line] ∧
          next.1.picture = some ⟨i, line, progress.output.length⟩) := by
  cases known : progress.linkage with
  | none =>
      obtain ⟨later, place⟩ := next
      have made := (turn.preamble known).1
      simp only at made
      cases made with
      | header => exact ⟨_, rfl, .inl rfl⟩
      | line => exact ⟨_, rfl, .inl rfl⟩
      | naming => exact ⟨_, rfl, .inl rfl⟩
  | some linkage =>
      obtain ⟨line, made, visited, done, rfl⟩ :=
        turn.body here (Option.isSome_iff_exists.mpr ⟨linkage, known⟩)
      refine ⟨made.output, rfl, ?_⟩
      simp only [Progress.after]
      cases pictureVisit_of_visit done with
      | kept _ silent =>
          left
          rw [silent]
          rfl
      | fresh shows copied recorded =>
          right
          refine ⟨line, visited.there, shows, copied, ?_⟩
          rw [recorded]
          rfl

/-- What one turn keeps: the picture is remembered with its place. -/
theorem Turn.remembered {next : Progress × Nat} (turn : Turn resources lines (progress, i) next)
    (here : Reaches resources lines progress i)
    (known : ∀ shown, progress.picture = some shown → IsRemembered lines progress.output shown) :
    ∀ shown, next.1.picture = some shown → IsRemembered lines next.1.output shown := by
  intro shown remembered
  obtain ⟨more, grown, kept | ⟨line, there, shows, rfl, fresh⟩⟩ := turn.picture here
  · rw [kept] at remembered
    rw [grown]
    exact (known shown remembered).append more
  · rw [fresh] at remembered
    cases remembered
    rw [grown]
    exact isRemembered_copy _ there shows

theorem Reaches.remembered (here : Reaches resources lines progress i) :
    ∀ shown, progress.picture = some shown → IsRemembered lines progress.output shown := by
  have along : ∀ {state}, ReflTransGen (Turn resources lines) ({}, 0) state →
      ∀ shown, state.1.picture = some shown → IsRemembered lines state.1.output shown := by
    intro state turns
    induction turns with
    | refl => exact nofun
    | tail turns turn ih => exact Turn.remembered turn turns ih
  exact along here

theorem Reaches.ended {last : Progress} (here : Reaches resources lines progress i)
    (within : i ≤ lines.length) (done : Event.processFrom resources lines progress i = .ok last) :
    Reaches resources lines last lines.length := by
  induction remaining : lines.length - i using Nat.strongRecOn generalizing progress i with
  | ind left ih =>
      by_cases inside : i < lines.length
      · rw [processFrom_of_lt inside] at done
        cases processed : processLine resources lines progress i inside with
        | error error =>
            rw [processed] at done
            cases done
        | ok next =>
            rw [processed] at done
            obtain ⟨later, place⟩ := next
            have advanced := processLine_advances processed
            have onward : Reaches resources lines later place := here.tail ⟨inside, processed⟩
            exact ih (lines.length - place) (by omega) onward advanced.2 done rfl
      · obtain rfl : i = lines.length := by omega
        rw [processFrom_of_le (Nat.le_refl _)] at done
        cases done
        exact here

end Way

/-- The place of the second line from the given one on that sets how text is shown. -/
structure IsSecondAttributes (output : List OutputLine) (start place : Nat) : Prop where
  sets : ∃ line, output[place]? = some line ∧ line.isTextAttributes = true
  once : ((output.take place).drop start).countP OutputLine.isTextAttributes = 1

/-- Where an item stands among those that are picked out: behind as many as its number. -/
theorem getElem?_filter_eq_some_iff {α : Type} {picked : α → Bool} {items : List α} {count : Nat}
    {item : α} :
    (items.filter picked)[count]? = some item ↔
      ∃ front back, items = front ++ item :: back ∧ picked item = true ∧
        front.countP picked = count := by
  constructor
  · intro found
    obtain ⟨inside, here⟩ := List.getElem?_eq_some_iff.mp found
    have cut : items.filter picked =
        (items.filter picked).take count ++ item :: (items.filter picked).drop (count + 1) := by
      rw [← here, ← List.drop_eq_getElem_cons, List.take_append_drop]
    obtain ⟨left, right, whole, before, behind⟩ := List.filter_eq_append_iff.mp cut
    obtain ⟨gap, back, split, passed, picks, _⟩ := List.filter_eq_cons_iff.mp behind
    refine ⟨left ++ gap, back, ?_, picks, ?_⟩
    · rw [whole, split, List.append_assoc]
    · have none : gap.countP picked = 0 := List.countP_eq_zero.mpr passed
      rw [List.countP_append, none, List.countP_eq_length_filter, before, List.length_take]
      omega
  · intro there
    obtain ⟨front, back, rfl, picks, before⟩ := there
    rw [List.countP_eq_length_filter] at before
    rw [List.filter_append, List.filter_cons_of_pos picks, ← before,
      List.getElem?_append_right (Nat.le_refl _), Nat.sub_self, List.getElem?_cons_zero]

theorem getElem?_filter_zipIdx {α : Type} (picked : α → Bool) {items : List α}
    {start count place : Nat} {item : α} :
    ((items.zipIdx start).filter fun entry => picked entry.1)[count]? = some (item, place) ↔
      ∃ front back, items = front ++ item :: back ∧ place = start + front.length ∧
        picked item = true ∧ front.countP picked = count := by
  have counted : ∀ front : List α,
      (front.zipIdx start).countP (fun entry => picked entry.1) = front.countP picked := by
    intro front
    conv => rhs; rw [← List.zipIdx_map_fst start front, List.countP_map]
    rfl
  rw [getElem?_filter_eq_some_iff]
  constructor
  · intro there
    obtain ⟨numbered, others, whole, picks, before⟩ := there
    obtain ⟨front, rest, rfl, rfl, following⟩ := List.zipIdx_eq_append_iff.mp whole
    obtain ⟨_, back, rfl, same, _⟩ := List.zipIdx_eq_cons_iff.mp following.symm
    cases same
    exact ⟨front, back, rfl, rfl, picks, (counted front).symm.trans before⟩
  · intro there
    obtain ⟨front, back, rfl, rfl, picks, before⟩ := there
    refine ⟨front.zipIdx start, back.zipIdx (start + front.length + 1), ?_, picks,
      (counted front).trans before⟩
    rw [List.zipIdx_append, List.zipIdx_cons]

theorem drop_zipIdx {α : Type} (items : List α) (start : Nat) :
    items.zipIdx.drop start = (items.drop start).zipIdx start := by
  apply List.ext_getElem?
  intro k
  simp only [List.getElem?_drop, List.getElem?_zipIdx, Nat.zero_add]

/-- The place that is looked for is the second one that sets how text is shown. -/
theorem secondTextAttributes_eq_some_iff {output : List OutputLine} {start place : Nat} :
    secondTextAttributes output start = some place ↔ IsSecondAttributes output start place := by
  rw [secondTextAttributes, drop_zipIdx, Option.map_eq_some_iff]
  constructor
  · intro found
    obtain ⟨⟨line, _⟩, entry, rfl⟩ := found
    obtain ⟨front, back, whole, rfl, sets, once⟩ :=
      (getElem?_filter_zipIdx OutputLine.isTextAttributes).mp entry
    refine ⟨⟨line, ?_, sets⟩, ?_⟩
    · rw [← List.getElem?_drop, whole]
      simp
    · rw [List.drop_take, Nat.add_sub_cancel_left, whole, List.take_left]
      exact once
  · intro second
    obtain ⟨line, there, sets⟩ := second.sets
    have once := second.once
    -- In front of the start nothing could be counted once.
    have behind : start ≤ place := by
      by_contra before
      rw [List.drop_take, Nat.sub_eq_zero_of_le (by omega)] at once
      simp at once
    obtain ⟨k, rfl⟩ := Nat.exists_eq_add_of_le behind
    rw [List.drop_take, Nat.add_sub_cancel_left] at once
    rw [← List.getElem?_drop] at there
    obtain ⟨inside, here⟩ := List.getElem?_eq_some_iff.mp there
    refine ⟨(line, start + k), (getElem?_filter_zipIdx OutputLine.isTextAttributes).mpr ?_, rfl⟩
    refine ⟨(output.drop start).take k, (output.drop start).drop (k + 1), ?_, ?_, sets, once⟩
    · rw [← here, ← List.drop_eq_getElem_cons, List.take_append_drop]
    · rw [List.length_take, Nat.min_eq_left (Nat.le_of_lt inside)]

/-- A picture is continued at a place: its line names it, its name ends in a digit, the picture with
the next name exists, and the place is the second one from the picture on that sets how text is
shown. -/
structure Continues (exists? : String → Bool) (output : List OutputLine) (shown : ShownPicture)
    (name next : String) (place : Nat) : Prop where
  named : pictureName? (trim shown.line.toList) = some name
  numbered : ∃ digit, name.toList.getLast? = some digit ∧ digit.isDigit = true
  follows : nextPictureName? name = some next
  stored : exists? next = true
  second : IsSecondAttributes output shown.output place

/-- The line that is put in to continue a picture. -/
def continuingLine (shown : ShownPicture) (name next : String) : OutputLine :=
  ⟨.continuation, .verbatim (replaceAll name next shown.line)⟩

/-- The output behind the loop and what becomes of it: one line is put in if the remembered picture
is continued, and else it stays as it is. -/
inductive Extended (exists? : String → Bool) (picture : Option ShownPicture)
    (output : List OutputLine) : List OutputLine → Prop
  | added {shown : ShownPicture} {name next : String} {place : Nat}
    (remembered : picture = some shown)
    (continues : Continues exists? output shown name next place) :
    Extended exists? picture output (output.insertIdx place (continuingLine shown name next))
  | same (ends : ∀ shown name next place, picture = some shown →
      ¬ Continues exists? output shown name next place) :
    Extended exists? picture output output

section Extension

variable {exists? : String → Bool} {output : List OutputLine} {picture : Option ShownPicture}

/-- The search for a continuation finds the place where the picture is continued. -/
theorem find_eq_added_iff_continues {name next line : String} {place : Nat} :
    Continuation.find exists? output picture = .added name next place line ↔
      ∃ shown, picture = some shown ∧ Continues exists? output shown name next place ∧
        line = replaceAll name next shown.line := by
  rw [find_eq_added_iff]
  constructor
  · intro found
    obtain ⟨shown, remembered, named, follows, stored, second, rfl⟩ := found
    obtain ⟨stem, digit, spelled, numbered, _⟩ := nextPictureName?_eq_some_iff.mp follows
    have last : name.toList.getLast? = some digit := by
      rw [spelled, List.getLast?_concat]
    exact ⟨shown, remembered, ⟨named, ⟨digit, last, numbered⟩, follows, stored,
      secondTextAttributes_eq_some_iff.mp second⟩, rfl⟩
  · intro continued
    obtain ⟨shown, remembered, continues, rfl⟩ := continued
    exact ⟨shown, remembered, continues.named, continues.follows, continues.stored,
      secondTextAttributes_eq_some_iff.mpr continues.second, rfl⟩

theorem extended_apply : Extended exists? picture output
    ((Continuation.find exists? output picture).apply output) := by
  cases found : Continuation.find exists? output picture with
  | added name next place line =>
      obtain ⟨shown, remembered, continues, rfl⟩ := find_eq_added_iff_continues.mp found
      exact .added remembered continues
  | _ =>
      apply Extended.same
      intro shown name next place remembered continues
      have added := find_eq_added_iff_continues.mpr ⟨shown, remembered, continues, rfl⟩
      rw [found] at added
      cases added

end Extension

theorem exists_last {resources : Resources} {lines : List String} {conversion : Conversion}
    (converted : convert resources lines = .ok conversion) :
    ∃ last, Reaches resources lines last lines.length ∧
      finish resources last = .ok conversion := by
  rw [convert_eq_loop] at converted
  obtain ⟨last, done, finished⟩ := exists_of_bind_ok converted
  exact ⟨last, Reaches.ended .refl (Nat.zero_le _) done, finished⟩

theorem Reaches.convert_end {resources : Resources} {lines : List String} {last : Progress}
    (ended : Reaches resources lines last lines.length) :
    Event.convert resources lines = finish resources last := by
  rw [ended.convert, processFrom_of_le (Nat.le_refl _)]
  rfl

section Pictures

variable {event : UInt32 → Option (List String)} {lines : List String}

theorem Reaches.other_pictures {pictures : Option (String → Bool)} {progress : Progress} {i : Nat}
    (here : Reaches ⟨event, pictures⟩ lines progress i) (others : Option (String → Bool)) :
    Reaches ⟨event, others⟩ lines progress i := here

theorem convert_error_pictures (event : UInt32 → Option (List String)) (lines : List String)
    (pictures others : Option (String → Bool)) (error : Error) :
    convert ⟨event, pictures⟩ lines = .error error ↔
      convert ⟨event, others⟩ lines = .error error := by
  have failed : ∀ left right : Option (String → Bool),
      convert ⟨event, left⟩ lines = .error error → convert ⟨event, right⟩ lines = .error error := by
    intro left right wrong
    have same := convert_map_linkage ⟨event, left⟩ lines
    rw [← convert_map_linkage ⟨event, right⟩ lines, wrong] at same
    exact error_of_map same.symm
  exact ⟨failed pictures others, failed others pictures⟩

/-- What is converted if the loop ends with a picture that is continued. -/
theorem Reaches.converted {exists? : String → Bool} {last : Progress} {linkage : UInt32}
    {shown : ShownPicture} {name next : String} {place : Nat}
    (ended : Reaches ⟨event, none⟩ lines last lines.length)
    (linked : last.linkage = some linkage) (remembered : last.picture = some shown)
    (continues : Continues exists? last.output shown name next place) :
    Event.convert ⟨event, none⟩ lines = .ok ⟨last.output, linkage⟩ ∧
      Event.convert ⟨event, some exists?⟩ lines =
        .ok ⟨last.output.insertIdx place (continuingLine shown name next), linkage⟩ := by
  have found := find_eq_added_iff_continues.mpr ⟨shown, remembered, continues, rfl⟩
  constructor
  · rw [ended.convert_end, finish, linked]
  · rw [(ended.other_pictures (some exists?)).convert_end, finish, linked]
    simp only [found]
    rfl

/-- Without pictures the loop comes to the end with what is put out. With pictures that is
extended. -/
theorem extended_of_convert {conversion : Conversion}
    (converted : convert ⟨event, none⟩ lines = .ok conversion) (exists? : String → Bool) :
    ∃ last extended, Reaches ⟨event, none⟩ lines last lines.length ∧
      last.output = conversion.lines ∧
      convert ⟨event, some exists?⟩ lines = .ok ⟨extended, conversion.linkage⟩ ∧
      Extended exists? last.picture conversion.lines extended := by
  obtain ⟨last, ended, finished⟩ := exists_last converted
  have extended := (ended.other_pictures (some exists?)).convert_end
  rw [finish] at finished extended
  cases known : last.linkage with
  | none =>
      rw [known] at finished
      cases finished
  | some linkage =>
      rw [known] at finished extended
      cases finished
      exact ⟨last, _, ended, rfl, extended, extended_apply⟩

end Pictures

/-- A picture is continued by one line at most, in the right place. Between any two turns of the
loop the picture that is remembered is a line of the event that shows it, and stands at its place in
the output. With pictures and without, the same events are converted, and what is put out without
them is extended by them. -/
theorem picture_continued_once (event : UInt32 → Option (List String)) (exists? : String → Bool)
    (lines : List String) :
    (∀ pictures progress i, Reaches ⟨event, pictures⟩ lines progress i →
      ∀ shown, progress.picture = some shown → IsRemembered lines progress.output shown) ∧
    (∀ error, convert ⟨event, some exists?⟩ lines = .error error ↔
      convert ⟨event, none⟩ lines = .error error) ∧
    ∀ conversion, convert ⟨event, none⟩ lines = .ok conversion →
      ∃ last extended, Reaches ⟨event, none⟩ lines last lines.length ∧
        last.output = conversion.lines ∧
        convert ⟨event, some exists?⟩ lines = .ok ⟨extended, conversion.linkage⟩ ∧
        Extended exists? last.picture conversion.lines extended := by
  refine ⟨?_, ?_, ?_⟩
  · intro pictures progress i here
    exact here.remembered
  · exact convert_error_pictures event lines (some exists?) none
  · intro conversion converted
    exact extended_of_convert converted exists?

/-- The line that shows a picture. -/
def pictureLine (name : String) : String :=
  "  ShowPicture([5, \"" ++ name ++ "\", 0, 0, 0, 0, 100, 100, 255, 0])"

theorem pictureLine_eq (name : String) : pictureLine name =
    "  ShowPicture([5, \"" ++ name ++ "\", 0, 0, 0, 0, 100, 100, 255, 0])" := rfl

/-- A body that shows a picture, then the given line in a branch that is kept, then two texts. -/
def pictureBody (kept : String) : List String :=
  ["  ShowChoices([[\"Yes\"]])", "  ChoicesEnd", pictureLine "alma_h1",
    "  ShowChoices([[\"A\", \"B\"]])", "  When([0])", "    ExitEventProcessing([])", "  When([1])",
    kept, "  ChoicesEnd", "  ShowTextAttributes([\"\", 0, 0, 2])", "  ShowText([\"Ah!\"])",
    "  ShowTextAttributes([\"\", 0, 0, 2])", "  ShowText([\"Oh!\"])"]

/-- What is put out of the body. -/
def pictureOutput (kept : String) : List OutputLine :=
  [⟨.source 0, .header⟩, .copy 4 (pictureLine "alma_h1"), .copy 9 kept,
    .copy 11 "  ShowTextAttributes([\"\", 0, 0, 2])", .copy 12 "  ShowText([\"Ah!\"])",
    .copy 13 "  ShowTextAttributes([\"\", 0, 0, 2])", .copy 14 "  ShowText([\"Oh!\"])"]

/-- The pictures of a scene. -/
def almaPictures (name : String) : Bool :=
  ["alma_h1", "alma_h2", "alma_h3"].contains name

/-- The loop comes to the end of the body with its first picture remembered. -/
structure EndsPictured (kept : String) (last : Progress) : Prop where
  ended : Reaches ⟨fun _ => none, none⟩ (linkedEvent (pictureBody kept)) last 15
  put : last.output = pictureOutput kept
  linked : last.linkage = some 3101
  remembered : last.picture = some ⟨4, pictureLine "alma_h1", 1⟩

theorem exists_endsPictured {kept : String}
    (done : (processFrom ⟨fun _ => none, none⟩ (linkedEvent (pictureBody kept))
      ⟨[⟨.source 0, .header⟩], some 3101, false, none⟩ 2).map
        (fun last => (last.output, last.linkage, last.picture)) =
          .ok (pictureOutput kept, some 3101, some ⟨4, pictureLine "alma_h1", 1⟩)) :
    ∃ last, EndsPictured kept last := by
  obtain ⟨last, processed, same⟩ := exists_of_map_ok done
  obtain ⟨put, same⟩ := Prod.mk.inj same
  obtain ⟨linked, remembered⟩ := Prod.mk.inj same
  have ended := (reaches_linkedEvent (pictureBody kept)).ended (Nat.le_add_left 2 _) processed
  exact ⟨last, ended, put, linked, remembered⟩

/-- The first picture of the body is continued, unless the line that is kept sets how text is
shown. -/
theorem continues_pictureOutput {kept : String} (unlike : isTextAttributes kept = false) :
    Continues almaPictures (pictureOutput kept) ⟨4, pictureLine "alma_h1", 1⟩ "alma_h1" "alma_h2"
      5 where
  named := by decide +kernel
  numbered := ⟨'1', by decide, by decide⟩
  follows := by decide +kernel
  stored := by decide +kernel
  second := by
    have pictured : isTextAttributes (pictureLine "alma_h1") = false := by decide +kernel
    have sets : isTextAttributes "  ShowTextAttributes([\"\", 0, 0, 2])" = true := by
      decide +kernel
    have spoken : isTextAttributes "  ShowText([\"Ah!\"])" = false := by decide +kernel
    refine ⟨⟨_, rfl, sets⟩, ?_⟩
    simp [pictureOutput, OutputLine.isTextAttributes, OutputLine.copy, pictured, sets, spoken,
      unlike]

theorem continuingLine_pictureLine :
    continuingLine ⟨4, pictureLine "alma_h1", 1⟩ "alma_h1" "alma_h2" =
      ⟨.continuation, .verbatim (pictureLine "alma_h2")⟩ := by
  decide +kernel

theorem EndsPictured.converted {kept : String} {last : Progress} (ends : EndsPictured kept last)
    (unlike : isTextAttributes kept = false) :
    convert ⟨fun _ => none, none⟩ (linkedEvent (pictureBody kept)) =
        .ok ⟨pictureOutput kept, 3101⟩ ∧
      convert ⟨fun _ => none, some almaPictures⟩ (linkedEvent (pictureBody kept)) =
        .ok ⟨(pictureOutput kept).insertIdx 5
          ⟨.continuation, .verbatim (pictureLine "alma_h2")⟩, 3101⟩ := by
  have continues := continues_pictureOutput unlike
  rw [← ends.put] at continues
  have both := ends.ended.converted ends.linked ends.remembered continues
  rw [ends.put, continuingLine_pictureLine] at both
  exact both

/-- A text in the branch that is kept. -/
def keptText : String := "    ShowText([\"Hm.\"])"

theorem endsPictured_keptText : ∃ last, EndsPictured keptText last :=
  exists_endsPictured (by decide +kernel)

theorem isTextAttributes_keptText : isTextAttributes keptText = false := by decide +kernel

theorem picture_continued_once_keptText :
    let lines := linkedEvent (pictureBody keptText)
    convert ⟨fun _ => none, none⟩ lines = .ok ⟨pictureOutput keptText, 3101⟩ ∧
      ∃ last extended, Reaches ⟨fun _ => none, none⟩ lines last 15 ∧
        convert ⟨fun _ => none, some almaPictures⟩ lines = .ok ⟨extended, 3101⟩ ∧
        Extended almaPictures last.picture (pictureOutput keptText) extended ∧
        extended = (pictureOutput keptText).insertIdx 5
          ⟨.continuation, .verbatim (pictureLine "alma_h2")⟩ := by
  intro lines
  obtain ⟨_, ends⟩ := endsPictured_keptText
  obtain ⟨plain, continued⟩ := ends.converted isTextAttributes_keptText
  obtain ⟨last, extended, ended, _, converted, extension⟩ :=
    (picture_continued_once (fun _ => none) almaPictures lines).2.2 _ plain
  refine ⟨plain, last, extended, ended, converted, extension, ?_⟩
  rw [continued] at converted
  exact (congrArg Conversion.lines (Except.ok.inj converted)).symm

end SceneGallery.Event
