import SceneGallery.Proofs.Event.Decoration
import SceneGallery.Proofs.Library.Captured
set_option autoImplicit false

namespace SceneGallery.Event

open Text

/-- A line that carries the number of the event has no ending in it. -/
theorem plain_render {content : Content} (numbered : content = .header ∨ content = .dispatch)
    (id : UInt32) {c : Char} (ends : c = '\n' ∨ c = '\r') : c ∉ (content.render id).toList := by
  have digits : c ∉ (toString id.toNat).toList := by
    rw [Nat.toString_eq_repr, Nat.toList_repr]
    intro member
    have digit := Nat.isDigit_of_mem_toDigits (by decide) (by decide) member
    rcases ends with rfl | rfl <;> exact absurd digit (by decide)
  rcases numbered with rfl | rfl
  · rw [Content.render, String.toList_append]
    refine List.not_mem_append ?_ digits
    rcases ends with rfl | rfl <;> decide
  · rw [Content.render, String.toList_append, String.toList_append]
    refine List.not_mem_append (List.not_mem_append ?_ digits) ?_ <;>
      rcases ends with rfl | rfl <;> decide

section Replaced

variable {c : Char}

theorem mem_of_mem_replaceFrom {old new : List Char} {skip : Nat} {s : List Char}
    (member : c ∈ replaceFrom old new skip s) : c ∈ new ∨ c ∈ s := by
  induction s generalizing skip with
  | nil =>
      rw [replaceFrom_nil] at member
      exact .inr member
  | cons first rest ih =>
      have later : ∀ {skip}, c ∈ replaceFrom old new skip rest → c ∈ new ∨ c ∈ first :: rest :=
        fun member => (ih member).imp_right (List.mem_cons_of_mem first)
      cases skip with
      | succ skip => exact later member
      | zero =>
          rw [replaceFrom] at member
          split at member
          · rcases List.mem_append.mp member with here | behind
            · exact .inl here
            · exact later behind
          · rcases List.mem_cons.mp member with rfl | behind
            · exact .inr List.mem_cons_self
            · exact later behind

theorem mem_of_mem_replaceAll {old new text : String}
    (member : c ∈ (replaceAll old new text).toList) : c ∈ new.toList ∨ c ∈ text.toList := by
  rw [replaceAll] at member
  split at member
  · exact .inr member
  · rw [String.toList_ofList] at member
    exact mem_of_mem_replaceFrom member

theorem plain_makeVisible {line : String} (plain : '\n' ∉ line.toList) :
    '\n' ∉ (makeVisible line).toList := by
  intro member
  rcases mem_of_mem_replaceAll member with new | old
  · exact absurd new (by decide)
  · exact plain old

/-- The first picture of an event is shown by lines of it, or by one that is made visible. -/
theorem plain_defaultPicture {lines : List String} {picture : DefaultPicture}
    (plain : ∀ line ∈ lines, '\n' ∉ line.toList) (found : defaultPicture? lines = some picture) :
    ∀ line ∈ picture.lines, '\n' ∉ line.toList := by
  have kept : ∀ line ∈ lines.dropWhile fun line => !isCommand "ShowPicture" line,
      '\n' ∉ line.toList :=
    fun line member => plain line ((List.dropWhile_suffix _).subset member)
  rw [defaultPicture?] at found
  split at found
  · cases found
  · rename_i line spelled
    rw [spelled] at kept
    cases found
    exact List.forall_mem_singleton.mpr (plain_makeVisible (kept line List.mem_cons_self))
  · rename_i line next rest spelled
    rw [spelled] at kept
    have first := kept line List.mem_cons_self
    have second := kept next (List.mem_cons_of_mem _ List.mem_cons_self)
    split at found
    · cases found
      exact List.forall_mem_cons.mpr ⟨first, List.forall_mem_singleton.mpr second⟩
    · cases found
      exact List.forall_mem_singleton.mpr (plain_makeVisible first)

end Replaced

theorem captures_exactly {kind : List Char → Prop} {n : Nat} {p : Char → Bool}
    {next : Pattern (List Char)} (later : Field.Captures kind next) :
    Field.Captures kind (Pattern.exactly n p fun _ => next) := by
  intro s text found
  obtain ⟨front, rest, rfl, _, _, found⟩ := Pattern.exactly_eq_some_iff.mp found
  obtain ⟨good, inside⟩ := later rest text found
  exact ⟨good, inside.trans (List.suffix_append front rest).isInfix⟩

theorem picturePattern_captures : Field.Captures (fun _ => True) picturePattern := by
  apply Field.captures_word
  apply Field.captures_gap
  apply captures_exactly
  apply Field.captures_gap
  apply Field.captures_word
  apply Field.captures_gap
  apply Field.captures_word
  apply Field.captures_run
  intro run rest text _ _ found
  obtain ⟨behind, rfl, found⟩ := Pattern.word_eq_some_iff.mp found
  obtain ⟨blanks, tail, rfl, _, found⟩ := Pattern.exists_of_gap found
  obtain ⟨last, rfl, read⟩ := Pattern.word_eq_some_iff.mp found
  obtain rfl : run = text := Option.some.inj read
  exact ⟨trivial, (List.prefix_append _ _).isInfix⟩

theorem mem_of_mem_trim {s : List Char} {c : Char} (member : c ∈ trim s) : c ∈ s := by
  obtain ⟨lead, trail, spelled, _, _⟩ := exists_blanks_of_trim s
  rw [spelled]
  exact List.mem_append_right lead (List.mem_append_left trail member)

theorem plain_pictureName {line name : String} (plain : '\n' ∉ line.toList)
    (named : pictureName? (trim line.toList) = some name) : '\n' ∉ name.toList := by
  obtain ⟨s, found, rfl⟩ := Option.map_eq_some_iff.mp named
  obtain ⟨_, inside⟩ := Field.captures_search picturePattern_captures _ _ found
  rw [String.toList_ofList]
  exact fun member => plain (mem_of_mem_trim (inside.subset member))

theorem plain_nextPictureName {name next : String} (plain : '\n' ∉ name.toList)
    (continued : nextPictureName? name = some next) : '\n' ∉ next.toList := by
  obtain ⟨stem, digit, spelled, _, grown⟩ := nextPictureName?_eq_some_iff.mp continued
  rw [grown, List.mem_append, not_or]
  constructor
  · intro member
    exact plain (spelled ▸ List.mem_append_left _ member)
  · intro member
    have digit := Nat.isDigit_of_mem_toDigits (by decide) (by decide) member
    exact absurd digit (by decide)

theorem plain_added {exists? : String → Bool} {output : List OutputLine}
    {picture : Option ShownPicture} {name next line : String} {place : Nat}
    (plain : ∀ shown ∈ picture, '\n' ∉ shown.line.toList)
    (found : Continuation.find exists? output picture = .added name next place line) :
    '\n' ∉ line.toList := by
  obtain ⟨shown, there, named, continued, _, _, rfl⟩ := find_eq_added_iff.mp found
  have solid := plain shown there
  intro member
  rcases mem_of_mem_replaceAll member with new | old
  · exact plain_nextPictureName (plain_pictureName solid named) continued new
  · exact solid old

/-- Lines of the output without a line feed in them, whatever number they are written under. -/
def PlainLine (line : OutputLine) : Prop :=
  ∀ id, '\n' ∉ (line.content.render id).toList

theorem plainLine_numbered {line : OutputLine}
    (numbered : line.content = .header ∨ line.content = .dispatch) : PlainLine line :=
  fun id => plain_render numbered id (.inl rfl)

theorem plainLine_verbatim {line : OutputLine} {text : String} (plain : '\n' ∉ text.toList)
    (written : line.content = .verbatim text) : PlainLine line := by
  intro id
  rw [written]
  exact plain

theorem plainLine_ofLines {lines : List String} {preamble : Preamble}
    (plain : ∀ line ∈ lines, '\n' ∉ line.toList) (read : Preamble.ofLines lines = .ok preamble) :
    ∀ line ∈ preamble.output, PlainLine line := by
  obtain ⟨header, rest, inner, before, naming, rfl, rfl, parts⟩ := ofLines_parts read
  have inside : ∀ line ∈ before, '\n' ∉ line.toList := by
    intro line member
    apply plain line
    rw [parts.lines]
    exact List.mem_cons_of_mem _ (List.mem_append_left _ member)
  simp only [Preamble.cons, parts.output, List.forall_mem_cons, List.forall_mem_map]
  refine ⟨plainLine_numbered (.inl rfl), fun entry member => ?_⟩
  by_cases dispatch : isDispatch entry.1 = true
  · exact plainLine_numbered (.inr (if_pos dispatch))
  · exact plainLine_verbatim (inside _ (List.fst_mem_of_mem_zipIdx member)) (if_neg dispatch)

theorem plainLine_opening {resources : Resources} {linkage : UInt32}
    (siblings : ∀ others ∈ resources.event linkage, ∀ line ∈ others, '\n' ∉ line.toList) :
    ∀ line ∈ openingLines (resources.openingPicture? linkage), PlainLine line := by
  cases found : resources.openingPicture? linkage with
  | none => exact nofun
  | some picture =>
      obtain ⟨others, there, shows⟩ := Option.bind_eq_some_iff.mp found
      simp only [openingLines, List.forall_mem_map]
      exact fun text member => plainLine_verbatim
        (plain_defaultPicture (siblings others there) shows text member) rfl

theorem plainLine_runBody {passed flag : Bool} {position : Nat} {body : List String}
    {output : List OutputLine} (plain : ∀ line ∈ body, '\n' ∉ line.toList)
    (ended : runBody passed position body = .ok (output, flag)) :
    ∀ line ∈ output, PlainLine line := by
  intro line member
  obtain ⟨entry, inside, rfl⟩ := List.mem_map.mp ((runBody_sublist ended).mem member)
  exact plainLine_verbatim (plain _ (List.fst_mem_of_mem_zipIdx inside)) rfl

/-- No line of a converted event has a line feed, if none of the lines has one that it is made
from. -/
theorem plain_convert {resources : Resources} {lines : List String} {conversion : Conversion}
    (plain : ∀ line ∈ lines, '\n' ∉ line.toList)
    (siblings : ∀ id, ∀ others ∈ resources.event id, ∀ line ∈ others, '\n' ∉ line.toList)
    (converted : convert resources lines = .ok conversion) (id : UInt32) :
    ∀ line ∈ conversion.render id, '\n' ∉ line.toList := by
  obtain ⟨preamble, walk, output, flag, read, walked, passage, written, finished⟩ :=
    convert_walk converted
  have body : ∀ line ∈ preamble.body, '\n' ∉ line.toList := by
    rw [body_of_read read]
    exact fun line member => plain line (List.mem_of_mem_drop member)
  have inner : ∀ line ∈ walk.output, PlainLine line := by
    rw [written, List.forall_mem_append, List.forall_mem_append]
    exact ⟨⟨plainLine_ofLines plain read, plainLine_opening (siblings preamble.linkage)⟩,
      plainLine_runBody body passage⟩
  have shown : ∀ picture ∈ walk.picture, '\n' ∉ picture.line.toList :=
    Walk.run_picture walked (fun line member _ => body line member) nofun
  have outer : ∀ line ∈ conversion.lines, PlainLine line := by
    rcases (finish_cases finished).2 with same | ⟨exists?, _, extended⟩
    · rw [same]
      exact inner
    · rw [extended]
      intro line member
      rcases mem_apply member with inside | ⟨_, _, _, text, found, rfl⟩
      · exact inner line inside
      · exact plainLine_verbatim (plain_added shown found) rfl
  simp only [Conversion.render, List.forall_mem_map]
  exact fun line member => outer line member id

end SceneGallery.Event
