import SceneGallery.Proofs.Event.Continued
set_option autoImplicit false

namespace SceneGallery.Event

/-- Whether a line comes from the event itself. -/
def OutputLine.isOwn (line : OutputLine) : Bool :=
  match line.origin with
  | .source _ => true
  | .opening | .continuation => false

/-- A conversion without the lines that come from elsewhere. -/
def Conversion.own (conversion : Conversion) : Conversion :=
  { conversion with lines := conversion.lines.filter OutputLine.isOwn }

theorem isOwn_of_source {line : OutputLine} {place : Nat} (sourced : line.origin = .source place) :
    line.isOwn = true := by
  rw [OutputLine.isOwn, sourced]

theorem isLinkagePlace_of_read {lines : List String} {preamble : Preamble}
    (read : Preamble.ofLines lines = .ok preamble) : IsLinkagePlace lines preamble.position := by
  obtain ⟨header, rest, inner, before, naming, rfl, rfl, parts⟩ := ofLines_parts read
  show IsLinkagePlace _ inner.position
  exact isLinkagePlace_of_parts parts

theorem body_of_read {lines : List String} {preamble : Preamble}
    (read : Preamble.ofLines lines = .ok preamble) :
    preamble.body = lines.drop (preamble.position + 1) := by
  obtain ⟨header, rest, inner, before, naming, rfl, rfl, parts⟩ := ofLines_parts read
  show inner.body = (header :: rest).drop (inner.position + 1)
  have place : inner.position = (before ++ [naming]).length := by
    rw [parts.place, List.length_append, Nat.add_comm]
    rfl
  have spelled : rest = before ++ [naming] ++ inner.body := by
    rw [parts.lines, ← List.append_cons]
  rw [List.drop_succ_cons, spelled, List.drop_left' place.symm]

theorem ofLines_output {lines : List String} {preamble : Preamble}
    (read : Preamble.ofLines lines = .ok preamble) :
    ∀ line ∈ preamble.output, ∃ i < preamble.position, line.origin = .source i := by
  obtain ⟨header, rest, inner, before, naming, rfl, rfl, parts⟩ := ofLines_parts read
  have place : inner.position = 1 + before.length := parts.place
  simp only [Preamble.cons, parts.output, List.forall_mem_cons, List.forall_mem_map]
  refine ⟨⟨0, by omega, rfl⟩, fun entry member => ⟨entry.2, ?_, rfl⟩⟩
  have := List.snd_lt_of_mem_zipIdx member
  omega

theorem runBody_output {passed flag : Bool} {position : Nat} {body : List String}
    {output : List OutputLine} (ended : runBody passed position body = .ok (output, flag)) :
    ∀ line ∈ output, ∃ i text, position ≤ i ∧ line = .copy i text := by
  intro line member
  obtain ⟨⟨text, i⟩, inside, rfl⟩ := List.mem_map.mp ((runBody_sublist ended).mem member)
  exact ⟨i, text, List.le_snd_of_mem_zipIdx inside, rfl⟩

theorem openingLines_verbatim (picture : Option DefaultPicture) :
    ∀ line ∈ openingLines picture, ∃ text, line = ⟨.opening, .verbatim text⟩ := by
  cases picture with
  | none => exact nofun
  | some picture =>
      intro line member
      obtain ⟨text, _, rfl⟩ := List.mem_map.mp member
      exact ⟨text, rfl⟩

theorem filter_opening (picture : Option DefaultPicture) :
    (openingLines picture).filter OutputLine.isOwn = [] := by
  rw [List.filter_eq_nil_iff]
  intro line member
  obtain ⟨text, rfl⟩ := openingLines_verbatim picture line member
  exact Bool.false_ne_true

theorem Continued.filter_own {output lines : List OutputLine} (continued : Continued output lines) :
    lines.filter OutputLine.isOwn = output.filter OutputLine.isOwn := by
  cases continued with
  | same => rfl
  | added spelled _ =>
      rw [spelled, List.filter_append, List.filter_append, List.filter_cons_of_neg]
      exact Bool.false_ne_true

/-- The lines of an event in its conversion, around the place of the picture that its defeat event
shows first. -/
theorem convert_decorated {resources : Resources} {lines : List String} {conversion : Conversion}
    (converted : convert resources lines = .ok conversion) :
    ∃ preamble output flag, Preamble.ofLines lines = .ok preamble ∧
      runBody false (preamble.position + 1) preamble.body = .ok (output, flag) ∧
      Continued (preamble.output ++ openingLines (resources.openingPicture? conversion.linkage) ++
        output) conversion.lines ∧
      conversion.own = ⟨preamble.output ++ output, preamble.linkage⟩ := by
  obtain ⟨preamble, output, flag, read, walked, linked, continued⟩ := convert_shape converted
  have front : ∀ line ∈ preamble.output, line.isOwn = true := by
    intro line member
    obtain ⟨i, _, sourced⟩ := ofLines_output read line member
    exact isOwn_of_source sourced
  have back : ∀ line ∈ output, line.isOwn = true := by
    intro line member
    obtain ⟨i, text, _, rfl⟩ := runBody_output walked line member
    rfl
  refine ⟨preamble, output, flag, read, walked, linked ▸ continued, ?_⟩
  rw [Conversion.own, continued.filter_own, List.filter_append, List.filter_append,
    filter_opening, List.filter_eq_self.mpr front, List.filter_eq_self.mpr back, List.append_nil,
    linked]

/-- Whatever is known of other events and of pictures, the lines of an event and its link come out
the same, or the same error does. -/
theorem convert_map_own (first second : Resources) (lines : List String) :
    (convert first lines).map Conversion.own = (convert second lines).map Conversion.own := by
  have linkages : (convert first lines).map (·.linkage) =
      (convert second lines).map (·.linkage) := by
    rw [convert_map_linkage, convert_map_linkage]
  cases one : convert first lines with
  | error error =>
      cases other : convert second lines with
      | error another =>
          rw [one, other] at linkages
          rw [Except.error.inj linkages]
      | ok conversion =>
          rw [one, other] at linkages
          cases linkages
  | ok conversion =>
      cases other : convert second lines with
      | error another =>
          rw [one, other] at linkages
          cases linkages
      | ok again =>
          obtain ⟨preamble, output, flag, read, walked, _, own⟩ := convert_decorated one
          obtain ⟨preamble', output', flag', read', walked', _, own'⟩ := convert_decorated other
          obtain rfl : preamble' = preamble := Except.ok.inj (read'.symm.trans read)
          obtain ⟨rfl, rfl⟩ := Prod.mk.inj (Except.ok.inj (walked'.symm.trans walked))
          rw [Except.map, Except.map, own, own']

/-- What a conversion looks at besides the event is decoration only. Any two conversions of an event
fail with the same error, or have the same linkage and the same lines without those that come from
elsewhere. These are the first picture of the defeat event, at the place of the line that names that
event, and one line at most that continues a picture. -/
theorem convert_decoration (first second : Resources) (lines : List String) :
    (∀ error, convert first lines = .error error ↔ convert second lines = .error error) ∧
    (∀ conversion again, convert first lines = .ok conversion → convert second lines = .ok again →
      again.linkage = conversion.linkage ∧
      again.lines.filter OutputLine.isOwn = conversion.lines.filter OutputLine.isOwn) ∧
    ∀ conversion, convert first lines = .ok conversion →
      ∃ place front back, IsLinkagePlace lines place ∧
        (∀ line ∈ front, ∃ i < place, line.origin = .source i) ∧
        (∀ line ∈ back, ∃ i > place, line.origin = .source i) ∧
        conversion.lines.filter OutputLine.isOwn = front ++ back ∧
        Continued (front ++ openingLines (first.openingPicture? conversion.linkage) ++ back)
          conversion.lines := by
  have same := convert_map_own first second lines
  refine ⟨?_, ?_, ?_⟩
  · intro error
    have failed : ∀ {left right : Except Error Conversion},
        left.map Conversion.own = right.map Conversion.own → left = .error error →
          right = .error error := by
      rintro _ (another | again) same rfl
      · rw [Except.error.inj same]
      · cases same
    exact ⟨failed same, failed same.symm⟩
  · intro conversion again one other
    rw [one, other] at same
    have own : conversion.own = again.own := Except.ok.inj same
    exact ⟨(congrArg Conversion.linkage own).symm, (congrArg Conversion.lines own).symm⟩
  · intro conversion converted
    obtain ⟨preamble, output, flag, read, walked, continued, own⟩ := convert_decorated converted
    refine ⟨preamble.position, preamble.output, output, isLinkagePlace_of_read read,
      ofLines_output read, ?_, congrArg Conversion.lines own, continued⟩
    intro line member
    obtain ⟨i, text, behind, rfl⟩ := runBody_output walked line member
    exact ⟨i, behind, rfl⟩

end SceneGallery.Event
