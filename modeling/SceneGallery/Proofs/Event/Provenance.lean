import SceneGallery.Proofs.Event.Machine
set_option autoImplicit false

namespace SceneGallery.Event

/-- What a line of the preamble becomes. -/
def preambleContent (line : String) : Content :=
  if isDispatch line then .dispatch else .verbatim line

/-- A line of the event in the output. -/
def sourced (entry : Nat × Content) : OutputLine :=
  ⟨.source entry.1, entry.2⟩

/-- Whether an entry says what the line at its place is there for. -/
def IsFrom (lines : List String) (place : Nat) (entry : Nat × Content) : Prop :=
  match entry.2 with
  | .header => entry.1 = 0
  | .dispatch => entry.1 < place ∧ ∃ line, lines[entry.1]? = some line ∧ isDispatch line = true
  | .verbatim text => lines[entry.1]? = some text

/-- The place of the first line behind the header that names the defeat event and is no dispatch. -/
structure IsLinkagePlace (lines : List String) (place : Nat) : Prop where
  behind : 0 < place
  names : ∃ line, lines[place]? = some line ∧ isDispatch line = false ∧ namesDefeat line = true
  first : ∀ i line, 0 < i → i < place → lines[i]? = some line →
    isDispatch line = true ∨ namesDefeat line = false

theorem not_passed_of_names {line : String} (called : isDispatch line = false)
    (names : namesDefeat line = true) : ¬ (isDispatch line = true ∨ namesDefeat line = false) := by
  rintro (dispatch | other)
  · rw [called] at dispatch
    cases dispatch
  · rw [names] at other
    cases other

theorem IsLinkagePlace.unique {lines : List String} {place other : Nat}
    (here : IsLinkagePlace lines place) (there : IsLinkagePlace lines other) : place = other := by
  have ordered : ∀ {i j}, IsLinkagePlace lines i → IsLinkagePlace lines j → ¬ i < j := by
    intro i j first second below
    obtain ⟨line, found, called, names⟩ := first.names
    exact not_passed_of_names called names (second.first i line first.behind below found)
  exact Nat.le_antisymm (Nat.le_of_not_lt (ordered there here))
    (Nat.le_of_not_lt (ordered here there))

/-- The parts of the lines that a preamble is read from: the lines before the one that names the
defeat event, that line, and the body. -/
structure PreambleParts (position : Nat) (lines : List String) (preamble : Preamble)
    (before : List String) (naming : String) : Prop where
  lines : lines = before ++ naming :: preamble.body
  place : preamble.position = position + before.length
  output : preamble.output = (before.zipIdx position).map fun (line, place) =>
    sourced (place, preambleContent line)
  before : ∀ line ∈ before, isDispatch line = true ∨ namesDefeat line = false
  called : isDispatch naming = false
  names : namesDefeat naming = true
  linkage : readLinkage preamble.position naming = .ok preamble.linkage

theorem PreambleParts.cons {position : Nat} {rest : List String} {preamble : Preamble}
    {before : List String} {naming line : String}
    (parts : PreambleParts (position + 1) rest preamble before naming)
    (passed : isDispatch line = true ∨ namesDefeat line = false) :
    PreambleParts position (line :: rest)
      (preamble.cons (sourced (position, preambleContent line))) (line :: before) naming where
  lines := by rw [parts.lines]; rfl
  place := by
    show preamble.position = position + (line :: before).length
    rw [parts.place, List.length_cons]
    omega
  output := by
    show sourced (position, preambleContent line) :: preamble.output = _
    rw [parts.output, List.zipIdx_cons, List.map_cons]
  before := by
    intro other member
    rcases List.mem_cons.mp member with rfl | later
    · exact passed
    · exact parts.before other later
  called := parts.called
  names := parts.names
  linkage := parts.linkage

/-- A preamble ends with the first line that names the defeat event. -/
theorem readPreamble_parts {position : Nat} {lines : List String} {preamble : Preamble}
    (read : readPreamble position lines = .ok preamble) :
    ∃ before naming, PreambleParts position lines preamble before naming := by
  induction lines generalizing position preamble with
  | nil => cases read
  | cons line rest ih =>
      have later : (isDispatch line = true ∨ namesDefeat line = false) →
          (readPreamble (position + 1) rest).map
              (.cons (sourced (position, preambleContent line))) = .ok preamble →
            ∃ before naming, PreambleParts position (line :: rest) preamble before naming := by
        intro passed read
        obtain ⟨others, inner, rfl⟩ := exists_of_map_ok read
        obtain ⟨before, naming, parts⟩ := ih inner
        exact ⟨line :: before, naming, parts.cons passed⟩
      rw [readPreamble] at read
      by_cases dispatch : isDispatch line = true
      · rw [if_pos dispatch] at read
        have content : preambleContent line = .dispatch := if_pos dispatch
        rw [content] at later
        exact later (Or.inl dispatch) read
      · rw [if_neg dispatch] at read
        by_cases names : namesDefeat line = true
        · rw [if_pos names] at read
          obtain ⟨linkage, named, rfl⟩ := exists_of_map_ok read
          refine ⟨[], line, rfl, rfl, rfl, ?_, ?_, names, named⟩
          · intro other member
            cases member
          · simpa using dispatch
        · rw [if_neg names] at read
          have content : preambleContent line = .verbatim line := if_neg dispatch
          rw [content] at later
          exact later (Or.inr (by simpa using names)) read

theorem runBody_sublist {passed flag : Bool} {position : Nat} {body : List String}
    {output : List OutputLine} (ended : runBody passed position body = .ok (output, flag)) :
    output.Sublist (OutputLine.copies position body) := by
  induction passed, position, body using body_induction generalizing output with
  | nil passed position =>
      rw [runBody_nil] at ended
      obtain ⟨rfl, -⟩ := Prod.mk.inj (Except.ok.inj ended)
      exact List.nil_sublist _
  | cons passed position line rest ih =>
      obtain ⟨made, ⟨others, last⟩, visited, walked, whole⟩ := runBody_cons_ok ended
      obtain ⟨rfl, rfl⟩ := Prod.mk.inj whole
      have used := visit_extra_le visited
      have later := ih made visited walked
      have place : position + 1 + made.extra =
          position + (line :: rest.take made.extra).length := by
        rw [List.length_cons, List.length_take, Nat.min_eq_left used]
        omega
      have split : line :: rest = (line :: rest.take made.extra) ++ rest.drop made.extra := by
        rw [List.cons_append, List.take_append_drop]
      rw [place] at later
      rw [split, copies_append]
      exact (visit_output_sublist visited).append later

/-- The way to a conversion: the preamble is read, and a walk through the body puts its lines out
behind those of the preamble and of the opening picture. -/
theorem convert_walk {resources : Resources} {lines : List String} {conversion : Conversion}
    (converted : convert resources lines = .ok conversion) :
    ∃ preamble walk output flag, Preamble.ofLines lines = .ok preamble ∧
      (preamble.startWalk (openingLines (resources.openingPicture? preamble.linkage))).run =
        .ok walk ∧
      runBody false (preamble.position + 1) preamble.body = .ok (output, flag) ∧
      walk.output =
        preamble.output ++ openingLines (resources.openingPicture? preamble.linkage) ++ output ∧
      finish resources (walk.progress preamble.linkage) = .ok conversion := by
  rw [convert_eq_bind] at converted
  obtain ⟨preamble, read, converted⟩ := exists_of_bind_ok converted
  obtain ⟨progress, mapped, finished⟩ := exists_of_bind_ok converted
  obtain ⟨walk, walked, rfl⟩ := exists_of_map_ok mapped
  have framed := Walk.run_passage
    (preamble.startWalk (openingLines (resources.openingPicture? preamble.linkage)))
  rw [walked] at framed
  obtain ⟨made, passage, same⟩ := exists_of_map_ok framed.symm
  refine ⟨preamble, walk, made.1, made.2, read, walked, passage, ?_, finished⟩
  have first := (congrArg Prod.fst same).symm
  simp only [Walk.passage, Passage.after, Preamble.startWalk, Walk.output,
    List.reverse_reverse] at first ⊢
  exact first

theorem convert_parts {resources : Resources} {lines : List String} {conversion : Conversion}
    (unknown : resources.pictures = none) (converted : convert resources lines = .ok conversion) :
    ∃ preamble output flag, Preamble.ofLines lines = .ok preamble ∧
      runBody false (preamble.position + 1) preamble.body = .ok (output, flag) ∧
      conversion.linkage = preamble.linkage ∧
      conversion.lines =
        preamble.output ++ openingLines (resources.openingPicture? preamble.linkage) ++ output := by
  obtain ⟨preamble, walk, output, flag, read, _, passage, written, finished⟩ :=
    convert_walk converted
  simp only [finish, Walk.progress, unknown] at finished
  cases finished
  exact ⟨preamble, output, flag, read, passage, rfl, written⟩

theorem convert_map_linkage (resources : Resources) (lines : List String) :
    (convert resources lines).map (·.linkage) =
      (Preamble.ofLines lines).bind fun preamble =>
        (runBody false (preamble.position + 1) preamble.body).map fun _ => preamble.linkage := by
  rw [convert_eq_bind]
  cases Preamble.ofLines lines with
  | error error => rfl
  | ok preamble =>
      have framed := Walk.run_passage
        (preamble.startWalk (openingLines (resources.openingPicture? preamble.linkage)))
      simp only [Except.bind, convertBody]
      cases walked : (preamble.startWalk
          (openingLines (resources.openingPicture? preamble.linkage))).run with
      | error error =>
          rw [walked] at framed
          cases passage : runBody false (preamble.position + 1) preamble.body with
          | error other =>
              simp only [Preamble.startWalk, passage, Except.map, Except.error.injEq] at framed ⊢
              exact framed
          | ok made => simp [Preamble.startWalk, passage, Except.map] at framed
      | ok walk =>
          rw [walked] at framed
          obtain ⟨made, passage, _⟩ := exists_of_map_ok framed.symm
          simp only [Preamble.startWalk] at passage
          simp only [passage, Except.map, Walk.progress, finish]
          cases resources.pictures <;> rfl

/-- A conversion looks at the pictures and at the event that it is linked to, and at no others. -/
theorem convert_congr {resources other : Resources} {lines : List String}
    (pictures : other.pictures = resources.pictures)
    (defeat : ∀ conversion, convert resources lines = .ok conversion →
      other.event conversion.linkage = resources.event conversion.linkage) :
    convert other lines = convert resources lines := by
  have linkages : (convert other lines).map (·.linkage) =
      (convert resources lines).map (·.linkage) := by
    rw [convert_map_linkage, convert_map_linkage]
  cases converted : convert resources lines with
  | error error =>
      rw [converted] at linkages
      cases again : convert other lines with
      | error another =>
          rw [again] at linkages
          rw [Except.error.inj linkages]
      | ok conversion =>
          rw [again] at linkages
          cases linkages
  | ok conversion =>
      have linked := convert_map_linkage resources lines
      rw [converted] at linked
      obtain ⟨preamble, read, mapped⟩ := exists_of_bind_ok linked.symm
      obtain ⟨_, _, same⟩ := exists_of_map_ok mapped
      have opening : other.openingPicture? preamble.linkage =
          resources.openingPicture? preamble.linkage := by
        rw [Resources.openingPicture?, Resources.openingPicture?, same, defeat _ converted]
      rw [← converted, convert_eq_bind, convert_eq_bind, read]
      simp only [Except.bind, convertBody, opening]
      cases (preamble.startWalk
          (openingLines (resources.openingPicture? preamble.linkage))).run with
      | error error => rfl
      | ok walk => simp only [Except.map, finish, pictures]

theorem ofLines_parts {lines : List String} {preamble : Preamble}
    (read : Preamble.ofLines lines = .ok preamble) :
    ∃ header rest inner before naming, lines = header :: rest ∧
      preamble = inner.cons (sourced (0, .header)) ∧
      PreambleParts 1 rest inner before naming := by
  cases lines with
  | nil => cases read
  | cons header rest =>
      rw [Preamble.ofLines] at read
      obtain ⟨inner, named, rfl⟩ := exists_of_map_ok read
      obtain ⟨before, naming, parts⟩ := readPreamble_parts named
      exact ⟨header, rest, inner, before, naming, rfl, rfl, parts⟩

theorem isLinkagePlace_of_split {header naming : String} {before rest : List String}
    (passed : ∀ line ∈ before, isDispatch line = true ∨ namesDefeat line = false)
    (called : isDispatch naming = false) (names : namesDefeat naming = true) :
    IsLinkagePlace (header :: (before ++ naming :: rest)) (before.length + 1) where
  behind := Nat.zero_lt_succ _
  names := by
    refine ⟨naming, ?_, called, names⟩
    rw [List.getElem?_cons_succ, List.getElem?_append_right (Nat.le_refl _), Nat.sub_self]
    rfl
  first := by
    intro i line positive below found
    obtain ⟨k, rfl⟩ := Nat.exists_eq_succ_of_ne_zero (show i ≠ 0 by omega)
    have inside : k < before.length := by omega
    rw [List.getElem?_cons_succ, List.getElem?_append_left inside] at found
    exact passed line (List.mem_of_getElem? found)

theorem isLinkagePlace_of_parts {header naming : String} {rest before : List String}
    {preamble : Preamble} (parts : PreambleParts 1 rest preamble before naming) :
    IsLinkagePlace (header :: rest) preamble.position := by
  rw [parts.place, parts.lines, Nat.add_comm]
  exact isLinkagePlace_of_split parts.before parts.called parts.names

theorem pairwise_of_sublist {lines : List String} {taken : List (String × Nat)}
    (inside : taken.Sublist lines.zipIdx) : (taken.map Prod.snd).Pairwise (· < ·) := by
  have increasing : (lines.zipIdx.map Prod.snd).Pairwise (· < ·) := by
    rw [List.zipIdx_map_snd]
    exact List.pairwise_lt_range'
  exact increasing.sublist (inside.map Prod.snd)

/-- What a conversion without pictures puts out, as places of the event with what stands there. -/
theorem convert_entries {resources : Resources} {lines : List String} {conversion : Conversion}
    (unknown : resources.pictures = none) (converted : convert resources lines = .ok conversion) :
    ∃ place front back, IsLinkagePlace lines place ∧
      conversion.lines = front.map sourced ++
        openingLines (resources.openingPicture? conversion.linkage) ++ back.map sourced ∧
      ((front ++ back).map Prod.fst).Pairwise (· < ·) ∧
      (∃ others, front = (0, .header) :: others) ∧
      ∀ entry ∈ front ++ back, IsFrom lines place entry := by
  obtain ⟨_, output, flag, read, walked, linked, written⟩ := convert_parts unknown converted
  obtain ⟨header, rest, preamble, before, naming, rfl, rfl, parts⟩ := ofLines_parts read
  obtain ⟨kept, taken, rfl⟩ := List.sublist_map_iff.mp (runBody_sublist walked)
  have numbered : ((header, 0) :: before.zipIdx 1 ++ kept).Sublist (header :: rest).zipIdx := by
    have place : 1 + before.length + 1 = preamble.position + 1 := by rw [parts.place]
    rw [List.zipIdx_cons, parts.lines, Nat.zero_add, List.zipIdx_append, List.zipIdx_cons, place]
    exact ((List.Sublist.refl _).append (taken.trans (List.sublist_cons_self _ _))).cons_cons _
  refine ⟨preamble.position,
    (0, .header) :: (before.zipIdx 1).map fun (line, place) => (place, preambleContent line),
    kept.map fun (line, place) => (place, .verbatim line),
    isLinkagePlace_of_parts parts, ?_, ?_, ⟨_, rfl⟩, ?_⟩
  · rw [written, linked]
    simp only [Preamble.cons, parts.output, List.map_cons, List.map_map]
    rfl
  · have places := pairwise_of_sublist numbered
    simp only [List.cons_append, List.map_cons, List.map_append, List.map_map] at places ⊢
    exact places
  · have there : ∀ line place, (line, place) ∈ (header, 0) :: before.zipIdx 1 ++ kept →
        (header :: rest)[place]? = some line :=
      fun line place member => List.mk_mem_zipIdx_iff_getElem?.mp (numbered.mem member)
    intro entry member
    rcases List.mem_append.mp member with front | back
    · rcases List.mem_cons.mp front with rfl | others
      · rfl
      · obtain ⟨⟨line, place⟩, inside, rfl⟩ := List.mem_map.mp others
        have found := there line place
          (List.mem_append_left _ (List.mem_cons_of_mem _ inside))
        have below := List.snd_lt_of_mem_zipIdx inside
        simp only [IsFrom, preambleContent]
        by_cases dispatch : isDispatch line = true
        · rw [if_pos dispatch, parts.place]
          exact ⟨by omega, line, found, dispatch⟩
        · rw [if_neg dispatch]
          exact found
    · obtain ⟨⟨line, place⟩, inside, rfl⟩ := List.mem_map.mp back
      exact there line place (List.mem_append_right _ inside)

/-- Conversion always ends, and it neither invents nor repeats nor reorders lines. Every turn of the
loop goes on within the lines. Without pictures, what is put out besides the first picture of the
defeat event are lines of the event at increasing places: the header at the first one, dispatches in
front of the line that names the defeat event, and all others as they are. -/
theorem convert_provenance (resources : Resources) (lines : List String) :
    (∀ progress i (inside : i < lines.length) later next,
      processLine resources lines progress i inside = .ok (later, next) →
        i < next ∧ next ≤ lines.length) ∧
    convert resources lines = (processFrom resources lines {} 0).bind (finish resources) ∧
    (resources.pictures = none → ∀ conversion, convert resources lines = .ok conversion →
      ∃ place front back, IsLinkagePlace lines place ∧
        conversion.lines = front.map sourced ++
          openingLines (resources.openingPicture? conversion.linkage) ++ back.map sourced ∧
        ((front ++ back).map Prod.fst).Pairwise (· < ·) ∧
        (∃ others, front = (0, .header) :: others) ∧
        ∀ entry ∈ front ++ back, IsFrom lines place entry) := by
  refine ⟨?_, convert_eq_loop resources lines, ?_⟩
  · intro progress i inside later next processed
    exact processLine_advances processed
  · intro unknown conversion converted
    exact convert_entries unknown converted

end SceneGallery.Event
