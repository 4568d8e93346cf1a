import SceneGallery.Proofs.Library.Entry
import SceneGallery.Proofs.Library.Rendering
set_option autoImplicit false

namespace SceneGallery.Library

open Text Text.Pattern SceneGallery.Field

theorem noArrow_of_unequal {s : List Char} (unequal : '=' ∉ s) : ¬ HasArrow s := by
  rintro ⟨front, back, rfl⟩
  exact unequal (by simp)

theorem unequal_toDigits (n : Nat) : '=' ∉ Nat.toDigits 10 n := by
  intro member
  exact absurd (isDecimal_of_mem_toDigits member) (by decide)

/-- The value of a field is read behind the space that is written before it. -/
theorem gap_space {α : Type} {pattern : Pattern α} {s : List Char} {a : α}
    (solid : ∀ c ∈ s.head?, isBlank c = false) (found : pattern s = some a) :
    gap pattern (' ' :: s) = some a :=
  gap_cons_of_some (by decide) ((gap_of_head solid).trans found)

theorem gap_space_eq {α : Type} {pattern : Pattern α} {s : List Char}
    (solid : ∀ c ∈ s.head?, isBlank c = false) (fails : pattern (' ' :: s) = none) :
    gap pattern (' ' :: s) = pattern s := by
  cases found : pattern s with
  | none => exact gap_cons_of_none fails ((gap_of_head solid).trans found)
  | some a => exact gap_space solid found

theorem toDigits_head {n : Nat} : ∀ c ∈ (Nat.toDigits 10 n).head?, isBlank c = false := by
  intro c first
  have decimal : isDecimal c = true := isDecimal_of_mem_toDigits (List.mem_of_head? first)
  exact isBlank_of_isDecimal decimal

theorem number?_of_entry {line key : String} {n : UInt32}
    (entry : IsEntry line key (Nat.toDigits 10 n.toNat)) : number? key line = some n := by
  have read : digits done (Nat.toDigits 10 n.toNat) = some (Nat.toDigits 10 n.toNat) := by
    have whole : digits done (Nat.toDigits 10 n.toNat ++ []) = some (Nat.toDigits 10 n.toNat) :=
      digits_toDigits n.toNat nofun
    rw [List.append_nil] at whole
    exact whole
  rw [number?, numberPattern, entry.search_key, gap_space toDigits_head read, Option.bind_some,
    readUInt32?_toDigits]

theorem signed?_of_entry {line key : String} {value : Int64}
    (entry : IsEntry line key value.toInt.repr.toList) : signed? key line = some value := by
  have read : numeral done value.toInt.repr.toList = some (.ofInt value.toInt) := by
    have whole : numeral done (value.toInt.repr.toList ++ []) = some (.ofInt value.toInt) :=
      numeral_repr value.toInt nofun
    rw [List.append_nil] at whole
    exact whole
  have solid : ∀ c ∈ value.toInt.repr.toList.head?, isBlank c = false := by
    rw [toList_repr_int]
    by_cases negative : value.toInt < 0
    · simp only [negative, ↓reduceIte]
      exact forall_head?_cons (by decide)
    · simp only [negative, ↓reduceIte, List.nil_append]
      exact toDigits_head
  rw [signed?, numeralPattern, entry.search_key, gap_space solid read, Option.bind_some,
    Numeral.toInt64?_ofInt]

/-- An identifier that is read back: it is not empty and holds no blank, no comma and no arrow. -/
structure IsIdentifier (text : String) : Prop where
  nonempty : text ≠ ""
  solid : ∀ c ∈ text.toList, isBlank c = false
  undivided : ',' ∉ text.toList
  plain : ¬ HasArrow text.toList

theorem IsIdentifier.head {text : String} (identifier : IsIdentifier text) :
    ∀ c ∈ text.toList.head?, isBlank c = false := by
  intro c first
  exact identifier.solid c (List.mem_of_head? first)

/-- The pattern for numbers reads all of an identifier or nothing. -/
theorem numericId_of_identifier {text : String} (identifier : IsIdentifier text) :
    (digits fun id => gap (fieldEnd id)) text.toList = some text.toList ∨
      (digits fun id => gap (fieldEnd id)) text.toList = none := by
  have nonempty : text.toList ≠ [] := String.toList_eq_nil_iff.not.mpr identifier.nonempty
  have whole := List.takeWhile_append_dropWhile (p := isDecimal) (l := text.toList)
  cases spelled : text.toList.dropWhile isDecimal with
  | nil =>
      left
      have decimal := List.dropWhile_eq_nil_iff.mp spelled
      have read : (digits fun id => gap (fieldEnd id)) (text.toList ++ []) = some text.toList :=
        digits_append nonempty decimal nofun
      rw [List.append_nil] at read
      exact read
  | cons c others =>
      right
      have stopped : isDecimal c = false := by
        have first := List.head?_dropWhile_not isDecimal text.toList
        rw [spelled] at first
        simpa using first
      have member : c ∈ text.toList := by
        rw [← whole, spelled]
        exact List.mem_append_right _ List.mem_cons_self
      rw [← whole, spelled]
      by_cases empty : text.toList.takeWhile isDecimal = []
      · rw [empty, List.nil_append]
        exact run_eq_none_of_head (forall_head?_cons stopped)
      · have undivided : c ≠ ',' := by
          rintro rfl
          exact identifier.undivided member
        rw [digits_append empty (fun d inside => List.mem_takeWhile_imp inside)
            (forall_head?_cons stopped),
          gap_of_head (forall_head?_cons (identifier.solid c member))]
        simp only [fieldEnd, undivided, ↓reduceIte]

theorem id?_of_entry {line text : String} (identifier : IsIdentifier text)
    (entry : IsEntry line ":id" text.toList) : id? line = some text := by
  have symbolic : run (fun c => c != ' ' && c != ',') done text.toList = some text.toList := by
    have inside : ∀ c ∈ text.toList, (c != ' ' && c != ',') = true := by
      intro c member
      have other : c ≠ ' ' := by
        rintro rfl
        exact absurd (identifier.solid ' ' member) (by decide)
      have undivided : c ≠ ',' := by
        rintro rfl
        exact identifier.undivided member
      simp [other, undivided]
    have read : run (fun c => c != ' ' && c != ',') done (text.toList ++ []) = some text.toList :=
      run_append (String.toList_eq_nil_iff.not.mpr identifier.nonempty) inside nofun
    rw [List.append_nil] at read
    exact read
  have numeric : gap (digits fun id => gap (fieldEnd id)) (' ' :: text.toList) =
      (digits fun id => gap (fieldEnd id)) text.toList :=
    gap_space_eq identifier.head (run_eq_none_of_head (forall_head?_cons (by decide)))
  rw [id?, numericIdPattern, symbolicIdPattern, entry.search_key, entry.search_key,
    gap_space identifier.head symbolic, numeric]
  rcases numericId_of_identifier identifier with all | nothing
  · rw [all]
    simp
  · rw [nothing]
    simp

/-- A name that is read back: it is not empty and holds no double quote. -/
theorem name?_of_quoted {line text : String} {indent back : List Char}
    (colonless : ':' ∉ indent) (nonempty : text ≠ "") (unquoted : '"' ∉ text.toList)
    (spelled : line.toList = indent ++ (":name".toList ++ ([' '] ++ '=' :: '>' ::
      (' ' :: '"' :: (text.toList ++ '"' :: back))))) :
    name? line = some text := by
  have solid : ∀ c ∈ text.toList, (c != '"') = true := by
    intro c member
    have different : c ≠ '"' := by
      rintro rfl
      exact unquoted member
    simpa using different
  have read : quoted done ('"' :: (text.toList ++ '"' :: back)) = some text.toList := by
    have inner : run (· != '"') (fun name => word "\"" (done name)) (text.toList ++ '"' :: back) =
        some text.toList := by
      rw [run_append (String.toList_eq_nil_iff.not.mpr nonempty) solid
        (forall_head?_cons (by decide))]
      rfl
    exact inner
  have found : namePattern (":name".toList ++ ([' '] ++ '=' :: '>' ::
      (' ' :: '"' :: (text.toList ++ '"' :: back)))) = some text.toList := by
    rw [namePattern, entry_append (forall_of_all (by decide))]
    exact gap_space (forall_head?_cons (by decide)) read
  have skipped : ∀ c ∈ indent, ∀ s, namePattern (c :: s) = none := by
    intro c member s
    apply word_eq_none
    intro starts
    obtain rfl : ':' = c := (List.cons_prefix_cons.mp starts).1
    exact colonless member
  rw [name?, spelled, search_append_of_fails _ skipped, search_of_some found, Option.map_some,
    String.ofList_toList]

/-- A map that is read back: something, and a closing bracket at its end only. -/
structure IsMap (text : String) : Prop where
  spelled : ∃ body, body ≠ [] ∧ ']' ∉ body ∧ text.toList = body ++ [']']
  solid : ∀ c ∈ text.toList.head?, isBlank c = false
  plain : ¬ HasArrow text.toList

section Entries

variable {line key : String} {value : List Char} (entry : IsEntry line key value)
include entry

theorem name?_of_other (different : ":name" ≠ key) : name? line = none := by
  rw [name?, namePattern, entry.search_other (by decide) different, Option.map_none]

theorem number?_of_other {other : String} (known : other ∈ keys) (different : other ≠ key) :
    number? other line = none := by
  rw [number?, numberPattern, entry.search_other known different, Option.bind_none]

theorem signed?_of_other {other : String} (known : other ∈ keys) (different : other ≠ key) :
    signed? other line = none := by
  rw [signed?, numeralPattern, entry.search_other known different, Option.bind_none]

theorem id?_of_other (different : ":id" ≠ key) : id? line = none := by
  rw [id?, numericIdPattern, symbolicIdPattern, entry.search_other (by decide) different,
    entry.search_other (by decide) different]
  rfl

end Entries

/-- The field that a line gives under a key. -/
def ofKey? (key line : String) : Option Field :=
  match key with
  | ":name" => (name? line).map .name
  | ":common" => (number? ":common" line).map .common
  | ":type" => (signed? ":type" line).map .kind
  | ":op" => (signed? ":op" line).map .op
  | ":value" => (signed? ":value" line).map .value
  | ":id" => (id? line).map .id
  | ":fadeout" => (number? ":fadeout" line).map .fadeout
  | _ => none

/-- An entry gives the field of its own key, and at most a map besides. -/
theorem ofLine?_of_entry {line key : String} {value : List Char} (entry : IsEntry line key value) :
    ofLine? line = (ofKey? key line).or ((map? line).map .map) := by
  have known := entry.known
  simp only [keys, List.mem_cons, List.not_mem_nil, or_false] at known
  rcases known with rfl | rfl | rfl | rfl | rfl | rfl | rfl <;>
    simp (disch := decide) only [ofLine?, ofKey?, entry.recordStart?_eq_none,
      name?_of_other entry, number?_of_other entry, signed?_of_other entry, id?_of_other entry,
      Option.map_none, Option.orElse_eq_orElse, Option.orElse_eq_or, Option.none_or]

theorem hasArrow_cons_iff {c : Char} {s : List Char} (other : c ≠ '=') :
    HasArrow (c :: s) ↔ HasArrow s := by
  rw [HasArrow, List.infix_cons_iff]
  constructor
  · rintro (starts | later)
    · exact absurd (List.cons_prefix_cons.mp starts).1.symm other
    · exact later
  · exact Or.inr

theorem toList_entryLine (indent key value : String) :
    (entryLine indent key value).toList =
      indent.toList ++ (key.toList ++ (" => ".toList ++ value.toList)) := by
  simp only [entryLine_eq, String.toList_append]

theorem entryLine_entry {indent key value : String} (known : key ∈ keys)
    (allBlank : ∀ c ∈ indent.toList, isBlank c = true) (plain : ¬ HasArrow value.toList) :
    IsEntry (entryLine indent key value) key value.toList where
  known := known
  spelled := by
    refine ⟨indent.toList, allBlank, ?_⟩
    rw [toList_entryLine, List.append_assoc, List.append_assoc]
    rfl
  plain := by
    rw [hasArrow_cons_iff (by decide)]
    exact plain

section Written

variable {indent : String} (allBlank : ∀ c ∈ indent.toList, isBlank c = true)
include allBlank

theorem numberLine_entry {key : String} (known : key ∈ keys) (n : UInt32) :
    IsEntry (entryLine indent key (toString n.toNat)) key (Nat.toDigits 10 n.toNat) := by
  have digits : (toString n.toNat).toList = Nat.toDigits 10 n.toNat := by
    rw [Nat.toString_eq_repr, Nat.toList_repr]
  rw [← digits]
  apply entryLine_entry known allBlank
  rw [digits]
  exact noArrow_of_unequal (unequal_toDigits n.toNat)

theorem ofLine?_commonLine (n : UInt32) :
    ofLine? (entryLine indent ":common" (toString n.toNat)) = some (.common n) := by
  have entry := numberLine_entry allBlank (by decide : ":common" ∈ keys) n
  rw [ofLine?_of_entry entry, ofKey?, number?_of_entry entry]
  rfl

theorem ofLine?_fadeoutLine (n : UInt32) :
    ofLine? (entryLine indent ":fadeout" (toString n.toNat)) = some (.fadeout n) := by
  have entry := numberLine_entry allBlank (by decide : ":fadeout" ∈ keys) n
  rw [ofLine?_of_entry entry, ofKey?, number?_of_entry entry]
  rfl

theorem ofLine?_numeralLine {key : String} (known : key ∈ keys) {field : Int64 → Field}
    (signed : ∀ line, ofKey? key line = (signed? key line).map field) (value : Int64) :
    ofLine? (entryLine indent key (toString value.toInt)) = some (field value) := by
  have entry : IsEntry (entryLine indent key (toString value.toInt)) key
      value.toInt.repr.toList := by
    apply entryLine_entry known allBlank
    rw [Int.toString_eq_repr, toList_repr_int]
    apply noArrow_of_unequal
    by_cases negative : value.toInt < 0 <;> simp [negative, unequal_toDigits]
  rw [ofLine?_of_entry entry, signed, signed?_of_entry entry]
  rfl

theorem ofLine?_idLine {text : String} (identifier : IsIdentifier text) :
    ofLine? (entryLine indent ":id" text) = some (.id text) := by
  have entry : IsEntry (entryLine indent ":id" text) ":id" text.toList :=
    entryLine_entry (by decide) allBlank identifier.plain
  rw [ofLine?_of_entry entry, ofKey?, id?_of_entry identifier entry]
  rfl

end Written

theorem toList_sceneNameLine (text : String) :
    (sceneNameLine text).toList = List.replicate 10 ' ' ++ (":name".toList ++ ([' '] ++
      '=' :: '>' :: (' ' :: '"' :: (text.toList ++ ['"'])))) := by
  simp only [sceneNameLine_eq, String.toList_append, List.append_assoc]
  rfl

theorem recordStart?_sceneNameLine {text : String}
    (absent : search recordPattern text.toList = none) :
    recordStart? (sceneNameLine text) = none := by
  apply recordStart?_of_absent
  have regrouped : (sceneNameLine text).toList =
      "          :name => \"".toList ++ (text.toList ++ ['"']) := by
    rw [toList_sceneNameLine]
    rfl
  rw [regrouped, search_recordPattern_append _ (forall_of_all (by decide))]
  exact search_recordPattern_quoted absent (noArrow_of_unequal (by decide))

/-- A scene's name is read, and an empty one is passed over. -/
theorem ofLine?_sceneNameLine {text : String} (unquoted : '"' ∉ text.toList)
    (absent : search recordPattern text.toList = none) :
    ofLine? (sceneNameLine text) = if text = "" then none else some (.name text) := by
  by_cases empty : text = ""
  · subst empty
    decide
  · rw [if_neg empty, ofLine?, recordStart?_sceneNameLine absent,
      name?_of_quoted (by decide) empty unquoted (toList_sceneNameLine text)]
    rfl

theorem toList_mapLine (text : String) :
    (mapLine text).toList = List.replicate 10 ' ' ++ ("map:".toList ++ ' ' :: text.toList) := by
  rw [mapLine_eq, String.toList_append]
  rfl

/-- A map is read to its closing bracket. -/
theorem map?_mapLine {text : String} (valid : IsMap text) : map? (mapLine text) = some text := by
  obtain ⟨body, nonempty, unclosed, spelled⟩ := valid.spelled
  have inside : ∀ c ∈ body, (c != ']') = true := by
    intro c member
    have different : c ≠ ']' := by
      rintro rfl
      exact unclosed member
    simpa using different
  have read : run (· != ']') (fun text => word "]" (done (text ++ [']']))) text.toList =
      some text.toList := by
    rw [spelled, run_append nonempty inside (forall_head?_cons (by decide))]
    rfl
  have found : mapPattern ("map:".toList ++ ' ' :: text.toList) = some text.toList := by
    rw [mapPattern, word_append]
    exact gap_space valid.solid read
  have skipped : ∀ c ∈ List.replicate 10 ' ', ∀ s, mapPattern (c :: s) = none := by
    intro c member s
    obtain rfl := List.eq_of_mem_replicate member
    rfl
  rw [map?, toList_mapLine, search_append_of_fails _ skipped, search_of_some found,
    Option.map_some, String.ofList_toList]

theorem noArrow_append_of_unequal {front back : List Char} (unequal : '=' ∉ front)
    (plain : ¬ HasArrow back) : ¬ HasArrow (front ++ back) := by
  induction front with
  | nil => exact plain
  | cons c front ih =>
      have other : c ≠ '=' := by
        rintro rfl
        exact unequal List.mem_cons_self
      rw [List.cons_append, hasArrow_cons_iff other]
      exact ih fun member => unequal (List.mem_cons_of_mem c member)

theorem ofLine?_mapLine {text : String} (valid : IsMap text) :
    ofLine? (mapLine text) = some (.map text) := by
  have plain : ¬ HasArrow (mapLine text).toList := by
    rw [mapLine_eq, String.toList_append]
    exact noArrow_append_of_unequal (by decide) valid.plain
  have entries : ∀ (key : String) (α : Type) (pattern : Pattern α),
      search (entry key pattern) (mapLine text).toList = none :=
    fun key α pattern => search_entry_of_noArrow plain
  simp only [ofLine?, recordStart?_of_absent (search_recordPattern_of_noArrow plain), name?,
    number?, signed?, id?, namePattern, numberPattern, numeralPattern, numericIdPattern,
    symbolicIdPattern, entries, map?_mapLine valid, Option.map_none, Option.map_some,
    Option.bind_none, Option.orElse_eq_orElse, Option.orElse_eq_or, Option.or_none, Option.none_or]

theorem readUInt32?_of_lt {n : Nat} (small : n < UInt32.size) :
    readUInt32? (Nat.toDigits 10 n) = some (.ofNat n) := by
  simp [readUInt32?, readNat?_toDigits, small]

/-- The opener of a record gives its number. -/
theorem recordStart?_openerLine (indent : String) (n : Nat)
    (undigited : ∀ c ∈ indent.toList, isDecimal c = false) (small : n < UInt32.size) :
    recordStart? (openerLine indent n) = some (.ofNat n) := by
  have spelled : (openerLine indent n).toList =
      indent.toList ++ (Nat.toDigits 10 n ++ ([' '] ++ '=' :: '>' :: ([' '] ++ '\x7b' :: []))) := by
    simp only [openerLine, String.toList_append, Nat.toString_eq_repr, Nat.toList_repr,
      List.append_assoc]
    rfl
  have found : recordPattern (Nat.toDigits 10 n ++ ([' '] ++ '=' :: '>' ::
      ([' '] ++ '\x7b' :: []))) = some (Nat.toDigits 10 n) := by
    rw [recordPattern_eq_some_iff]
    exact ⟨Nat.toDigits_ne_nil, fun c => isDecimal_of_mem_toDigits, [' '], [' '], [], rfl,
      forall_of_all (by decide), forall_of_all (by decide)⟩
  rw [recordStart?, spelled, search_recordPattern_append _ undigited, search_of_some found,
    Option.bind_some, readUInt32?_of_lt small]

theorem recordStart?_sceneOpener {ordinal : Nat} (small : ordinal < UInt32.size) :
    recordStart? (sceneOpener ordinal) = some (.ofNat ordinal) := by
  rw [← openerLine_scene]
  exact recordStart?_openerLine _ ordinal (forall_of_all (by decide)) small

theorem recordStart?_recordOpener (id : UInt32) : recordStart? (recordOpener id) = some id := by
  rw [← openerLine_record,
    recordStart?_openerLine _ id.toNat (forall_of_all (by decide)) (UInt32.toNat_lt id),
    UInt32.ofNat_toNat]

theorem name?_characterNameLine {text : String} (nonempty : text ≠ "")
    (unquoted : '"' ∉ text.toList) : name? (characterNameLine text) = some text := by
  have spelled : (characterNameLine text).toList = List.replicate 6 ' ' ++ (":name".toList ++
      ([' '] ++ '=' :: '>' :: (' ' :: '"' :: (text.toList ++ '"' :: [','])))) := by
    simp only [characterNameLine_eq, String.toList_append, List.append_assoc]
    rfl
  exact name?_of_quoted (by decide) nonempty unquoted spelled

end SceneGallery.Library
