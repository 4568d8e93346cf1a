import Mathlib.Data.List.Basic
import SceneGallery.Storage.Path
set_option autoImplicit false

namespace SceneGallery.Storage.Path

/-- A name that a file can have. -/
structure IsName (name : String) : Prop where
  nonempty : name ≠ ""
  undivided : '/' ∉ name.toList
  notHere : name ≠ "."
  notAbove : name ≠ ".."

instance (name : String) : Decidable (IsName name) :=
  decidable_of_iff (name ≠ "" ∧ '/' ∉ name.toList ∧ name ≠ "." ∧ name ≠ "..")
    ⟨fun ⟨nonempty, undivided, notHere, notAbove⟩ => ⟨nonempty, undivided, notHere, notAbove⟩,
      fun known => ⟨known.nonempty, known.undivided, known.notHere, known.notAbove⟩⟩

theorem names_empty : names "" = [] := rfl

/-- A slash divides the names of a path. -/
theorem names_append (front back : String) :
    names (front ++ "/" ++ back) = names front ++ names back := by
  have spelled : (front ++ "/" ++ back).toList = front.toList ++ '/' :: back.toList := by
    rw [String.toList_append, String.toList_append, List.append_assoc]
    rfl
  simp only [names, spelled, List.splitOn_append_cons_self, List.filter_append, List.map_append]

theorem names_of_undivided {name : String} (undivided : '/' ∉ name.toList) (nonempty : name ≠ "") :
    names name = [name] := by
  have letters : name.toList ≠ [] := fun empty => nonempty (String.toList_eq_nil_iff.mp empty)
  rw [names, List.splitOn_eq_singleton undivided]
  simp [letters]

theorem names_slash_end (front : String) : names (front ++ "/") = names front := by
  have divided := names_append front ""
  rw [String.append_empty, names_empty, List.append_nil] at divided
  exact divided

theorem exists_of_endsWithSlash {path : String} (slash : endsWithSlash path = true) :
    ∃ front, path = front ++ "/" := by
  obtain ⟨front, spelled⟩ := List.getLast?_eq_some_iff.mp (beq_iff_eq.mp slash)
  refine ⟨String.ofList front, String.toList_inj.mp ?_⟩
  rw [spelled, String.toList_append, String.toList_ofList]
  rfl

theorem isAbsolute_eq_false {name : String} (undivided : '/' ∉ name.toList) :
    isAbsolute name = false := by
  rw [isAbsolute, beq_eq_false_iff_ne]
  exact fun first => undivided (List.mem_of_head? first)

section Join

variable {directory name : String} (known : IsName name)
include known

/-- The name of a file in a directory comes after the names of the directory. -/
theorem names_join : names (join directory name) = names directory ++ [name] := by
  have last := names_of_undivided known.undivided known.nonempty
  rw [join, isAbsolute_eq_false known.undivided, Bool.false_or]
  by_cases empty : directory = ""
  · subst empty
    exact last
  · rw [if_neg (by simpa using empty)]
    by_cases slash : endsWithSlash directory = true
    · obtain ⟨front, rfl⟩ := exists_of_endsWithSlash slash
      rw [if_pos slash, names_append, names_slash_end, last]
    · rw [if_neg slash, names_append, last]

theorem toList_join (directory : String) :
    ∃ front, (join directory name).toList = front ++ name.toList := by
  rw [join, isAbsolute_eq_false known.undivided, Bool.false_or]
  split
  · exact ⟨[], rfl⟩
  · split
    · exact ⟨directory.toList, String.toList_append⟩
    · exact ⟨(directory ++ "/").toList, String.toList_append⟩

theorem endsWithSlash_join : endsWithSlash (join directory name) = false := by
  obtain ⟨front, spelled⟩ := toList_join known directory
  have letters : name.toList ≠ [] := fun empty =>
    known.nonempty (String.toList_eq_nil_iff.mp empty)
  rw [endsWithSlash, spelled, List.getLast?_append_of_ne_nil _ letters, beq_eq_false_iff_ne]
  exact fun last => known.undivided (List.mem_of_getLast? last)

theorem isAbsolute_join : isAbsolute (join directory name) = isAbsolute directory := by
  have relative := isAbsolute_eq_false known.undivided
  rw [join, relative, Bool.false_or]
  by_cases empty : directory = ""
  · subst empty
    exact relative
  · have letters : directory.toList ≠ [] := fun none =>
      empty (String.toList_eq_nil_iff.mp none)
    rw [if_neg (by simpa using empty)]
    simp only [isAbsolute]
    split <;> simp only [String.toList_append, List.append_assoc,
      List.head?_append_of_ne_nil _ letters]

end Join

section Letters

variable {path suffix : String}

theorem exists_cut (path : String) :
    ∃ (front : List Char) (last : String), path.toList = front ++ last.toList ∧
      '/' ∉ last.toList ∧ ∀ c ∈ front.getLast?, c = '/' := by
  by_cases divided : '/' ∈ path.toList
  · obtain ⟨later, earlier, spelled, undivided⟩ :=
      List.eq_append_cons_of_mem (List.mem_reverse.mpr divided)
    refine ⟨earlier.reverse ++ ['/'], String.ofList later.reverse, ?_, by simpa using undivided, ?_⟩
    · rw [← List.reverse_reverse path.toList, spelled]
      simp
    · intro c last
      exact (Option.some.inj (List.getLast?_concat.symm.trans last)).symm
  · exact ⟨[], path, rfl, divided, nofun⟩

theorem names_cut {front : List Char} {path last : String}
    (spelled : path.toList = front ++ last.toList) (undivided : '/' ∉ last.toList)
    (slash : ∀ c ∈ front.getLast?, c = '/') (nonempty : last ≠ "") :
    names path = names (String.ofList front) ++ [last] := by
  rcases List.eq_nil_or_concat' front with rfl | ⟨others, c, rfl⟩
  · obtain rfl : path = last := String.toList_inj.mp spelled
    exact names_of_undivided undivided nonempty
  · obtain rfl : c = '/' := slash c List.getLast?_concat
    have whole : path = String.ofList others ++ "/" ++ last := by
      apply String.toList_inj.mp
      rw [spelled]
      simp
    have ended : String.ofList (others ++ ['/']) = String.ofList others ++ "/" :=
      String.ofList_append
    rw [whole, names_append, names_of_undivided undivided nonempty, ended, names_slash_end]

/-- A path comes apart into names and the letters behind its last slash. What is put behind the path
belongs to the name that these letters begin. -/
theorem exists_last (path : String) :
    ∃ front last, '/' ∉ last.toList ∧ (last = "" → endsWithSlash path = true ∨ path = "") ∧
      ∀ suffix : String, '/' ∉ suffix.toList → last ++ suffix ≠ "" →
        names (path ++ suffix) = front ++ [last ++ suffix] := by
  obtain ⟨front, last, spelled, undivided, slash⟩ := exists_cut path
  refine ⟨names (String.ofList front), last, undivided, ?_, ?_⟩
  · rintro rfl
    rw [String.toList_empty, List.append_nil] at spelled
    rcases List.eq_nil_or_concat' front with rfl | ⟨others, c, rfl⟩
    · exact Or.inr (String.toList_eq_nil_iff.mp spelled)
    · left
      rw [endsWithSlash, spelled, List.getLast?_concat, slash c List.getLast?_concat]
      rfl
  · intro suffix solid nonempty
    refine names_cut ?_ ?_ slash nonempty
    · rw [String.toList_append, spelled, String.toList_append, List.append_assoc]
    · rw [String.toList_append]
      exact List.not_mem_append undivided solid

theorem endsWithSlash_append (undivided : '/' ∉ suffix.toList) (nonempty : suffix ≠ "") :
    endsWithSlash (path ++ suffix) = false := by
  have letters : suffix.toList ≠ [] := fun empty => nonempty (String.toList_eq_nil_iff.mp empty)
  rw [endsWithSlash, String.toList_append, List.getLast?_append_of_ne_nil _ letters,
    beq_eq_false_iff_ne]
  exact fun last => undivided (List.mem_of_getLast? last)

end Letters

section Parent

/-- The names that lead somewhere. -/
def steps (path : String) : List String :=
  (names path).filter fun name => name != "."

theorem steps_slash_end (front : String) : steps (front ++ "/") = steps front := by
  rw [steps, names_slash_end, steps]

theorem ofList_cons_reverse (c : Char) (s : List Char) :
    String.ofList (c :: s).reverse = String.ofList s.reverse ++ String.ofList [c] := by
  rw [List.reverse_cons, String.ofList_append]

/-- The end of a path that is cut off leads nowhere. -/
theorem steps_trimReversed (reversed : List Char) :
    steps (String.ofList (trimReversed reversed).reverse) =
      steps (String.ofList reversed.reverse) := by
  fun_induction trimReversed reversed with
  | case1 => rfl
  | case2 rest _ ih =>
      rw [ih, ofList_cons_reverse]
      exact (steps_slash_end _).symm
  | case3 rest ih =>
      have dotted := names_append (String.ofList rest.reverse) "."
      rw [ih, ofList_cons_reverse, ofList_cons_reverse, ofList_cons_reverse]
      show steps (_ ++ "/") = steps (_ ++ "/" ++ ".")
      rw [steps_slash_end, steps, steps, dotted, List.filter_append]
      exact (List.append_nil _).symm
  | case4 => rfl

theorem getLast?_trimReversed (reversed : List Char) :
    (trimReversed reversed).getLast? = reversed.getLast? := by
  fun_induction trimReversed reversed with
  | case1 => rfl
  | case2 rest more ih =>
      rw [ih]
      cases rest with
      | nil => exact absurd rfl more
      | cons c rest => rw [List.getLast?_cons_cons]
  | case3 rest ih => rw [ih, List.getLast?_cons_cons]
  | case4 => rfl

theorem mem_of_mem_trimReversed {reversed : List Char} {c : Char}
    (member : c ∈ trimReversed reversed) : c ∈ reversed := by
  fun_induction trimReversed reversed with
  | case1 => exact member
  | case2 rest _ ih => exact List.mem_cons_of_mem _ (ih member)
  | case3 rest ih => exact List.mem_cons_of_mem _ (ih member)
  | case4 => exact member

theorem mem_of_mem_parent {path : String} {c : Char} (member : c ∈ (parent path).toList) :
    c ∈ path.toList := by
  rw [parent, String.toList_ofList, List.mem_reverse] at member
  have inside := (List.dropWhile_sublist _).mem (mem_of_mem_trimReversed member)
  exact List.mem_reverse.mp (mem_of_mem_trimReversed inside)

theorem mem_of_mem_join {directory name : String} {c : Char}
    (member : c ∈ (join directory name).toList) :
    c ∈ directory.toList ∨ c = '/' ∨ c ∈ name.toList := by
  rw [join] at member
  split at member
  · exact .inr (.inr member)
  · split at member
    · rw [String.toList_append, List.mem_append] at member
      exact member.imp_right .inr
    · rw [String.toList_append, String.toList_append, List.mem_append, List.mem_append] at member
      rcases member with (front | slash) | back
      · exact .inl front
      · exact .inr (.inl (List.mem_singleton.mp slash))
      · exact .inr (.inr back)

theorem trimReversed_append {name : String} (known : IsName name) (before : List Char) :
    trimReversed (name.toList.reverse ++ before) = name.toList.reverse ++ before := by
  have solid : '/' ∉ name.toList.reverse := fun member =>
    known.undivided (List.mem_reverse.mp member)
  cases spelled : name.toList.reverse with
  | nil =>
      have empty : name.toList = [] := List.reverse_eq_nil_iff.mp spelled
      exact absurd (String.toList_eq_nil_iff.mp empty) known.nonempty
  | cons last others =>
      rw [spelled] at solid
      rw [List.cons_append]
      unfold trimReversed
      split
      · simp_all
      · simp_all
      · rename_i rest same
        obtain ⟨rfl, later⟩ := List.cons.inj same
        cases others with
        | nil =>
            have dot : name = "." := by
              rw [← String.toList_inj, ← List.reverse_reverse name.toList, spelled]
              rfl
            exact absurd dot known.notHere
        | cons next others =>
            obtain ⟨rfl, _⟩ := List.cons.inj later
            simp at solid
      · rfl

/-- What is before a name at the end of a path is its parent, up to what leads nowhere. -/
theorem parent_append {front : List Char} {name path : String} (known : IsName name)
    (spelled : path.toList = front ++ name.toList)
    (slash : ∀ last ∈ front.getLast?, last = '/') :
    parent path = String.ofList (trimReversed front.reverse).reverse := by
  have solid : ∀ c ∈ name.toList.reverse, (c != '/') = true := by
    intro c member
    rw [bne_iff_ne]
    rintro rfl
    exact known.undivided (List.mem_reverse.mp member)
  have kept : front.reverse.dropWhile (· != '/') = front.reverse := by
    cases reversed : front.reverse with
    | nil => rfl
    | cons last others =>
        have final : front.getLast? = some last := by
          rw [← List.head?_reverse, reversed, List.head?_cons]
        rw [slash last final]
        rfl
  rw [parent, spelled, List.reverse_append, trimReversed_append known,
    List.dropWhile_append_of_pos solid, kept]

/-- The directory of a file has the other names of its path. -/
theorem parent_of_file {path name : String} {front : List String}
    (spelled : names path = front ++ [name]) (notHere : name ≠ ".") (notAbove : name ≠ "..")
    (unslashed : endsWithSlash path = false) :
    steps (parent path) = front.filter (fun name => name != ".") ∧
      isAbsolute (parent path) = isAbsolute path := by
  obtain ⟨letters, last, cut, undivided, slash⟩ := exists_cut path
  have nonempty : last ≠ "" := by
    rintro rfl
    rw [String.toList_empty, List.append_nil] at cut
    rcases List.eq_nil_or_concat' letters with rfl | ⟨others, c, rfl⟩
    · rw [String.toList_eq_nil_iff.mp cut, names_empty] at spelled
      exact List.append_ne_nil_of_right_ne_nil front (List.cons_ne_nil name []) spelled.symm
    · rw [endsWithSlash, cut, List.getLast?_concat, slash c List.getLast?_concat] at unslashed
      cases unslashed
  obtain ⟨rfl, same⟩ := List.append_inj' ((names_cut cut undivided slash nonempty).symm.trans
    spelled) rfl
  obtain rfl := List.singleton_inj.mp same
  rw [parent_append ⟨nonempty, undivided, notHere, notAbove⟩ cut slash]
  constructor
  · rw [steps_trimReversed, List.reverse_reverse, steps]
  · rw [isAbsolute, isAbsolute, String.toList_ofList, List.head?_reverse, getLast?_trimReversed,
      List.getLast?_reverse, cut]
    cases letters with
    | nil =>
        rw [List.nil_append, List.head?_nil]
        have relative := isAbsolute_eq_false undivided
        rw [isAbsolute] at relative
        rw [relative]
        rfl
    | cons c letters => rfl

/-- All files in a directory have the same parent, which has the names of the directory. -/
theorem exists_parent (directory : String) :
    ∃ up, (∀ name, IsName name → parent (join directory name) = up) ∧
      steps up = steps directory ∧ isAbsolute up = isAbsolute directory := by
  have front : ∃ front : List Char,
      (∀ name, IsName name → (join directory name).toList = front ++ name.toList) ∧
      (∀ last ∈ front.getLast?, last = '/') ∧ steps (String.ofList front) = steps directory ∧
      isAbsolute (String.ofList front) = isAbsolute directory := by
    by_cases empty : directory = ""
    · subst empty
      refine ⟨[], fun name known => ?_, nofun, rfl, rfl⟩
      rw [join, isAbsolute_eq_false known.undivided, Bool.false_or]
      rfl
    · have named (name : String) (known : IsName name) : join directory name =
          if endsWithSlash directory then directory ++ name else directory ++ "/" ++ name := by
        rw [join, isAbsolute_eq_false known.undivided, Bool.false_or, if_neg (by simpa using empty)]
      by_cases slash : endsWithSlash directory = true
      · refine ⟨directory.toList, fun name known => ?_, ?_, ?_, ?_⟩
        · rw [named name known, if_pos slash, String.toList_append]
        · intro last final
          exact Option.some.inj (final.symm.trans (beq_iff_eq.mp slash))
        · rw [String.ofList_toList]
        · rw [String.ofList_toList]
      · have letters : directory.toList ≠ [] := fun none =>
          empty (String.toList_eq_nil_iff.mp none)
        refine ⟨(directory ++ "/").toList, fun name known => ?_, ?_, ?_, ?_⟩
        · rw [named name known, if_neg slash, String.toList_append]
        · intro last final
          rw [String.toList_append] at final
          exact (Option.some.inj (List.getLast?_concat.symm.trans final)).symm
        · rw [String.ofList_toList, steps_slash_end]
        · rw [String.ofList_toList, isAbsolute, isAbsolute, String.toList_append,
            List.head?_append_of_ne_nil _ letters]
  obtain ⟨front, spelled, slash, same, absolute⟩ := front
  refine ⟨_, fun name known => parent_append known (spelled name known) slash, ?_, ?_⟩
  · rw [steps_trimReversed, List.reverse_reverse, same]
  · rw [← absolute, isAbsolute, isAbsolute, String.toList_ofList, String.toList_ofList,
      List.head?_reverse, getLast?_trimReversed, List.getLast?_reverse]

end Parent

end SceneGallery.Storage.Path
