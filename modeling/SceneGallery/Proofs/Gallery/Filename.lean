import Mathlib.Data.String.Basic
import SceneGallery.Gallery.Discovery
import SceneGallery.Proofs.Storage.Path
import SceneGallery.Proofs.Text.Number
set_option autoImplicit false

namespace SceneGallery

open Storage

theorem toList_eventFilename (id : UInt32) :
    (eventFilename id).toList =
      "CommonEvent".toList ++ Nat.toDigits 10 id.toNat ++ ".txt".toList := by
  rw [eventFilename, String.toList_append, String.toList_append, Nat.toString_eq_repr,
    Nat.toList_repr]

/-- The name of an event file has the letters of its two ends, and digits. -/
theorem not_mem_eventFilename {c : Char} (front : c ∉ "CommonEvent".toList)
    (digit : c.isDigit = false) (back : c ∉ ".txt".toList) (id : UInt32) :
    c ∉ (eventFilename id).toList := by
  rw [toList_eventFilename]
  refine List.not_mem_append (List.not_mem_append front fun member => ?_) back
  rw [Nat.isDigit_of_mem_toDigits (by decide) (by decide) member] at digit
  cases digit

theorem isName_eventFilename (id : UInt32) : Path.IsName (eventFilename id) where
  nonempty := by
    intro empty
    have letters := congrArg (·.toList.head?) empty
    rw [toList_eventFilename] at letters
    cases letters
  undivided := not_mem_eventFilename (by decide) (by decide) (by decide) id
  notHere := by
    intro dot
    have letters := congrArg (·.toList.head?) dot
    rw [toList_eventFilename] at letters
    cases letters
  notAbove := by
    intro dots
    have letters := congrArg (·.toList.head?) dots
    rw [toList_eventFilename] at letters
    cases letters

theorem eventFilename_inj {id other : UInt32} (same : eventFilename id = eventFilename other) :
    id = other := by
  rw [eventFilename, eventFilename, String.append_left_inj, String.append_right_inj,
    Text.toString_nat_inj] at same
  exact UInt32.toNat_inj.mp same

theorem utf8Size_of_isDigit {c : Char} (digit : c.isDigit = true) : c.utf8Size = 1 := by
  have small : c.val ≤ 127 := by
    simp only [Char.isDigit, Bool.and_eq_true, decide_eq_true_eq] at digit
    exact UInt32.le_trans digit.2 (by decide)
  exact if_pos small

theorem utf8ByteSize_ofList_of_narrow {letters : List Char}
    (narrow : ∀ c ∈ letters, c.utf8Size = 1) :
    (String.ofList letters).utf8ByteSize = letters.length := by
  rw [String.utf8ByteSize_ofList]
  induction letters with
  | nil => rfl
  | cons c rest ih =>
      rw [String.utf8Len_cons, ih fun other member => narrow other (List.mem_cons_of_mem c member),
        narrow c List.mem_cons_self, List.length_cons]

theorem utf8ByteSize_toString (n : Nat) :
    (toString n).utf8ByteSize = (Nat.toDigits 10 n).length := by
  have digits : ∀ c ∈ Nat.toDigits 10 n, c.utf8Size = 1 := fun c member =>
    utf8Size_of_isDigit (Nat.isDigit_of_mem_toDigits (by decide) (by decide) member)
  rw [← String.ofList_toList (s := toString n), Nat.toString_eq_repr, Nat.toList_repr,
    utf8ByteSize_ofList_of_narrow digits]

/-- The number of bytes in the name of an event file. -/
theorem utf8ByteSize_eventFilename (id : UInt32) :
    (eventFilename id).utf8ByteSize = (Nat.toDigits 10 id.toNat).length + 15 := by
  have front : "CommonEvent".utf8ByteSize = 11 := by decide
  have back : ".txt".utf8ByteSize = 4 := by decide
  rw [eventFilename, String.utf8ByteSize_append, String.utf8ByteSize_append, front, back,
    utf8ByteSize_toString]
  omega

theorem utf8ByteSize_eventFilename_le (id : UInt32) :
    (eventFilename id).utf8ByteSize ≤ longestName := by
  have digits : (Nat.toDigits 10 id.toNat).length ≤ 10 := by
    rw [Nat.length_toDigits_le_iff (by decide) (by decide)]
    exact Nat.lt_of_lt_of_le id.toNat_lt (by decide)
  rw [utf8ByteSize_eventFilename, longestName]
  omega

theorem eventFilename_ne_append {suffix : String} (long : 4 ≤ suffix.toList.length)
    (other : ¬ ".txt".toList <:+ suffix.toList) (id : UInt32) (name : String) :
    eventFilename id ≠ name ++ suffix := by
  intro same
  have letters := congrArg String.toList same
  rw [toList_eventFilename, String.toList_append] at letters
  have ends : ".txt".toList <:+ name.toList ++ suffix.toList := ⟨_, letters⟩
  exact other (List.suffix_of_suffix_length_le ends (List.suffix_append _ _) long)

namespace Gallery

theorem head?_toDigits {n : Nat} (large : 10 ≤ n) :
    (Nat.toDigits 10 n).head? = (Nat.toDigits 10 (n / 10)).head? := by
  rw [Nat.toDigits_of_base_le (by decide) large,
    List.head?_append_of_ne_nil _ Nat.toDigits_ne_nil]

/-- The numbers from the first one of a run up to twenty thousand do not start with a two. -/
theorem isCandidate_eventFilename {id : UInt32} (first : firstDerivedId ≤ id)
    (small : id.toNat < 20000) : isCandidate (eventFilename id) = false := by
  have large : 9200 ≤ id.toNat := UInt32.le_iff_toNat_le.mp first
  have start : (Nat.toDigits 10 id.toNat).head? ≠ some '2' := by
    rw [head?_toDigits (by omega), head?_toDigits (by omega), head?_toDigits (by omega)]
    by_cases short : id.toNat < 10000
    · rw [show id.toNat / 10 / 10 / 10 = 9 by omega]
      decide
    · rw [head?_toDigits (by omega), show id.toNat / 10 / 10 / 10 / 10 = 1 by omega]
      decide
  have unlike : ¬ "CommonEvent2".toList <+: (eventFilename id).toList := by
    rw [toList_eventFilename, List.append_assoc,
      show "CommonEvent2".toList = "CommonEvent".toList ++ ['2'] from rfl,
      List.prefix_append_right_inj]
    intro front
    obtain ⟨rest, spelled⟩ := front
    have head : (Nat.toDigits 10 id.toNat ++ ".txt".toList).head? =
        (Nat.toDigits 10 id.toNat).head? := List.head?_append_of_ne_nil _ Nat.toDigits_ne_nil
    apply start
    rw [← head, ← spelled]
    rfl
  rw [isCandidate, Bool.eq_false_iff]
  intro candidate
  simp only [Bool.and_eq_true, List.isPrefixOf_iff_prefix] at candidate
  exact unlike candidate.1.1.1.2

/-- The name of an event's file begins like one. -/
theorem eventFilename_ne_of_unlike {name : String}
    (unlike : ¬ "CommonEvent".toList <+: name.toList) (id : UInt32) : eventFilename id ≠ name := by
  rintro rfl
  rw [toList_eventFilename, List.append_assoc] at unlike
  exact unlike (List.prefix_append _ _)

theorem isCandidate_of_unlike {name : String}
    (unlike : ¬ "CommonEvent".toList <+: name.toList) : isCandidate name = false := by
  rw [isCandidate, Bool.eq_false_iff]
  intro candidate
  simp only [Bool.and_eq_true, List.isPrefixOf_iff_prefix] at candidate
  have begun : "CommonEvent".toList <+: "CommonEvent2".toList := by decide
  exact unlike (begun.trans candidate.1.1.1.2)

theorem isCandidate_append_bak (last : String) : isCandidate (last ++ ".bak") = false := by
  rw [isCandidate, Bool.eq_false_iff]
  intro candidate
  simp only [Bool.and_eq_true, List.isSuffixOf_iff_suffix, String.toList_append] at candidate
  have ended : ".txt".toList <:+ ".bak".toList :=
    List.suffix_of_suffix_length_le candidate.1.1.2 (List.suffix_append _ _) (by decide)
  exact absurd ended (by decide)

end Gallery

end SceneGallery
