import Mathlib.Algebra.Group.Nat.Defs
import SceneGallery.Proofs.Text.Search
set_option autoImplicit false

namespace SceneGallery.Text

theorem isDecimal_of_mem_toDigits {n : Nat} {c : Char} (member : c ∈ Nat.toDigits 10 n) :
    isDecimal c = true :=
  isDecimal_of_isDigit (Nat.isDigit_of_mem_toDigits (by decide) (by decide) member)

theorem toString_nat_inj {n other : Nat} : toString n = toString other ↔ n = other := by
  refine ⟨fun same => ?_, congrArg toString⟩
  have numbers := congrArg (fun text => Nat.ofDigitChars 10 text.toList 0) same
  simpa only [Nat.toString_eq_repr, Nat.toList_repr, Nat.ofDigitChars_ten_toDigits] using numbers

/-- The last digit of a number is written behind the digits before it. -/
theorem toString_append_digit {tens digit : Nat} (positive : 0 < tens) (small : digit < 10) :
    toString tens ++ toString digit = toString (10 * tens + digit) := by
  simp only [Nat.toString_eq_ofList_toDigits]
  rw [← String.ofList_append, Nat.toDigits_append_toDigits (by decide) positive small]

theorem toList_repr_int (i : Int) :
    i.repr.toList = (if i < 0 then ['-'] else []) ++ Nat.toDigits 10 i.natAbs := by
  rw [Int.repr_eq_if]
  by_cases negative : i < 0
  · have unsigned : ¬ 0 ≤ i := by omega
    have size : (-i).toNat = i.natAbs := by omega
    simp only [negative, unsigned, ↓reduceIte, String.toList_append, Nat.toList_repr, size]
    rfl
  · have unsigned : 0 ≤ i := by omega
    have size : i.toNat = i.natAbs := by omega
    simp only [negative, unsigned, ↓reduceIte, Nat.toList_repr, size, List.nil_append]

/-- The numeral that a number with a sign is written as. -/
def Numeral.ofInt (i : Int) : Numeral := ⟨decide (i < 0), Nat.toDigits 10 i.natAbs⟩

theorem Numeral.toInt64?_toDigits (negative : Bool) (size : Nat) (value : Int64)
    (same : (if negative then -(size : Int) else size) = value.toInt) :
    Numeral.toInt64? ⟨negative, Nat.toDigits 10 size⟩ = some value := by
  simp only [toInt64?, readNat?_toDigits, Option.bind_eq_bind, Option.bind_some]
  rw [same, if_pos ⟨value.le_toInt, value.toInt_lt⟩, Int64.ofInt_toInt]

/-- A word with a sign reads back from its numeral. -/
theorem Numeral.toInt64?_ofInt (value : Int64) :
    (Numeral.ofInt value.toInt).toInt64? = some value := by
  apply toInt64?_toDigits
  generalize value.toInt = i
  by_cases negative : i < 0
  · simp only [negative, decide_true, ↓reduceIte]
    omega
  · simp only [negative, decide_false, Bool.false_eq_true, ↓reduceIte]
    omega

namespace Pattern

variable {α : Type}

theorem digits_append {next : List Char → Pattern α} {front back : List Char}
    (nonempty : front ≠ []) (inside : ∀ c ∈ front, isDecimal c = true)
    (outside : ∀ c ∈ back.head?, isDecimal c = false) :
    digits next (front ++ back) = next front back :=
  run_append nonempty inside outside

theorem digits_toDigits {next : List Char → Pattern α} (n : Nat) {back : List Char}
    (outside : ∀ c ∈ back.head?, isDecimal c = false) :
    digits next (Nat.toDigits 10 n ++ back) = next (Nat.toDigits 10 n) back :=
  digits_append Nat.toDigits_ne_nil (fun _ => isDecimal_of_mem_toDigits) outside

theorem numeral_repr {next : Numeral → Pattern α} (i : Int) {back : List Char}
    (outside : ∀ c ∈ back.head?, isDecimal c = false) :
    numeral next (i.repr.toList ++ back) = next (.ofInt i) back := by
  rw [toList_repr_int]
  by_cases negative : i < 0
  · simp only [negative, ↓reduceIte, List.cons_append, List.nil_append, numeral]
    rw [digits_toDigits _ outside, Numeral.ofInt, decide_eq_true negative]
  · simp only [negative, ↓reduceIte, List.nil_append]
    obtain ⟨first, others, spelled⟩ := List.exists_cons_of_ne_nil
      (Nat.toDigits_ne_nil (n := i.natAbs) (b := 10))
    have unsigned : first ≠ '-' := by
      rintro rfl
      have digit : isDecimal '-' = true :=
        isDecimal_of_mem_toDigits (n := i.natAbs) (by rw [spelled]; exact List.mem_cons_self)
      exact absurd digit (by decide)
    have read : digits (fun ds => next ⟨false, ds⟩) (Nat.toDigits 10 i.natAbs ++ back) =
        next ⟨false, Nat.toDigits 10 i.natAbs⟩ back := digits_toDigits i.natAbs outside
    rw [spelled, List.cons_append] at read ⊢
    rw [numeral.eq_2 _ _ (by intro s same; exact unsigned (List.cons.inj same).1), read,
      Numeral.ofInt, spelled, decide_eq_false negative]

end Pattern

end SceneGallery.Text
