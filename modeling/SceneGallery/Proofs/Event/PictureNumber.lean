import Mathlib.Logic.Function.Iterate
import SceneGallery.Event.Picture
import SceneGallery.Proofs.Text.Number
set_option autoImplicit false

namespace SceneGallery.Event

open Text

/-- The number after the given one where its last digit alone is counted up. -/
def nextNumber (n : Nat) : Nat :=
  if n % 10 = 9 then 100 * (n / 10) + 10 else n + 1

/-- The number that is written with the given number of ones. -/
def ones : Nat → Nat
  | 0 => 0
  | count + 1 => 10 * ones count + 1

theorem nextPictureName?_append_digit (front : String) {digit : Nat} (small : digit < 10) :
    nextPictureName? (front ++ toString digit) = some (front ++ toString (digit + 1)) := by
  have written : (toString digit).toList = [digit.digitChar] := by
    rw [Nat.toString_eq_repr, Nat.toList_repr, Nat.toDigits_of_lt_base small]
  have numbered : digit.digitChar.isDigit = true := by
    apply Nat.isDigit_of_mem_toDigits (b := 10) (n := digit) (by decide) (by decide)
    rw [Nat.toDigits_of_lt_base small]
    exact List.mem_singleton_self _
  have value : digit.digitChar.toNat - '0'.toNat = digit :=
    Nat.toNat_digitChar_sub_48_of_lt_ten small
  rw [nextPictureName?_eq_some_iff]
  refine ⟨front.toList, digit.digitChar, ?_, numbered, ?_⟩
  · rw [String.toList_append, written]
  · rw [String.toList_append, value, Nat.toString_eq_repr, Nat.toList_repr]

/-- The next number is the one that is larger by one, but for a nine with digits before it. -/
theorem nextNumber_eq_succ_iff (n : Nat) : nextNumber n = n + 1 ↔ n < 10 ∨ n % 10 ≠ 9 := by
  unfold nextNumber
  split <;> omega

theorem nextNumber_of_digit (tens : Nat) {digit : Nat} (small : digit < 10) :
    nextNumber (10 * tens + digit) =
      if digit = 9 then 100 * tens + 10 else 10 * tens + (digit + 1) := by
  have last : (10 * tens + digit) % 10 = digit := by omega
  have others : (10 * tens + digit) / 10 = tens := by omega
  rw [nextNumber, last, others, Nat.add_assoc]

theorem toString_nextNumber {tens digit : Nat} (positive : 0 < tens) (small : digit < 10) :
    toString (nextNumber (10 * tens + digit)) = toString tens ++ toString (digit + 1) := by
  rw [nextNumber_of_digit tens small]
  by_cases nine : digit = 9
  · rw [if_pos nine, nine]
    -- A ten is two digits, and each of them is written behind a number of its own.
    calc
      toString (100 * tens + 10) = toString (10 * (10 * tens + 1) + 0) := by
        congr 1
        omega
      _ = toString tens ++ toString 1 ++ toString 0 := by
        rw [← toString_append_digit (by omega) (by decide),
          ← toString_append_digit positive (by decide)]
      _ = toString tens ++ toString (9 + 1) := String.append_assoc ..
  · rw [if_neg nine, toString_append_digit positive (by omega)]

theorem nextPictureName?_append_number (stem : String) (n : Nat) :
    nextPictureName? (stem ++ toString n) = some (stem ++ toString (nextNumber n)) := by
  by_cases single : n < 10
  · rw [nextPictureName?_append_digit stem single, (nextNumber_eq_succ_iff n).mpr (.inl single)]
  · have positive : 0 < n / 10 := by omega
    have small : n % 10 < 10 := Nat.mod_lt n (by decide)
    rw [← Nat.div_add_mod n 10, toString_nextNumber positive small,
      ← toString_append_digit positive small, ← String.append_assoc,
      nextPictureName?_append_digit _ small, String.append_assoc]

/-- The name of the picture that comes the given number of pictures after the given one. -/
def laterPictureName? (k : Nat) (name : String) : Option String :=
  (fun reached => reached.bind nextPictureName?)^[k] (some name)

theorem laterPictureName?_succ (k : Nat) (name : String) :
    laterPictureName? (k + 1) name = (laterPictureName? k name).bind nextPictureName? :=
  Function.iterate_succ_apply' ..

/-- The stem is kept all the way, and the number behind it goes on by itself. -/
theorem laterPictureName?_append_number (stem : String) (n k : Nat) :
    laterPictureName? k (stem ++ toString n) = some (stem ++ toString (nextNumber^[k] n)) := by
  induction k with
  | zero => rfl
  | succ k ih =>
      rw [laterPictureName?_succ, ih, Option.bind_some, nextPictureName?_append_number,
        Function.iterate_succ_apply']

/-- Every ten that is counted from zero on stands as a one before the last digit. -/
theorem iterate_nextNumber (k : Nat) : nextNumber^[k] 0 = 10 * ones (k / 10) + k % 10 := by
  induction k with
  | zero => rfl
  | succ k ih =>
      have small : k % 10 < 10 := Nat.mod_lt k (by decide)
      rw [Function.iterate_succ_apply', ih, nextNumber_of_digit _ small]
      by_cases nine : k % 10 = 9
      · have more : (k + 1) / 10 = k / 10 + 1 := by omega
        rw [if_pos nine, more, ones]
        omega
      · have same : (k + 1) / 10 = k / 10 := by omega
        rw [if_neg nine, same]
        omega

theorem le_ones (count : Nat) : count ≤ ones count := by
  induction count with
  | zero => exact Nat.le_refl 0
  | succ count ih =>
      rw [ones]
      omega

theorem ones_append_digit_eq_iff (n : Nat) : 10 * ones (n / 10) + n % 10 = n ↔ n < 20 := by
  have decimal : 10 * (n / 10) + n % 10 = n := Nat.div_add_mod n 10
  rcases tens : n / 10 with _ | _ | more
  · rw [ones]
    omega
  · rw [ones, ones]
    omega
  · have enough : more + 1 ≤ ones (more + 1) := le_ones (more + 1)
    rw [ones]
    omega

theorem some_append_number_inj (stem : String) {n other : Nat} :
    some (stem ++ toString n) = some (stem ++ toString other) ↔ n = other := by
  rw [Option.some_inj, String.append_right_inj, toString_nat_inj]

/-- The names of pictures count up in their last digit. Behind a number that is below ten, or that
ends in another digit than nine, comes the number that is larger by one. Behind any other the nine
becomes a ten. So the names that are counted from the first one on have the right numbers up to
nineteen, and all of them have a one for every ten, and the last digit. -/
theorem picture_names_count_up (stem : String) :
    (∀ n, nextPictureName? (stem ++ toString n) = some (stem ++ toString (nextNumber n)) ∧
      (nextPictureName? (stem ++ toString n) = some (stem ++ toString (n + 1)) ↔
        n < 10 ∨ n % 10 ≠ 9)) ∧
    ∀ k, laterPictureName? k (stem ++ "1") =
        some (stem ++ toString (10 * ones ((k + 1) / 10) + (k + 1) % 10)) ∧
      (laterPictureName? k (stem ++ "1") = some (stem ++ toString (k + 1)) ↔ k < 19) := by
  constructor
  · intro n
    have next := nextPictureName?_append_number stem n
    refine ⟨next, ?_⟩
    rw [next, some_append_number_inj, nextNumber_eq_succ_iff]
  · intro k
    -- The first picture is one step from zero.
    have counted : nextNumber^[k] 1 = 10 * ones ((k + 1) / 10) + (k + 1) % 10 := by
      rw [← iterate_nextNumber, Function.iterate_succ_apply]
      rfl
    have reached : laterPictureName? k (stem ++ "1") = some (stem ++ toString (nextNumber^[k] 1)) :=
      laterPictureName?_append_number stem 1 k
    rw [counted] at reached
    refine ⟨reached, ?_⟩
    rw [reached, some_append_number_inj, ones_append_digit_eq_iff]
    omega

/-- The picture after the nineteenth is not named as the twentieth, and counting from the first one
on does not get there. -/
theorem nineteen_not_counted_up :
    "alma_h".toList.getLast? = some 'h' ∧ Char.isDigit 'h' = false ∧
      nextPictureName? ("alma_h" ++ toString 19) = some "alma_h110" ∧
      nextPictureName? ("alma_h" ++ toString 19) ≠ some ("alma_h" ++ toString (19 + 1)) ∧
      laterPictureName? 19 ("alma_h" ++ "1") ≠ some ("alma_h" ++ toString (19 + 1)) := by
  refine ⟨by decide, by decide, by decide +kernel, by decide +kernel, by decide +kernel⟩

end SceneGallery.Event
