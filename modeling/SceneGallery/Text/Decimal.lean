set_option autoImplicit false

namespace SceneGallery.Text

/-- The zeros of all scripts in version 16 of the Unicode standard, which places the digits from
zero to nine of a script in a row. -/
def zeroCodes : List Nat :=
  [0x30, 0x660, 0x6F0, 0x7C0, 0x966, 0x9E6, 0xA66, 0xAE6, 0xB66, 0xBE6, 0xC66, 0xCE6, 0xD66,
    0xDE6, 0xE50, 0xED0, 0xF20, 0x1040, 0x1090, 0x17E0, 0x1810, 0x1946, 0x19D0, 0x1A80, 0x1A90,
    0x1B50, 0x1BB0, 0x1C40, 0x1C50, 0xA620, 0xA8D0, 0xA900, 0xA9D0, 0xA9F0, 0xAA50, 0xABF0,
    0xFF10, 0x104A0, 0x10D30, 0x10D40, 0x11066, 0x110F0, 0x11136, 0x111D0, 0x112F0, 0x11450,
    0x114D0, 0x11650, 0x116C0, 0x116D0, 0x116DA, 0x11730, 0x118E0, 0x11950, 0x11BF0, 0x11C50,
    0x11D50, 0x11DA0, 0x11F50, 0x16130, 0x16A60, 0x16AC0, 0x16B50, 0x16D70, 0x1CCF0, 0x1D7CE,
    0x1D7D8, 0x1D7E2, 0x1D7EC, 0x1D7F6, 0x1E140, 0x1E2F0, 0x1E4F0, 0x1E5F1, 0x1E950, 0x1FBF0]

/-- Whether a character is a decimal digit of some script (general category `Nd`). -/
def isDecimal (c : Char) : Bool :=
  zeroCodes.any fun first => first ≤ c.toNat && c.toNat < first + 10

/-- The number that a row of ASCII digits writes. -/
def readNat? (digits : List Char) : Option Nat :=
  if digits.isEmpty || !digits.all Char.isDigit then none
  else some (Nat.ofDigitChars 10 digits 0)

/-- The number that a row of ASCII digits writes, where it has 32 bits. -/
def readUInt32? (digits : List Char) : Option UInt32 := do
  let n ← readNat? digits
  if n < UInt32.size then some (UInt32.ofNat n) else none

/-- A number with an optional minus sign, read apart from its digits. -/
structure Numeral where
  negative : Bool
  /-- The digits, of any script. -/
  digits : List Char
deriving DecidableEq, Repr

/-- The number that a numeral writes, where it has 64 bits, one of them for the sign. -/
def Numeral.toInt64? (numeral : Numeral) : Option Int64 := do
  let n ← readNat? numeral.digits
  let i : Int := if numeral.negative then -(n : Int) else n
  if -9223372036854775808 ≤ i ∧ i < 9223372036854775808 then some (Int64.ofInt i) else none

theorem isDecimal_of_isDigit {c : Char} (h : c.isDigit = true) : isDecimal c = true := by
  have hc : 48 ≤ c.toNat ∧ c.toNat ≤ 57 := by
    simp only [Char.isDigit, Bool.and_eq_true, decide_eq_true_eq, ge_iff_le,
      UInt32.le_iff_toNat_le] at h
    exact h
  refine List.any_eq_true.mpr ⟨0x30, List.mem_cons_self, ?_⟩
  simp only [Bool.and_eq_true, decide_eq_true_eq]
  omega

/-- A row of digits is read as a number exactly when it is not empty and all of it is ASCII. -/
theorem readNat?_eq_some_iff {digits : List Char} {n : Nat} :
    readNat? digits = some n ↔
      digits ≠ [] ∧ digits.all Char.isDigit = true ∧ Nat.ofDigitChars 10 digits 0 = n := by
  unfold readNat?
  cases digits with
  | nil => simp
  | cons c cs => by_cases h : (c :: cs).all Char.isDigit = true <;> simp_all

/-- A number reads back from its decimal text. -/
theorem readNat?_toDigits (n : Nat) : readNat? (Nat.toDigits 10 n) = some n := by
  rw [readNat?_eq_some_iff]
  refine ⟨Nat.toDigits_ne_nil, ?_, Nat.ofDigitChars_ten_toDigits⟩
  rw [List.all_eq_true]
  intro c hc
  exact Nat.isDigit_of_mem_toDigits (by decide) (by decide) hc

theorem readUInt32?_toDigits (n : UInt32) :
    readUInt32? (Nat.toDigits 10 n.toNat) = some n := by
  have hlt : n.toNat < UInt32.size := n.toNat_lt
  simp [readUInt32?, readNat?_toDigits, hlt]

end SceneGallery.Text
