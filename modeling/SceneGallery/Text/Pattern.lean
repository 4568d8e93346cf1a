import SceneGallery.Text.Blank
import SceneGallery.Text.Decimal
set_option autoImplicit false

/- Patterns on the characters of one line. A pattern reads something at the start of a text or
fails; each step hands what it has read to the pattern for the rest. `search` tries a pattern at
every place and keeps the first success, so the leftmost match wins. A run is always as long as
possible; a gap of blanks gives blanks back only if the rest cannot be read without them. -/
namespace SceneGallery.Text

/-- Reads a value at the start of a text, or fails. -/
abbrev Pattern (α : Type) := List Char → Option α

namespace Pattern

variable {α : Type}

/-- Succeeds with a value on every text. -/
def done (a : α) : Pattern α := fun _ => some a

/-- What follows the characters `w` in a text that starts with them. -/
def after? : List Char → List Char → Option (List Char)
  | [], s => some s
  | _ :: _, [] => none
  | a :: w, c :: s => if a = c then after? w s else none

/-- The given word, then the next pattern. -/
def word (w : String) (next : Pattern α) : Pattern α := fun s =>
  (after? w.toList s).bind next

/-- The longest run of characters of a class, which may not be empty, then the next pattern. -/
def run (p : Char → Bool) (next : List Char → Pattern α) : Pattern α := fun s =>
  if (s.takeWhile p).isEmpty then none else next (s.takeWhile p) (s.dropWhile p)

/-- Exactly `n` characters of a class, then the next pattern. -/
def exactly (n : Nat) (p : Char → Bool) (next : List Char → Pattern α) : Pattern α := fun s =>
  if (s.take n).length = n ∧ (s.take n).all p then next (s.take n) (s.drop n) else none

/-- A gap of blanks, possibly none, then the next pattern: the longest gap that lets it succeed. -/
def gap (next : Pattern α) : Pattern α
  | [] => next []
  | c :: s =>
    if isBlank c then
      match gap next s with
      | some a => some a
      | none => next (c :: s)
    else next (c :: s)

/-- The arrow between a key and its value, with a gap on either side. -/
def arrow (next : Pattern α) : Pattern α :=
  gap (word "=>" (gap next))

/-- A key, an arrow, then the pattern of the value. -/
def entry (key : String) (value : Pattern α) : Pattern α :=
  word key (arrow value)

/-- Digits of any script. -/
def digits (next : List Char → Pattern α) : Pattern α :=
  run isDecimal next

/-- Digits with a minus sign allowed in front. -/
def numeral (next : Numeral → Pattern α) : Pattern α
  | '-' :: s => digits (fun ds => next ⟨true, ds⟩) s
  | s => digits (fun ds => next ⟨false, ds⟩) s

/-- A text in double quotes that is not empty and holds no double quote. -/
def quoted (next : List Char → Pattern α) : Pattern α :=
  word "\"" (run (· != '"') fun text => word "\"" (next text))

/-- Where the text ends or a comma stands. -/
def fieldEnd (a : α) : Pattern α
  | [] => some a
  | c :: _ => if c = ',' then some a else none

/-- What the pattern reads at the first place of the text where it succeeds. -/
def search (p : Pattern α) : Pattern α
  | [] => p []
  | c :: s =>
    match p (c :: s) with
    | some a => some a
    | none => search p s

/-- Whether a word occurs in a text. -/
def occurs (w : String) (s : List Char) : Bool :=
  (search (word w (done ())) s).isSome

@[simp] theorem done_apply (a : α) (s : List Char) : done a s = some a := rfl

/-- A word is read off exactly the texts that start with it. -/
theorem after?_eq_some_iff {w s rest : List Char} :
    after? w s = some rest ↔ s = w ++ rest := by
  fun_induction after? w s with
  | case1 s => simp
  | case2 a w => simp
  | case3 a w s ih => simp [ih]
  | case4 a w c s hne => simp [Ne.symm hne]

theorem word_append (w : String) (next : Pattern α) (s : List Char) :
    word w next (w.toList ++ s) = next s := by
  simp [word, after?_eq_some_iff.mpr rfl]

theorem search_cons (p : Pattern α) (c : Char) (s : List Char) :
    search p (c :: s) = (p (c :: s)).or (search p s) := by
  cases h : p (c :: s) <;> simp [search, h]

/-- A search fails exactly when the pattern fails at every place. -/
theorem search_eq_none_iff {p : Pattern α} {s : List Char} :
    search p s = none ↔ ∀ before after : List Char, s = before ++ after → p after = none := by
  induction s with
  | nil =>
      constructor
      · intro h before after hs
        obtain ⟨_, rfl⟩ := List.append_eq_nil_iff.mp hs.symm
        exact h
      · intro h
        exact h [] [] rfl
  | cons c s ih =>
      rw [search_cons, Option.or_eq_none_iff, ih]
      constructor
      · rintro ⟨hhere, hlater⟩ before after hs
        cases before with
        | nil =>
            obtain rfl : c :: s = after := hs
            exact hhere
        | cons b before => exact hlater before after (List.cons.inj hs).2
      · intro h
        exact ⟨h [] _ rfl, fun before after hs => h (c :: before) after (by rw [hs]; rfl)⟩

end Pattern

end SceneGallery.Text
