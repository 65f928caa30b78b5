/-!
**Texts measured in bytes.**

Positions in a template are counted in bytes of its UTF-8 form.

Main definitions:

* `Templating.Text.bytes` — the number of bytes of a text;
* `Templating.Text.splitAtByte` — the two parts of a text at a byte position, which a position
  inside a character moves back to the start of that character;
* `Templating.Text.slice?` — the text between two byte positions.
-/

set_option autoImplicit false

namespace Templating.Text

/-- The number of bytes of the UTF-8 form of a text. -/
def bytes : List Char → Nat
  | [] => 0
  | c :: s => c.utf8Size + bytes s

@[simp] theorem bytes_nil : bytes [] = 0 := rfl

@[simp] theorem bytes_cons (c : Char) (s : List Char) : bytes (c :: s) = c.utf8Size + bytes s :=
  rfl

@[simp] theorem bytes_append (s t : List Char) : bytes (s ++ t) = bytes s + bytes t := by
  induction s with
  | nil => simp
  | cons c s ih => simp only [List.cons_append, bytes_cons, ih]; omega

/-- Only the empty text has no bytes. -/
theorem bytes_eq_zero_iff {s : List Char} : bytes s = 0 ↔ s = [] := by
  cases s with
  | nil => simp
  | cons c s => have := c.utf8Size_pos; simp; omega

/-- The text before and after byte position `n`.  A position inside a character counts as the
position before it, and one past the end as the end. -/
def splitAtByte (n : Nat) : List Char → List Char × List Char
  | [] => ([], [])
  | c :: s =>
      if c.utf8Size ≤ n then
        let p := splitAtByte (n - c.utf8Size) s
        (c :: p.1, p.2)
      else
        ([], c :: s)

/-- Splitting loses nothing. -/
theorem splitAtByte_append (n : Nat) (s : List Char) :
    (splitAtByte n s).1 ++ (splitAtByte n s).2 = s := by
  induction s generalizing n with
  | nil => simp [splitAtByte]
  | cons c s ih =>
      simp only [splitAtByte]
      split
      · simp [ih]
      · simp

/-- The first part has at most `n` bytes. -/
theorem bytes_splitAtByte_le (n : Nat) (s : List Char) : bytes (splitAtByte n s).1 ≤ n := by
  induction s generalizing n with
  | nil => simp [splitAtByte]
  | cons c s ih =>
      simp only [splitAtByte]
      split
      · have := ih (n - c.utf8Size); simp only [bytes_cons]; omega
      · simp

/-- Splitting after a prefix of the right size gives that prefix. -/
theorem splitAtByte_bytes (s t : List Char) : splitAtByte (bytes s) (s ++ t) = (s, t) := by
  induction s with
  | nil =>
      cases t with
      | nil => rfl
      | cons c t =>
          have := c.utf8Size_pos
          simp only [bytes_nil, List.nil_append, splitAtByte]
          rw [if_neg (by omega)]
  | cons c s ih => simp [splitAtByte, ih]

/-- The text from byte `start` to byte `stop`, when both lie between characters and in order. -/
def slice? (s : List Char) (start stop : Nat) : Option (List Char) :=
  let front := splitAtByte stop s
  let back := splitAtByte start front.1
  if bytes front.1 = stop ∧ bytes back.1 = start then some back.2 else none

/-- The middle of three parts is the slice between their sizes. -/
theorem slice?_append (a b c : List Char) :
    slice? (a ++ b ++ c) (bytes a) (bytes a + bytes b) = some b := by
  rw [slice?, ← bytes_append, splitAtByte_bytes (a ++ b) c]
  simp [splitAtByte_bytes]

end Templating.Text
