import Mathlib.Data.List.Basic
import Templating.Text.Cut
import Templating.Text.Literal

/-!
**What a string literal in generated code says.**

Generated code is JavaScript.  A string of it is a sequence of UTF-16 code units, and a literal in
double quotes spells its units one by one or by escape sequences.  The reader below follows the
grammar of such literals outside of strict mode, where generated code runs: with octal escapes, with
lines that a backslash continues, and with the two Unicode line separators allowed to stand for
themselves.

Main definitions:

* `Templating.Text.units` — the UTF-16 code units of a text;
* `Templating.Text.escaped?` — what an escape sequence stands for;
* `Templating.Text.stringValue?` — the value of a text that is one string literal;
* `Templating.Text.IsLineTerminator` — the characters that end a line of code;
* `Templating.Text.IsLiteralOf` — a string literal on one line, with a given value.

Main results:

* `Templating.Text.stringValue?_quote` — **the literal of a text has that text for its value**;
* `Templating.Text.isLiteralOf_quote_iff` — it is on one line unless the text has a line separator;
* `Templating.Text.isLiteralOf_escapeLineSeparators_quote` — with these escaped, it always is;
* `Templating.Text.isLiteralOf_bare_iff` — a text between quotes as it stands is its own literal
  exactly when nothing in it has a meaning there.
-/

set_option autoImplicit false

namespace Templating.Text

/-! ### Code units -/

/-- The UTF-16 code units of a code point. -/
def unitsOf (n : Nat) : List Nat :=
  if n < 0x10000 then [n]
  else [0xD800 + (n - 0x10000) / 0x400, 0xDC00 + (n - 0x10000) % 0x400]

/-- The UTF-16 code units of a text. -/
def units (s : List Char) : List Nat := s.flatMap fun c => unitsOf c.toNat

@[simp] theorem units_nil : units [] = [] := rfl

@[simp] theorem units_cons (c : Char) (s : List Char) :
    units (c :: s) = unitsOf c.toNat ++ units s := rfl

@[simp] theorem units_append (s t : List Char) : units (s ++ t) = units s ++ units t := by
  simp [units]

theorem length_unitsOf (n : Nat) : 1 ≤ (unitsOf n).length ∧ (unitsOf n).length ≤ 2 := by
  unfold unitsOf
  split <;> simp

theorem length_le_length_units (s : List Char) : s.length ≤ (units s).length := by
  induction s with
  | nil => exact Nat.le_refl _
  | cons c s ih =>
      have hc := (length_unitsOf c.toNat).1
      simp only [units_cons, List.length_append, List.length_cons]
      omega

/-! ### Escape sequences -/

/-- The value of a hexadecimal digit. -/
def hexDigit? (c : Char) : Option Nat :=
  if 48 ≤ c.toNat ∧ c.toNat ≤ 57 then some (c.toNat - 48)
  else if 97 ≤ c.toNat ∧ c.toNat ≤ 102 then some (c.toNat - 87)
  else if 65 ≤ c.toNat ∧ c.toNat ≤ 70 then some (c.toNat - 55)
  else none

/-- The number that hexadecimal digits spell, after digits that spell `n`. -/
def hexNumber? (n : Nat) : List Char → Option Nat
  | [] => some n
  | c :: s => (hexDigit? c).bind fun d => hexNumber? (16 * n + d) s

/-- The code unit that the first `k` characters spell in hexadecimal, and what follows them. -/
def hexUnit? (k : Nat) (s : List Char) : Option (List Nat × List Char) :=
  if k ≤ s.length then (hexNumber? 0 (s.take k)).map fun n => ([n], s.drop k) else none

/-- The code point that hexadecimal digits before a closing brace spell, and what follows it. -/
def hexPoint? (s : List Char) : Option (List Nat × List Char) :=
  let digits := s.takeWhile (· != '\x7d')
  match s.dropWhile (· != '\x7d') with
  | [] => none
  | _ :: r =>
      (hexNumber? 0 digits).bind fun n =>
        if digits ≠ [] ∧ n ≤ 0x10FFFF then some (unitsOf n, r) else none

/-- The digit that a character is in base eight. -/
def octalDigit? (c : Char) : Option Nat :=
  if 48 ≤ c.toNat ∧ c.toNat ≤ 55 then some (c.toNat - 48) else none

/-- The code unit that the digit `d` and up to two more octal digits spell: as many as keep it below
256. -/
def octalUnit (d : Nat) (s : List Char) : List Nat × List Char :=
  let digits := (s.take (if d ≤ 3 then 2 else 1)).takeWhile fun c => (octalDigit? c).isSome
  ([digits.foldl (fun n c => 8 * n + (c.toNat - 48)) d], s.drop digits.length)

/-- The code point that a single character after a backslash stands for. -/
def escapedPoint (c : Char) : Nat :=
  ([('b', 8), ('t', 9), ('n', 10), ('v', 11), ('f', 12), ('r', 13)].lookup c).getD c.toNat

/-- The characters that end a line of code. -/
def IsLineTerminator (c : Char) : Prop :=
  c = '\n' ∨ c = '\r' ∨ c = '\u2028' ∨ c = '\u2029'

instance : DecidablePred IsLineTerminator := fun c =>
  inferInstanceAs (Decidable (c = '\n' ∨ c = '\r' ∨ c = '\u2028' ∨ c = '\u2029'))

/-- The code units that an escape sequence stands for, after its backslash, and what follows it. -/
def escaped? : List Char → Option (List Nat × List Char)
  | [] => none
  | c :: s =>
      if c = 'u' then
        match strip? ['\x7b'] s with
        | some r => hexPoint? r
        | none => hexUnit? 4 s
      else if c = 'x' then hexUnit? 2 s
      else if IsLineTerminator c then
        some ([], if c = '\r' then (strip? ['\n'] s).getD s else s)
      else
        match octalDigit? c with
        | some d => some (octalUnit d s)
        | none => some (unitsOf (escapedPoint c), s)

/-- **What was read of an escape sequence**: some characters, with at least as many units as it
stands for. -/
def Shortens (s : List Char) (us : List Nat) (r : List Char) : Prop :=
  ∃ taken, s = taken ++ r ∧ us.length ≤ (units taken).length

theorem Shortens.of_length {taken r : List Char} {us : List Nat}
    (h : us.length ≤ taken.length) : Shortens (taken ++ r) us r :=
  ⟨taken, rfl, Nat.le_trans h (length_le_length_units taken)⟩

theorem Shortens.cons {s r : List Char} {us : List Nat} (c : Char) (h : Shortens s us r) :
    Shortens (c :: s) us r := by
  obtain ⟨taken, rfl, hle⟩ := h
  refine ⟨c :: taken, rfl, ?_⟩
  simp only [units_cons, List.length_append]
  omega

theorem shortens_hexUnit? {k : Nat} {s r : List Char} {us : List Nat} (hk : 1 ≤ k)
    (h : hexUnit? k s = some (us, r)) : Shortens s us r := by
  unfold hexUnit? at h
  split at h
  · rename_i hlen
    obtain ⟨n, -, heq⟩ := Option.map_eq_some_iff.mp h
    cases heq
    have htaken : (s.take k).length = k := List.length_take_of_le hlen
    rw [← List.take_append_drop k s, List.drop_left' htaken]
    exact .of_length (by rwa [htaken])
  · cases h

theorem shortens_hexPoint? {s r : List Char} {us : List Nat} (h : hexPoint? s = some (us, r)) :
    Shortens s us r := by
  unfold hexPoint? at h
  dsimp only at h
  have happend := List.takeWhile_append_dropWhile (p := (· != '\x7d')) (l := s)
  generalize s.takeWhile (· != '\x7d') = digits at h happend
  generalize s.dropWhile (· != '\x7d') = after at h happend
  cases after with
  | nil => cases h
  | cons c r' =>
      obtain ⟨n, -, hn⟩ := Option.bind_eq_some_iff.mp h
      split at hn
      · rename_i hbound
        cases hn
        have hpos := List.length_pos_iff.mpr hbound.1
        have hle := (length_unitsOf n).2
        rw [← happend, ← List.singleton_append, ← List.append_assoc]
        refine .of_length ?_
        rw [List.length_append, List.length_singleton]
        omega
      · cases hn

theorem shortens_octalUnit (c : Char) (d : Nat) (s : List Char) :
    Shortens (c :: s) (octalUnit d s).1 (octalUnit d s).2 := by
  unfold octalUnit
  dsimp only
  generalize hdigits : (s.take (if d ≤ 3 then 2 else 1)).takeWhile
    (fun c => (octalDigit? c).isSome) = digits
  obtain ⟨r, rfl⟩ : digits <+: s := by
    rw [← hdigits]
    exact (List.takeWhile_prefix _).trans (List.take_prefix _ _)
  rw [List.drop_left, ← List.cons_append]
  exact .of_length (by simp)

theorem length_unitsOf_escapedPoint (c : Char) :
    (unitsOf (escapedPoint c)).length ≤ (unitsOf c.toNat).length := by
  unfold escapedPoint
  cases h : [('b', 8), ('t', 9), ('n', 10), ('v', 11), ('f', 12), ('r', 13)].lookup c with
  | none => exact Nat.le_refl _
  | some n =>
      obtain ⟨before, after, heq, -⟩ := List.lookup_eq_some_iff.mp h
      have hmem : (c, n) ∈ [('b', 8), ('t', 9), ('n', 10), ('v', 11), ('f', 12), ('r', 13)] := by
        rw [heq]
        simp
      have hsmall : n < 0x10000 := by
        simp only [List.mem_cons, Prod.mk.injEq, List.not_mem_nil, or_false] at hmem
        omega
      have hunits : unitsOf n = [n] := if_pos hsmall
      rw [Option.getD_some, hunits]
      exact (length_unitsOf c.toNat).1

/-- **An escape sequence** takes up at least as many units as it stands for, its backslash aside. -/
theorem shortens_escaped? {s r : List Char} {us : List Nat} (h : escaped? s = some (us, r)) :
    Shortens s us r := by
  cases s with
  | nil => cases h
  | cons c s =>
      simp only [escaped?] at h
      split at h
      · -- a code unit or a code point by its number
        split at h
        · rename_i r' hr'
          rw [strip?_eq_some_iff.mp hr']
          exact ((shortens_hexPoint? h).cons _).cons c
        · exact (shortens_hexUnit? (by decide) h).cons c
      · split at h
        · exact (shortens_hexUnit? (by decide) h).cons c
        · split at h
          · -- the line goes on
            cases h
            have hnone : ∀ taken : List Char, ([] : List Nat).length ≤ taken.length :=
              fun _ => Nat.zero_le _
            split
            · cases hstrip : strip? ['\n'] s with
              | none => exact .of_length (hnone [c])
              | some r =>
                  rw [strip?_eq_some_iff.mp hstrip, ← List.cons_append]
                  exact .of_length (hnone [c, '\n'])
            · exact .of_length (hnone [c])
          · split at h
            · cases h
              exact shortens_octalUnit c _ s
            · cases h
              refine ⟨[c], rfl, ?_⟩
              rw [units_cons, units_nil, List.append_nil]
              exact length_unitsOf_escapedPoint c

theorem Shortens.length_le {s r : List Char} {us : List Nat} (h : Shortens s us r) :
    r.length ≤ s.length := by
  obtain ⟨taken, rfl, -⟩ := h
  rw [List.length_append]
  exact Nat.le_add_left _ _

/-! ### Literals -/

/-- The value of a literal, from after its opening quote: the closing quote ends the text. -/
def literalBody? (s : List Char) : Option (List Nat) :=
  match s with
  | [] => none
  | c :: s =>
      if c = '"' then if s = [] then some [] else none
      else if c = '\\' then
        match h : escaped? s with
        | none => none
        | some (us, r) =>
            have := (shortens_escaped? h).length_le
            (literalBody? r).map (us ++ ·)
      else if c = '\n' ∨ c = '\r' then none
      else (literalBody? s).map (unitsOf c.toNat ++ ·)
termination_by s.length
decreasing_by all_goals (simp only [List.length_cons]; omega)

/-- The value of a text that is one string literal in double quotes. -/
def stringValue? (code : String) : Option (List Nat) :=
  match code.toList with
  | [] => none
  | c :: s => if c = '"' then literalBody? s else none

/-- **A string literal on one line**, whose value is a given text. -/
structure IsLiteralOf (code piece : String) : Prop where
  value : stringValue? code = some (units piece.toList)
  oneLine : ∀ c ∈ code.toList, ¬IsLineTerminator c

theorem literalBody?_quote : literalBody? ['"'] = some [] := by
  simp [literalBody?]

/-- An escape sequence in a literal. -/
theorem literalBody?_escaped {s r : List Char} {us : List Nat} (h : escaped? s = some (us, r)) :
    literalBody? ('\\' :: s) = (literalBody? r).map (us ++ ·) := by
  rw [literalBody?]
  simp only [Char.reduceEq, if_false, if_true]
  split
  · rename_i h'
    rw [h] at h'
    cases h'
  · rename_i us' r' h'
    rw [h] at h'
    cases h'
    rfl

/-- The characters that do not stand for themselves in a literal. -/
def IsSpecial (c : Char) : Prop := c = '"' ∨ c = '\\' ∨ c = '\n' ∨ c = '\r'

instance : DecidablePred IsSpecial := fun c =>
  inferInstanceAs (Decidable (c = '"' ∨ c = '\\' ∨ c = '\n' ∨ c = '\r'))

/-- A character that stands for itself in a literal. -/
theorem literalBody?_cons {c : Char} (s : List Char) (h : ¬IsSpecial c) :
    literalBody? (c :: s) = (literalBody? s).map (unitsOf c.toNat ++ ·) := by
  simp only [IsSpecial, not_or] at h
  obtain ⟨hquote, hbackslash, hnewline, hreturn⟩ := h
  rw [literalBody?]
  simp only [hquote, hbackslash, hnewline, hreturn, or_self, if_false]

/-- What the first character of a literal can be: the closing quote, a backslash with an escape
sequence after it, or a character that stands for itself. -/
theorem literalBody?_cases {c : Char} {s : List Char} {us : List Nat}
    (h : literalBody? (c :: s) = some us) :
    (c = '"' ∧ s = []) ∨
      (c = '\\' ∧ ∃ us₁ r us₂, escaped? s = some (us₁, r) ∧ literalBody? r = some us₂ ∧
        us = us₁ ++ us₂) ∨
      (¬IsSpecial c ∧ ∃ us₂, literalBody? s = some us₂ ∧ us = unitsOf c.toNat ++ us₂) := by
  rw [literalBody?] at h
  split at h
  · split at h
    · exact .inl ⟨‹_›, ‹_›⟩
    · cases h
  · split at h
    · split at h
      · cases h
      · rename_i hbackslash us₁ r hescaped
        obtain ⟨us₂, hr, rfl⟩ := Option.map_eq_some_iff.mp h
        exact .inr (.inl ⟨hbackslash, us₁, r, us₂, hescaped, hr, rfl⟩)
    · split at h
      · cases h
      · obtain ⟨us₂, hs, rfl⟩ := Option.map_eq_some_iff.mp h
        refine .inr (.inr ⟨?_, us₂, hs, rfl⟩)
        rintro (hc | hc | hc)
        · contradiction
        · contradiction
        · contradiction

/-- A literal takes up more units than it has, since it ends with a quote. -/
theorem length_lt_of_literalBody? {s : List Char} {us : List Nat} (h : literalBody? s = some us) :
    us.length < (units s).length := by
  induction hn : s.length using Nat.strongRecOn generalizing s us with
  | _ n ih =>
      subst hn
      cases s with
      | nil => simp [literalBody?] at h
      | cons c s =>
          have hc := (length_unitsOf c.toNat).1
          rw [units_cons, List.length_append]
          rcases literalBody?_cases h with ⟨rfl, rfl⟩ | ⟨rfl, us₁, r, us₂, hescaped, hr, rfl⟩ |
            ⟨-, us₂, hs, rfl⟩
          · rw [literalBody?_quote] at h
            cases h
            exact Nat.lt_add_right _ hc
          · obtain ⟨taken, rfl, hle⟩ := shortens_escaped? hescaped
            have hlt := ih r.length (by rw [List.length_cons, List.length_append]; omega) hr rfl
            simp only [units_append, List.length_append]
            omega
          · have hlt := ih s.length (by simp) hs rfl
            rw [List.length_append]
            omega

/-- **A text between quotes as it stands.**  A quote in it would end the literal and a line break
would break it off, and what an escape sequence stands for is shorter than its spelling. -/
theorem literalBody?_bare_iff (s : List Char) :
    literalBody? (s ++ ['"']) = some (units s) ↔ ∀ c ∈ s, ¬IsSpecial c := by
  induction s with
  | nil => simp [literalBody?_quote]
  | cons c s ih =>
      rw [List.cons_append, List.forall_mem_cons]
      constructor
      · intro h
        rcases literalBody?_cases h with ⟨-, hnil⟩ | ⟨rfl, us₁, r, us₂, hescaped, hr, heq⟩ |
          ⟨hc, us₂, hs, heq⟩
        · simp at hnil
        · exfalso
          obtain ⟨taken, happend, hle⟩ := shortens_escaped? hescaped
          have hlt := length_lt_of_literalBody? hr
          have hquote := congrArg (fun s => (units s).length) happend
          have hlength := congrArg List.length heq
          have hbackslash := (length_unitsOf '\\'.toNat).1
          have hlast : (units ['"']).length = 1 := rfl
          simp only [units_append, List.length_append, hlast] at hquote
          simp only [units_cons, List.length_append] at hlength
          omega
        · refine ⟨hc, ih.mp ?_⟩
          rw [units_cons] at heq
          rw [hs, List.append_cancel_left heq]
      · rintro ⟨hc, hs⟩
        rw [literalBody?_cons _ hc, ih.mpr hs, units_cons, Option.map_some]

/-! ### Spellings -/

/-- The two Unicode line separators. -/
def IsLineSeparator (c : Char) : Prop := c = '\u2028' ∨ c = '\u2029'

instance : DecidablePred IsLineSeparator := fun c =>
  inferInstanceAs (Decidable (c = '\u2028' ∨ c = '\u2029'))

theorem IsLineSeparator.isLineTerminator {c : Char} (h : IsLineSeparator c) :
    IsLineTerminator c :=
  .inr (.inr h)

/-- **A spelling of a character in a literal**: the character itself, or an escape sequence on one
line. -/
inductive Spells (c : Char) : List Char → Prop
  | itself (h : ¬IsSpecial c) : Spells c [c]
  | escaped {e : List Char} (hline : ∀ d ∈ e, ¬IsLineTerminator d)
      (h : ∀ r, escaped? (e ++ r) = some (unitsOf c.toNat, r)) : Spells c ('\\' :: e)

namespace Spells

variable {c : Char} {code : List Char}

theorem literalBody? (h : Spells c code) (r : List Char) :
    literalBody? (code ++ r) = (Text.literalBody? r).map (unitsOf c.toNat ++ ·) := by
  cases h with
  | itself h => exact literalBody?_cons r h
  | escaped _ h => exact literalBody?_escaped (h r)

/-- A spelling has a line break only as a separator that stands for itself. -/
theorem isLineTerminator (h : Spells c code) {d : Char} (hd : d ∈ code)
    (hline : IsLineTerminator d) : d = c ∧ IsLineSeparator c := by
  cases h with
  | itself h =>
      obtain rfl := List.mem_singleton.mp hd
      refine ⟨rfl, ?_⟩
      rcases hline with hd | hd | hd
      · exact absurd (.inr (.inr (.inl hd))) h
      · exact absurd (.inr (.inr (.inr hd))) h
      · exact hd
  | escaped hsome _ =>
      rcases List.mem_cons.mp hd with rfl | hd
      · exact absurd hline (by decide)
      · exact absurd hline (hsome d hd)

end Spells

/-- A text is spelled character by character. -/
theorem literalBody?_flatMap {f : Char → List Char} (hf : ∀ c, Spells c (f c))
    (s r : List Char) :
    literalBody? (s.flatMap f ++ r) = (literalBody? r).map (units s ++ ·) := by
  induction s with
  | nil => simp
  | cons c s ih =>
      rw [List.flatMap_cons, List.append_assoc, (hf c).literalBody?, ih, Option.map_map]
      simp only [units_cons, Function.comp_def, List.append_assoc]

/-- The text between two quotes that is spelled character by character. -/
theorem stringValue?_flatMap {f : Char → List Char} (hf : ∀ c, Spells c (f c)) {code : String}
    {s : List Char} (hcode : code.toList = '"' :: (s.flatMap f ++ ['"'])) :
    stringValue? code = some (units s) := by
  simp only [stringValue?, hcode, if_true]
  rw [literalBody?_flatMap hf, literalBody?_quote, Option.map_some, List.append_nil]

/-! ### The literal of a text -/

theorem hexDigit?_hexDigit {d : Nat} (h : d < 16) : hexDigit? (hexDigit d) = some d := by
  have hall : ∀ d < 16, hexDigit? (hexDigit d) = some d := by decide
  exact hall d h

theorem not_isLineTerminator_hexDigit {d : Nat} (h : d < 16) : ¬IsLineTerminator (hexDigit d) := by
  have hall : ∀ d < 16, ¬IsLineTerminator (hexDigit d) := by decide
  exact hall d h

/-- A code unit by its number, in four hexadecimal digits. -/
theorem escaped?_hex {a b c d : Char} {w x y z : Nat} (r : List Char) (ha : hexDigit? a = some w)
    (hb : hexDigit? b = some x) (hc : hexDigit? c = some y) (hd : hexDigit? d = some z) :
    escaped? ('u' :: a :: b :: c :: d :: r) =
      some ([16 * (16 * (16 * w + x) + y) + z], r) := by
  have hbrace : '\x7b' ≠ a := by
    rintro rfl
    cases ha
  simp [escaped?, strip?, hbrace, hexUnit?, hexNumber?, ha, hb, hc, hd]

/-- A control character by its number. -/
theorem spells_hex {c : Char} (h : c.toNat < 32) :
    Spells c ['\\', 'u', '0', '0', hexDigit (c.toNat / 16), hexDigit (c.toNat % 16)] := by
  refine .escaped ?_ fun r => ?_
  · simp only [List.forall_mem_cons, List.not_mem_nil, false_imp_iff, implies_true, and_true]
    exact ⟨by decide, by decide, by decide, not_isLineTerminator_hexDigit (by omega),
      not_isLineTerminator_hexDigit (by omega)⟩
  · have hescaped := escaped?_hex r (a := '0') (b := '0') (w := 0) (x := 0) rfl rfl
      (hexDigit?_hexDigit (d := c.toNat / 16) (by omega))
      (hexDigit?_hexDigit (d := c.toNat % 16) (by omega))
    have hnumber : 16 * (16 * (16 * 0 + 0) + c.toNat / 16) + c.toNat % 16 = c.toNat := by omega
    have hunits : unitsOf c.toNat = [c.toNat] := if_pos (by omega)
    rw [hnumber] at hescaped
    rw [hunits]
    exact hescaped

/-- **What stands for a character between the quotes** spells it. -/
theorem spells_escapeChar (c : Char) : Spells c (escapeChar c) := by
  by_cases hspecial : c ∈ ['"', '\\', '\x08', '\x0c', '\n', '\r', '\t']
  · simp only [List.mem_cons, List.not_mem_nil, or_false] at hspecial
    rcases hspecial with rfl | rfl | rfl | rfl | rfl | rfl | rfl
    all_goals exact .escaped (by simp [IsLineTerminator]) fun r => rfl
  · simp only [List.mem_cons, List.not_mem_nil, or_false, not_or] at hspecial
    obtain ⟨h₁, h₂, h₃, h₄, h₅, h₆, h₇⟩ := hspecial
    unfold escapeChar
    simp only [h₁, h₂, h₃, h₄, h₅, h₆, h₇, if_false]
    split
    · exact spells_hex ‹_›
    · exact .itself (by simp [IsSpecial, h₁, h₂, h₅, h₆])

theorem toList_quote (s : String) :
    (quote s).toList = '"' :: (s.toList.flatMap escapeChar ++ ['"']) := by
  simp [quote, escape]

/-- **The literal of a text has that text for its value.** -/
theorem stringValue?_quote (s : String) : stringValue? (quote s) = some (units s.toList) :=
  stringValue?_flatMap spells_escapeChar (toList_quote s)

/-- The quotes around a text are on its line. -/
theorem oneLine_quoted_iff {f : Char → List Char} {code : String} {s : List Char}
    (hcode : code.toList = '"' :: (s.flatMap f ++ ['"'])) :
    (∀ d ∈ code.toList, ¬IsLineTerminator d) ↔ ∀ c ∈ s, ∀ d ∈ f c, ¬IsLineTerminator d := by
  have hquote : ¬IsLineTerminator '"' := by decide
  rw [hcode]
  constructor
  · intro h c hc d hd
    refine h d (List.mem_cons_of_mem _ (List.mem_append_left _ ?_))
    exact List.mem_flatMap.mpr ⟨c, hc, hd⟩
  · intro h d hd
    rcases List.mem_cons.mp hd with rfl | hd
    · exact hquote
    · rcases List.mem_append.mp hd with hd | hd
      · obtain ⟨c, hc, hd⟩ := List.mem_flatMap.mp hd
        exact h c hc d hd
      · rw [List.mem_singleton.mp hd]
        exact hquote

theorem escapeChar_of_isLineSeparator {c : Char} (h : IsLineSeparator c) : escapeChar c = [c] := by
  rcases h with rfl | rfl
  · rfl
  · rfl

/-- **The literal of a text is on one line** unless the text has a line separator. -/
theorem isLiteralOf_quote_iff (s : String) :
    IsLiteralOf (quote s) s ↔ ∀ c ∈ s.toList, ¬IsLineSeparator c := by
  have honeLine := oneLine_quoted_iff (toList_quote s)
  constructor
  · intro h c hc hseparator
    refine honeLine.mp h.oneLine c hc c ?_ hseparator.isLineTerminator
    rw [escapeChar_of_isLineSeparator hseparator]
    exact List.mem_singleton_self c
  · intro h
    refine ⟨stringValue?_quote s, honeLine.mpr fun c hc d hd hline => ?_⟩
    exact h c hc ((spells_escapeChar c).isLineTerminator hd hline).2

/-! ### Escaped line separators -/

/-- A line separator as an escape; every other character stays. -/
def escapeSeparator (c : Char) : List Char :=
  if c.toNat = 0x2028 then ['\\', 'u', '2', '0', '2', '8']
  else if c.toNat = 0x2029 then ['\\', 'u', '2', '0', '2', '9']
  else [c]

theorem toList_escapeLineSeparators (s : String) :
    (escapeLineSeparators s).toList = s.toList.flatMap escapeSeparator := by
  simp only [escapeLineSeparators, String.toList_ofList]
  rfl

theorem escapeSeparator_of_not {c : Char} (h : ¬IsLineSeparator c) : escapeSeparator c = [c] := by
  have hne : ∀ d : Char, c ≠ d → c.toNat ≠ d.toNat := fun d hd heq => hd (Char.toNat_inj.mp heq)
  simp only [IsLineSeparator, not_or] at h
  have hfirst : c.toNat ≠ 0x2028 := hne '\u2028' h.1
  have hsecond : c.toNat ≠ 0x2029 := hne '\u2029' h.2
  unfold escapeSeparator
  rw [if_neg hfirst, if_neg hsecond]

/-- The spelling of a character, with line separators escaped. -/
theorem flatMap_escapeSeparator_escapeChar (c : Char) :
    (escapeChar c).flatMap escapeSeparator =
      if IsLineSeparator c then escapeSeparator c else escapeChar c := by
  split
  · rename_i hseparator
    rw [escapeChar_of_isLineSeparator hseparator, List.flatMap_singleton]
  · rename_i hseparator
    have hstay : ∀ d ∈ escapeChar c, escapeSeparator d = [d] := by
      intro d hd
      refine escapeSeparator_of_not fun hd' => hseparator ?_
      exact ((spells_escapeChar c).isLineTerminator hd hd'.isLineTerminator).2
    rw [List.flatMap_congr hstay]
    simp

/-- **With line separators escaped** every character is spelled on one line. -/
theorem spells_escapeSeparator (c : Char) :
    Spells c ((escapeChar c).flatMap escapeSeparator) ∧
      ∀ d ∈ (escapeChar c).flatMap escapeSeparator, ¬IsLineTerminator d := by
  rw [flatMap_escapeSeparator_escapeChar]
  split
  · rename_i hseparator
    rcases hseparator with rfl | rfl
    · refine ⟨.escaped (by simp [IsLineTerminator]) fun r => ?_,
        by simp [escapeSeparator, IsLineTerminator]⟩
      exact escaped?_hex r (w := 2) (x := 0) (y := 2) (z := 8) rfl rfl rfl rfl
    · refine ⟨.escaped (by simp [IsLineTerminator]) fun r => ?_,
        by simp [escapeSeparator, IsLineTerminator]⟩
      exact escaped?_hex r (w := 2) (x := 0) (y := 2) (z := 9) rfl rfl rfl rfl
  · rename_i hseparator
    have hspells := spells_escapeChar c
    exact ⟨hspells, fun d hd hline => hseparator (hspells.isLineTerminator hd hline).2⟩

/-- **The literal of a text with its line separators escaped** has that text for its value, and is
on one line. -/
theorem isLiteralOf_escapeLineSeparators_quote (s : String) :
    IsLiteralOf (escapeLineSeparators (quote s)) s := by
  have hcode : (escapeLineSeparators (quote s)).toList =
      '"' :: (s.toList.flatMap (fun c => (escapeChar c).flatMap escapeSeparator) ++ ['"']) := by
    rw [toList_escapeLineSeparators, toList_quote, List.flatMap_cons, List.flatMap_append,
      List.flatMap_assoc]
    rfl
  exact ⟨stringValue?_flatMap (fun c => (spells_escapeSeparator c).1) hcode,
    (oneLine_quoted_iff hcode).mpr fun c _ => (spells_escapeSeparator c).2⟩

/-! ### Texts between quotes as they stand -/

/-- A text between double quotes, as it stands. -/
def bare (s : String) : String := "\"" ++ s ++ "\""

/-- **A text between quotes as it stands is its own literal**, on one line, exactly when it has no
quote, no backslash and nothing that ends a line. -/
theorem isLiteralOf_bare_iff (s : String) :
    IsLiteralOf (bare s) s ↔ ∀ c ∈ s.toList, c ≠ '"' ∧ c ≠ '\\' ∧ ¬IsLineTerminator c := by
  have hlist : (bare s).toList = '"' :: (s.toList ++ ['"']) := by
    simp [bare]
  have hvalue : stringValue? (bare s) = literalBody? (s.toList ++ ['"']) := by
    simp only [stringValue?, hlist, if_true]
  have hcode : (bare s).toList = '"' :: (s.toList.flatMap (fun c => [c]) ++ ['"']) := by
    simp [hlist]
  have honeLine := oneLine_quoted_iff hcode
  constructor
  · rintro ⟨hread, hline⟩ c hc
    have hspecial := (literalBody?_bare_iff s.toList).mp (hvalue ▸ hread) c hc
    exact ⟨fun h => hspecial (.inl h), fun h => hspecial (.inr (.inl h)),
      honeLine.mp hline c hc c (List.mem_singleton_self c)⟩
  · intro h
    refine ⟨hvalue.trans ((literalBody?_bare_iff s.toList).mpr fun c hc => ?_),
      honeLine.mpr fun c hc d hd => ?_⟩
    · obtain ⟨hquote, hbackslash, hline⟩ := h c hc
      rintro (hc | hc | hc | hc)
      · exact hquote hc
      · exact hbackslash hc
      · exact hline (.inl hc)
      · exact hline (.inr (.inl hc))
    · rw [List.mem_singleton.mp hd]
      exact (h c hc).2.2

end Templating.Text
