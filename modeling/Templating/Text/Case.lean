import Templating.Text.CaseTable

/-!
**Letter case.**

Tag names are compared in their lower-case form, camel-cased names put single characters into
their upper-case form, and the end of a raw-text element is found whatever the case of its letters.

Main definitions:

* `Templating.Text.lower` — the lower-case form of a text, in which a capital sigma at the end of
  a word becomes the final small sigma;
* `Templating.Text.upperChar` — the upper-case form of a character, possibly several characters;
* `Templating.Text.fold` — the representative of the characters that differ in case only;
* `Templating.Text.equalFoldAscii` — equality of texts up to the case of ASCII letters.
-/

set_option autoImplicit false

namespace Templating.Text

/-! ### Lower case -/

/-- The lower-case form of a single character; the capital I with a dot above becomes two. -/
def lowerChar (c : Char) : List Char :=
  if c.toNat < 128 then [c.toLower]
  else if c.toNat = 0x0130 then ['i', Char.ofNat 0x0307]
  else [lookupRuns lowerRuns c]

/-- Letters that have case. -/
def isCased (c : Char) : Bool :=
  if c.toNat < 128 then c.isAlpha else casedRanges.contains c

/-- Characters that a case decision looks through. -/
def isCaseIgnorable (c : Char) : Bool :=
  if c.toNat < 128 then c == '\x27' || c == '.' || c == ':' || c == '^' || c == '\x60'
  else caseIgnorableRanges.contains c

/-- Whether the first character that is not case-ignorable has case. -/
def reachesCased (s : List Char) : Bool :=
  match s.dropWhile isCaseIgnorable with
  | [] => false
  | c :: _ => isCased c

/-- The lower-case form of the rest of a text; `before` holds what precedes it, nearest first. -/
def lowerFrom (before : List Char) : List Char → List Char
  | [] => []
  | c :: s =>
      (if c = 'Σ' then
        [if reachesCased before && !reachesCased s then 'ς' else 'σ']
      else
        lowerChar c) ++ lowerFrom (c :: before) s

/-- The lower-case form of a text. -/
def lower (s : List Char) : List Char := lowerFrom [] s

/-- The lower-case form of a string. -/
def lowerString (s : String) : String := String.ofList (lower s.toList)

/-! ### Upper case -/

/-- The upper-case form of a character. -/
def upperChar (c : Char) : List Char :=
  if c.toNat < 128 then [c.toUpper]
  else
    match upperExpansions.lookup c.toNat with
    | some ns => ns.map Char.ofNat
    | none => [lookupRuns upperRuns c]

/-! ### Comparison up to case -/

/-- The representative of the characters that differ from `c` in case only. -/
def fold (c : Char) : Char :=
  if c.toNat < 128 then c.toLower else lookupRuns foldRuns c

/-- Take `pattern` off the start of `s`, up to case. -/
def dropFold? : (pattern s : List Char) → Option (List Char)
  | [], s => some s
  | _ :: _, [] => none
  | p :: ps, c :: s => if fold p = fold c then dropFold? ps s else none

/-- What a match leaves stands behind as many characters as the pattern has. -/
theorem take_append_of_dropFold? {pattern s r : List Char} (h : dropFold? pattern s = some r) :
    s = s.take pattern.length ++ r := by
  induction pattern generalizing s with
  | nil => simp only [dropFold?, Option.some.injEq] at h; simp [h]
  | cons p ps ih =>
      cases s with
      | nil => simp [dropFold?] at h
      | cons c s =>
          simp only [dropFold?] at h
          split at h
          · simp only [List.length_cons, List.take_succ_cons, List.cons_append, List.cons.injEq,
              true_and]
            exact ih h
          · cases h

/-- Equality of strings up to the case of ASCII letters. -/
def equalFoldAscii (a b : String) : Bool :=
  a.toList.map Char.toLower == b.toList.map Char.toLower

end Templating.Text
