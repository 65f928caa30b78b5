import Templating.Text.Blank
import Templating.Text.Word
import Templating.Text.Cut

/-!
**Attributes as they are written.**

An attribute in a start tag is a name, possibly followed by an equals sign and a value in double
quotes, in single quotes or without quotes.  A name with a dynamic argument, such as `:[key]`, may
hold further characters between its brackets.

Main definitions:

* `Templating.Markup.RawAttribute` — an attribute with its exact spelling;
* `Templating.Markup.plainName?`, `Templating.Markup.dynamicName?` — the two kinds of names;
* `Templating.Markup.assignment?` — the equals sign and the value;
* `Templating.Markup.attribute?` — the attribute that a text starts with.

Main results:

* `Templating.Markup.append_of_attribute?` — an attribute that was read and what follows it make up
  the text;
* `Templating.Markup.attribute?_name_ne_nil` — its name is not empty.
-/

set_option autoImplicit false

namespace Templating.Markup

open Text

/-- An attribute as it is written: the spaces before it, its name, the spelling of its value with
the equals sign, and the value itself. -/
structure RawAttribute where
  lead : List Char
  name : List Char
  assignment : List Char
  value : List Char
  deriving Repr, DecidableEq

/-- The spelling of an attribute. -/
def RawAttribute.source (a : RawAttribute) : List Char := a.lead ++ a.name ++ a.assignment

/-! ### Names -/

/-- Characters of an attribute name. -/
def isAttributeNameChar (c : Char) : Bool :=
  !(isSpace c || c == '"' || c == '\x27' || c == '<' || c == '>' || c == '/' || c == '=')

/-- The name that a text starts with, and what follows it. -/
def plainName? (s : List Char) : Option (List Char × List Char) :=
  match s.takeWhile isAttributeNameChar with
  | [] => none
  | c :: n => some (c :: n, s.dropWhile isAttributeNameChar)

/-- The start of a text up to and including its first closing bracket, before any equals sign. -/
def throughBracket? : List Char → Option (List Char × List Char)
  | [] => none
  | c :: s =>
      if c = ']' then some ([c], s)
      else if c = '=' then none
      else (throughBracket? s).map fun p => (c :: p.1, p.2)

/-- The mark that a directive with a dynamic argument starts with: `@`, `:`, `#`, or a directive
name with its colon. -/
def directiveMark? : List Char → Option (List Char × List Char)
  | [] => none
  | c :: s =>
      if c = '@' ∨ c = ':' ∨ c = '#' then some ([c], s)
      else
        match strip? ['v', '-'] (c :: s) with
        | none => none
        | some t =>
            let p : Char → Bool := fun c => isWord c || c == '-'
            match t.takeWhile p, t.dropWhile p with
            | [], _ => none
            | _ :: _, [] => none
            | d :: n, e :: r => if e = ':' then some ('v' :: '-' :: d :: n ++ [':'], r) else none

/-- A name with a dynamic argument: a directive mark, an argument of at least one character in
brackets, and further name characters. -/
def dynamicName? (s : List Char) : Option (List Char × List Char) :=
  match directiveMark? s with
  | some (mark, b :: c :: t) =>
      if b = '[' ∧ c ≠ '=' then
        match throughBracket? t with
        | some (inside, r) =>
            some (mark ++ b :: c :: inside ++ r.takeWhile isAttributeNameChar,
              r.dropWhile isAttributeNameChar)
        | none => none
      else none
  | _ => none

/-! ### Values -/

/-- Characters of a value without quotes. -/
def isUnquotedChar (c : Char) : Bool :=
  !(isSpace c || c == '"' || c == '\x27' || c == '=' || c == '<' || c == '>' || c == '\x60')

/-- A value in the quotes `q`; further closing quotes belong to its spelling. -/
def quoted? (q : Char) (s : List Char) : Option (List Char × List Char × List Char) :=
  let value := s.takeWhile (· != q)
  let t := s.dropWhile (· != q)
  let quotes := t.takeWhile (· == q)
  if quotes = [] then none else some (q :: value ++ quotes, value, t.dropWhile (· == q))

/-- The spelling of a value, the value, and what follows it. -/
def value? : List Char → Option (List Char × List Char × List Char)
  | [] => none
  | c :: s =>
      if c = '"' ∨ c = '\x27' then quoted? c s
      else
        let v := (c :: s).takeWhile isUnquotedChar
        if v = [] then none else some (v, v, (c :: s).dropWhile isUnquotedChar)

/-- An equals sign and a value, with spaces around the sign: their spelling, the value, and what
follows. -/
def assignment? (s : List Char) : Option (List Char × List Char × List Char) :=
  match s.dropWhile isSpace with
  | [] => none
  | c :: t =>
      if c = '=' then
        match value? (t.dropWhile isSpace) with
        | none => none
        | some (spelling, value, r) =>
            some (s.takeWhile isSpace ++ '=' :: t.takeWhile isSpace ++ spelling, value, r)
      else none

/-- The attribute that a text starts with, and what follows it.  A name with a dynamic argument is
tried first; without a readable value the attribute is its name alone. -/
def attribute? (s : List Char) : Option (RawAttribute × List Char) :=
  let t := s.dropWhile isSpace
  match (dynamicName? t).or (plainName? t) with
  | none => none
  | some (name, r) =>
      match assignment? r with
      | some (assignment, value, r) => some (⟨s.takeWhile isSpace, name, assignment, value⟩, r)
      | none => some (⟨s.takeWhile isSpace, name, [], []⟩, r)

/-! ### Nothing is lost -/

theorem append_of_throughBracket? {s a r : List Char} (h : throughBracket? s = some (a, r)) :
    s = a ++ r := by
  induction s generalizing a with
  | nil => simp [throughBracket?] at h
  | cons c s ih =>
      simp only [throughBracket?] at h
      split at h
      · cases h; simp
      · split at h
        · cases h
        · obtain ⟨⟨a', r'⟩, hp, heq⟩ := Option.map_eq_some_iff.mp h
          cases heq
          simp [ih hp]

theorem append_of_directiveMark? {s a r : List Char} (h : directiveMark? s = some (a, r)) :
    s = a ++ r := by
  cases s with
  | nil => simp [directiveMark?] at h
  | cons c s =>
      simp only [directiveMark?] at h
      split at h
      · cases h; simp
      · split at h
        · cases h
        · rename_i t ht
          rw [strip?_eq_some_iff.mp ht]
          split at h
          · cases h
          · cases h
          · rename_i d n e r' hn hr
            split at h
            · rename_i he
              cases h
              have key := List.takeWhile_append_dropWhile (p := fun c => isWord c || c == '-') (l := t)
              rw [hn, hr, he] at key
              rw [← key]
              simp
            · cases h

theorem append_of_plainName? {s n r : List Char} (h : plainName? s = some (n, r)) :
    s = n ++ r := by
  unfold plainName? at h
  split at h
  · cases h
  · rename_i c t ht
    cases h
    rw [← ht, List.takeWhile_append_dropWhile]

theorem plainName?_ne_nil {s n r : List Char} (h : plainName? s = some (n, r)) : n ≠ [] := by
  unfold plainName? at h
  split at h
  · cases h
  · cases h; simp

theorem append_of_dynamicName? {s n r : List Char} (h : dynamicName? s = some (n, r)) :
    s = n ++ r := by
  unfold dynamicName? at h
  split at h
  · rename_i mark b c t hm
    rw [append_of_directiveMark? hm]
    split at h
    · split at h
      · rename_i inside r' ht
        rw [append_of_throughBracket? ht]
        cases h
        simp
      · cases h
    · cases h
  · cases h

theorem dynamicName?_ne_nil {s n r : List Char} (h : dynamicName? s = some (n, r)) : n ≠ [] := by
  unfold dynamicName? at h
  split at h
  · split at h
    · split at h
      · cases h; simp
      · cases h
    · cases h
  · cases h

theorem append_of_quoted? {q : Char} {s a v r : List Char} (h : quoted? q s = some (a, v, r)) :
    q :: s = a ++ r := by
  unfold quoted? at h
  simp only at h
  split at h
  · cases h
  · cases h
    have e₁ := List.takeWhile_append_dropWhile (p := (· != q)) (l := s)
    have e₂ := List.takeWhile_append_dropWhile (p := (· == q)) (l := s.dropWhile (· != q))
    simp only [List.cons_append, List.append_assoc, e₂, e₁]

theorem append_of_value? {s a v r : List Char} (h : value? s = some (a, v, r)) : s = a ++ r := by
  cases s with
  | nil => simp [value?] at h
  | cons c s =>
      simp only [value?] at h
      split at h
      · exact append_of_quoted? h
      · split at h
        · cases h
        · cases h
          rw [List.takeWhile_append_dropWhile]

theorem append_of_assignment? {s a v r : List Char} (h : assignment? s = some (a, v, r)) :
    s = a ++ r := by
  unfold assignment? at h
  split at h
  · cases h
  · rename_i c t hd
    split at h
    · rename_i hc
      split at h
      · cases h
      · rename_i spelling value r' hv
        cases h
        have e₁ := List.takeWhile_append_dropWhile (p := isSpace) (l := s)
        have e₂ := List.takeWhile_append_dropWhile (p := isSpace) (l := t)
        rw [append_of_value? hv] at e₂
        rw [hd, hc, ← e₂] at e₁
        simpa using e₁.symm
    · cases h

/-- The name that an attribute is read with. -/
theorem append_of_names {t n r : List Char} (h : (dynamicName? t).or (plainName? t) = some (n, r)) :
    t = n ++ r ∧ n ≠ [] := by
  rcases Option.or_eq_some_iff.mp h with h | ⟨_, h⟩
  · exact ⟨append_of_dynamicName? h, dynamicName?_ne_nil h⟩
  · exact ⟨append_of_plainName? h, plainName?_ne_nil h⟩

/-- An attribute that was read and what follows it make up the text. -/
theorem append_of_attribute? {s r : List Char} {a : RawAttribute}
    (h : attribute? s = some (a, r)) : s = a.source ++ r := by
  unfold attribute? at h
  simp only at h
  have e := List.takeWhile_append_dropWhile (p := isSpace) (l := s)
  split at h
  · cases h
  · rename_i name r' hn
    rw [(append_of_names hn).1] at e
    split at h
    · rename_i ha
      cases h
      rw [append_of_assignment? ha] at e
      simpa [RawAttribute.source] using e.symm
    · cases h
      simpa [RawAttribute.source] using e.symm

/-- The name of an attribute is not empty. -/
theorem attribute?_name_ne_nil {s r : List Char} {a : RawAttribute}
    (h : attribute? s = some (a, r)) : a.name ≠ [] := by
  unfold attribute? at h
  simp only at h
  split at h
  · cases h
  · rename_i hn
    have := (append_of_names hn).2
    split at h <;> (cases h; exact this)

/-- Reading an attribute takes up some characters. -/
theorem length_of_attribute? {s r : List Char} {a : RawAttribute}
    (h : attribute? s = some (a, r)) : r.length < s.length := by
  have hpos := List.length_pos_iff.mpr (attribute?_name_ne_nil h)
  rw [append_of_attribute? h]
  simp only [RawAttribute.source, List.length_append]
  omega

end Templating.Markup
