import Mathlib.Data.List.Infix
import Templating.Entity

/-!
**Characters spelled by reference.**

A character can be spelled as itself, unless it is the ampersand that starts a reference, or by one of
its references.  No reference starts with another one, so a text that is spelled this way is read
back in a single pass: what a reference stands for is never taken together with what follows it.

Main definitions:

* `Templating.Entity.IsSpelling` — the ways to spell a character;
* `Templating.Entity.escapes`, `Templating.Entity.escape` — a text with its special characters
  spelled by reference.

Main results:

* `Templating.Entity.reference?_append` — a reference is read as its character, whatever follows it;
* `Templating.Entity.decode_flatMap` — a text that is spelled character by character is read back;
* `Templating.Entity.decodeContent_eq` — a text without an ampersand may skip decoding;
* `Templating.Entity.decode_escape` — **decoding undoes escaping, and only once**.
-/

set_option autoImplicit false

namespace Templating.Entity

/-! ### Reading references -/

/-- No reference starts with another one. -/
theorem eq_of_append_eq {newlines : Bool} {p q : List Char × Char} {s r : List Char}
    (hp : p ∈ references newlines) (hq : q ∈ references newlines) (h : p.1 ++ s = q.1 ++ r) :
    p = q := by
  have hfree : ∀ b, ∀ p ∈ references b, ∀ q ∈ references b, p.1 <+: q.1 → p = q := by decide
  have hstart : p.1 <+: q.1 ++ r := ⟨s, h⟩
  rcases List.prefix_or_prefix_of_prefix hstart (List.prefix_append q.1 r) with hpq | hqp
  · exact hfree newlines p hp q hq hpq
  · exact (hfree newlines q hq p hp hqp).symm

/-- **A reference is read as its character**, whatever follows it. -/
theorem reference?_append {newlines : Bool} {name : List Char} {c : Char}
    (h : (name, c) ∈ references newlines) (s : List Char) :
    reference? newlines (name ++ s) = some (c, s) := by
  have hsome : (reference? newlines (name ++ s)).isSome = true := by
    rw [reference?, List.findSome?_isSome_iff]
    exact ⟨(name, c), h, by rw [Text.strip?_eq_some_iff.mpr rfl]; rfl⟩
  obtain ⟨found, hfound⟩ := Option.isSome_iff_exists.mp hsome
  -- whatever is found is this reference, as it starts the same text
  obtain ⟨q, hq, hread⟩ := List.exists_of_findSome?_eq_some hfound
  obtain ⟨r, hstrip, rfl⟩ := Option.map_eq_some_iff.mp hread
  have htext := Text.strip?_eq_some_iff.mp hstrip
  obtain rfl := eq_of_append_eq h hq htext
  rw [hfound, List.append_cancel_left htext]

/-- The ways to spell a character: as itself, unless it is an ampersand, or by a reference. -/
def IsSpelling (newlines : Bool) (c : Char) (word : List Char) : Prop :=
  c ≠ '&' ∧ word = [c] ∨ ∃ name, (name, c) ∈ references newlines ∧ word = '&' :: name

/-- A spelled character is read back, and reading goes on behind it. -/
theorem decode_append {newlines : Bool} {c : Char} {word : List Char}
    (h : IsSpelling newlines c word) (s : List Char) :
    decode newlines (word ++ s) = c :: decode newlines s := by
  rcases h with ⟨hc, rfl⟩ | ⟨name, hname, rfl⟩
  · exact decode_cons fun hamp => absurd hamp hc
  · exact decode_of_reference? (reference?_append hname s)

/-- **A text that is spelled character by character is read back.** -/
theorem decode_flatMap {newlines : Bool} {spell : Char → List Char}
    (h : ∀ c, IsSpelling newlines c (spell c)) (s : List Char) :
    decode newlines (s.flatMap spell) = s := by
  induction s with
  | nil => exact decode_nil newlines
  | cons c s ih => rw [List.flatMap_cons, decode_append (h c), ih]

/-- A text without an ampersand stays as it is. -/
theorem decode_of_not_mem (newlines : Bool) {s : List Char} (h : '&' ∉ s) :
    decode newlines s = s := by
  induction s with
  | nil => exact decode_nil newlines
  | cons c s ih =>
      rw [List.mem_cons, not_or] at h
      rw [decode_cons fun hamp => absurd hamp.symm h.1, ih h.2]

/-- A text without an ampersand may skip decoding. -/
theorem decodeContent_eq (s : List Char) : decodeContent s = decode true s := by
  unfold decodeContent
  split
  · rfl
  · rename_i hamp
    exact (decode_of_not_mem true (by simpa using hamp)).symm

/-! ### Escaping -/

/-- The characters that are escaped, and how they are spelled. -/
def escapes (newlines : Bool) : List (Char × List Char) :=
  [('&', "&amp;".toList), ('<', "&lt;".toList), ('>', "&gt;".toList), ('"', "&quot;".toList),
    ('\x27', "&#39;".toList)] ++
    if newlines then [('\n', "&#10;".toList), ('\t', "&#9;".toList)] else []

/-- A text with its special characters spelled by reference.  Line feeds and tabs are included on
demand. -/
def escape (newlines : Bool) (s : List Char) : List Char :=
  s.flatMap fun c => ((escapes newlines).lookup c).getD [c]

theorem isSpelling_escapes (newlines : Bool) (c : Char) :
    IsSpelling newlines c (((escapes newlines).lookup c).getD [c]) := by
  have hreferences : ∀ b, ∀ p ∈ escapes b,
      (p.2.tail, p.1) ∈ references b ∧ p.2 = '&' :: p.2.tail := by decide
  cases hlookup : (escapes newlines).lookup c with
  | none =>
      refine .inl ⟨?_, rfl⟩
      rintro rfl
      cases newlines <;> cases hlookup
  | some word =>
      obtain ⟨l₁, l₂, hmem, -⟩ := List.lookup_eq_some_iff.mp hlookup
      obtain ⟨hname, hword⟩ := hreferences newlines (c, word) (by rw [hmem]; simp)
      exact .inr ⟨word.tail, hname, hword⟩

/-- **Decoding undoes escaping, and only once**: what was escaped is found again, even when it looks
like references itself.  Text content is decoded like a value with line feeds and tabs. -/
theorem decode_escape :
    (∀ s, decode false (escape false s) = s) ∧
      (∀ s, decode true (escape true s) = s ∧ decodeContent (escape true s) = s) ∧
      ∀ t, decodeContent t = decode true t := by
  have hescape : ∀ newlines s, decode newlines (escape newlines s) = s :=
    fun newlines => decode_flatMap (isSpelling_escapes newlines)
  refine ⟨hescape false, fun s => ⟨hescape true s, ?_⟩, decodeContent_eq⟩
  rw [decodeContent_eq, hescape]

end Templating.Entity
