import Templating.Text.Cut

/-!
**Character references.**

Attribute values and texts may spell a few characters by reference.  Decoding replaces every
reference once, from left to right: what a reference stands for is not read again.

Main definitions:

* `Templating.Entity.references` — the references and their characters;
* `Templating.Entity.decode` — a text with its references replaced;
* `Templating.Entity.decodeContent` — the same for text content, which always includes line feeds and
  tabs.

Main results:

* `Templating.Entity.decode_of_reference?`, `Templating.Entity.decode_cons` — one step of decoding.
-/

set_option autoImplicit false

namespace Templating.Entity

/-- The references, without the ampersand they start with. -/
def basicReferences : List (List Char × Char) :=
  [("lt;".toList, '<'), ("gt;".toList, '>'), ("quot;".toList, '"'), ("amp;".toList, '&'),
    ("#39;".toList, '\x27')]

/-- The references to a line feed and to a tab. -/
def newlineReferences : List (List Char × Char) :=
  [("#10;".toList, '\n'), ("#9;".toList, '\t')]

/-- The references that are decoded. -/
def references (newlines : Bool) : List (List Char × Char) :=
  if newlines then basicReferences ++ newlineReferences else basicReferences

/-- The character that a text after an ampersand refers to, and what follows the reference. -/
def reference? (newlines : Bool) (s : List Char) : Option (Char × List Char) :=
  (references newlines).findSome? fun p => (Text.strip? p.1 s).map fun r => (p.2, r)

/-- No reference is spelled by nothing. -/
theorem length_of_mem_references {newlines : Bool} {p : List Char × Char}
    (h : p ∈ references newlines) : 0 < p.1.length := by
  have key : ∀ b, ∀ p ∈ references b, 0 < p.1.length := by decide
  exact key newlines p h

/-- A reference takes up some characters. -/
theorem length_reference? {newlines : Bool} {s r : List Char} {c : Char}
    (h : reference? newlines s = some (c, r)) : r.length < s.length := by
  obtain ⟨l₁, p, l₂, hp, hmap, _⟩ := List.findSome?_eq_some_iff.mp h
  obtain ⟨t, ht, heq⟩ := Option.map_eq_some_iff.mp hmap
  have hmem : p ∈ references newlines := by rw [hp]; simp
  have hlen := length_of_mem_references hmem
  obtain ⟨-, rfl⟩ := Prod.mk.inj heq
  rw [Text.strip?_eq_some_iff.mp ht, List.length_append]
  omega

/-- A text with its references replaced.  Line feeds and tabs are included on demand. -/
def decode (newlines : Bool) (s : List Char) : List Char :=
  match s with
  | [] => []
  | c :: s =>
      if c = '&' then
        match h : reference? newlines s with
        | some (d, r) =>
            have := length_reference? h
            d :: decode newlines r
        | none => c :: decode newlines s
      else
        c :: decode newlines s
termination_by s.length
decreasing_by all_goals (simp only [List.length_cons] at *; omega)

@[simp] theorem decode_nil (newlines : Bool) : decode newlines [] = [] := by
  rw [decode]

/-- A reference is replaced by its character. -/
theorem decode_of_reference? {newlines : Bool} {s r : List Char} {c : Char}
    (h : reference? newlines s = some (c, r)) :
    decode newlines ('&' :: s) = c :: decode newlines r := by
  rw [decode]
  simp only [↓reduceIte]
  split
  · rename_i h'
    rw [h] at h'
    cases h'
    rfl
  · rename_i h'
    rw [h] at h'
    cases h'

/-- Anything else stays. -/
theorem decode_cons {newlines : Bool} {c : Char} {s : List Char}
    (h : c = '&' → reference? newlines s = none) :
    decode newlines (c :: s) = c :: decode newlines s := by
  rw [decode]
  split
  · rename_i hc
    split
    · rename_i h'
      rw [h hc] at h'
      cases h'
    · rfl
  · rfl

/-- Text content with its references replaced.  A text without an ampersand holds none. -/
def decodeContent (s : List Char) : List Char :=
  if s.contains '&' then decode true s else s

end Templating.Entity
