/-!
**Cutting texts at a given pattern.**

The scanners of this library look for fixed character sequences: at the start of a text, or at the
first place where they occur.

Main definitions:

* `Templating.Text.strip?` — what follows a pattern that starts the text;
* `Templating.Text.cut?` — the text before and after the first occurrence of a pattern;
* `Templating.Text.cutWhere?` — the text before and after the first place where a reader finds
  something;
* `Templating.Text.splitOn`, `Templating.Text.join` — separating at a character, and putting
  pieces together with a separator between them.

Main results:

* `Templating.Text.strip?_eq_some_iff` — a pattern is stripped exactly when the text is the pattern
  and the remainder;
* `Templating.Text.append_of_cut?` — the two parts around the pattern make up the text;
* `Templating.Text.cutWhere?_append` — a text is cut at the first place where something is taken
  off.
-/

set_option autoImplicit false

namespace Templating.Text

/-! ### At the start -/

/-- What follows `pattern` in a text that starts with it. -/
def strip? : (pattern s : List Char) → Option (List Char)
  | [], s => some s
  | _ :: _, [] => none
  | p :: ps, c :: s => if p = c then strip? ps s else none

@[simp] theorem strip?_nil (s : List Char) : strip? [] s = some s := by
  cases s <;> rfl

/-- A pattern is stripped exactly when the text is the pattern and the remainder. -/
theorem strip?_eq_some_iff {pattern s r : List Char} :
    strip? pattern s = some r ↔ s = pattern ++ r := by
  induction pattern generalizing s with
  | nil => simp
  | cons p ps ih =>
      cases s with
      | nil => simp [strip?]
      | cons c s =>
          simp only [strip?, List.cons_append, List.cons.injEq]
          split
          · rename_i h; subst h; simp [ih]
          · rename_i h
            constructor
            · intro h'; cases h'
            · rintro ⟨rfl, _⟩; exact absurd rfl h

/-- Whether a text starts with `pattern`. -/
def startsWith (pattern s : List Char) : Bool := (strip? pattern s).isSome

/-! ### At the first occurrence -/

/-- The text before and after the first occurrence of `pattern`. -/
def cut? (pattern : List Char) : List Char → Option (List Char × List Char)
  | [] => (strip? pattern []).map fun r => ([], r)
  | c :: s =>
      match strip? pattern (c :: s) with
      | some r => some ([], r)
      | none => (cut? pattern s).map fun p => (c :: p.1, p.2)

/-- The two parts around the pattern make up the text. -/
theorem append_of_cut? {pattern s a b : List Char} (h : cut? pattern s = some (a, b)) :
    s = a ++ pattern ++ b := by
  induction s generalizing a with
  | nil =>
      simp only [cut?, Option.map_eq_some_iff, Prod.mk.injEq] at h
      obtain ⟨r, hr, rfl, rfl⟩ := h
      simpa using strip?_eq_some_iff.mp hr
  | cons c s ih =>
      simp only [cut?] at h
      split at h
      · rename_i r hr
        simp only [Option.some.injEq, Prod.mk.injEq] at h
        obtain ⟨rfl, rfl⟩ := h
        simpa using strip?_eq_some_iff.mp hr
      · simp only [Option.map_eq_some_iff, Prod.mk.injEq] at h
        obtain ⟨⟨a', b'⟩, hp, rfl, rfl⟩ := h
        simp [ih hp]

/-- The text before and after the first place where `taken?` takes something off. -/
def cutWhere? (taken? : List Char → Option (List Char)) :
    List Char → Option (List Char × List Char)
  | [] => (taken? []).map fun r => ([], r)
  | c :: s =>
      match taken? (c :: s) with
      | some r => some ([], r)
      | none => (cutWhere? taken? s).map fun p => (c :: p.1, p.2)

/-- A text is cut at the first place where something is taken off. -/
theorem cutWhere?_append {taken? : List Char → Option (List Char)} {front rest r : List Char}
    (hfront : ∀ a b, front = a ++ b → b ≠ [] → taken? (b ++ rest) = none)
    (hrest : taken? rest = some r) : cutWhere? taken? (front ++ rest) = some (front, r) := by
  induction front with
  | nil =>
      cases rest with
      | nil => simp [cutWhere?, hrest]
      | cons c s => simp [cutWhere?, hrest]
  | cons c front ih =>
      have hnone := hfront [] (c :: front) rfl (List.cons_ne_nil c front)
      rw [List.cons_append] at hnone ⊢
      rw [cutWhere?, hnone, ih fun a b hsplit => hfront (c :: a) b (by rw [hsplit]; rfl)]
      rfl

/-! ### At every separator -/

/-- The pieces of a text between the occurrences of a separator. -/
def splitOn (sep : Char) : List Char → List (List Char)
  | [] => [[]]
  | c :: s =>
      if c = sep then [] :: splitOn sep s
      else
        match splitOn sep s with
        | [] => [[c]]
        | p :: ps => (c :: p) :: ps

/-- The pieces with a separator between neighbours. -/
def join (sep : String) : List String → String
  | [] => ""
  | [a] => a
  | a :: b :: rest => a ++ sep ++ join sep (b :: rest)

end Templating.Text
