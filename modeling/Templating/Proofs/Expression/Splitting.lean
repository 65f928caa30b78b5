import Templating.Expression.Interpolation

/-!
**The interpolations of a text.**

Marks may overlap with each other and with what stands between them, so a text can be read in more
than one way.  One reading counts: the first interpolation is the leftmost one, it is as short as it
can be but not empty, and what follows it is read in the same way.

Main definitions:

* `Templating.Expression.Interpolates` — an interpolation somewhere in a text;
* `Templating.Expression.Interpolates.First` — the interpolation that counts;
* `Templating.Expression.Splits` — **a text that is split at the interpolations that count**;
* `Templating.Expression.splitParts`, `Templating.Expression.splitCodes` — the parts of a text that
  is split, and their codes.

Main results:

* `Templating.Text.exists_cut?` — a text is cut at the first occurrence of a pattern;
* `Templating.Expression.first_of_interpolation?` — the interpolation that is found is the one that
  counts;
* `Templating.Expression.exists_splits_parts` — the parts of a text are those it is split into;
* `Templating.Expression.splits_interpolate` — **interpolation splits a text exactly**.
-/

set_option autoImplicit false

namespace Templating

/-! ### The first occurrence of a pattern -/

/-- A pattern that occurs in a text is found, there or earlier. -/
theorem Text.exists_cut? (pattern a b : List Char) :
    ∃ a' b', cut? pattern (a ++ pattern ++ b) = some (a', b') ∧ a'.length ≤ a.length := by
  induction a with
  | nil =>
      have hstrip : strip? pattern (pattern ++ b) = some b := strip?_eq_some_iff.mpr rfl
      refine ⟨[], b, ?_, Nat.le_refl 0⟩
      rw [List.nil_append]
      cases htext : pattern ++ b with
      | nil =>
          rw [htext] at hstrip
          simp only [cut?, hstrip, Option.map_some]
      | cons c s =>
          rw [htext] at hstrip
          simp only [cut?, hstrip]
  | cons x a ih =>
      obtain ⟨a', b', hcut, hle⟩ := ih
      simp only [List.cons_append, cut?]
      cases strip? pattern (x :: (a ++ pattern ++ b)) with
      | some r => exact ⟨[], r, rfl, Nat.zero_le _⟩
      | none => exact ⟨x :: a', b', by rw [hcut]; rfl, Nat.succ_le_succ hle⟩

namespace Expression

open Text

/-! ### Interpolations -/

section Marks

variable {opening closing s l e r : List Char}

/-- The text `e`, which is not empty, stands between two marks in the text `s`, with `l` before
these and `r` behind them. -/
structure Interpolates (opening closing s l e r : List Char) : Prop where
  text : s = l ++ opening ++ e ++ closing ++ r
  ne_nil : e ≠ []

/-- **The interpolation that counts**: no other one starts further left, and none that starts at the
same place is shorter. -/
structure Interpolates.First (opening closing s l e r : List Char) : Prop extends
    Interpolates opening closing s l e r where
  leftmost : ∀ l' e' r', Interpolates opening closing s l' e' r' → l.length ≤ l'.length
  shortest : ∀ e' r', Interpolates opening closing s l e' r' → e.length ≤ e'.length

/-- What stands before a closing mark is found, or a shorter text. -/
theorem exists_insideMarks? (closing r : List Char) (hne : e ≠ []) :
    ∃ e' r', insideMarks? closing (e ++ closing ++ r) = some (e', r') ∧ e'.length ≤ e.length := by
  obtain ⟨c, e, rfl⟩ := List.exists_cons_of_ne_nil hne
  obtain ⟨e', r', hcut, hle⟩ := exists_cut? closing e r
  refine ⟨c :: e', r', ?_, Nat.succ_le_succ hle⟩
  rw [List.cons_append, List.cons_append, insideMarks?, hcut]
  rfl

/-- An interpolation is found, there or further left. -/
theorem Interpolates.exists_interpolation? (h : Interpolates opening closing s l e r) :
    ∃ l' e' r', interpolation? opening closing s = some (l', e', r') ∧ l'.length ≤ l.length := by
  induction l generalizing s with
  | nil =>
      obtain ⟨e', r', hinside, -⟩ := exists_insideMarks? closing r h.ne_nil
      have hstrip : strip? opening s = some (e ++ closing ++ r) := by
        rw [strip?_eq_some_iff, h.text]
        simp
      cases hs : s with
      | nil =>
          have htext := h.text
          rw [hs] at htext
          exact absurd htext.symm (by simp [h.ne_nil])
      | cons c s =>
          rw [hs] at hstrip
          refine ⟨[], e', r', ?_, Nat.le_refl 0⟩
          simp only [interpolation?, hstrip, Option.bind_some, hinside]
  | cons x l ih =>
      have hs : s = x :: (l ++ opening ++ e ++ closing ++ r) := h.text
      obtain ⟨l', e', r', hrest, hle⟩ := ih ⟨rfl, h.ne_nil⟩
      rw [hs]
      simp only [interpolation?]
      cases (strip? opening (x :: (l ++ opening ++ e ++ closing ++ r))).bind
          (insideMarks? closing) with
      | some found => exact ⟨[], found.1, found.2, rfl, Nat.zero_le _⟩
      | none => exact ⟨x :: l', e', r', by rw [hrest]; rfl, Nat.succ_le_succ hle⟩

/-- What is found stands behind an opening mark. -/
theorem exists_of_interpolation? (h : interpolation? opening closing s = some (l, e, r)) :
    ∃ t, s = l ++ opening ++ t ∧ insideMarks? closing t = some (e, r) := by
  induction s generalizing l with
  | nil => cases h
  | cons c s ih =>
      simp only [interpolation?] at h
      split at h
      · rename_i hfound
        cases h
        obtain ⟨t, hstrip, hinside⟩ := Option.bind_eq_some_iff.mp hfound
        exact ⟨t, by rw [strip?_eq_some_iff.mp hstrip, List.nil_append], hinside⟩
      · obtain ⟨⟨l', e', r'⟩, hrest, heq⟩ := Option.map_eq_some_iff.mp h
        cases heq
        obtain ⟨t, htext, hinside⟩ := ih hrest
        exact ⟨t, by rw [htext]; rfl, hinside⟩

/-- **The interpolation that is found is the one that counts.** -/
theorem first_of_interpolation? (h : interpolation? opening closing s = some (l, e, r)) :
    Interpolates.First opening closing s l e r := by
  obtain ⟨htext, hne⟩ := append_of_interpolation? h
  obtain ⟨t, hbehind, hinside⟩ := exists_of_interpolation? h
  refine ⟨⟨htext, hne⟩, fun l' e' r' hother => ?_, fun e' r' hother => ?_⟩
  · obtain ⟨l₀, e₀, r₀, hfound, hle⟩ := hother.exists_interpolation?
    cases h.symm.trans hfound
    exact hle
  · -- both stand behind the same opening mark
    have hsame : t = e' ++ closing ++ r' := by
      have heq := hbehind.symm.trans hother.text
      simpa [List.append_assoc] using heq
    obtain ⟨e₀, r₀, hfound, hle⟩ := exists_insideMarks? closing r' hother.ne_nil
    rw [← hsame] at hfound
    cases hinside.symm.trans hfound
    exact hle

theorem interpolation?_eq_none_iff :
    interpolation? opening closing s = none ↔ ∀ l e r, ¬Interpolates opening closing s l e r := by
  constructor
  · intro hnone l e r h
    obtain ⟨l', e', r', hfound, -⟩ := h.exists_interpolation?
    rw [hnone] at hfound
    cases hfound
  · intro hno
    rw [Option.eq_none_iff_forall_ne_some]
    rintro ⟨l, e, r⟩ hfound
    exact hno l e r (first_of_interpolation? hfound).toInterpolates

/-! ### Splitting a text -/

/-- **A text that is split at the interpolations that count**: for each of them what stands before
it and what it holds, and in the end what follows the last one. -/
inductive Splits (opening closing : List Char) :
    List Char → List (List Char × List Char) → List Char → Prop
  | last {s : List Char} (h : ∀ l e r, ¬Interpolates opening closing s l e r) :
      Splits opening closing s [] s
  | cons {s l e r last : List Char} {cuts : List (List Char × List Char)}
      (h : Interpolates.First opening closing s l e r) (hrest : Splits opening closing r cuts last) :
      Splits opening closing s ((l, e) :: cuts) last

/-- The parts of a text that is split: texts that are not empty as literals, and what was between
marks as an expression with its filters. -/
def splitParts (cuts : List (List Char × List Char)) (last : List Char) : List Part :=
  cuts.flatMap (fun c => (if c.1 = [] then [] else [.literal (String.ofList c.1)]) ++
    [.binding (filterCode (String.ofList (trim c.2)))]) ++
  if last = [] then [] else [.literal (String.ofList last)]

/-- The codes of these parts. -/
def splitCodes (cuts : List (List Char × List Char)) (last : List Char) : List String :=
  cuts.flatMap (fun c => (if c.1 = [] then [] else [quote (String.ofList c.1)]) ++
    ["_s(" ++ filterCode (String.ofList (trim c.2)) ++ ")"]) ++
  if last = [] then [] else [quote (String.ofList last)]

/-- What a text is split into makes up the text. -/
theorem Splits.text_eq {cuts : List (List Char × List Char)} {last : List Char}
    (h : Splits opening closing s cuts last) :
    s = cuts.flatMap (fun c => c.1 ++ opening ++ c.2 ++ closing) ++ last ∧
      ∀ c ∈ cuts, c.2 ≠ [] := by
  induction h with
  | last => exact ⟨rfl, by simp⟩
  | cons h _ ih =>
      refine ⟨?_, List.forall_mem_cons.mpr ⟨h.ne_nil, ih.2⟩⟩
      rw [h.text, ih.1]
      simp

/-- Something is cut off exactly if there is an interpolation. -/
theorem Splits.isSome_iff {cuts : List (List Char × List Char)} {last : List Char}
    (h : Splits opening closing s cuts last) :
    (interpolation? opening closing s).isSome = true ↔ cuts ≠ [] := by
  cases h with
  | last hno => simp [interpolation?_eq_none_iff.mpr hno]
  | cons hfirst _ =>
      obtain ⟨l', e', r', hfound, -⟩ := hfirst.toInterpolates.exists_interpolation?
      simp [hfound]

theorem parts_of_none (h : interpolation? opening closing s = none) :
    parts opening closing s = literalPart s := by
  rw [parts]
  split
  · rfl
  · rename_i hfound
    rw [h] at hfound
    cases hfound

theorem parts_of_some (h : interpolation? opening closing s = some (l, e, r)) :
    parts opening closing s =
      literalPart l ++ .binding (String.ofList (applyFilters (trim e))) ::
        parts opening closing r := by
  rw [parts]
  split
  · rename_i hnone
    rw [h] at hnone
    cases hnone
  · rename_i hfound
    cases h.symm.trans hfound
    rfl

theorem splitParts_cons (l e : List Char) (cuts : List (List Char × List Char))
    (last : List Char) : splitParts ((l, e) :: cuts) last =
      literalPart l ++ .binding (String.ofList (applyFilters (trim e))) ::
        splitParts cuts last := by
  simp [splitParts, literalPart, filterCode]

/-- **The parts of a text are those it is split into.** -/
theorem exists_splits_parts (opening closing s : List Char) :
    ∃ cuts last, Splits opening closing s cuts last ∧
      parts opening closing s = splitParts cuts last := by
  -- every interpolation leaves less to be split
  induction hlength : s.length using Nat.strongRecOn generalizing s with
  | ind n ih =>
      cases hfound : interpolation? opening closing s with
      | none =>
          refine ⟨[], s, .last (interpolation?_eq_none_iff.mp hfound), ?_⟩
          rw [parts_of_none hfound]
          rfl
      | some found =>
          obtain ⟨l, e, r⟩ := found
          have hless := length_of_interpolation? hfound
          obtain ⟨cuts, last, hsplits, hparts⟩ := ih r.length (hlength ▸ hless) r rfl
          refine ⟨(l, e) :: cuts, last, .cons (first_of_interpolation? hfound) hsplits, ?_⟩
          rw [parts_of_some hfound, hparts, splitParts_cons]

end Marks

/-- The code of the parts joins their codes. -/
theorem concatenation_splitParts (cuts : List (List Char × List Char)) (last : List Char) :
    concatenation (splitParts cuts last) = join "+" (splitCodes cuts last) := by
  have hliteral : ∀ l : List Char,
      (if l = [] then [] else [Part.literal (String.ofList l)]).map Part.code =
        if l = [] then [] else [quote (String.ofList l)] := by
    intro l
    split <;> rfl
  have hcodes : (splitParts cuts last).map Part.code = splitCodes cuts last := by
    simp only [splitParts, splitCodes, List.map_append, List.map_flatMap, hliteral]
    rfl
  rw [concatenation, hcodes]

/-- **Interpolation splits a text exactly.**  Nothing comes of a text in which nothing stands between
two marks.  Any other text is split at the interpolations that count: each is the leftmost one of
what is left, and the shortest one there.  The parts are the texts around them that are not empty,
and what they hold with its filters, in order; the code joins the codes of these. -/
theorem splits_interpolate (delimiters : Option (String × String)) (text : String) :
    (interpolate? delimiters text = none ↔
        ∀ l e r, ¬Interpolates (marks delimiters).1.toList (marks delimiters).2.toList text.toList
          l e r) ∧
      ∃ cuts last,
        Splits (marks delimiters).1.toList (marks delimiters).2.toList text.toList cuts last ∧
        text.toList = cuts.flatMap (fun c =>
          c.1 ++ (marks delimiters).1.toList ++ c.2 ++ (marks delimiters).2.toList) ++ last ∧
        (∀ c ∈ cuts, c.2 ≠ []) ∧
        interpolate? delimiters text = (if cuts = [] then none else some (splitParts cuts last)) ∧
        concatenation (splitParts cuts last) = join "+" (splitCodes cuts last) := by
  generalize hopening : (marks delimiters).1.toList = opening
  generalize hclosing : (marks delimiters).2.toList = closing
  obtain ⟨cuts, last, hsplits, hparts⟩ := exists_splits_parts opening closing text.toList
  have hfound : interpolate? delimiters text =
      if (interpolation? opening closing text.toList).isSome then some (splitParts cuts last)
      else none := by
    simp only [interpolate?, hopening, hclosing, hparts]
  refine ⟨?_, cuts, last, hsplits, hsplits.text_eq.1, hsplits.text_eq.2, ?_,
    concatenation_splitParts cuts last⟩
  · rw [← interpolation?_eq_none_iff, hfound]
    simp
  · rw [hfound]
    simp only [hsplits.isSome_iff, ite_not]

/-- Three opening braces, and four closing ones: the leftmost mark counts, and what it holds must
not be empty. -/
example : interpolate? none "a\x7b\x7b\x7bb\x7d\x7d\x7b\x7b\x7d\x7d\x7d\x7d" =
    some [.literal "a", .binding "\x7bb", .binding "\x7d", .literal "\x7d"] := by
  decide +kernel

end Expression

end Templating
