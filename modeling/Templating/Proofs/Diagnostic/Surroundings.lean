import Mathlib.Data.List.Infix
import Mathlib.Order.Bounds.Basic
import Templating.Diagnostic
import Templating.Proofs.Markup.Spelling

/-!
**The text around a place.**

The place of a diagnostic is a byte position, and the text that is shown with it need not be the one
that the position came from.  So the position may lie behind the end, or inside a character.  It is
moved back to a boundary between characters, and on both sides of it as much text is shown as fits.

Main definitions:

* `Templating.Text.isBoundary`, `Templating.Text.floorBoundary?` — looking for a boundary downwards,
  one byte at a time;
* `Templating.Text.IsLongest` — the longest of the texts with a property;
* `Templating.Fits` — a text with few enough characters and line feeds;
* `Templating.Surrounds` — what stands before and after a place, as far as it fits;
* `Templating.cautiousSurroundings?`, `Templating.Diagnostic.cautiousInContext?` — the same by steps
  that can each fail.

Main results:

* `Templating.Text.isGreatest_splitAtByte` — a text is split at the last boundary up to a position;
* `Templating.isLongest_window` — a window is the longest prefix that fits;
* `Templating.surroundings?_longest` — **the surroundings of a place are as long as they may be**, and
  no step on the way to them fails.
-/

set_option autoImplicit false

namespace Templating

/-! ### Boundaries -/

namespace Text

/-- A beginning that ends up to a position is in front of the split. -/
theorem prefix_splitAtByte {a s : List Char} {n : Nat} (hstart : a <+: s) (hle : bytes a ≤ n) :
    a <+: (splitAtByte n s).1 := by
  induction s generalizing a n with
  | nil => exact hstart
  | cons c s ih =>
      rcases List.prefix_cons_iff.mp hstart with rfl | ⟨a, rfl, ha⟩
      · exact List.nil_prefix
      · rw [bytes_cons] at hle
        rw [splitAtByte, if_pos (by omega)]
        exact List.cons_prefix_cons.mpr ⟨rfl, ih ha (by omega)⟩

/-- No boundary lies behind the end. -/
theorem IsBoundary.le_bytes {s : List Char} {n : Nat} (h : IsBoundary s n) : n ≤ bytes s := by
  obtain ⟨a, b, rfl, rfl⟩ := h
  rw [bytes_append]
  omega

/-- **A text is split at the last boundary up to a position**, which counts as the end when it lies
behind it. -/
theorem isGreatest_splitAtByte (s : List Char) (n : Nat) :
    IsGreatest {m | IsBoundary s m ∧ m ≤ min n (bytes s)} (bytes (splitAtByte n s).1) := by
  have hboundary : IsBoundary s (bytes (splitAtByte n s).1) :=
    ⟨_, _, (splitAtByte_append n s).symm, rfl⟩
  refine ⟨⟨hboundary, le_min (bytes_splitAtByte_le n s) hboundary.le_bytes⟩, ?_⟩
  rintro m ⟨⟨a, b, rfl, rfl⟩, hle⟩
  obtain ⟨t, ht⟩ := prefix_splitAtByte (List.prefix_append a b) (hle.trans (min_le_left n _))
  rw [← ht, bytes_append]
  omega

/-- Whether a byte position is a boundary. -/
def isBoundary : List Char → Nat → Bool
  | _, 0 => true
  | [], _ + 1 => false
  | c :: s, n + 1 => decide (c.utf8Size ≤ n + 1) && isBoundary s (n + 1 - c.utf8Size)

theorem isBoundary_iff {s : List Char} {n : Nat} : isBoundary s n = true ↔ IsBoundary s n := by
  fun_induction isBoundary s n with
  | case1 s => exact ⟨fun _ => ⟨[], s, rfl, rfl⟩, fun _ => rfl⟩
  | case2 n =>
      refine ⟨fun h => absurd h Bool.false_ne_true, fun h => ?_⟩
      have hle := h.le_bytes
      rw [bytes_nil] at hle
      omega
  | case3 c s n ih =>
      rw [Bool.and_eq_true, decide_eq_true_eq, ih]
      constructor
      · rintro ⟨hle, a, b, rfl, ha⟩
        exact ⟨c :: a, b, rfl, by rw [bytes_cons]; omega⟩
      · rintro ⟨a, b, hsplit, ha⟩
        cases a with
        | nil => cases ha
        | cons d a =>
            obtain ⟨rfl, rfl⟩ := List.cons.inj hsplit
            rw [bytes_cons] at ha
            exact ⟨by omega, a, b, rfl, by omega⟩

/-- The last boundary up to a position, looked for downwards; there is no position before the
first. -/
def floorBoundary? (s : List Char) : Nat → Option Nat
  | 0 => if isBoundary s 0 then some 0 else none
  | n + 1 => if isBoundary s (n + 1) then some (n + 1) else floorBoundary? s n

/-- **The last boundary is found**, before the positions run out. -/
theorem floorBoundary?_eq {s : List Char} {n o : Nat}
    (h : IsGreatest {m | IsBoundary s m ∧ m ≤ n} o) : floorBoundary? s n = some o := by
  obtain ⟨⟨hboundary, hle⟩, hgreatest⟩ := h
  induction n with
  | zero =>
      obtain rfl := Nat.le_zero.mp hle
      rw [floorBoundary?, if_pos (isBoundary_iff.mpr hboundary)]
  | succ n ih =>
      rw [floorBoundary?]
      split
      · rename_i hlast
        have hlast : n + 1 ≤ o := hgreatest ⟨isBoundary_iff.mp hlast, le_rfl⟩
        rw [le_antisymm hle hlast]
      · rename_i hlast
        -- so the boundary is further down, and is still the last one there
        have hne : o ≠ n + 1 := by
          rintro rfl
          exact hlast (isBoundary_iff.mpr hboundary)
        exact ih (fun m hm => hgreatest ⟨hm.1, Nat.le_succ_of_le hm.2⟩) (by omega)

/-- The longest of the texts with a property. -/
structure IsLongest (P : List Char → Prop) (s : List Char) : Prop where
  holds : P s
  longest : ∀ t, P t → t.length ≤ s.length

end Text

open Text

/-! ### Windows -/

/-- A text of at most `chars` characters with fewer than `lines` line feeds. -/
def Fits (chars lines : Nat) (s : List Char) : Prop := s.length ≤ chars ∧ s.count '\n' < lines

theorem fits_reverse {chars lines : Nat} {s : List Char} :
    Fits chars lines s.reverse ↔ Fits chars lines s := by
  rw [Fits, Fits, List.length_reverse, List.count_reverse]

theorem fits_cons_newline {chars lines : Nat} {s : List Char} (hlines : 1 ≤ lines) :
    Fits (chars + 1) lines ('\n' :: s) ↔ Fits chars (lines - 1) s := by
  rw [Fits, Fits, List.length_cons, List.count_cons_self]
  omega

theorem fits_cons {chars lines : Nat} {c : Char} {s : List Char} (hc : c ≠ '\n') :
    Fits (chars + 1) lines (c :: s) ↔ Fits chars lines s := by
  rw [Fits, Fits, List.length_cons, List.count_cons_of_ne hc]
  omega

/-- With a character in front of it, the longest prefix that fits is longer by that character. -/
theorem isLongest_cons {P Q : List Char → Prop} {c : Char} {s w : List Char}
    (h : IsLongest (fun t => t <+: s ∧ Q t) w) (hcons : ∀ t, P (c :: t) ↔ Q t) :
    IsLongest (fun t => t <+: c :: s ∧ P t) (c :: w) := by
  obtain ⟨⟨hstart, hw⟩, hlongest⟩ := h
  refine ⟨⟨List.cons_prefix_cons.mpr ⟨rfl, hstart⟩, (hcons w).mpr hw⟩, ?_⟩
  rintro t ⟨ht, hfits⟩
  rcases List.prefix_cons_iff.mp ht with rfl | ⟨t, rfl, htail⟩
  · exact Nat.zero_le _
  · exact Nat.succ_le_succ (hlongest t ⟨htail, (hcons t).mp hfits⟩)

/-- Where nothing more fits, the longest prefix is empty. -/
theorem isLongest_nil {chars lines : Nat} {s : List Char} (hlines : 1 ≤ lines)
    (h : ∀ t, t <+: s → Fits chars lines t → t.length = 0) :
    IsLongest (fun t => t <+: s ∧ Fits chars lines t) [] :=
  ⟨⟨⟨s, rfl⟩, Nat.zero_le chars, hlines⟩, fun t ht => (h t ht.1 ht.2).le⟩

/-- **A window is the longest prefix that fits.** -/
theorem isLongest_window (chars : Nat) {lines : Nat} (s : List Char) (hlines : 1 ≤ lines) :
    IsLongest (fun t => t <+: s ∧ Fits chars lines t) (window chars lines s) := by
  fun_induction window chars lines s with
  | case1 lines s => exact isLongest_nil hlines fun t _ hfits => Nat.le_zero.mp hfits.1
  | case2 n lines => exact isLongest_nil hlines fun t ht _ => Nat.le_zero.mp ht.length_le
  | case3 n lines s hlast =>
      refine isLongest_nil hlines fun t ht hfits => ?_
      rcases List.prefix_cons_iff.mp ht with rfl | ⟨t, rfl, -⟩
      · rfl
      · -- this line feed would be one too many
        have hfeeds := ((fits_cons_newline hlines).mp hfits).2
        omega
  | case4 n lines s hmore ih =>
      exact isLongest_cons (ih (by omega)) fun t => fits_cons_newline hlines
  | case5 n lines c s hc ih =>
      exact isLongest_cons (ih hlines) fun t => fits_cons hc

/-- From the other end a window is the longest suffix that fits. -/
theorem isLongest_reverse_window (chars : Nat) {lines : Nat} (s : List Char) (hlines : 1 ≤ lines) :
    IsLongest (fun t => t <:+ s ∧ Fits chars lines t) (window chars lines s.reverse).reverse := by
  obtain ⟨⟨hstart, hfits⟩, hlongest⟩ := isLongest_window chars s.reverse hlines
  refine ⟨⟨?_, fits_reverse.mpr hfits⟩, fun t ht => ?_⟩
  · rw [← List.reverse_prefix, List.reverse_reverse]
    exact hstart
  · have hle := hlongest t.reverse ⟨List.reverse_prefix.mpr ht.1, fits_reverse.mpr ht.2⟩
    rwa [List.length_reverse] at hle ⊢

/-! ### Surroundings -/

/-- **What stands before and after a place**: a text is cut at the last boundary up to the place, and
on each side of the cut the longest part next to it is taken that fits. -/
def Surrounds (source : List Char) (offset chars lines : Nat) (before after : List Char) : Prop :=
  ∃ o front back,
    IsGreatest {n | IsBoundary source n ∧ n ≤ min offset (bytes source)} o ∧
      slice? source 0 o = some front ∧ slice? source o (bytes source) = some back ∧
      IsLongest (fun s => s <:+ front ∧ Fits chars lines s) before ∧
      IsLongest (fun s => s <+: back ∧ Fits chars lines s) after

/-- The surroundings of a place by steps that can each fail: the boundary is looked for byte by byte,
and the text is cut there. -/
def cautiousSurroundings? (source : List Char) (offset chars lines : Nat) :
    Option (List Char × List Char) := do
  let o ← floorBoundary? source (min offset (bytes source))
  let front ← slice? source 0 o
  let back ← slice? source o (bytes source)
  some ((window chars lines front.reverse).reverse, window chars lines back)

/-- The message in its context, by steps that can each fail. -/
def Diagnostic.cautiousInContext? (d : Diagnostic) (source : String) : Option String :=
  d.span.elim (some d.message) fun span =>
    if source = "" then some d.message
    else do
      let p ← cautiousSurroundings? source.toList span.start 100 3
      some (d.message ++ " (\"" ++ String.ofList p.1 ++ "[WARNING ->]" ++ String.ofList p.2 ++ "\")")

/-- The two sides of a split are slices. -/
theorem slice?_splitAtByte (s : List Char) (n : Nat) :
    slice? s 0 (bytes (splitAtByte n s).1) = some (splitAtByte n s).1 ∧
      slice? s (bytes (splitAtByte n s).1) (bytes s) = some (splitAtByte n s).2 := by
  have happend := splitAtByte_append n s
  have hbytes : bytes (splitAtByte n s).1 + bytes (splitAtByte n s).2 = bytes s := by
    rw [← bytes_append, happend]
  refine ⟨slice?_eq_some_iff.mpr ⟨[], (splitAtByte n s).2, ?_, rfl, ?_⟩,
    slice?_eq_some_iff.mpr ⟨(splitAtByte n s).1, [], ?_, rfl, hbytes⟩⟩
  · rw [List.nil_append, happend]
  · rw [bytes_nil, Nat.zero_add]
  · rw [List.append_nil, happend]

/-- No step on the way to the surroundings fails. -/
theorem cautiousSurroundings?_eq {source : List Char} (hsource : source ≠ [])
    (offset chars lines : Nat) :
    cautiousSurroundings? source offset chars lines = surroundings? source offset chars lines := by
  obtain ⟨hfront, hback⟩ := slice?_splitAtByte source offset
  rw [cautiousSurroundings?, floorBoundary?_eq (isGreatest_splitAtByte source offset),
    surroundings?, if_neg hsource]
  simp only [Option.bind_eq_bind, Option.bind_some, hfront, hback]

/-- Nor does one on the way to a message. -/
theorem Diagnostic.cautiousInContext?_eq (d : Diagnostic) (source : String) :
    d.cautiousInContext? source = some (d.inContext source) := by
  unfold cautiousInContext? inContext
  cases d.span with
  | none => rfl
  | some span =>
      rw [Option.elim_some]
      split
      · rename_i hempty
        subst hempty
        rfl
      · rename_i hne
        have hsource : source.toList ≠ [] := by simpa using hne
        rw [cautiousSurroundings?_eq hsource]
        simp only [surroundings?, if_neg hsource, Option.bind_eq_bind, Option.bind_some]

/-- **The surroundings of a place are as long as they may be**, wherever the place lies; and a
message can be put into the context of any text, whatever its place. -/
theorem surroundings?_longest :
    (∀ (source : List Char) (offset chars lines : Nat), source ≠ [] → 1 ≤ lines →
      ∃ before after, surroundings? source offset chars lines = some (before, after) ∧
        Surrounds source offset chars lines before after) ∧
      ∀ (d : Diagnostic) (source : String),
        d.cautiousInContext? source = some (d.inContext source) := by
  refine ⟨fun source offset chars lines hsource hlines => ?_, Diagnostic.cautiousInContext?_eq⟩
  obtain ⟨hfront, hback⟩ := slice?_splitAtByte source offset
  refine ⟨_, _, by rw [surroundings?, if_neg hsource], _, _, _,
    isGreatest_splitAtByte source offset, hfront, hback, ?_, ?_⟩
  · exact isLongest_reverse_window chars _ hlines
  · exact isLongest_window chars _ hlines

/-- A place inside a character, with a line feed too many behind it. -/
theorem surroundings?_longest_inside :
    surroundings? "aé\nb".toList 2 5 1 = some (['a'], ['é']) ∧
      Surrounds "aé\nb".toList 2 5 1 ['a'] ['é'] := by
  have hsome : surroundings? "aé\nb".toList 2 5 1 = some (['a'], ['é']) := by decide
  obtain ⟨before, after, heq, h⟩ := surroundings?_longest.1 "aé\nb".toList 2 5 1 (by decide) le_rfl
  rw [hsome] at heq
  cases heq
  exact ⟨hsome, h⟩

end Templating
