import Templating.Markup.Token
import Templating.Proofs.Markup.Spelling

/-!
**Tokens along a text.**

Tokens tile a text when their places lie in order along it, say what is written there, and leave
out nothing but comments, conditional sections, end tags and line feeds.  The relation
`Templating.Markup.Layout` builds such a tiling from left to right, one stretch of text at a time,
and every part of the tiling is read off it by induction.

Main definitions:

* `Templating.Markup.Token.SpelledAs` — what a token says about the text at its place;
* `Templating.Markup.Skipped` — the stretches of text that no token stands for;
* `Templating.Markup.Covered`, `Templating.Markup.Gap` — the bytes in the place of a token, and the
  longest stretches of other bytes;
* `Templating.Markup.Tiles` — the tokens tile a text;
* `Templating.Markup.Layout` — the tokens are laid out along a text that starts at a given byte.

Main results:

* `Templating.Markup.Layout.exists_place`, `Templating.Markup.Layout.pairwise`,
  `Templating.Markup.Layout.exists_parts` — the places of tokens that are laid out, their order, and
  the gaps between them;
* `Templating.Markup.Layout.tiles` — **tokens that are laid out along a text tile it**.
-/

set_option autoImplicit false

namespace Templating.Markup

open Text

/-! ### Tilings -/

/-- What a token says about the text at its place. -/
def Token.SpelledAs (a : List Char) : Token → Prop
  | .text s _ _ => a = s.toList
  | .doctype s _ _ => a = s.toList
  | .comment s _ _ => a = ['<', '!', '-', '-'] ++ s.toList ++ ['-', '-', '>']
  | .startTag .. => True
  | .endTag .. => True

/-- The end of an element. -/
def Token.IsEndTag : Token → Prop
  | .endTag .. => True
  | _ => False

/-- The stretches of text that no token stands for. -/
inductive Skipped (keepComments : Bool) : List Char → Prop
  /-- A comment, when comments are not kept. -/
  | comment (body : List Char) (hkeep : keepComments = false)
      (hfirst : ¬ ['-', '-', '>'] <:+: body) :
      Skipped keepComments (['<', '!', '-', '-'] ++ body ++ ['-', '-', '>'])
  /-- A conditional section. -/
  | conditional (body : List Char) (hfirst : ¬ [']', '>'] <:+: body) :
      Skipped keepComments (['<', '!', '['] ++ body ++ [']', '>'])
  /-- An end tag that ends no element. -/
  | endTag (name tail : List Char) (hname : IsTagName name) (htail : '>' ∉ tail) :
      Skipped keepComments (['<', '/'] ++ name ++ tail ++ ['>'])
  /-- A line feed at the start of an element that drops it. -/
  | lineFeed : Skipped keepComments ['\n']

/-- A byte in the place of a token. -/
def Covered (ts : List Token) (n : Nat) : Prop := ∃ t ∈ ts, t.start ≤ n ∧ n < t.stop

/-- A longest stretch of bytes between `lo` and `hi` that lie in the place of no token. -/
structure Gap (ts : List Token) (lo hi start stop : Nat) : Prop where
  lo_le : lo ≤ start
  lt : start < stop
  le_hi : stop ≤ hi
  bare : ∀ n, start ≤ n → n < stop → ¬ Covered ts n
  left : start = lo ∨ ∃ n, n + 1 = start ∧ Covered ts n
  right : stop = hi ∨ Covered ts stop

/-- The tokens tile a text. -/
structure Tiles (keepComments : Bool) (source : List Char) (ts : List Token) : Prop where
  /-- The place of a token lies in the text and between characters. -/
  inRange : ∀ t ∈ ts, t.start ≤ t.stop ∧ t.stop ≤ bytes source ∧
    IsBoundary source t.start ∧ IsBoundary source t.stop
  /-- Only the end of an element has an empty place. -/
  isEndTag_of_empty : ∀ t ∈ ts, t.start = t.stop → t.IsEndTag
  /-- Places that are not empty come in order, and overlap only when they are the same. -/
  ordered : (ts.filter fun t => t.start < t.stop).Pairwise fun a b =>
    (a.start = b.start ∧ a.stop = b.stop) ∨ a.stop ≤ b.start
  /-- A token says what is written at its place. -/
  spelled : ∀ t ∈ ts, ∃ a, slice? source t.start t.stop = some a ∧ t.SpelledAs a
  /-- What lies between the places is made up of stretches that no token stands for. -/
  skipped : ∀ start stop, Gap ts 0 (bytes source) start stop →
    ∃ parts : List (List Char), slice? source start stop = some parts.flatten ∧
      ∀ p ∈ parts, Skipped keepComments p

/-! ### Tokens laid out along a text -/

/-- The tokens are laid out along a text that starts at byte `offset`. -/
inductive Layout (keepComments : Bool) : (offset : Nat) → List Char → List Token → Prop
  | nil (offset : Nat) : Layout keepComments offset [] []
  /-- An element may end at any place between characters that lies ahead. -/
  | mark {offset : Nat} {ts : List Token} (name : String) (a b : List Char)
      (h : Layout keepComments offset (a ++ b) ts) :
      Layout keepComments offset (a ++ b)
        (.endTag name (offset + bytes a) (offset + bytes a) :: ts)
  /-- A stretch of text is the place of one or more tokens. -/
  | tile {offset : Nat} {a s : List Char} {group ts : List Token} (ha : a ≠ [])
      (hgroup : group ≠ [])
      (hplace : ∀ t ∈ group, t.start = offset ∧ t.stop = offset + bytes a ∧ t.SpelledAs a)
      (h : Layout keepComments (offset + bytes a) s ts) :
      Layout keepComments offset (a ++ s) (group ++ ts)
  /-- A stretch of text is left out. -/
  | skip {offset : Nat} {a s : List Char} {ts : List Token} (ha : Skipped keepComments a)
      (h : Layout keepComments (offset + bytes a) s ts) : Layout keepComments offset (a ++ s) ts

variable {keepComments : Bool} {offset : Nat} {s : List Char} {ts : List Token}

/-- Several elements may end at one place. -/
theorem Layout.marks {a b : List Char} {marks : List Token}
    (hmarks : ∀ t ∈ marks, ∃ name, t = .endTag name (offset + bytes a) (offset + bytes a))
    (h : Layout keepComments offset (a ++ b) ts) :
    Layout keepComments offset (a ++ b) (marks ++ ts) := by
  induction marks with
  | nil => exact h
  | cons t marks ih =>
      obtain ⟨name, rfl⟩ := hmarks t (by simp)
      exact Layout.mark name a b (ih fun t ht => hmarks t (by simp [ht]))

/-- A single token at its place. -/
theorem Layout.tile_one {a : List Char} {t : Token} (ha : a ≠ [])
    (hplace : t.start = offset ∧ t.stop = offset + bytes a ∧ t.SpelledAs a)
    (h : Layout keepComments (offset + bytes a) s ts) :
    Layout keepComments offset (a ++ s) (t :: ts) := by
  have hgroup : ∀ t' ∈ [t], t'.start = offset ∧ t'.stop = offset + bytes a ∧ t'.SpelledAs a := by
    intro t' ht'
    rw [List.mem_singleton.mp ht']
    exact hplace
  exact Layout.tile ha (by simp) hgroup h

/-- The place of a token. -/
theorem Layout.exists_place (h : Layout keepComments offset s ts) :
    ∀ t ∈ ts, ∃ a b c, s = a ++ b ++ c ∧ t.start = offset + bytes a ∧
      t.stop = offset + bytes a + bytes b ∧ (b = [] → t.IsEndTag) ∧ t.SpelledAs b := by
  induction h with
  | nil offset => simp
  | @mark offset ts name a b _ ih =>
      intro t ht
      rcases List.mem_cons.mp ht with rfl | ht
      · exact ⟨a, [], b, by simp, rfl, rfl, fun _ => trivial, trivial⟩
      · exact ih t ht
  | @tile offset a s group ts ha _ hplace _ ih =>
      intro t ht
      rcases List.mem_append.mp ht with ht | ht
      · obtain ⟨hstart, hstop, hspelled⟩ := hplace t ht
        exact ⟨[], a, s, by simp, by simpa using hstart, by simpa using hstop,
          fun hnil => absurd hnil ha, hspelled⟩
      · obtain ⟨x, b, c, rfl, hstart, hstop, hrest⟩ := ih t ht
        exact ⟨a ++ x, b, c, by simp, by rw [hstart, bytes_append]; omega,
          by rw [hstop, bytes_append]; omega, hrest⟩
  | @skip offset a s ts _ _ ih =>
      intro t ht
      obtain ⟨x, b, c, rfl, hstart, hstop, hrest⟩ := ih t ht
      exact ⟨a ++ x, b, c, by simp, by rw [hstart, bytes_append]; omega,
        by rw [hstop, bytes_append]; omega, hrest⟩

/-- No place starts before the text. -/
theorem Layout.le_start (h : Layout keepComments offset s ts) : ∀ t ∈ ts, offset ≤ t.start := by
  intro t ht
  obtain ⟨a, b, c, -, hstart, -⟩ := h.exists_place t ht
  omega

/-- No byte before the text is covered. -/
theorem Layout.le_of_covered (h : Layout keepComments offset s ts) {n : Nat}
    (hn : Covered ts n) : offset ≤ n := by
  obtain ⟨t, ht, hle, -⟩ := hn
  have := h.le_start t ht
  omega

/-- Places that are not empty come in order. -/
theorem Layout.pairwise (h : Layout keepComments offset s ts) :
    (ts.filter fun t => t.start < t.stop).Pairwise fun a b =>
      (a.start = b.start ∧ a.stop = b.stop) ∨ a.stop ≤ b.start := by
  induction h with
  | nil offset => simp
  | mark name a b _ ih => simpa [Token.start, Token.stop] using ih
  | @tile offset a s group ts _ _ hplace hrest ih =>
      rw [List.filter_append, List.pairwise_append]
      refine ⟨?_, ih, ?_⟩
      · -- the tokens of one stretch have the same place
        refine List.pairwise_of_forall_mem_list fun t ht t' ht' => .inl ?_
        obtain ⟨hstart, hstop, -⟩ := hplace t (List.mem_filter.mp ht).1
        obtain ⟨hstart', hstop', -⟩ := hplace t' (List.mem_filter.mp ht').1
        exact ⟨hstart.trans hstart'.symm, hstop.trans hstop'.symm⟩
      · intro t ht t' ht'
        obtain ⟨-, hstop, -⟩ := hplace t (List.mem_filter.mp ht).1
        rw [hstop]
        exact .inr (hrest.le_start t' (List.mem_filter.mp ht').1)
  | skip _ _ ih => exact ih

/-! ### Gaps -/

theorem covered_append {a b : List Token} {n : Nat} :
    Covered (a ++ b) n ↔ Covered a n ∨ Covered b n := by
  simp [Covered, or_and_right, exists_or]

/-- An empty place covers nothing. -/
theorem covered_mark_cons {name : String} {place n : Nat} :
    Covered (.endTag name place place :: ts) n ↔ Covered ts n := by
  constructor
  · rintro ⟨t, ht, hle, hlt⟩
    rcases List.mem_cons.mp ht with rfl | ht
    · simp only [Token.start, Token.stop] at hle hlt
      omega
    · exact ⟨t, ht, hle, hlt⟩
  · rintro ⟨t, ht, hle, hlt⟩
    exact ⟨t, by simp [ht], hle, hlt⟩

/-- The tokens of a stretch cover it and nothing else. -/
theorem covered_group_iff {group : List Token} {stop n : Nat} (hgroup : group ≠ [])
    (hplace : ∀ t ∈ group, t.start = offset ∧ t.stop = stop) :
    Covered group n ↔ offset ≤ n ∧ n < stop := by
  constructor
  · rintro ⟨t, ht, hle, hlt⟩
    obtain ⟨hstart, hstop⟩ := hplace t ht
    omega
  · rintro ⟨hle, hlt⟩
    obtain ⟨t, ht⟩ := List.exists_mem_of_ne_nil group hgroup
    obtain ⟨hstart, hstop⟩ := hplace t ht
    exact ⟨t, ht, by omega, by omega⟩

theorem Gap.mono {ts' : List Token} {lo hi start stop : Nat} (h : Gap ts lo hi start stop)
    (hiff : ∀ n, Covered ts n ↔ Covered ts' n) : Gap ts' lo hi start stop where
  lo_le := h.lo_le
  lt := h.lt
  le_hi := h.le_hi
  bare := fun n hle hlt hn => h.bare n hle hlt ((hiff n).mpr hn)
  left := h.left.imp id fun ⟨n, hn, hc⟩ => ⟨n, hn, (hiff n).mp hc⟩
  right := h.right.imp id (hiff stop).mp

/-- A gap starts after a stretch that is covered from the beginning. -/
theorem Gap.after_group {group : List Token} {lo mid hi start stop : Nat}
    (hcover : ∀ n, Covered group n ↔ lo ≤ n ∧ n < mid) (hmid : lo < mid)
    (h : Gap (group ++ ts) lo hi start stop) : Gap ts mid hi start stop := by
  have hstart : mid ≤ start := by
    by_contra hlt
    exact h.bare start le_rfl h.lt (covered_append.mpr (.inl ((hcover start).mpr
      ⟨h.lo_le, by omega⟩)))
  refine ⟨hstart, h.lt, h.le_hi, ?_, ?_, ?_⟩
  · intro n hle hlt hn
    exact h.bare n hle hlt (covered_append.mpr (.inr hn))
  · rcases h.left with hlo | ⟨n, hn, hc⟩
    · omega
    · rcases covered_append.mp hc with hc | hc
      · have := (hcover n).mp hc
        exact .inl (by omega)
      · exact .inr ⟨n, hn, hc⟩
  · rcases h.right with hhi | hc
    · exact .inl hhi
    · rcases covered_append.mp hc with hc | hc
      · have := (hcover stop).mp hc
        have := h.lt
        omega
      · exact .inr hc

/-- **A gap is made up of stretches that are left out.** -/
theorem Layout.exists_parts (h : Layout keepComments offset s ts) :
    ∀ start stop, Gap ts offset (offset + bytes s) start stop →
      ∃ (a : List Char) (parts : List (List Char)) (c : List Char),
        s = a ++ parts.flatten ++ c ∧ start = offset + bytes a ∧
          stop = start + bytes parts.flatten ∧ ∀ p ∈ parts, Skipped keepComments p := by
  induction h with
  | nil offset =>
      intro start stop hgap
      have := hgap.lo_le
      have := hgap.lt
      have := hgap.le_hi
      simp only [bytes_nil] at this
      omega
  | mark name a b _ ih =>
      intro start stop hgap
      exact ih start stop (hgap.mono fun n => covered_mark_cons)
  | @tile offset a s group ts ha hgroup hplace _ ih =>
      intro start stop hgap
      have hpos : 0 < bytes a := Nat.pos_of_ne_zero fun h => ha (bytes_eq_zero_iff.mp h)
      have hcover : ∀ n, Covered group n ↔ offset ≤ n ∧ n < offset + bytes a := fun n =>
        covered_group_iff hgroup fun t ht => ⟨(hplace t ht).1, (hplace t ht).2.1⟩
      rw [bytes_append, ← Nat.add_assoc] at hgap
      obtain ⟨x, parts, c, rfl, hstart, hstop, hparts⟩ :=
        ih start stop (hgap.after_group hcover (by omega))
      exact ⟨a ++ x, parts, c, by simp, by rw [hstart, bytes_append]; omega, hstop, hparts⟩
  | @skip offset a s ts ha hrest ih =>
      intro start stop hgap
      rw [bytes_append, ← Nat.add_assoc] at hgap
      have hright : offset + bytes a ≤ stop := by
        rcases hgap.right with hhi | hc
        · omega
        · exact hrest.le_of_covered hc
      rcases hgap.left with rfl | ⟨n, hn, hc⟩
      · -- the gap starts with the stretch, and goes on with a gap of the rest or ends here
        rcases Nat.eq_or_lt_of_le hright with rfl | hlt
        · exact ⟨[], [a], s, by simp, by simp, by simp, by simpa using ha⟩
        · have hgap' :
              Gap ts (start + bytes a) (start + bytes a + bytes s) (start + bytes a) stop :=
            ⟨le_rfl, hlt, hgap.le_hi, fun n hle hlt => hgap.bare n (by omega) hlt, .inl rfl,
              hgap.right⟩
          obtain ⟨x, parts, c, rfl, hstart, hstop, hparts⟩ := ih _ _ hgap'
          have hx : x = [] := bytes_eq_zero_iff.mp (by omega)
          subst hx
          refine ⟨[], a :: parts, c, by simp, by simp, ?_, ?_⟩
          · rw [hstop, List.flatten_cons, bytes_append]
            omega
          · intro p hp
            rcases List.mem_cons.mp hp with rfl | hp
            · exact ha
            · exact hparts p hp
      · -- the gap starts after a covered byte, hence in the rest
        have hle := hrest.le_of_covered hc
        have hgap' : Gap ts (offset + bytes a) (offset + bytes a + bytes s) start stop :=
          ⟨by omega, hgap.lt, hgap.le_hi, hgap.bare, .inr ⟨n, hn, hc⟩, hgap.right⟩
        obtain ⟨x, parts, c, rfl, hstart, hstop, hparts⟩ := ih _ _ hgap'
        exact ⟨a ++ x, parts, c, by simp, by rw [hstart, bytes_append]; omega, hstop, hparts⟩

/-- **Tokens that are laid out along a text tile it.** -/
theorem Layout.tiles (h : Layout keepComments 0 s ts) : Tiles keepComments s ts where
  inRange := by
    intro t ht
    obtain ⟨a, b, c, rfl, hstart, hstop, -⟩ := h.exists_place t ht
    refine ⟨by omega, ?_, ⟨a, b ++ c, by simp, by omega⟩, ⟨a ++ b, c, rfl, ?_⟩⟩
    · simp only [bytes_append]
      omega
    · rw [bytes_append]
      omega
  isEndTag_of_empty := by
    intro t ht hempty
    obtain ⟨a, b, c, -, hstart, hstop, hend, -⟩ := h.exists_place t ht
    exact hend (bytes_eq_zero_iff.mp (by omega))
  ordered := h.pairwise
  spelled := by
    intro t ht
    obtain ⟨a, b, c, rfl, hstart, hstop, -, hspelled⟩ := h.exists_place t ht
    exact ⟨b, slice?_eq_some_iff.mpr ⟨a, c, rfl, by omega, by omega⟩, hspelled⟩
  skipped := by
    intro start stop hgap
    obtain ⟨a, parts, c, rfl, hstart, hstop, hparts⟩ :=
      h.exists_parts start stop (by rwa [Nat.zero_add])
    exact ⟨parts, slice?_eq_some_iff.mpr ⟨a, c, rfl, by omega, by omega⟩, hparts⟩

end Templating.Markup
