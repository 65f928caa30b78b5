import Mathlib.Data.List.DropRight
import Mathlib.Data.List.Infix
import Templating.Expression.Loop
import Templating.Proofs.Expression.QuotedLiteral

/-!
**Loops written out and read back.**

A loop is written as an item with up to two iterators in brackets, a keyword, and a source.  Three
steps take it apart again: the first keyword with spaces around it divides the text, the brackets
come off, and the first comma that only iterators follow ends the item.  So the item may hold commas
in brackets of its own, and the source may hold further keywords.

Main definitions:

* `Templating.Expression.HoldsKeyword` — a keyword with spaces around it stands in a text;
* `Templating.Expression.loopNames`, `Templating.Expression.loopText` — a loop written out;
* `Templating.Expression.Readable` — an item and iterators that can be told apart.

Main results:

* `Templating.Expression.exists_of_loopKeyword?` — what the reader of keywords takes off;
* `Templating.Expression.splitLoop?_loopText` — the text is divided behind the names;
* `Templating.Expression.splitIterators?_append` — the item ends at the first comma that only
  iterators follow;
* `Templating.Expression.loop?_loopText` — **a loop that is written out is read back**.
-/

set_option autoImplicit false

namespace Templating.Expression

open Text

/-! ### Keywords -/

/-- The keywords of a loop. -/
def IsLoopKeyword (word : List Char) : Prop := word = ['i', 'n'] ∨ word = ['o', 'f']

/-- A keyword with spaces around it stands somewhere in a text. -/
def HoldsKeyword (s : List Char) : Prop :=
  ∃ a b c d word, s = a ++ c :: (word ++ d :: b) ∧ isSpace c = true ∧ isSpace d = true ∧
    IsLoopKeyword word

/-- **What the reader of keywords takes off**: spaces, a keyword, and all spaces behind it. -/
theorem exists_of_loopKeyword? {s r : List Char} (h : loopKeyword? s = some r) :
    ∃ w v word, s = w ++ (word ++ (v ++ r)) ∧ w ≠ [] ∧ v ≠ [] ∧ w.all isSpace = true ∧
      v.all isSpace = true ∧ IsLoopKeyword word := by
  have hspaces := List.takeWhile_append_dropWhile (p := isSpace) (l := s)
  unfold loopKeyword? at h
  split at h
  · cases h
  · rename_i hbefore
    dsimp only at h
    split at h
    · cases h
    · rename_i t hword
      have hbehind := List.takeWhile_append_dropWhile (p := isSpace) (l := t)
      split at h
      · cases h
      · rename_i hafter
        cases h
        rcases Option.or_eq_some_iff.mp hword with hword | ⟨-, hword⟩
        · exact ⟨_, _, ['i', 'n'], by rw [hbehind, ← strip?_eq_some_iff.mp hword, hspaces], hbefore,
            hafter, List.all_takeWhile, List.all_takeWhile, .inl rfl⟩
        · exact ⟨_, _, ['o', 'f'], by rw [hbehind, ← strip?_eq_some_iff.mp hword, hspaces], hbefore,
            hafter, List.all_takeWhile, List.all_takeWhile, .inr rfl⟩

/-- What is taken off holds a keyword. -/
theorem holdsKeyword_of_spaces {w v word : List Char} (a b : List Char) (hw : w ≠ []) (hv : v ≠ [])
    (hwspaces : w.all isSpace = true) (hvspaces : v.all isSpace = true)
    (hword : IsLoopKeyword word) : HoldsKeyword (a ++ (w ++ (word ++ v) ++ b)) := by
  obtain ⟨d, v, rfl⟩ := List.exists_cons_of_ne_nil hv
  obtain ⟨w, c, rfl⟩ := (List.eq_nil_or_concat' w).resolve_left hw
  refine ⟨a ++ w, v ++ b, c, d, word, by simp, ?_, ?_, hword⟩
  · exact List.all_eq_true.mp hwspaces c (by simp)
  · exact List.all_eq_true.mp hvspaces d (by simp)

/-- No keyword is taken off in the middle of a text without one, when the text ends in a bracket. -/
theorem loopKeyword?_eq_none {a b : List Char} (rest : List Char)
    (h : ¬HoldsKeyword (a ++ (b ++ [')']))) : loopKeyword? (b ++ [')'] ++ rest) = none := by
  rw [Option.eq_none_iff_forall_ne_some]
  intro r hsome
  obtain ⟨w, v, word, htext, hw, hv, hwspaces, hvspaces, hword⟩ := exists_of_loopKeyword? hsome
  have hbracket : ')' ∉ w ++ (word ++ v) := by
    intro hmem
    simp only [List.mem_append] at hmem
    rcases hmem with hmem | hmem | hmem
    · exact absurd (List.all_eq_true.mp hwspaces _ hmem) (by decide)
    · rcases hword with rfl | rfl <;> simp at hmem
    · exact absurd (List.all_eq_true.mp hvspaces _ hmem) (by decide)
  have hprefix : w ++ (word ++ v) <+: b ++ [')'] ++ rest := ⟨r, by rw [htext]; simp⟩
  -- the bracket is behind all that is taken off
  rcases List.prefix_or_prefix_of_prefix hprefix (List.prefix_append _ rest) with
    ⟨t, ht⟩ | hshort
  · rw [← ht] at h
    exact h (holdsKeyword_of_spaces a t hw hv hwspaces hvspaces hword)
  · exact hbracket (hshort.subset (by simp))

/-- A keyword between two spaces is taken off. -/
theorem loopKeyword?_spaces {c d : Char} {word : List Char} (hc : isSpace c = true)
    (hd : isSpace d = true) (hword : IsLoopKeyword word) (rest : List Char) :
    loopKeyword? (c :: (word ++ d :: rest)) = some (rest.dropWhile isSpace) := by
  have hi : isSpace 'i' = false := by decide
  have ho : isSpace 'o' = false := by decide
  rcases hword with rfl | rfl
  · simp [loopKeyword?, hc, hd, hi, strip?]
  · simp [loopKeyword?, hc, hd, ho, strip?]

/-- Whether a text holds a keyword can be checked place by place. -/
theorem not_holdsKeyword_of_tails {s : List Char} (h : ∀ t ∈ s.tails, loopKeyword? t = none) :
    ¬HoldsKeyword s := by
  rintro ⟨a, b, c, d, word, rfl, hc, hd, hword⟩
  have htail := h (c :: (word ++ d :: b)) ((List.mem_tails _ _).mpr (List.suffix_append a _))
  rw [loopKeyword?_spaces hc hd hword] at htail
  cases htail

/-! ### Iterators -/

/-- Every comma of a text has a closing bracket somewhere behind it. -/
def CommasEnclosed (s : List Char) : Prop := ∀ a b, s = a ++ ',' :: b → '\x7d' ∈ b ∨ ']' ∈ b

/-- Iterators are made of their characters and of commas. -/
theorem forall_of_iterators? {s : List Char} {its : List Char × Option (List Char)}
    (h : iterators? s = some its) : ∀ c ∈ s, isIteratorChar c = true ∨ c = ',' := by
  intro c hc
  rw [← List.takeWhile_append_dropWhile (p := isIteratorChar) (l := s), List.mem_append] at hc
  rcases hc with hc | hc
  · exact .inl (List.mem_takeWhile_imp hc)
  · unfold iterators? at h
    split at h
    · rename_i hnil
      rw [hnil] at hc
      cases hc
    · rename_i d r hcons
      split at h
      · rename_i hcomma
        rw [hcons] at hc
        rcases List.mem_cons.mp hc with rfl | hc
        · exact .inr hcomma.1
        · exact .inl (List.all_eq_true.mp hcomma.2 c hc)
      · cases h

/-- A text with a closing bracket is not made of iterators. -/
theorem iterators?_eq_none {s : List Char} (h : '\x7d' ∈ s ∨ ']' ∈ s) : iterators? s = none := by
  rw [Option.eq_none_iff_forall_ne_some]
  intro its hsome
  rcases h with h | h
  · exact absurd (forall_of_iterators? hsome _ h) (by decide)
  · exact absurd (forall_of_iterators? hsome _ h) (by decide)

/-- A comma that is no separator is passed over. -/
theorem splitIterators?_cons_of_enclosed {c : Char} {s t : List Char}
    (h : CommasEnclosed (c :: s)) :
    splitIterators? (c :: (s ++ t)) = (splitIterators? (s ++ t)).map fun p => (c :: p.1, p.2) := by
  have hnone : (if c = ',' then iterators? (s ++ t) else none) = none := by
    split
    · rename_i hc
      refine iterators?_eq_none ((h [] s (by rw [hc]; rfl)).imp ?_ ?_)
      · exact List.mem_append_left t
      · exact List.mem_append_left t
    · rfl
  rw [splitIterators?, hnone]

theorem CommasEnclosed.tail {c : Char} {s : List Char} (h : CommasEnclosed (c :: s)) :
    CommasEnclosed s := fun a b hsplit => h (c :: a) b (by rw [hsplit]; rfl)

/-- **The item ends at the first comma that only iterators follow.** -/
theorem splitIterators?_append {item s : List Char} {its : List Char × Option (List Char)}
    (hitem : CommasEnclosed item) (hits : iterators? s = some its) :
    splitIterators? (item ++ ',' :: s) = some (item, its) := by
  induction item with
  | nil => rw [List.nil_append, splitIterators?, if_pos rfl, hits]
  | cons c item ih =>
      rw [List.cons_append, splitIterators?_cons_of_enclosed hitem, ih hitem.tail]
      rfl

/-- Without such a comma the whole text is the item. -/
theorem splitIterators?_eq_none {item : List Char} (hitem : CommasEnclosed item) :
    splitIterators? item = none := by
  induction item with
  | nil => rfl
  | cons c item ih =>
      have hcons := splitIterators?_cons_of_enclosed (t := []) hitem
      rw [List.append_nil] at hcons
      rw [hcons, ih hitem.tail]
      rfl

/-- One iterator. -/
theorem iterators?_one {i : List Char} (hi : i.all isIteratorChar = true) :
    iterators? i = some (i, none) := by
  have hdrop : i.dropWhile isIteratorChar = [] :=
    List.dropWhile_eq_nil_iff.mpr (List.all_eq_true.mp hi)
  have htake := List.takeWhile_append_dropWhile (p := isIteratorChar) (l := i)
  rw [hdrop, List.append_nil] at htake
  rw [iterators?, hdrop, htake]

/-- Two iterators. -/
theorem iterators?_two {i j : List Char} (hi : i.all isIteratorChar = true)
    (hj : j.all isIteratorChar = true) : iterators? (i ++ ',' :: j) = some (i, some j) := by
  have hcomma : isIteratorChar ',' = false := by decide
  have hdrop : (i ++ ',' :: j).dropWhile isIteratorChar = ',' :: j := by
    rw [List.dropWhile_append_of_pos (List.all_eq_true.mp hi),
      List.dropWhile_cons_of_neg (by simp [hcomma])]
  have htake : (i ++ ',' :: j).takeWhile isIteratorChar = i := by
    rw [List.takeWhile_append_of_pos (List.all_eq_true.mp hi),
      List.takeWhile_cons_of_neg (by simp [hcomma]), List.append_nil]
  rw [iterators?, hdrop, htake]
  exact if_pos ⟨rfl, hj⟩

/-! ### Loops -/

/-- The names of a loop in brackets: the item and the iterators. -/
def loopNames (item : String) (iterators : List String) : String :=
  "(" ++ Text.join ", " (item :: iterators) ++ ")"

/-- A loop written out. -/
def loopText (item : String) (iterators : List String) (keyword source : String) : String :=
  loopNames item iterators ++ " " ++ keyword ++ " " ++ source

/-- An iterator that can be told from the names around it: it is not empty, has no spaces around it
and no commas or closing brackets in it. -/
structure IsIterator (i : String) : Prop where
  ne_empty : i ≠ ""
  trim_eq : trim i.toList = i.toList
  chars : ∀ c ∈ i.toList, c ≠ ',' ∧ c ≠ '\x7d' ∧ c ≠ ']'

/-- **An item and iterators that can be told apart.** -/
structure Readable (item : String) (iterators : List String) : Prop where
  count : iterators.length ≤ 2
  item_trim : trim item.toList = item.toList
  item_commas : CommasEnclosed item.toList
  isIterator : ∀ i ∈ iterators, IsIterator i
  no_keyword : ¬HoldsKeyword (loopNames item iterators).toList

theorem toList_loopNames (item : String) (iterators : List String) :
    (loopNames item iterators).toList =
      '(' :: (Text.join ", " (item :: iterators)).toList ++ [')'] := by
  simp [loopNames]

/-- Brackets around a text keep it from being trimmed. -/
theorem trim_brackets (s : List Char) : trim ('(' :: s ++ [')']) = '(' :: s ++ [')'] := by
  have hopening : isSpace '(' = false := by decide
  have hclosing : isSpace ')' = false := by decide
  have hlast : ('(' :: s ++ [')']).getLast? = some ')' := List.getLast?_concat
  have htrim : trim ([] ++ ('(' :: s ++ [')']) ++ []) = '(' :: s ++ [')'] :=
    trim_append rfl rfl (by simp) (by simp [hopening]) (by rw [hlast]; simp [hclosing])
  rwa [List.nil_append, List.append_nil] at htrim

/-- The brackets come off. -/
theorem stripParens_brackets (s : List Char) : stripParens ('(' :: s ++ [')']) = s := by
  simp [stripParens]

/-- The text of a loop is divided behind the names. -/
theorem splitLoop?_loopText {item keyword : String} {iterators : List String}
    (hkeyword : IsLoopKeyword keyword.toList)
    (hnames : ¬HoldsKeyword (loopNames item iterators).toList) (source : String) :
    splitLoop? (loopText item iterators keyword source).toList =
      some ((loopNames item iterators).toList, source.toList.dropWhile isSpace) := by
  have htext : (loopText item iterators keyword source).toList =
      (loopNames item iterators).toList ++ ' ' :: (keyword.toList ++ ' ' :: source.toList) := by
    simp [loopText]
  rw [htext]
  refine cutWhere?_append ?_ (loopKeyword?_spaces rfl rfl hkeyword source.toList)
  intro a b hsplit hb
  -- what is left of the names still ends in the bracket
  obtain ⟨b, d, rfl⟩ := (List.eq_nil_or_concat' b).resolve_left hb
  have hends := hsplit
  rw [toList_loopNames, ← List.append_assoc] at hends
  obtain rfl := List.singleton_inj.mp (List.append_inj_right' hends rfl)
  rw [hsplit] at hnames
  exact loopKeyword?_eq_none _ hnames

/-- A space in front of a name does not matter. -/
theorem trimmed_space {name : String} (hname : trim name.toList = name.toList) :
    trimmed (' ' :: name.toList) = name := by
  have hspace : isSpace ' ' = true := by decide
  have htrim : trim (' ' :: name.toList) = trim name.toList := by
    rw [trim, trimStart, List.dropWhile_cons_of_pos hspace]
    rfl
  rw [trimmed, htrim, hname, String.ofList_toList]

/-- Neither do the spaces that were taken off with the keyword. -/
theorem trimmed_dropWhile (s : List Char) : trimmed (s.dropWhile isSpace) = trimmed s := by
  rw [trimmed, trim, trimStart, List.dropWhile_idempotent]
  rfl

theorem IsIterator.all_isIteratorChar {i : String} (h : IsIterator i) :
    (' ' :: i.toList).all isIteratorChar = true := by
  have hspace : isIteratorChar ' ' = true := by decide
  rw [List.all_cons, hspace, Bool.true_and, List.all_eq_true]
  intro c hc
  obtain ⟨hcomma, hbrace, hbracket⟩ := h.chars c hc
  simp [isIteratorChar, hcomma, hbrace, hbracket]

/-- **A loop that is written out is read back.** -/
theorem loop?_loopText (item keyword source : String) (iterators : List String)
    (hkeyword : keyword = "in" ∨ keyword = "of") (h : Readable item iterators) :
    loop? (loopText item iterators keyword source) =
      some ⟨trimmed source.toList, item, iterators[0]?, iterators[1]?⟩ := by
  have hword : IsLoopKeyword keyword.toList := by
    rcases hkeyword with rfl | rfl
    · exact .inl rfl
    · exact .inr rfl
  obtain ⟨hcount, htrim, hcommas, hiterators, hnames⟩ := h
  have hitem : trimmed item.toList = item := by rw [trimmed, htrim, String.ofList_toList]
  unfold loop?
  rw [splitLoop?_loopText hword hnames, toList_loopNames]
  simp only [trim_brackets, stripParens_brackets, trimmed_dropWhile]
  rcases iterators with _ | ⟨i, _ | ⟨j, _ | ⟨k, rest⟩⟩⟩
  · rw [show (Text.join ", " [item]).toList = item.toList from rfl,
      splitIterators?_eq_none hcommas]
    simp
  · obtain hi := hiterators i (by simp)
    have hinner : (Text.join ", " [item, i]).toList = item.toList ++ ',' :: ' ' :: i.toList := by
      simp [Text.join]
    rw [hinner, splitIterators?_append hcommas (iterators?_one hi.all_isIteratorChar)]
    simp [hitem, trimmed_space hi.trim_eq]
  · obtain hi := hiterators i (by simp)
    obtain hj := hiterators j (by simp)
    have hinner : (Text.join ", " [item, i, j]).toList =
        item.toList ++ ',' :: (' ' :: i.toList ++ ',' :: ' ' :: j.toList) := by
      simp [Text.join]
    rw [hinner, splitIterators?_append hcommas
      (iterators?_two hi.all_isIteratorChar hj.all_isIteratorChar)]
    simp [hitem, trimmed_space hi.trim_eq, trimmed_space hj.trim_eq, hj.ne_empty]
  · simp at hcount

/-- A loop over items that are taken apart, with both iterators and further keywords. -/
theorem loop?_loopText_destructured :
    Readable "\x7b a, index \x7d" ["i", "of"] ∧
      loop? (loopText "\x7b a, index \x7d" ["i", "of"] "of" " xs in ys of zs ") =
        some ⟨"xs in ys of zs", "\x7b a, index \x7d", some "i", some "of"⟩ := by
  have hreadable : Readable "\x7b a, index \x7d" ["i", "of"] := by
    refine ⟨by decide, by decide +kernel, fun a b hsplit => ?_, fun i hi => ?_,
      not_holdsKeyword_of_tails (by decide +kernel)⟩
    · have hchecked : ∀ t ∈ "\x7b a, index \x7d".toList.tails, t.head? = some ',' →
          '\x7d' ∈ t.tail ∨ ']' ∈ t.tail := by decide +kernel
      exact hchecked (',' :: b) ((List.mem_tails _ _).mpr ⟨a, hsplit.symm⟩) rfl
    · rcases List.mem_cons.mp hi with rfl | hi
      · refine ⟨by decide, by decide +kernel, fun c hc => ?_⟩
        obtain rfl : c = 'i' := by simpa using hc
        decide
      · obtain rfl := List.mem_singleton.mp hi
        refine ⟨by decide, by decide +kernel, fun c hc => ?_⟩
        obtain rfl | rfl : c = 'o' ∨ c = 'f' := by simpa using hc
        · decide
        · decide
  exact ⟨hreadable, loop?_loopText _ "of" " xs in ys of zs " _ (.inr rfl) hreadable⟩

end Templating.Expression
