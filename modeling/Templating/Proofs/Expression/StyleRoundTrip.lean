import Mathlib.Data.List.Basic
import Templating.Expression.Loop
import Templating.Expression.Style

/-!
**Inline styles written out and read back.**

A style is written as declarations with semicolons between them.  A single count of open brackets
runs through all of them, and decides for each semicolon whether it separates.  A declaration that
closes what it opens hands the count on as it was, so that its neighbours do not matter.  The count
has 32 bits and wraps around, which takes a text with 2 ^ 31 brackets.

Main definitions:

* `Templating.Expression.bracketDepth` — how many round brackets a text leaves open;
* `Templating.Expression.declarationText` — a declaration written out;
* `Templating.Expression.IsDeclaration` — a property and a value that can be told from their
  neighbours.

Main results:

* `Templating.Expression.bracketDepth_pos_iff` — in a text of fewer than 2 ^ 31 characters nothing
  wraps around;
* `Templating.Expression.declarations_append` — a text whose semicolons are all in brackets stays
  whole;
* `Templating.Expression.declarations_join` — the declarations of a style are found again;
* `Templating.Expression.styles_join` — **a style that is written out is read back**.
-/

set_option autoImplicit false

namespace Templating.Expression

open Text

/-! ### Open brackets -/

/-- How many round brackets a text leaves open, counted in 32 bits; less than zero when it closes
more than it opens. -/
def bracketDepth (s : List Char) : Int32 := .ofNat (s.count '(') - .ofNat (s.count ')')

@[simp] theorem bracketDepth_nil : bracketDepth [] = 0 := rfl

theorem bracketDepth_cons (c : Char) (s : List Char) :
    bracketDepth (c :: s) =
      (if c = '(' then 1 else if c = ')' then -1 else 0) + bracketDepth s := by
  simp only [bracketDepth, List.count_cons, beq_iff_eq]
  split
  · rename_i hc
    have hne : c ≠ ')' := by rw [hc]; decide
    rw [if_neg hne]
    simp only [Int32.ofNat_add]
    grind
  · split
    · simp only [Int32.ofNat_add]
      grind
    · grind

/-- **A text that is not too long has brackets open where it opened more than it closed.** -/
theorem bracketDepth_pos_iff {s : List Char} (hlength : s.length < 2147483648) :
    0 < bracketDepth s ↔ s.count ')' < s.count '(' := by
  have hopened : s.count '(' ≤ s.length := List.count_le_length
  have hclosed : s.count ')' ≤ s.length := List.count_le_length
  have hdepth : (bracketDepth s).toInt = (s.count '(' : Int) - s.count ')' := by
    rw [bracketDepth, Int32.toInt_sub, Int32.toInt_ofNat_of_lt (by omega),
      Int32.toInt_ofNat_of_lt (by omega)]
    exact Int.bmod_eq_of_le (by omega) (by omega)
  rw [Int32.lt_iff_toInt_lt, hdepth, Int32.toInt_zero]
  omega

/-- At each of its semicolons a text has brackets open, when it is entered with `depth` of them. -/
def SemicolonsEnclosed (depth : Int32) (s : List Char) : Prop :=
  ∀ i < s.length, s[i]? = some ';' → 0 < depth + bracketDepth (s.take i)

theorem SemicolonsEnclosed.head {depth : Int32} {c : Char} {s : List Char}
    (h : SemicolonsEnclosed depth (c :: s)) : ¬(c = ';' ∧ depth ≤ 0) := by
  rintro ⟨rfl, hdepth⟩
  have hopen := h 0 (by simp) rfl
  rw [List.take_zero, bracketDepth_nil, Int32.add_zero] at hopen
  exact Int32.not_lt.mpr hdepth hopen

theorem SemicolonsEnclosed.tail {depth : Int32} {c : Char} {s : List Char}
    (h : SemicolonsEnclosed depth (c :: s)) :
    SemicolonsEnclosed (depth + if c = '(' then 1 else if c = ')' then -1 else 0) s := by
  intro i hi hsemicolon
  have hopen := h (i + 1) (by simpa using hi) (by simpa using hsemicolon)
  rwa [List.take_succ_cons, bracketDepth_cons, ← Int32.add_assoc] at hopen

/-! ### Declarations -/

/-- A character that separates nothing belongs to the declaration behind it. -/
theorem declarations_cons {depth : Int32} {c : Char} {s p : List Char} {ps : List (List Char)}
    (hc : ¬(c = ';' ∧ depth ≤ 0))
    (h : declarations (depth + if c = '(' then 1 else if c = ')' then -1 else 0) s = p :: ps) :
    declarations depth (c :: s) = (c :: p) :: ps := by
  have hdepth : (if c = '(' then depth + 1 else if c = ')' then depth - 1 else depth) =
      depth + if c = '(' then 1 else if c = ')' then -1 else 0 := by
    split
    · rfl
    · split
      · exact Int32.sub_eq_add_neg depth 1
      · exact (Int32.add_zero depth).symm
  simp only [declarations, if_neg hc, hdepth, h]

/-- **A text whose semicolons are all in brackets stays whole**, and what follows it is read with the
brackets that it leaves open. -/
theorem declarations_append {depth : Int32} {s t p : List Char} {ps : List (List Char)}
    (hs : SemicolonsEnclosed depth s)
    (ht : declarations (depth + bracketDepth s) t = p :: ps) :
    declarations depth (s ++ t) = (s ++ p) :: ps := by
  induction s generalizing depth with
  | nil => simpa using ht
  | cons c s ih =>
      rw [bracketDepth_cons, ← Int32.add_assoc] at ht
      exact declarations_cons hs.head (ih hs.tail ht)

/-- The property and the value are what stands before and behind the first colon. -/
theorem declaration?_append {property : List Char} (hproperty : ':' ∉ property)
    (value : List Char) :
    declaration? (property ++ ':' :: value) = some (trimmed property, trimmed value) := by
  have hcolon : ∀ c ∈ property, (c != ':') = true := by
    intro c hc
    exact bne_iff_ne.mpr (ne_of_mem_of_not_mem hc hproperty)
  rw [declaration?, List.dropWhile_append_of_pos hcolon, List.takeWhile_append_of_pos hcolon,
    List.dropWhile_cons_of_neg (by simp), List.takeWhile_cons_of_neg (by simp), List.append_nil]
  rfl

/-! ### Styles -/

/-- A declaration written out. -/
def declarationText (d : String × String) : String := d.1 ++ ":" ++ d.2

/-- **A property and a value that can be told from their neighbours**: there is no colon in the
property, every bracket is closed again, and there are brackets around every semicolon. -/
structure IsDeclaration (d : String × String) : Prop where
  property : ':' ∉ d.1.toList
  closed : bracketDepth (declarationText d).toList = 0
  enclosed : SemicolonsEnclosed 0 (declarationText d).toList

/-- In a declaration that is not too long, brackets can be counted without an end. -/
theorem IsDeclaration.of_counts {d : String × String} (hproperty : ':' ∉ d.1.toList)
    (hlength : (declarationText d).toList.length < 2147483648)
    (hclosed : (declarationText d).toList.count '(' = (declarationText d).toList.count ')')
    (henclosed : ∀ i < (declarationText d).toList.length,
      (declarationText d).toList[i]? = some ';' →
        ((declarationText d).toList.take i).count ')' <
          ((declarationText d).toList.take i).count '(') : IsDeclaration d where
  property := hproperty
  closed := by rw [bracketDepth, hclosed, Int32.sub_self]
  enclosed i hi hsemicolon := by
    have hshort : ((declarationText d).toList.take i).length < 2147483648 :=
      Nat.lt_of_le_of_lt (List.length_take_le' i _) hlength
    rw [Int32.zero_add]
    exact (bracketDepth_pos_iff hshort).mpr (henclosed i hi hsemicolon)

/-- The property and the value that are read. -/
def declared (d : String × String) : String × String := (trimmed d.1.toList, trimmed d.2.toList)

theorem IsDeclaration.declaration? {d : String × String} (h : IsDeclaration d) :
    declaration? (declarationText d).toList = some (declared d) := by
  have htext : (declarationText d).toList = d.1.toList ++ ':' :: d.2.toList := by
    simp [declarationText]
  rw [htext, declaration?_append h.property]
  rfl

/-- **The declarations of a style are found again**, where the text ends behind them or goes on with a
semicolon. -/
theorem declarations_join (first : String × String) (l : List (String × String))
    (h : ∀ d ∈ first :: l, IsDeclaration d) {rest : List Char} {ps : List (List Char)}
    (hrest : declarations 0 rest = [] :: ps) :
    declarations 0 ((join ";" ((first :: l).map declarationText)).toList ++ rest) =
      (first :: l).map (fun d => (declarationText d).toList) ++ ps := by
  induction l generalizing first with
  | nil =>
      have hfirst := h first (by simp)
      have hopen : declarations (0 + bracketDepth (declarationText first).toList) rest = [] :: ps := by
        rw [hfirst.closed]
        exact hrest
      simpa [join] using declarations_append hfirst.enclosed hopen
  | cons next l ih =>
      have hfirst := h first (by simp)
      have hsplit : (join ";" ((first :: next :: l).map declarationText)).toList ++ rest =
          (declarationText first).toList ++
            ';' :: ((join ";" ((next :: l).map declarationText)).toList ++ rest) := by
        simp [join]
      -- nothing is left open in front of the next semicolon, so that it separates
      have hopen : declarations (0 + bracketDepth (declarationText first).toList)
          (';' :: ((join ";" ((next :: l).map declarationText)).toList ++ rest)) =
          [] :: ((next :: l).map (fun d => (declarationText d).toList) ++ ps) := by
        rw [hfirst.closed, declarations, if_pos (by decide),
          ← ih next fun d hd => h d (List.mem_cons_of_mem _ hd)]
        rfl
      rw [hsplit, declarations_append hfirst.enclosed hopen, List.append_nil]
      rfl

/-- The end of a style declares nothing. -/
theorem exists_declarations_ending {ending : String} (hending : ending = "" ∨ ending = ";") :
    ∃ ps, declarations 0 ending.toList = [] :: ps ∧ ps.filterMap declaration? = [] := by
  rcases hending with rfl | rfl
  · exact ⟨[], rfl, rfl⟩
  · exact ⟨[[]], by decide, rfl⟩

/-- The declarations of a style are read from left to right. -/
theorem styles_append {l : List (String × String)} {ending : String}
    (h : ∀ d ∈ l, IsDeclaration d) (hending : ending = "" ∨ ending = ";") :
    styles (join ";" (l.map declarationText) ++ ending) = Dict.ofList (l.map declared) := by
  obtain ⟨ps, hps, hnone⟩ := exists_declarations_ending hending
  rw [styles, String.toList_append]
  cases l with
  | nil =>
      rw [show (join ";" (List.map declarationText [])).toList = [] from rfl, List.nil_append, hps]
      exact congrArg Dict.ofList hnone
  | cons first l =>
      have hread : ((first :: l).map fun d => (declarationText d).toList).filterMap declaration? =
          (first :: l).map declared := by
        rw [List.filterMap_map]
        exact List.filterMap_eq_map_iff_forall_eq_some.mpr fun d hd => (h d hd).declaration?
      rw [declarations_join first l h hps, List.filterMap_append, hnone, List.append_nil, hread]

/-- **A style that is written out is read back**, with or without a semicolon at its end.  A property
that is declared again keeps its first place and takes its last value. -/
theorem styles_join (l : List (String × String)) (css : String) (h : ∀ d ∈ l, IsDeclaration d)
    (hcss : css = join ";" (l.map declarationText) ∨
      css = join ";" (l.map declarationText) ++ ";") :
    styles css = Dict.ofList (l.map declared) ∧
      (styles css).keys = (l.map fun d => (declared d).1).eraseDups ∧
      ∀ property, (styles css).get? property = (l.map declared).reverse.lookup property := by
  have hstyles : styles css = Dict.ofList (l.map declared) := by
    rcases hcss with rfl | rfl
    · have hnone := styles_append h (.inl rfl)
      rwa [String.append_empty] at hnone
    · exact styles_append h (.inr rfl)
  refine ⟨hstyles, ?_, fun property => ?_⟩
  · rw [hstyles, Dict.keys_ofList, List.map_map]
    rfl
  · rw [hstyles, Dict.get?_ofList]

/-- Values with colons and with semicolons in brackets, brackets the other way round, and a property
that is declared twice. -/
theorem styles_join_sample :
    (∀ d ∈ [(" a", "url(data:x;y) "), ("b", ")("), ("a ", "1")], IsDeclaration d) ∧
      (styles " a:url(data:x;y) ;b:)(;a :1;").entries = [("a", "1"), ("b", ")(")] := by
  have h : ∀ d ∈ [(" a", "url(data:x;y) "), ("b", ")("), ("a ", "1")], IsDeclaration d := by
    intro d hd
    simp only [List.mem_cons, List.not_mem_nil, or_false] at hd
    rcases hd with rfl | rfl | rfl
    · exact .of_counts (by decide) (by decide) (by decide) (by decide)
    · exact .of_counts (by decide) (by decide) (by decide) (by decide)
    · exact .of_counts (by decide) (by decide) (by decide) (by decide)
  refine ⟨h, ?_⟩
  have hstyles := (styles_join _ " a:url(data:x;y) ;b:)(;a :1;" h (.inr (by decide))).1
  exact (congrArg Dict.entries hstyles).trans (by decide)

end Templating.Expression
