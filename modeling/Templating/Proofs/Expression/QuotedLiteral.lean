import Mathlib.Data.List.TakeWhile
import Templating.Proofs.Expression.FilterChain
import Templating.Text.Word

/-!
**Quoted literals in front of a filter.**

Between its marks a literal may hold anything: bars, brackets, slashes, and its own mark behind a
backslash.  The scanner stays in the literal up to the closing mark.  Whether a mark closes is told
from the character before it alone, so a backslash that is itself escaped still counts as one that
escapes: a literal that ends with such a backslash is never closed, and the filters behind it are
taken for a part of it.

Main definitions:

* `Templating.Expression.isLiteralBody` — what may stand between two marks;
* `Templating.Expression.quoted` — a literal with its marks.

Main results:

* `Templating.Expression.Scanner.read_append` — reading a text part by part;
* `Templating.Expression.Scanner.Inside.stays_of_isLiteralBody` — **the scanner stays inside a
  literal**;
* `Templating.Expression.Scanner.read_quoted` — the scanner behind the closing mark;
* `Templating.Expression.filterCode_quoted` — a literal with a filter;
* `Templating.Expression.exists_unclosed_literal` — a literal that is not closed.
-/

set_option autoImplicit false

namespace Templating

/-! ### Trimming, and names -/

namespace Text

theorem dropWhile_isSpace_append {a s : List Char} (ha : a.all isSpace = true)
    (hs : ∀ c ∈ s.head?, isSpace c = false) : (a ++ s).dropWhile isSpace = s := by
  induction a with
  | nil =>
      cases s with
      | nil => rfl
      | cons c s => simp [hs c rfl]
  | cons c a ih =>
      obtain ⟨hc, ha⟩ := (Bool.and_eq_true _ _).mp ha
      rw [List.cons_append, List.dropWhile_cons_of_pos hc, ih ha]

/-- Trimming takes off the spaces around a text that neither starts nor ends with one. -/
theorem trim_append {a s b : List Char} (ha : a.all isSpace = true) (hb : b.all isSpace = true)
    (hne : s ≠ []) (hhead : ∀ c ∈ s.head?, isSpace c = false)
    (hlast : ∀ c ∈ s.getLast?, isSpace c = false) : trim (a ++ s ++ b) = s := by
  have hstart : trimStart (a ++ s ++ b) = s ++ b := by
    rw [trimStart, List.append_assoc]
    refine dropWhile_isSpace_append ha ?_
    rwa [List.head?_append, Option.or_of_isSome (by simpa using hne)]
  rw [trim, hstart, trimEnd, List.reverse_append, dropWhile_isSpace_append, List.reverse_reverse]
  · rwa [List.all_reverse]
  · rwa [List.head?_reverse]

/-- No space is part of a name. -/
theorem isSpace_eq_false_of_isIdentifierChar {c : Char} (h : isIdentifierChar c = true) :
    isSpace c = false := by
  have hspaces : ∀ n ∈ [0x0009, 0x000A, 0x000B, 0x000C, 0x000D, 0x0020, 0x0085, 0x00A0, 0x1680,
      0x2000, 0x2001, 0x2002, 0x2003, 0x2004, 0x2005, 0x2006, 0x2007, 0x2008, 0x2009, 0x200A,
      0x2028, 0x2029, 0x202F, 0x205F, 0x3000], isIdentifierChar (Char.ofNat n) = false := by
    decide +kernel
  rw [Bool.eq_false_iff]
  intro hspace
  have hmem := hspaces c.toNat (by
    simp only [isSpace, Bool.or_eq_true, Bool.and_eq_true, decide_eq_true_eq, beq_iff_eq] at hspace
    simp only [List.mem_cons, List.not_mem_nil, or_false]
    omega)
  rw [Char.ofNat_toNat, h] at hmem
  cases hmem

end Text

namespace Expression

open Text

/-! ### Literals -/

/-- What may stand between two marks `q`: every backslash escapes the character behind it, and `q`
occurs only escaped. -/
def isLiteralBody (q : Char) : List Char → Bool
  | [] => true
  | '\\' :: _ :: s => isLiteralBody q s
  | c :: s => c ≠ '\\' && c ≠ q && isLiteralBody q s

/-- A literal with its marks. -/
def quoted (q : Char) (body : String) : String := String.singleton q ++ body ++ String.singleton q

theorem toList_quoted (q : Char) (body : String) :
    (quoted q body).toList = q :: (body.toList ++ [q]) := by
  simp [quoted]

/-- The literal that a mark starts ends with the same mark. -/
theorem terminator?_next {q : Char} (hq : isQuotationMark q = true) (prev : Option Char)
    (regexAllowed : Bool) : (Context.code.next q prev regexAllowed).terminator? = some q := by
  simp only [isQuotationMark, Bool.or_eq_true, beq_iff_eq] at hq
  rcases hq with (rfl | rfl) | rfl <;> rfl

theorem ne_backslash_of_isQuotationMark {q : Char} (hq : isQuotationMark q = true) : q ≠ '\\' := by
  rintro rfl
  cases hq

/-! ### Inside a literal -/

namespace Scanner

variable {st st' : Scanner} {q c : Char} {s rest : List Char}

/-- A bar that does not separate does not do so either when more follows. -/
theorem separates_append (h : st.separates c s = false) (rest : List Char) :
    st.separates c (s ++ rest) = false := by
  rw [Bool.eq_false_iff] at h ⊢
  intro htrue
  obtain ⟨hc, hnext, hbefore⟩ := separates_eq_true_iff.mp htrue
  refine h (separates_eq_true_iff.mpr ⟨hc, ?_, hbefore⟩)
  cases s with
  | nil => simp
  | cons d s => exact hnext

/-- **Reading a text part by part.** -/
theorem read_append (h : st.read s = some st') (rest : List Char) :
    st.read (s ++ rest) = st'.read rest := by
  induction s generalizing st with
  | nil =>
      cases h
      rfl
  | cons c s ih =>
      obtain ⟨hsep, hread⟩ := read_cons h
      rw [List.cons_append, read, if_neg (by simp [separates_append hsep rest]), ih hread]

/-- The scanner is inside a literal with the marks `q`. -/
def Inside (st : Scanner) (q : Char) : Prop := st.context.terminator? = some q

theorem Inside.ne_code (h : st.Inside q) : st.context ≠ .code := by
  intro hcode
  rw [Inside, hcode] at h
  cases h

theorem Inside.separates (h : st.Inside q) (c : Char) (rest : List Char) :
    st.separates c rest = false := by
  simp [Scanner.separates, h.ne_code]

/-- A character that is not the mark, or that stands behind a backslash, does not end a literal. -/
theorem Inside.step (h : st.Inside q) (hc : c = q → st.prev = some '\\') :
    (st.step c).context = st.context ∧ (st.step c).nesting = st.nesting := by
  have hstays : ¬(st.context.terminator? = some c ∧ st.prev ≠ some '\\') := by
    rintro ⟨hterminator, hprev⟩
    rw [h] at hterminator
    exact hprev (hc (Option.some.inj hterminator).symm)
  simp only [Scanner.step, Context.next, if_neg h.ne_code, if_neg hstays, and_self]

/-- Reading one character inside a literal. -/
theorem Inside.read_cons (h : st.Inside q) (c : Char) (s : List Char) :
    st.read (c :: s) = (st.step c).read s := by
  rw [Scanner.read, if_neg (by simp [h.separates c s])]

/-- Reading a text changes neither the context nor the brackets that are open. -/
def Stays (st : Scanner) (s : List Char) : Prop :=
  ∃ st', st.read s = some st' ∧ st'.context = st.context ∧ st'.nesting = st.nesting

theorem Inside.stays_cons (h : st.Inside q) (hc : c = q → st.prev = some '\\')
    (hrest : (st.step c).Inside q → (st.step c).Stays s) : st.Stays (c :: s) := by
  obtain ⟨hcontext, hnesting⟩ := h.step hc
  have hinside : (st.step c).Inside q := by
    rw [Inside, hcontext]
    exact h
  obtain ⟨st', hread, hcontext', hnesting'⟩ := hrest hinside
  exact ⟨st', (h.read_cons c s).trans hread, hcontext'.trans hcontext, hnesting'.trans hnesting⟩

/-- Text without the mark does not end a literal. -/
theorem Inside.stays_of_not_mem (h : st.Inside q) (hs : q ∉ s) : st.Stays s := by
  induction s generalizing st with
  | nil => exact ⟨st, rfl, rfl, rfl⟩
  | cons c s ih =>
      obtain ⟨hc, hs⟩ := not_or.mp (mt List.mem_cons.mpr hs)
      exact h.stays_cons (fun heq => absurd heq.symm hc) fun hinside => ih hinside hs

/-- **The scanner stays inside a literal** as long as every backslash escapes a character and the
mark occurs only escaped, whatever else is there. -/
theorem Inside.stays_of_isLiteralBody (h : st.Inside q) (hq : q ≠ '\\')
    (hs : isLiteralBody q s = true) : st.Stays s := by
  induction s using isLiteralBody.induct generalizing st with
  | case1 => exact ⟨st, rfl, rfl, rfl⟩
  | case2 c s ih =>
      refine h.stays_cons (fun heq => absurd heq.symm hq) fun hinside => ?_
      -- the character behind the backslash is escaped, whichever it is
      exact hinside.stays_cons (fun _ => rfl) fun hinside' => ih hinside' hs
  | case3 c s _ ih =>
      simp only [isLiteralBody, Bool.and_eq_true, decide_eq_true_eq] at hs
      exact h.stays_cons (fun heq => absurd heq hs.1.2) fun hinside => ih hinside hs.2

/-- **The scanner behind the closing mark** is in code again, unless a backslash stands before that
mark. -/
theorem read_quoted (hq : isQuotationMark q = true) {body : String}
    (hbody : isLiteralBody q body.toList = true) :
    ∃ st : Scanner, ({} : Scanner).read (quoted q body).toList = some st ∧
      st.nesting.isClosed = true ∧ st.context =
        if body.toList.getLast? = some '\\' then Context.code.next q none false else .code := by
  have hmark := ne_backslash_of_isQuotationMark hq
  have hbar : q ≠ '|' := by
    rintro rfl
    cases hq
  have hslash : q ≠ '/' := by
    rintro rfl
    cases hq
  -- the opening mark
  have hopen : ({} : Scanner).read [q] = some (({} : Scanner).step q) := by
    have hsep : ({} : Scanner).separates q [] = false := by simp [Scanner.separates, hbar]
    rw [read, if_neg (by simp [hsep])]
    rfl
  have hcontext : (({} : Scanner).step q).context = Context.code.next q none false := by
    simp only [Scanner.step, hslash, decide_false, Bool.false_and]
  have hinside : (({} : Scanner).step q).Inside q := by
    rw [Inside, hcontext]
    exact terminator?_next hq none false
  have hclosed : (({} : Scanner).step q).nesting.isClosed = true := by
    simp only [isQuotationMark, Bool.or_eq_true, beq_iff_eq] at hq
    rcases hq with (rfl | rfl) | rfl <;> rfl
  -- what is between the marks
  obtain ⟨st, hread, hsame, hnesting⟩ := hinside.stays_of_isLiteralBody hmark hbody
  have hprev : st.prev = some '\\' ↔ body.toList.getLast? = some '\\' := by
    cases hempty : body.toList with
    | nil =>
        rw [hempty] at hread
        cases hread
        simp [Scanner.step, Scanner.remember, hmark]
    | cons c s =>
        rw [hempty] at hread
        rw [prev_of_read hread (List.cons_ne_nil c s)]
  have hst : st.Inside q := by
    rw [Inside, hsame]
    exact hinside
  refine ⟨st.step q, ?_, ?_, ?_⟩
  · have hclose : st.read [q] = some (st.step q) := hst.read_cons q []
    rw [toList_quoted, ← List.singleton_append, read_append hopen, read_append hread, hclose]
  · rw [← hclosed, ← hnesting]
    simp only [Scanner.step, if_neg hst.ne_code]
  · split
    · rename_i hlast
      rw [(hst.step fun _ => hprev.mpr hlast).1, hsame, hcontext]
    · rename_i hlast
      have hcloses : st.context.terminator? = some q ∧ st.prev ≠ some '\\' :=
        ⟨hst, fun h => hlast (hprev.mp h)⟩
      simp only [Scanner.step, Context.next, if_neg hst.ne_code, if_pos hcloses]

end Scanner

/-! ### A literal with a filter -/

/-- A text without a bar is not cut. -/
theorem segments_of_not_mem {s : List Char} (h : '|' ∉ s) (st : Scanner) : segments st s = [s] := by
  induction s generalizing st with
  | nil => rfl
  | cons c s ih =>
      obtain ⟨hc, hs⟩ := not_or.mp (mt List.mem_cons.mpr h)
      have hsep : st.separates c s = false := by simp [Scanner.separates, Ne.symm hc]
      simp [segments, hsep, ih hs]

/-- A filter without arguments is called with the expression alone. -/
theorem applyFilter_of_not_mem {name : List Char} (h : '(' ∉ name) (exp : List Char) :
    applyFilter exp name = "_f(\"".toList ++ name ++ "\")(".toList ++ exp ++ [')'] := by
  have hall : ∀ c ∈ name, (c != '(') = true := by
    intro c hc
    rw [bne_iff_ne]
    rintro rfl
    exact h hc
  simp [applyFilter, List.takeWhile_eq_self_iff.mpr hall, List.dropWhile_eq_nil_iff.mpr hall]

section Filtered

variable {q : Char} {body name : String}

theorem not_mem_of_all_isIdentifierChar (hname : name.toList.all isIdentifierChar = true) {c : Char}
    (hc : isIdentifierChar c = false) : c ∉ name.toList := by
  intro hmem
  rw [List.all_eq_true.mp hname c hmem] at hc
  cases hc

/-- Of a name behind a bar, only the space in front of it is trimmed. -/
theorem trim_name (hname : name.toList.all isIdentifierChar = true) :
    trim (' ' :: name.toList) = name.toList := by
  have hspace : ∀ c ∈ name.toList, isSpace c = false := fun c hc =>
    isSpace_eq_false_of_isIdentifierChar (List.all_eq_true.mp hname c hc)
  cases hempty : name.toList with
  | nil => decide
  | cons c s =>
      rw [hempty] at hspace
      have htrim := trim_append (a := [' ']) (s := c :: s) (b := []) (by decide) rfl (by simp)
        (fun d hd => hspace d (List.mem_of_head? hd)) fun d hd =>
          hspace d (List.mem_of_getLast? hd)
      rwa [List.append_nil] at htrim

theorem isSpace_eq_false_of_isQuotationMark (hq : isQuotationMark q = true) :
    isSpace q = false := by
  simp only [isQuotationMark, Bool.or_eq_true, beq_iff_eq] at hq
  rcases hq with (rfl | rfl) | rfl <;> decide

theorem trim_quoted (hq : isQuotationMark q = true) :
    trim ((quoted q body).toList ++ [' ']) = (quoted q body).toList := by
  have hspace := isSpace_eq_false_of_isQuotationMark hq
  have htrim := trim_append (a := []) (s := (quoted q body).toList) (b := [' ']) rfl (by decide)
    (by simp [toList_quoted]) (by simp [toList_quoted, hspace]) (by
      rw [toList_quoted, ← List.cons_append, List.getLast?_concat]
      simp [hspace])
  rwa [List.nil_append] at htrim

/-- **A literal that is closed** is filtered, whatever stands between its marks. -/
theorem filterCode_quoted_of_closed (hq : isQuotationMark q = true)
    (hbody : isLiteralBody q body.toList = true)
    (hname : name.toList.all isIdentifierChar = true)
    (hlast : body.toList.getLast? ≠ some '\\') :
    filterCode (quoted q body ++ " | " ++ name) =
      "_f(\"" ++ name ++ "\")(" ++ quoted q body ++ ")" := by
  obtain ⟨st, hread, hclosed, hcontext⟩ := Scanner.read_quoted hq hbody
  rw [if_neg hlast] at hcontext
  -- behind the space nothing is open, and the bar separates
  have hsep : st.separates ' ' [] = false := by simp [Scanner.separates]
  have hspace : ({} : Scanner).read ((quoted q body).toList ++ [' ']) = some (st.step ' ') := by
    rw [Scanner.read_append hread, Scanner.read, if_neg (by simp [hsep])]
    rfl
  have hidle : (st.step ' ').isIdle = true := by
    have hnesting : (st.step ' ').nesting = st.nesting := by
      simp only [Scanner.step, Nesting.after]
      simp
    have hcode : (st.step ' ').context = .code := by
      simp only [Scanner.step, hcontext, Context.next]
      simp
    simp [Scanner.isIdle, hcode, hnesting, hclosed]
  have hsplit : (quoted q body ++ " | " ++ name).toList =
      ((quoted q body).toList ++ [' ']) ++ '|' :: (' ' :: name.toList) := by
    simp
  have hbar : '|' ∉ ' ' :: name.toList := by
    simp [not_mem_of_all_isIdentifierChar hname (c := '|') (by decide)]
  have hsegments : segments {} (quoted q body ++ " | " ++ name).toList =
      [(quoted q body).toList ++ [' '], ' ' :: name.toList] := by
    rw [hsplit, segments_append_bar hspace hidle (by simp [Scanner.step, Scanner.remember])
      (by simp), segments_of_not_mem hbar]
  have hparen := not_mem_of_all_isIdentifierChar hname (c := '(') (by decide)
  rw [filterCode, applyFilters, hsegments]
  simp only [List.map_cons, List.map_nil, trim_quoted hq, trim_name hname, List.foldl_cons,
    List.foldl_nil, applyFilter_of_not_mem hparen]
  rw [← String.toList_inj]
  simp

/-- **A literal that is not closed** takes the bar and the filter with it. -/
theorem filterCode_quoted_of_unclosed (hq : isQuotationMark q = true)
    (hbody : isLiteralBody q body.toList = true)
    (hname : name.toList.all isIdentifierChar = true)
    (hlast : body.toList.getLast? = some '\\') :
    filterCode (quoted q body ++ " | " ++ name) =
      String.ofList (trim (quoted q body ++ " | " ++ name).toList) := by
  obtain ⟨st, hread, -, hcontext⟩ := Scanner.read_quoted hq hbody
  rw [if_pos hlast] at hcontext
  have hinside : st.Inside q := by
    rw [Scanner.Inside, hcontext]
    exact terminator?_next hq none false
  have hmark : q ∉ " | ".toList ++ name.toList := by
    simp only [isQuotationMark, Bool.or_eq_true, beq_iff_eq] at hq
    rw [List.mem_append, not_or]
    rcases hq with (rfl | rfl) | rfl
    · exact ⟨by decide, not_mem_of_all_isIdentifierChar hname (by decide)⟩
    · exact ⟨by decide, not_mem_of_all_isIdentifierChar hname (by decide)⟩
    · exact ⟨by decide, not_mem_of_all_isIdentifierChar hname (by decide)⟩
  obtain ⟨st', hread', -⟩ := hinside.stays_of_not_mem hmark
  have hall : ({} : Scanner).read (quoted q body ++ " | " ++ name).toList = some st' := by
    rw [String.append_assoc, String.toList_append, String.toList_append,
      Scanner.read_append hread, hread']
  rw [filterCode, applyFilters, segments_of_read hall]
  simp only [List.map_cons, List.map_nil, List.foldl_nil]

end Filtered

/-- **A literal with a filter.**  Behind the closing mark the scanner is in code again, and the
filter is applied to the literal, whatever stands between the marks, unless it ends with a
backslash.  Then the literal goes on, and nothing is filtered. -/
theorem filterCode_quoted (q : Char) (body name : String) (hq : isQuotationMark q = true)
    (hbody : isLiteralBody q body.toList = true)
    (hname : name.toList.all isIdentifierChar = true) :
    (({} : Scanner).read (quoted q body).toList).map (·.context) =
        some (if body.toList.getLast? = some '\\' then Context.code.next q none false else .code) ∧
      filterCode (quoted q body ++ " | " ++ name) =
        if body.toList.getLast? = some '\\' then
          String.ofList (trim (quoted q body ++ " | " ++ name).toList)
        else "_f(\"" ++ name ++ "\")(" ++ quoted q body ++ ")" := by
  obtain ⟨st, hread, -, hcontext⟩ := Scanner.read_quoted hq hbody
  refine ⟨by rw [hread, Option.map_some, hcontext], ?_⟩
  split
  · rename_i hlast
    exact filterCode_quoted_of_unclosed hq hbody hname hlast
  · rename_i hlast
    exact filterCode_quoted_of_closed hq hbody hname hlast

/-- Two backslashes, a bar, open brackets, a slash, and the mark behind a backslash. -/
theorem filterCode_quoted_sample :
    isQuotationMark '\x27' = true ∧ isLiteralBody '\x27' "a\\\\|([/\\' ".toList = true ∧
      "upper$".toList.all isIdentifierChar = true ∧
      filterCode "'a\\\\|([/\\' ' | upper$" = "_f(\"upper$\")('a\\\\|([/\\' ')" :=
  ⟨by decide, by decide, by decide,
    (filterCode_quoted '\x27' "a\\\\|([/\\' " "upper$" (by decide) (by decide) (by decide)).2⟩

/-- **A literal that is not closed**: the backslash before the closing mark is escaped itself, and
still the mark counts as escaped. -/
theorem exists_unclosed_literal :
    ∃ q body name, isQuotationMark q = true ∧ isLiteralBody q body.toList = true ∧
      name.toList.all isIdentifierChar = true ∧
      (({} : Scanner).read (quoted q body).toList).map (·.context) = some .singleQuote ∧
      filterCode (quoted q body ++ " | " ++ name) = "'a\\\\' | f" ∧
      filterCode (quoted q body ++ " | " ++ name) ≠
        "_f(\"" ++ name ++ "\")(" ++ quoted q body ++ ")" :=
  ⟨'\x27', "a\\\\", "f", by decide, by decide, by decide, by decide, by decide, by decide⟩

end Expression

end Templating
