import Templating.Expression.Filter
import Templating.Text.Cut

/-!
**Chains of filters.**

An expression is read once from left to right, and what is known of the characters before decides
about every bar.  Yet a part of a chain may be read by itself: behind a bar that separates, the
scanner is in code, no bracket is open, and a slash starts a regular expression, just as in front of
the whole expression.  So parts that are complete by themselves are the parts that an expression is
cut into, and joining them with bars applies their filters one after another.

Main definitions:

* `Templating.Expression.Scanner.read` — what is known after a text in which no bar separates;
* `Templating.Expression.SelfContained` — a text that leaves nothing open;
* `Templating.Expression.EndsChain` — a text that may come last, where something may stay open;
* `Templating.Expression.Scanner.Alike` — scanners that decide alike about all that follows.

Main results:

* `Templating.Expression.segments_congr` — scanners that are alike cut alike;
* `Templating.Expression.segments_append_bar` — **a text that leaves nothing open is cut off**;
* `Templating.Expression.segments_join` — the parts of a chain are found again;
* `Templating.Expression.filterCode_join` — **a chain applies its filters from left to right**.
-/

set_option autoImplicit false

namespace Templating.Expression

open Text

/-! ### Reading a part of an expression -/

namespace Scanner

/-- Whether a slash would divide. -/
def divides (st : Scanner) : Bool := (st.operand.map endsOperand).getD false

/-- What is known after a text in which no bar separates. -/
def read (st : Scanner) : List Char → Option Scanner
  | [] => some st
  | c :: s => if st.separates c s then none else (st.step c).read s

/-- Nothing is open: the scanner is in code, outside of all brackets. -/
def isIdle (st : Scanner) : Bool := st.context = .code && st.nesting.isClosed

theorem read_cons {st st' : Scanner} {c : Char} {s : List Char} (h : st.read (c :: s) = some st') :
    st.separates c s = false ∧ (st.step c).read s = some st' := by
  simp only [read] at h
  split at h
  · cases h
  · rename_i hsep
    exact ⟨by simpa using hsep, h⟩

/-- The character just read is the last one of the text. -/
theorem prev_of_read {st st' : Scanner} {s : List Char} (h : st.read s = some st') (hne : s ≠ []) :
    st'.prev = s.getLast? := by
  induction s generalizing st with
  | nil => exact absurd rfl hne
  | cons c s ih =>
      obtain ⟨-, hrest⟩ := read_cons h
      cases s with
      | nil =>
          cases hrest
          rfl
      | cons d s =>
          rw [ih hrest (List.cons_ne_nil d s), List.getLast?_cons_cons]

/-- A bar separates in code outside of all brackets, and away from other bars. -/
theorem separates_eq_true_iff {st : Scanner} {c : Char} {rest : List Char} :
    st.separates c rest = true ↔
      c = '|' ∧ rest.head? ≠ some '|' ∧ st.prev ≠ some '|' ∧ st.isIdle = true := by
  simp only [separates, isIdle, Bool.and_eq_true, decide_eq_true_eq]
  constructor
  · rintro ⟨⟨⟨⟨hcode, hc⟩, hnext⟩, hprev⟩, hclosed⟩
    exact ⟨hc, hnext, hprev, hcode, hclosed⟩
  · rintro ⟨hc, hnext, hprev, hcode, hclosed⟩
    exact ⟨⟨⟨⟨hcode, hc⟩, hnext⟩, hprev⟩, hclosed⟩

end Scanner

/-- A text that leaves nothing open: no bar in it separates, after it the scanner is in code outside
of all brackets, and it stands next to no other bar when bars are put around it. -/
structure SelfContained (s : List Char) : Prop where
  ne_nil : s ≠ []
  head : s.head? ≠ some '|'
  last : s.getLast? ≠ some '|'
  idle : (({} : Scanner).read s).any Scanner.isIdle = true

/-- A text that may come last in a chain: no bar in it separates, but something may stay open. -/
structure EndsChain (s : List Char) : Prop where
  ne_nil : s ≠ []
  head : s.head? ≠ some '|'
  single : (({} : Scanner).read s).isSome = true

theorem SelfContained.endsChain {s : List Char} (h : SelfContained s) : EndsChain s where
  ne_nil := h.ne_nil
  head := h.head
  single := by
    obtain ⟨st, hst, -⟩ := (Option.any_eq_true _ _).mp h.idle
    rw [hst]
    rfl

/-! ### Scanners that decide alike -/

namespace Scanner

/-- Scanners that decide alike about all that follows. -/
structure Alike (a b : Scanner) : Prop where
  context : a.context = b.context
  nesting : a.nesting = b.nesting
  prev : a.prev = b.prev
  divides : a.divides = b.divides

variable {a b : Scanner}

theorem Alike.separates (h : a.Alike b) (c : Char) (rest : List Char) :
    a.separates c rest = b.separates c rest := by
  simp only [Scanner.separates, h.context, h.nesting, h.prev]

theorem divides_step (st : Scanner) (c : Char) :
    (st.step c).divides = if c = ' ' then st.divides else endsOperand c := by
  simp only [Scanner.divides, Scanner.step, Scanner.remember]
  split <;> rfl

/-- The same character keeps scanners alike.  In code, what was just read does not matter. -/
theorem alike_step (hcontext : a.context = b.context) (hnesting : a.nesting = b.nesting)
    (hdivides : a.divides = b.divides) (hprev : a.context ≠ .code → a.prev = b.prev) (c : Char) :
    (a.step c).Alike (b.step c) := by
  refine ⟨?_, ?_, rfl, ?_⟩
  · change a.context.next c a.prev (c = '/' && !a.divides) =
      b.context.next c b.prev (c = '/' && !b.divides)
    rw [hdivides, ← hcontext]
    by_cases hcode : a.context = .code
    · simp only [Context.next, if_pos hcode]
    · rw [hprev hcode]
  · simp only [step, hcontext, hnesting]
  · rw [divides_step, divides_step, hdivides]

theorem Alike.step (h : a.Alike b) (c : Char) : (a.step c).Alike (b.step c) :=
  alike_step h.context h.nesting h.divides (fun _ => h.prev) c

end Scanner

/-- **Scanners that are alike cut alike.** -/
theorem segments_congr {a b : Scanner} (h : a.Alike b) (s : List Char) :
    segments a s = segments b s := by
  induction s generalizing a b with
  | nil => rfl
  | cons c s ih =>
      have hremember : (a.remember c).Alike (b.remember c) := by
        refine ⟨h.context, h.nesting, rfl, ?_⟩
        have hdivides := h.divides
        simp only [Scanner.divides, Scanner.remember] at hdivides ⊢
        split
        · exact hdivides
        · rfl
      simp only [segments, h.separates c s, ih hremember, ih (h.step c)]

/-! ### Cutting off one part -/

/-- A text in which no bar separates is not cut. -/
theorem segments_of_read {st st' : Scanner} {s : List Char} (h : st.read s = some st') :
    segments st s = [s] := by
  induction s generalizing st with
  | nil => rfl
  | cons c s ih =>
      obtain ⟨hsep, hrest⟩ := Scanner.read_cons h
      simp [segments, hsep, ih hrest]

/-- **A text that leaves nothing open is cut off** at the bar behind it, whatever follows. -/
theorem segments_append_bar {st st' : Scanner} {s rest : List Char} (h : st.read s = some st')
    (hidle : st'.isIdle = true) (hprev : st'.prev ≠ some '|') (hrest : rest.head? ≠ some '|') :
    segments st (s ++ '|' :: rest) = s :: segments (st'.remember '|') rest := by
  induction s generalizing st with
  | nil =>
      cases h
      have hsep : st'.separates '|' rest = true :=
        Scanner.separates_eq_true_iff.mpr ⟨rfl, hrest, hprev, hidle⟩
      simp [segments, hsep]
  | cons c s ih =>
      obtain ⟨hsep, hread⟩ := Scanner.read_cons h
      -- the bar behind the text does not make its last character a separator
      have hsep' : st.separates c (s ++ '|' :: rest) = false := by
        rw [Bool.eq_false_iff] at hsep ⊢
        intro htrue
        obtain ⟨hc, hnext, hbefore⟩ := Scanner.separates_eq_true_iff.mp htrue
        cases s with
        | nil => exact hnext rfl
        | cons d s => exact hsep (Scanner.separates_eq_true_iff.mpr ⟨hc, hnext, hbefore⟩)
      simp [segments, hsep', ih hread]

/-! ### Behind a bar -/

/-- A scanner as it is in front of an expression, and behind a bar that separates. -/
structure Scanner.Starts (st : Scanner) : Prop where
  idle : st.isIdle = true
  divides : st.divides = false

theorem Scanner.starts_init : Scanner.Starts {} := ⟨rfl, rfl⟩

theorem Scanner.starts_remember {st : Scanner} (h : st.isIdle = true) :
    (st.remember '|').Starts := ⟨h, rfl⟩

theorem Nesting.eq_of_isClosed {n n' : Nesting} (h : n.isClosed = true) (h' : n'.isClosed = true) :
    n = n' := by
  obtain ⟨curly, square, paren⟩ := n
  obtain ⟨curly', square', paren'⟩ := n'
  simp only [isClosed, Bool.and_eq_true, beq_iff_eq] at h h'
  simp [h.1.1, h.1.2, h.2, h'.1.1, h'.1.2, h'.2]

/-- Where an expression may start, its first character is read alike. -/
theorem Scanner.Starts.alike_step {a b : Scanner} (ha : a.Starts) (hb : b.Starts) (c : Char) :
    (a.step c).Alike (b.step c) := by
  have hidle := ha.idle
  have hidle' := hb.idle
  simp only [isIdle, Bool.and_eq_true, decide_eq_true_eq] at hidle hidle'
  refine Scanner.alike_step (hidle.1.trans hidle'.1.symm)
    (Nesting.eq_of_isClosed hidle.2 hidle'.2) (ha.divides.trans hb.divides.symm) ?_ c
  exact fun hcode => absurd hidle.1 hcode

/-- **Where an expression may start, a text is cut as if nothing came before**, unless it starts
with a bar. -/
theorem Scanner.Starts.segments_eq {a b : Scanner} (ha : a.Starts) (hb : b.Starts)
    {s : List Char} (hhead : s.head? ≠ some '|') : segments a s = segments b s := by
  cases s with
  | nil => rfl
  | cons c s =>
      have hbar : c ≠ '|' := fun hc => hhead (by rw [hc]; rfl)
      have hsep : ∀ st : Scanner, st.separates c s = false := by
        intro st
        rw [Bool.eq_false_iff]
        exact fun h => hbar (Scanner.separates_eq_true_iff.mp h).1
      simp only [segments, hsep, Bool.false_eq_true, if_false,
        segments_congr (ha.alike_step hb c) s]

/-! ### Chains -/

theorem head?_toList_join {first : String} (filters : List String) (hne : first.toList ≠ []) :
    (join "|" (first :: filters)).toList.head? = first.toList.head? := by
  cases filters with
  | nil => rfl
  | cons next filters =>
      obtain ⟨c, s, hcs⟩ := List.exists_cons_of_ne_nil hne
      simp [join, hcs]

/-- **The parts of a chain are found again.** -/
theorem segments_join (first : String) (filters : List String)
    (hparts : ∀ s ∈ (first :: filters).dropLast, SelfContained s.toList)
    (hlast : EndsChain ((first :: filters).getLast (List.cons_ne_nil _ _)).toList) :
    segments {} (join "|" (first :: filters)).toList = (first :: filters).map String.toList := by
  induction filters generalizing first with
  | nil =>
      obtain ⟨st, hst⟩ := Option.isSome_iff_exists.mp hlast.single
      exact segments_of_read hst
  | cons next filters ih =>
      have hfirst := hparts first (by simp)
      have hrest := ih next (fun s hs => hparts s (by simp [hs])) hlast
      obtain ⟨st, hst, hidle⟩ := (Option.any_eq_true _ _).mp hfirst.idle
      have hprev : st.prev ≠ some '|' := by
        rw [Scanner.prev_of_read hst hfirst.ne_nil]
        exact hfirst.last
      -- the next part is self-contained or the last one, and does not start with a bar
      have hnext : EndsChain next.toList := by
        cases filters with
        | nil => exact hlast
        | cons other filters => exact (hparts next (by simp)).endsChain
      have hhead : (join "|" (next :: filters)).toList.head? ≠ some '|' := by
        rw [head?_toList_join filters hnext.ne_nil]
        exact hnext.head
      have hsplit : (join "|" (first :: next :: filters)).toList =
          first.toList ++ '|' :: (join "|" (next :: filters)).toList := by
        simp [join]
      rw [hsplit, segments_append_bar hst hidle hprev hhead,
        (Scanner.starts_remember hidle).segments_eq Scanner.starts_init hhead, hrest]
      rfl

/-- **A chain applies its filters from left to right.**  Parts that leave nothing open, and a last
one in which no bar separates, become calls around the first of them when they are joined with
bars. -/
theorem filterCode_join (first : String) (filters : List String)
    (hparts : ∀ s ∈ (first :: filters).dropLast, SelfContained s.toList)
    (hlast : EndsChain ((first :: filters).getLast (List.cons_ne_nil _ _)).toList) :
    filterCode (join "|" (first :: filters)) =
      String.ofList ((filters.map fun s => trim s.toList).foldl applyFilter
        (trim first.toList)) := by
  simp only [filterCode, applyFilters, segments_join first filters hparts hlast, List.map_cons,
    List.map_map, Function.comp_def]

/-- Bars that do not separate: in a string, in brackets, doubled, and in a regular expression.  The
last part leaves a bracket open. -/
theorem filterCode_join_sample :
    (∀ s ∈ ["a || 'x|y'", " pad([1|2], b) "], SelfContained s.toList) ∧
      EndsChain " g(/|/".toList ∧
      filterCode "a || 'x|y'| pad([1|2], b) | g(/|/" =
        "_f(\"g\")(_f(\"pad\")(a || 'x|y',[1|2], b),/|/" := by
  have hparts : ∀ s ∈ ["a || 'x|y'", " pad([1|2], b) "], SelfContained s.toList := by
    intro s hs
    rw [List.mem_cons, List.mem_singleton] at hs
    rcases hs with rfl | rfl <;> exact ⟨by decide, by decide, by decide, by decide⟩
  have hlast : EndsChain " g(/|/".toList := ⟨by decide, by decide, by decide⟩
  refine ⟨hparts, hlast, ?_⟩
  exact (filterCode_join "a || 'x|y'" [" pad([1|2], b) ", " g(/|/"] hparts hlast).trans (by decide)

end Templating.Expression
