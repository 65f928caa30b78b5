import Mathlib.Data.List.TakeWhile
import Templating.Markup.Scan

/-!
**Every start tag has its end.**

Whatever a template looks like, the tokens that are read from it open and close elements like a
well-formed document: an end token always ends the innermost open element, under the very name that
its start token had, and in the end nothing is open.  Whoever builds a tree from the tokens may
therefore pop a stack without looking.

Main definitions:

* `Templating.Markup.Token.replay`, `Templating.Markup.replay` — what a token and what a list of
  tokens do to a stack of names, which fails on an end token that does not fit;
* `Templating.Markup.names` — the names of the open elements.

Main results:

* `Templating.Markup.closeNamed_cases` — what an end tag can do;
* `Templating.Markup.replay_closeNamed`, `Templating.Markup.replay_emit` — the tokens of an end tag
  and of a piece take the names of the elements open before to those of the elements open after;
* `Templating.Markup.replay_scan` — **reading the rest of a template closes what is open**;
* `Templating.Markup.replay_events` — the tokens of a template are balanced.
-/

set_option autoImplicit false

namespace Templating.Markup

/-! ### Replaying tokens -/

/-- The names of the open elements after a token, innermost first.  There are none when the token
ends an element other than the innermost one. -/
def Token.replay : Token → List String → Option (List String)
  | .startTag name _ unary _ _, stack => some (if unary then stack else name :: stack)
  | .endTag _ _ _, [] => none
  | .endTag name _ _, top :: stack => if name = top then some stack else none
  | .text .., stack => some stack
  | .comment .., stack => some stack
  | .doctype .., stack => some stack

/-- The names of the open elements after a list of tokens, innermost first. -/
def replay : List Token → List String → Option (List String)
  | [], stack => some stack
  | t :: ts, stack => (t.replay stack).bind (replay ts)

@[simp] theorem replay_nil (stack : List String) : replay [] stack = some stack := rfl

@[simp] theorem replay_cons (t : Token) (ts : List Token) (stack : List String) :
    replay (t :: ts) stack = (t.replay stack).bind (replay ts) := rfl

theorem replay_append (a b : List Token) (stack : List String) :
    replay (a ++ b) stack = (replay a stack).bind (replay b) := by
  induction a generalizing stack with
  | nil => rfl
  | cons t a ih =>
      rw [List.cons_append, replay_cons, replay_cons, Option.bind_assoc]
      exact Option.bind_congr fun s _ => ih s

/-- Tokens that go well one after another. -/
theorem replay_append_of_eq_some {a b : List Token} {s₀ s₁ s₂ : List String}
    (ha : replay a s₀ = some s₁) (hb : replay b s₁ = some s₂) :
    replay (a ++ b) s₀ = some s₂ := by
  rw [replay_append, ha]
  exact hb

/-! ### Closing elements -/

/-- The names of the open elements. -/
def names (opened : List OpenElement) : List String := opened.map (·.name)

@[simp] theorem names_cons (e : OpenElement) (opened : List OpenElement) :
    names (e :: opened) = e.name :: names opened := rfl

/-- The end of an element takes its name off the stack. -/
theorem replay_closing_cons (start stop : Nat) (e : OpenElement) (es : List Event)
    (stack : List String) :
    replay (tokens (closing start stop e :: es)) (e.name :: stack) = replay (tokens es) stack := by
  simp [closing, Token.replay]

/-- Closing elements one by one, with a report for each, leaves the elements around them. -/
theorem replay_closeEach (problem : Problem) (start stop : Nat) (inner outer : List OpenElement) :
    replay (tokens (inner.flatMap fun e => [missingEndTag problem e, closing start stop e]))
      (names (inner ++ outer)) = some (names outer) := by
  induction inner with
  | nil => rfl
  | cons e inner ih =>
      simpa [missingEndTag, closing, Token.replay] using ih

theorem replay_closeAll (offset : Nat) (opened : List OpenElement) :
    replay (tokens (closeAll offset opened)) (names opened) = some [] := by
  have h := replay_closeEach .unclosedTag offset offset opened []
  rwa [List.append_nil] at h

/-- **What an end tag does**: it closes the innermost element of its name with everything inside it,
or there is no such element and the open elements stay. -/
theorem closeNamed_cases (name : String) (start stop : Nat) (opened : List OpenElement) :
    (∃ inner e outer, opened = inner ++ e :: outer ∧ e.key = Text.lowerString name ∧
      closeNamed name start stop opened =
        (inner.flatMap (fun e => [missingEndTag .unmatchedEndTag e, closing start stop e]) ++
          [closing start stop e], outer)) ∨
    ((∀ e ∈ opened, e.key ≠ Text.lowerString name) ∧
      ∃ events, closeNamed name start stop opened = (events, opened) ∧
        (events = [.token (.startTag name [] true start stop)] ∨
          events = [.token (.startTag name [] false start stop), .token (.endTag name start stop)] ∨
          events = [])) := by
  have hsplit :=
    List.takeWhile_append_dropWhile (p := (·.key != Text.lowerString name)) (l := opened)
  simp only [closeNamed]
  cases hd : opened.dropWhile (·.key != Text.lowerString name) with
  | cons e outer =>
      refine .inl ⟨_, e, outer, by rw [← hd, hsplit], ?_, rfl⟩
      have hhead := List.head?_dropWhile_not (·.key != Text.lowerString name) opened
      rw [hd] at hhead
      simpa using hhead
  | nil =>
      refine .inr ⟨?_, ?_⟩
      · intro e he
        simpa using List.dropWhile_eq_nil_iff.mp hd e he
      · simp only
        split
        · exact ⟨_, rfl, .inl rfl⟩
        · split
          · exact ⟨_, rfl, .inr (.inl rfl)⟩
          · exact ⟨_, rfl, .inr (.inr rfl)⟩

/-- What comes up when elements are closed: end tags, start tags without attributes, and reports. -/
def Event.IsBare : Event → Prop
  | .token (.startTag _ attributes _ _ _) => attributes = []
  | .token (.endTag ..) => True
  | .token _ => False
  | .problem _ => True

theorem isBare_closeEach {problem : Problem} {start stop : Nat} {l : List OpenElement} {x : Event}
    (h : x ∈ l.flatMap fun e => [missingEndTag problem e, closing start stop e]) : x.IsBare := by
  obtain ⟨e, -, hx⟩ := List.mem_flatMap.mp h
  simp only [List.mem_cons, List.not_mem_nil, or_false] at hx
  rcases hx with rfl | rfl <;> trivial

theorem isBare_closeNamed {name : String} {start stop : Nat} {opened : List OpenElement} {x : Event}
    (h : x ∈ (closeNamed name start stop opened).1) : x.IsBare := by
  rcases closeNamed_cases name start stop opened with
    ⟨inner, e, outer, -, -, heq⟩ | ⟨-, events, heq, hevents⟩
  · rw [heq] at h
    rcases List.mem_append.mp h with h | h
    · exact isBare_closeEach h
    · obtain rfl := List.mem_singleton.mp h
      trivial
  · rw [heq] at h
    rcases hevents with rfl | rfl | rfl
    · obtain rfl := List.mem_singleton.mp h
      rfl
    · simp only [List.mem_cons, List.not_mem_nil, or_false] at h
      rcases h with rfl | rfl
      · rfl
      · trivial
    · cases h

/-- The rules of HTML close elements by name. -/
theorem isBare_closeImplied {settings : Settings} {name : String} {offset : Nat}
    {opened : List OpenElement} {x : Event}
    (h : x ∈ (closeImplied settings name offset opened).1) : x.IsBare := by
  have hrule : ∀ (p : Prop) [Decidable p] (closed : String) (l : List OpenElement),
      x ∈ (if p then closeNamed closed offset offset l else ([], l)).1 → x.IsBare := by
    intro p _ closed l hx
    split at hx
    · exact isBare_closeNamed hx
    · cases hx
  unfold closeImplied at h
  split at h
  · exact (List.mem_append.mp h).elim (hrule _ _ _) (hrule _ _ _)
  · cases h

/-- An end tag closes elements from the inside out. -/
theorem replay_closeNamed (name : String) (start stop : Nat) (opened : List OpenElement) :
    replay (tokens (closeNamed name start stop opened).1) (names opened) =
      some (names (closeNamed name start stop opened).2) := by
  rcases closeNamed_cases name start stop opened with
    ⟨inner, e, outer, rfl, -, heq⟩ | ⟨-, events, heq, rfl | rfl | rfl⟩
  · rw [heq, tokens_append]
    refine replay_append_of_eq_some (replay_closeEach _ start stop inner (e :: outer)) ?_
    exact replay_closing_cons start stop e [] (names outer)
  · rw [heq]; rfl
  · rw [heq]; simp [Token.replay]
  · rw [heq]; rfl

/-! ### Start tags -/

theorem replay_closeImplied (settings : Settings) (name : String) (offset : Nat)
    (opened : List OpenElement) :
    replay (tokens (closeImplied settings name offset opened).1) (names opened) =
      some (names (closeImplied settings name offset opened).2) := by
  -- each of the two rules either closes an element by its name or does nothing
  have hrule : ∀ (p : Prop) [Decidable p] (closed : String) (l : List OpenElement),
      replay (tokens (if p then closeNamed closed offset offset l else ([], l)).1) (names l) =
        some (names (if p then closeNamed closed offset offset l else ([], l)).2) := by
    intro p _ closed l
    split
    · exact replay_closeNamed closed offset offset l
    · rfl
  unfold closeImplied
  split
  · simp only [tokens_append]
    exact replay_append_of_eq_some (hrule _ _ _) (hrule _ _ _)
  · rfl

theorem replay_openTag (settings : Settings) (tag : RawStartTag) (start stop : Nat)
    (opened : List OpenElement) :
    replay (tokens (openTag settings tag start stop opened).1) (names opened) =
      some (names (openTag settings tag start stop opened).2) := by
  unfold openTag
  simp only [tokens_append]
  refine replay_append_of_eq_some (replay_closeImplied settings _ stop opened) ?_
  simp only [tokens_token_cons, tokens_nil, replay_cons, replay_nil, Token.replay, Option.bind_some]
  split <;> rfl

/-! ### The whole template -/

/-- **A piece** takes the open elements before it to those after it. -/
theorem replay_emit (settings : Settings) (piece : Piece) (start stop : Nat) (last : Bool)
    (opened : List OpenElement) :
    replay (tokens (emit settings piece start stop last opened).1) (names opened) =
      some (names (emit settings piece start stop last opened).2) := by
  cases piece with
  | comment body =>
      simp only [emit]
      split <;> rfl
  | conditional body => rfl
  | doctype source => rfl
  | endTag name tail => exact replay_closeNamed (String.ofList name) start stop opened
  | startTag tag => exact replay_openTag settings tag start stop opened
  | text source =>
      simp only [emit]
      split <;> rfl

/-- The content of a raw-text element opens and closes nothing. -/
theorem replay_rawTextEvents (content : Tag.Content) (e : OpenElement) (start stop : Nat)
    (body : List Char) (stack : List String) :
    replay (tokens (rawTextEvents content e start stop body)) stack = some stack := by
  unfold rawTextEvents
  dsimp only
  generalize (if content = .rawText then unwrapMarks body else body) = kept
  split <;> rfl

theorem replay_unclosedRawText (e : OpenElement) (outer : List OpenElement) (start : Nat)
    (rest : List Char) :
    replay (tokens (unclosedRawText e outer start rest)) (names (e :: outer)) = some [] := by
  unfold unclosedRawText
  simp only [tokens_append]
  have hfirst : replay (tokens [closing start start e,
      .token (.text (String.ofList rest) start (start + Text.bytes rest))]) (names (e :: outer)) =
      some (names outer) := by
    simp [closing, Token.replay]
  refine replay_append_of_eq_some (replay_append_of_eq_some hfirst ?_) (replay_closeAll _ outer)
  split <;> rfl

/-- An element with raw content is the innermost one. -/
theorem eq_cons_of_rawElement? {settings : Settings} {opened outer : List OpenElement}
    {content : Tag.Content} {e : OpenElement}
    (h : rawElement? settings opened = some (content, e, outer)) : opened = e :: outer := by
  cases opened with
  | nil => simp [rawElement?] at h
  | cons top opened =>
      simp only [rawElement?] at h
      split at h
      · cases h
      · cases h; rfl

/-- **Reading the rest of a template closes what is open.** -/
theorem replay_scan (settings : Settings) (opened : List OpenElement) (offset : Nat)
    (rest : List Char) :
    replay (tokens (scan settings opened offset rest)) (names opened) = some [] := by
  fun_induction scan settings opened offset rest with
  | case1 opened offset => exact replay_closeAll offset opened
  | case2 opened offset c s _ p r _ _ _ stop emitted dropped ih =>
      rw [tokens_append]
      exact replay_append_of_eq_some (replay_emit settings p offset stop r.isEmpty opened) ih
  | case3 opened offset c s content e outer hraw _ =>
      rw [eq_cons_of_rawElement? hraw]
      exact replay_unclosedRawText e outer offset (c :: s)
  | case4 opened offset c s content e outer hraw body endTag r _ _ bodyEnd stop ih =>
      rw [eq_cons_of_rawElement? hraw, tokens_append]
      refine replay_append_of_eq_some (replay_rawTextEvents content e offset bodyEnd body _) ?_
      rw [names_cons, replay_closing_cons]
      exact ih

/-- The tokens of a template are balanced: replayed from the empty stack, every end token ends the
innermost open element under its own name, and nothing is open in the end. -/
theorem replay_events (settings : Settings) (template : String) :
    replay (tokens (events settings template)) [] = some [] :=
  replay_scan settings [] 0 template.toList

end Templating.Markup
