import Mathlib.Data.List.Chain
import Templating.Proofs.Markup.Tiling

/-!
**Elements that HTML closes by itself never nest.**

Under the rules of HTML a start tag closes an open paragraph in front of block content, and an open
element of its own name that may be left open.  Either rule looks at the innermost open element
only, and looks once; what is exposed by closing that element is not looked at again.  It need not
be: the elements that are open were nested well when they were opened, so the element around the
closed one suits it already, and a paragraph is never open directly inside a paragraph.

Main definitions:

* `Templating.Markup.Nests` — an element may stand directly inside another;
* `Templating.Markup.NestedStack` — every open element may stand in the one around it;
* `Templating.Markup.Nested` — replaying tokens keeps the stack nested, with every element that a
  start tag opens.

Main results:

* `Templating.Markup.nestedStack_closeImplied` — after the two rules the new element fits;
* `Templating.Markup.nested_closeNamed` — an end tag, also one that stands for an element, opens
  nothing that does not fit;
* `Templating.Markup.nested_scan` — **reading the rest of a template keeps the stack nested**;
* `Templating.Markup.nests_of_startTag` — a start tag always fits into the innermost open element.
-/

set_option autoImplicit false

namespace Templating.Markup

open Text

/-! ### Nested elements -/

/-- An element may stand directly inside another: it is not block content inside a paragraph, and
not an element that may be left open inside one of the same name. -/
def Nests (rules : TagRules) (outer inner : String) : Prop :=
  ¬(outer = "p" ∧ rules.isNonPhrasing inner = true) ∧
    ¬(outer = inner ∧ rules.canBeLeftOpen inner = true)

/-- Every element of a stack, innermost first, may stand in the one around it. -/
def NestedStack (rules : TagRules) (stack : List String) : Prop :=
  stack.IsChain fun inner outer => Nests rules outer inner

variable {rules : TagRules} {stack stack' : List String}

theorem NestedStack.nil : NestedStack rules [] := List.isChain_nil

theorem nestedStack_cons {name : String} :
    NestedStack rules (name :: stack) ↔
      (∀ top, stack.head? = some top → Nests rules top name) ∧ NestedStack rules stack :=
  List.isChain_cons

/-- What is left of a nested stack is nested. -/
theorem NestedStack.suffix (h : NestedStack rules stack) (hsuffix : stack' <:+ stack) :
    NestedStack rules stack' := List.IsChain.suffix h hsuffix

/-! ### Replaying tokens on a nested stack -/

/-- The name of the element that a token starts. -/
def Token.opens? : Token → Option String
  | .startTag name _ _ _ _ => some name
  | _ => none

/-- Replaying tokens keeps the stack nested, with each element that a start tag opens put on it. -/
def Nested (rules : TagRules) : List Token → List String → Prop
  | [], stack => NestedStack rules stack
  | t :: ts, stack =>
      NestedStack rules (t.opens?.toList ++ stack) ∧
        ∀ stack', t.replay stack = some stack' → Nested rules ts stack'

/-- The stack is nested before the tokens. -/
theorem Nested.nestedStack {ts : List Token} (h : Nested rules ts stack) :
    NestedStack rules stack := by
  cases ts with
  | nil => exact h
  | cons t ts => exact h.1.suffix (List.suffix_append _ _)

/-- After the first part of the tokens, the rest of them keeps the stack nested. -/
theorem Nested.drop {a b : List Token} (h : Nested rules (a ++ b) stack)
    (ha : replay a stack = some stack') : Nested rules b stack' := by
  induction a generalizing stack with
  | nil =>
      cases ha
      exact h
  | cons t a ih =>
      obtain ⟨s, hs, ha⟩ := Option.bind_eq_some_iff.mp ha
      exact ih (h.2 s hs) ha

/-- Tokens that keep the stack nested one after another. -/
theorem Nested.append {a b : List Token} (ha : Nested rules a stack)
    (hreplay : replay a stack = some stack') (hb : Nested rules b stack') :
    Nested rules (a ++ b) stack := by
  induction a generalizing stack with
  | nil =>
      cases hreplay
      exact hb
  | cons t a ih =>
      obtain ⟨s, hs, hreplay⟩ := Option.bind_eq_some_iff.mp hreplay
      refine ⟨ha.1, ?_⟩
      intro s' hs'
      obtain rfl : s = s' := Option.some.inj (hs.symm.trans hs')
      exact ih (ha.2 s hs) hreplay

/-- A token that starts nothing takes at most one element off the stack. -/
theorem suffix_of_replay {t : Token} (hopens : t.opens? = none)
    (h : t.replay stack = some stack') : stack' <:+ stack := by
  cases t with
  | startTag name attributes unary start stop => cases hopens
  | endTag name start stop =>
      cases stack with
      | nil => cases h
      | cons top stack =>
          simp only [Token.replay] at h
          split at h
          · cases h
            exact List.suffix_cons top _
          · cases h
  | text => cases h; exact List.suffix_rfl
  | comment => cases h; exact List.suffix_rfl
  | doctype => cases h; exact List.suffix_rfl

/-- **Tokens that start nothing** keep a stack nested. -/
theorem nested_of_opens?_eq_none {ts : List Token} (hopens : ∀ t ∈ ts, t.opens? = none)
    (h : NestedStack rules stack) : Nested rules ts stack := by
  induction ts generalizing stack with
  | nil => exact h
  | cons t ts ih =>
      have ht : t.opens? = none := hopens t List.mem_cons_self
      refine ⟨by simpa [ht] using h, ?_⟩
      intro stack' hstack'
      refine ih ?_ (h.suffix (suffix_of_replay ht hstack'))
      intro t' ht'
      exact hopens t' (List.mem_cons_of_mem t ht')

/-! ### End tags -/

variable {settings : Settings} {opened : List OpenElement}

/-- The end tag of the innermost element closes that element. -/
theorem closeNamed_cons {e : OpenElement} (hkey : e.key = lowerString e.name) (start stop : Nat)
    (outer : List OpenElement) :
    closeNamed e.name start stop (e :: outer) = ([closing start stop e], outer) := by
  simp [closeNamed, hkey]

/-- An end tag without an element may stand for one, whose name spells that of a line break or of a
paragraph. -/
theorem opens_of_closeNamed {name : String} {start stop : Nat} {t : Token}
    (hnone : ∀ e ∈ opened, e.key ≠ lowerString name)
    (ht : t ∈ tokens (closeNamed name start stop opened).1) (hopens : t.opens? ≠ none) :
    t.opens? = some name ∧ (lowerString name = "br" ∨ lowerString name = "p") := by
  have hdrop : opened.dropWhile (·.key != lowerString name) = [] := by
    rw [List.dropWhile_eq_nil_iff]
    intro e he
    simpa using hnone e he
  simp only [closeNamed, hdrop] at ht
  split at ht
  · rename_i hbr
    obtain rfl : t = .startTag name [] true start stop := by simpa using ht
    exact ⟨rfl, .inl hbr⟩
  · split at ht
    · rename_i hp
      simp only [tokens_token_cons, tokens_nil, List.mem_cons, List.not_mem_nil, or_false] at ht
      rcases ht with rfl | rfl
      · exact ⟨rfl, .inr hp⟩
      · exact absurd rfl hopens
    · simp at ht

/-- An end tag that stands for an element fits into the innermost open element: no element of its
name is open, and a line break is no block content. -/
theorem nests_of_closeNamed {name top : String} (hopened : Keyed opened)
    (hbr : ∀ name, rules.isNonPhrasing name = true → lowerString name ≠ "br")
    (hnone : ∀ e ∈ opened, e.key ≠ lowerString name)
    (hname : lowerString name = "br" ∨ lowerString name = "p")
    (htop : (names opened).head? = some top) : Nests rules top name := by
  obtain ⟨e, he, rfl⟩ : ∃ e ∈ opened, e.name = top := by
    simpa [names] using List.mem_of_mem_head? htop
  have hkey : lowerString e.name ≠ lowerString name := by
    rw [← hopened e he]
    exact hnone e he
  constructor
  · rintro ⟨hp, hblock⟩
    rcases hname with hname | hname
    · exact hbr name hblock hname
    · exact hkey (by rw [hp, hname]; decide)
  · rintro ⟨heq, -⟩
    exact hkey (by rw [heq])

/-- **An end tag** keeps the stack nested. -/
theorem nested_closeNamed (hopened : Keyed opened)
    (hbr : ∀ name, rules.isNonPhrasing name = true → lowerString name ≠ "br")
    (h : NestedStack rules (names opened)) (name : String) (start stop : Nat) :
    Nested rules (tokens (closeNamed name start stop opened).1) (names opened) := by
  rcases closeNamed_cases name start stop opened with
    ⟨inner, e, outer, hsplit, hkey, -⟩ | ⟨hnone, events, heq, hevents⟩
  · have he : e ∈ opened := by rw [hsplit]; simp
    refine nested_of_opens?_eq_none ?_ h
    intro t ht
    obtain ⟨n, rfl⟩ := (tokens_closeNamed_of_mem start stop he hkey).2 t ht
    rfl
  · -- an element that the end tag stands for is put on the stack that is there
    have hput : ∀ t ∈ tokens (closeNamed name start stop opened).1, t.opens? = some name →
        NestedStack rules (name :: names opened) := by
      intro t ht hopens
      have hname := (opens_of_closeNamed hnone ht (by simp [hopens])).2
      rw [nestedStack_cons]
      exact ⟨fun top htop => nests_of_closeNamed hopened hbr hnone hname htop, h⟩
    rw [heq] at hput ⊢
    rcases hevents with rfl | rfl | rfl
    · have hnew := hput (.startTag name [] true start stop) (by simp) rfl
      refine ⟨hnew, ?_⟩
      intro stack' hstack'
      cases hstack'
      exact h
    · have hnew := hput (.startTag name [] false start stop) (by simp) rfl
      refine ⟨hnew, ?_⟩
      intro stack' hstack'
      cases hstack'
      show Nested rules [.endTag name start stop] (name :: names opened)
      exact nested_of_opens?_eq_none (by simp [Token.opens?]) hnew
    · exact h

/-! ### Start tags -/

/-- The rule for elements that may be left open makes room for the new element, when the rule for
paragraphs has nothing more to do. -/
theorem nestedStack_leftOpen {name : String} (hopened : Keyed opened)
    (h : NestedStack rules (names opened)) (offset : Nat)
    (hp : ¬(innermost? opened = some "p" ∧ rules.isNonPhrasing name = true)) :
    NestedStack rules (name :: names
      (if rules.canBeLeftOpen name ∧ innermost? opened = some name then
        closeNamed name offset offset opened else ([], opened)).2) := by
  have hhead : (names opened).head? = innermost? opened := by simp [names, innermost?]
  split
  · rename_i hrule
    cases opened with
    | nil => cases hrule.2
    | cons e outer =>
        -- the new element takes the place of the one of its name
        obtain rfl : e.name = name := by simpa [innermost?] using hrule.2
        rw [closeNamed_cons (hopened e List.mem_cons_self)]
        exact h
  · rename_i hrule
    rw [nestedStack_cons, hhead]
    refine ⟨?_, h⟩
    intro top htop
    constructor
    · rintro ⟨rfl, hblock⟩
      exact hp ⟨htop, hblock⟩
    · rintro ⟨rfl, hleft⟩
      exact hrule ⟨hleft, htop⟩

/-- **After the two rules of HTML the new element fits** into the innermost open one. -/
theorem nestedStack_closeImplied (hhtml : settings.expectHtml = true)
    (hleft : settings.tags.canBeLeftOpen "p" = true) (hopened : Keyed opened)
    (h : NestedStack settings.tags (names opened)) (name : String) (offset : Nat) :
    NestedStack settings.tags (name :: names (closeImplied settings name offset opened).2) := by
  simp only [closeImplied, if_pos hhtml]
  split
  · rename_i hrule
    cases opened with
    | nil => cases hrule.1
    | cons e outer =>
        have he : e.name = "p" := by simpa [innermost?] using hrule.1
        rw [← he, closeNamed_cons (hopened e List.mem_cons_self)]
        refine nestedStack_leftOpen hopened.tail (nestedStack_cons.mp h).2 offset ?_
        -- around the closed paragraph there is no other one
        rintro ⟨hp, -⟩
        have houter : Nests settings.tags "p" e.name :=
          (nestedStack_cons.mp h).1 "p" (by simpa [names, innermost?] using hp)
        rw [he] at houter
        exact houter.2 ⟨rfl, hleft⟩
  · rename_i hrule
    exact nestedStack_leftOpen hopened h offset hrule

/-- **A start tag** keeps the stack nested. -/
theorem nested_openTag (hhtml : settings.expectHtml = true)
    (hleft : settings.tags.canBeLeftOpen "p" = true) (hopened : Keyed opened)
    (h : NestedStack settings.tags (names opened)) (tag : RawStartTag) (start stop : Nat) :
    Nested settings.tags (tokens (openTag settings tag start stop opened).1) (names opened) := by
  have hnew := nestedStack_closeImplied hhtml hleft hopened h (String.ofList tag.name) stop
  simp only [openTag, tokens_append]
  refine Nested.append ?_ (replay_closeImplied settings _ stop opened) ⟨hnew, ?_⟩
  · refine nested_of_opens?_eq_none ?_ h
    intro t ht
    obtain ⟨n, rfl⟩ := tokens_closeImplied hopened settings _ stop t ht
    rfl
  · intro stack' hstack'
    simp only [Token.replay, Option.some.injEq] at hstack'
    subst hstack'
    split
    · exact (nestedStack_cons.mp hnew).2
    · exact hnew

/-! ### The whole template -/

/-- **A piece** keeps the stack nested. -/
theorem nested_emit (hhtml : settings.expectHtml = true)
    (hleft : settings.tags.canBeLeftOpen "p" = true)
    (hbr : ∀ name, settings.tags.isNonPhrasing name = true → lowerString name ≠ "br")
    (hopened : Keyed opened) (h : NestedStack settings.tags (names opened)) (piece : Piece)
    (start stop : Nat) (last : Bool) :
    Nested settings.tags (tokens (emit settings piece start stop last opened).1)
      (names opened) := by
  cases piece with
  | comment body =>
      refine nested_of_opens?_eq_none ?_ h
      simp only [emit]
      split <;> simp [Token.opens?]
  | conditional body => exact h
  | doctype source => exact nested_of_opens?_eq_none (by simp [emit, Token.opens?]) h
  | endTag name tail => exact nested_closeNamed hopened hbr h (String.ofList name) start stop
  | startTag tag => exact nested_openTag hhtml hleft hopened h tag start stop
  | text source =>
      refine nested_of_opens?_eq_none ?_ h
      simp only [emit]
      split <;> simp [Token.opens?, malformedEnd]

theorem opens?_closeAll (offset : Nat) (opened : List OpenElement) :
    ∀ t ∈ tokens (closeAll offset opened), t.opens? = none := by
  intro t ht
  rw [closeAll, tokens_closeEach] at ht
  obtain ⟨e, -, rfl⟩ := List.mem_map.mp ht
  rfl

theorem opens?_rawTextEvents (content : Tag.Content) (e : OpenElement) (start stop : Nat)
    (body : List Char) :
    ∀ t ∈ tokens (rawTextEvents content e start stop body), t.opens? = none := by
  unfold rawTextEvents
  dsimp only
  generalize (if content = .rawText then unwrapMarks body else body) = kept
  split <;> simp [Token.opens?]

theorem opens?_unclosedRawText (e : OpenElement) (outer : List OpenElement) (start : Nat)
    (rest : List Char) : ∀ t ∈ tokens (unclosedRawText e outer start rest), t.opens? = none := by
  intro t ht
  simp only [unclosedRawText, tokens_append, List.mem_append] at ht
  rcases ht with (ht | ht) | ht
  · simp only [closing, tokens_token_cons, tokens_nil, List.mem_cons, List.not_mem_nil,
      or_false] at ht
    rcases ht with rfl | rfl <;> rfl
  · split at ht <;> simp [malformedEnd] at ht
  · exact opens?_closeAll _ outer t ht

/-- **Reading the rest of a template keeps the stack nested.** -/
theorem nested_scan (hhtml : settings.expectHtml = true)
    (hleft : settings.tags.canBeLeftOpen "p" = true)
    (hbr : ∀ name, settings.tags.isNonPhrasing name = true → lowerString name ≠ "br")
    (opened : List OpenElement) (hopened : Keyed opened)
    (h : NestedStack settings.tags (names opened)) (offset : Nat) (rest : List Char) :
    Nested settings.tags (tokens (scan settings opened offset rest)) (names opened) := by
  fun_induction scan settings opened offset rest with
  | case1 opened offset => exact nested_of_opens?_eq_none (opens?_closeAll offset opened) h
  | case2 opened offset c s _ p r _ _ _ stop emitted dropped ih =>
      rw [tokens_append]
      have hemit := nested_emit hhtml hleft hbr hopened h p offset stop r.isEmpty
      have hreplay := replay_emit settings p offset stop r.isEmpty opened
      have hafter : NestedStack settings.tags (names emitted.2) := by
        rw [← List.append_nil (tokens _)] at hemit
        exact hemit.drop hreplay
      exact hemit.append hreplay (ih (hopened.emit settings p offset stop r.isEmpty) hafter)
  | case3 opened offset c s content e outer hraw _ =>
      exact nested_of_opens?_eq_none (opens?_unclosedRawText e outer offset (c :: s)) h
  | case4 opened offset c s content e outer hraw body endTag r _ _ bodyEnd stop ih =>
      rw [eq_cons_of_rawElement? hraw] at hopened h ⊢
      rw [tokens_append]
      refine Nested.append
        (nested_of_opens?_eq_none (opens?_rawTextEvents content e offset bodyEnd body) h)
        (replay_rawTextEvents content e offset bodyEnd body _) ⟨h, ?_⟩
      intro stack' hstack'
      obtain rfl : names outer = stack' := by
        simpa [Token.replay] using hstack'
      exact ih hopened.tail (nestedStack_cons.mp h).2

/-- A line break is no block content. -/
theorem lowerString_ne_br_of_isNonPhrasing {name : String} (h : Tag.isNonPhrasing name = true) :
    lowerString name ≠ "br" := by
  intro hname
  simp only [Tag.isNonPhrasing, Tag.definition?] at h
  cases hexact : Tag.exactDefinition? name with
  | some d =>
      have hlisted : name ∈ Tag.nonPhrasingNames := by
        rw [hexact] at h
        simp only [Tag.exactDefinition?] at hexact
        split at hexact
        · cases hexact
          simpa using h
        · cases hexact
      exact absurd hname (of_decide_eq_true
        (List.all_eq_true.mp (by decide +kernel : Tag.nonPhrasingNames.all
          fun n => decide (lowerString n ≠ "br")) name hlisted))
  | none =>
      have hbr : (Tag.exactDefinition? "br").filter (·.vocabulary = .svg) = none := by
        decide +kernel
      simp [hexact, hname, hbr] at h

/-- **A start tag always fits into the innermost open element.**  Wherever the tokens of a template
are cut, the elements open at that place are nested, and so is the element of a start tag that
comes next. -/
theorem nests_of_startTag (settings : Settings) (template : String)
    (hhtml : settings.expectHtml = true)
    (hblock : settings.tags.isNonPhrasing = Tag.isNonPhrasing)
    (hleft : settings.tags.canBeLeftOpen = Tag.canBeLeftOpen) {before after : List Token}
    (hsplit : tokens (events settings template) = before ++ after) :
    ∃ stack, replay before [] = some stack ∧
      (stack.IsChain fun inner outer => Nests settings.tags outer inner) ∧
      ∀ name attributes unary start stop,
        after.head? = some (.startTag name attributes unary start stop) →
          ∀ top, stack.head? = some top → Nests settings.tags top name := by
  have hbalanced : replay (tokens (events settings template)) [] = some [] :=
    replay_scan settings [] 0 template.toList
  rw [hsplit, replay_append] at hbalanced
  obtain ⟨stack, hstack, -⟩ := Option.bind_eq_some_iff.mp hbalanced
  have hnested : Nested settings.tags (tokens (events settings template)) [] := by
    refine nested_scan hhtml (by rw [hleft]; decide) ?_ [] Keyed.nil NestedStack.nil 0 _
    rw [hblock]
    intro name hname
    exact lowerString_ne_br_of_isNonPhrasing hname
  rw [hsplit] at hnested
  have hafter := hnested.drop hstack
  refine ⟨stack, hstack, hafter.nestedStack, ?_⟩
  intro name attributes unary start stop hhead top htop
  obtain ⟨rest, rfl⟩ := List.head?_eq_some_iff.mp hhead
  exact (nestedStack_cons.mp hafter.1).1 top htop

/-- In front of a list item, a paragraph inside the previous item and that item are closed. -/
theorem nests_of_startTag_listItem :
    ∃ before after, tokens (events Settings.web "<ul><li>a<p>b<li>c</br></ul>") = before ++ after ∧
      after.head? = some (.startTag "li" [] false 13 17) ∧
      ∃ stack, replay before [] = some stack ∧ stack.head? = some "ul" ∧
        Nests Settings.web.tags "ul" "li" := by
  refine ⟨_, _, (List.take_append_drop 7 _).symm, by decide +kernel, ?_⟩
  obtain ⟨stack, hstack, -, hnext⟩ := nests_of_startTag Settings.web "<ul><li>a<p>b<li>c</br></ul>"
    rfl rfl rfl (List.take_append_drop 7 _).symm
  have hul : (some stack).bind List.head? = some "ul" := by
    rw [← hstack]
    decide +kernel
  exact ⟨stack, hstack, hul, hnext "li" [] false 13 17 (by decide +kernel) "ul" hul⟩

end Templating.Markup
