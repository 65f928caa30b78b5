import Templating.Build.Builder
import Templating.Proofs.Build.Reading

/-!
**Start tags and leaves.**

Reports aside, a start tag adds an element that is open from then on, and text or a comment adds a
leaf to the innermost open element or nothing.  A tag that is opened and closed at once is finished
right after it was opened.

Main definitions:

* `Templating.Build.Builder.Agrees` — builders that differ in what is reported only;
* `Templating.Build.Builder.created`, `Templating.Build.Builder.enter` — adding an element;
* `Templating.Build.Builder.Admits` — the leaves that may be added.

Main results:

* `Templating.Build.Builder.agrees_openElement`, `Templating.Build.Builder.openElement_unary` —
  **what a start tag does**;
* `Templating.Build.Builder.created_of_verbatim`, `Templating.Build.Builder.unopened_created` — what
  a start tag creates;
* `Templating.Build.Builder.addText_leaf`, `Templating.Build.Builder.addComment_placed` — what texts
  and comments do.
-/

set_option autoImplicit false

namespace Templating.Build.Builder

/-! ### Reports -/

/-- Builders that differ in what is reported only. -/
structure Agrees (b b' : Builder) : Prop where
  tree : b'.tree = b.tree
  opened : b'.opened = b.opened
  inVerbatim : b'.inVerbatim = b.inVerbatim
  inPre : b'.inPre = b.inPre

theorem Agrees.refl (b : Builder) : b.Agrees b := ⟨rfl, rfl, rfl, rfl⟩

theorem Agrees.trans {b b' b'' : Builder} (h : b.Agrees b') (h' : b'.Agrees b'') : b.Agrees b'' :=
  ⟨h'.tree.trans h.tree, h'.opened.trans h.opened, h'.inVerbatim.trans h.inVerbatim,
    h'.inPre.trans h.inPre⟩

theorem Agrees.cons_opened {b b' : Builder} (h : b.Agrees b') (id : NodeId) :
    { b with opened := id :: b.opened }.Agrees { b' with opened := id :: b'.opened } :=
  ⟨h.tree, by rw [h.opened], h.inVerbatim, h.inPre⟩

theorem agrees_report (b : Builder) (d : Diagnostic) : b.Agrees (b.report d) := ⟨rfl, rfl, rfl, rfl⟩

theorem agrees_reportAll (b : Builder) (ds : List Diagnostic) : b.Agrees (b.reportAll ds) :=
  ⟨rfl, rfl, rfl, rfl⟩

theorem agrees_reportRoot (b : Builder) (message : String) (start : Nat) :
    b.Agrees (b.reportRoot message start) := by
  unfold reportRoot
  split
  · exact Agrees.refl b
  · exact ⟨rfl, rfl, rfl, rfl⟩

theorem agrees_checkRoot (b : Builder) (id : NodeId) : b.Agrees (b.checkRoot id) := by
  unfold checkRoot
  split
  · exact Agrees.refl b
  · split
    · exact agrees_reportRoot b _ _
    · split
      · exact agrees_reportRoot b _ _
      · exact Agrees.refl b

theorem agrees_strayText (src : Source) (b : Builder) (text : String) (start : Nat) :
    b.Agrees (b.strayText src text start) := by
  unfold strayText
  split
  · exact agrees_reportRoot b _ _
  · dsimp only
    split
    · exact Agrees.refl b
    · exact agrees_reportRoot b _ _

/-! ### Opening an element -/

/-- The element of a start tag, with `v-pre` read unless an open element is rendered as it stands.
-/
def marked (src : Source) (b : Builder) (tag : String) (attributes : List Markup.Attribute)
    (start stop : Nat) : Element :=
  let e := (newElement src b.opened.head? tag attributes start stop).1
  if b.inVerbatim then e else markVerbatim e

/-- The element of a start tag, with everything that is read when it is opened. -/
def created (src : Source) (b : Builder) (tag : String) (attributes : List Markup.Attribute)
    (start stop : Nat) : Element :=
  let e := b.marked src tag attributes start stop
  let e :=
    if b.inVerbatim || e.pre then keepVerbatim e else readOnce (readCondition (readLoop e).1)
  { e with
    branches :=
      match e.condition with
      | some exp => [⟨some exp, b.tree.size⟩]
      | none => [] }

/-- Add an element that is open from now on. -/
def enter (src : Source) (b : Builder) (e : Element) : Builder :=
  { b with
    tree := { b.tree.push (.element e) with root := b.tree.root.or (some b.tree.size) }
    opened := b.tree.size :: b.opened
    inVerbatim := b.inVerbatim || e.pre
    inPre := b.inPre || src.settings.tags.isPre e.tag }

section Created

variable (src : Source) (b : Builder) (tag : String) (attributes : List Markup.Attribute)
  (start stop : Nat)

theorem newElement_eq (parent : Option NodeId) :
    ∃ start' stop' places forbidden, (newElement src parent tag attributes start stop).1 =
      { Element.new tag attributes parent with
        start := start', stop := stop', places, forbidden } := by
  simp only [newElement]
  split
  · exact ⟨_, _, _, _, rfl⟩
  · exact ⟨_, _, _, _, rfl⟩

theorem marked_eq : ∃ start' stop' places forbidden pending pre,
    b.marked src tag attributes start stop =
      { Element.new tag attributes b.opened.head? with
        start := start', stop := stop', places, forbidden, pending, pre } := by
  obtain ⟨start', stop', places, forbidden, hnew⟩ :=
    newElement_eq src tag attributes start stop b.opened.head?
  simp only [marked, hnew]
  split
  · exact ⟨_, _, _, _, _, _, rfl⟩
  · obtain ⟨pending, pre, hmark⟩ := markVerbatim_eq
      { Element.new tag attributes b.opened.head? with
        start := start', stop := stop', places, forbidden }
    exact ⟨_, _, _, _, pending, pre, hmark⟩

theorem unopened_readOpening (e : Element) :
    (readOnce (readCondition (readLoop e).1)).unopened = e.unopened := by
  simp

theorem pre_created : (b.created src tag attributes start stop).pre =
    (b.marked src tag attributes start stop).pre := by
  simp only [created]
  split
  · obtain ⟨attrs, plain, hkeep, -⟩ := keepVerbatim_eq (b.marked src tag attributes start stop)
    rw [hkeep]
  · have hread := unopened_readOpening (b.marked src tag attributes start stop)
    exact (congrArg Element.pre hread :)

theorem tag_created : (b.created src tag attributes start stop).tag = tag := by
  obtain ⟨_, _, _, _, _, _, hmarked⟩ := marked_eq src b tag attributes start stop
  have htag : (b.marked src tag attributes start stop).tag = tag := by rw [hmarked]; rfl
  refine Eq.trans ?_ htag
  simp only [created]
  split
  · obtain ⟨attrs, plain, hkeep, -⟩ := keepVerbatim_eq (b.marked src tag attributes start stop)
    rw [hkeep]
  · have hread := unopened_readOpening (b.marked src tag attributes start stop)
    exact (congrArg Element.tag hread :)

/-- An element that is kept as it stands is new but for its attributes. -/
theorem created_of_verbatim
    (h : (b.inVerbatim || (b.created src tag attributes start stop).pre) = true) :
    ∃ start' stop' places forbidden pending pre plain,
      b.created src tag attributes start stop =
        { Element.new tag attributes b.opened.head? with
          start := start', stop := stop', places, forbidden, pending, pre, plain,
          attrs := literalAttributes pending } := by
  rw [pre_created] at h
  obtain ⟨start', stop', places, forbidden, pending, pre, hmarked⟩ :=
    marked_eq src b tag attributes start stop
  obtain ⟨attrs, plain, hkeep, hattrs⟩ := keepVerbatim_eq (b.marked src tag attributes start stop)
  refine ⟨start', stop', places, forbidden, pending, pre, plain, ?_⟩
  have hliteral : attrs = literalAttributes pending := by
    rw [hattrs (by rw [hmarked]; rfl), hmarked]
  simp only [created]
  rw [if_pos h, hkeep, hmarked, hliteral]
  rfl

/-- Inside an element that is rendered as it stands `v-pre` means nothing. -/
theorem pre_created_of_verbatim (h : b.inVerbatim = true) :
    (b.created src tag attributes start stop).pre = false := by
  obtain ⟨_, _, _, _, hnew⟩ := newElement_eq src tag attributes start stop b.opened.head?
  rw [pre_created, marked, if_pos h, hnew]
  rfl

/-- An element that is open is new but for what is read when it is opened. -/
theorem unopened_created :
    ∃ start' stop' places forbidden pre attrs plain branches,
      (b.created src tag attributes start stop).unopened =
        { (Element.new tag attributes b.opened.head?).unopened with
          start := start', stop := stop', places, forbidden, pre, attrs, plain, branches } ∧
      (∀ a ∈ attrs, a.dynamic = false) ∧ branches.drop 1 = [] := by
  by_cases h : (b.inVerbatim || (b.created src tag attributes start stop).pre) = true
  · obtain ⟨_, _, _, _, _, _, _, hcreated⟩ := created_of_verbatim src b tag attributes start stop h
    rw [hcreated]
    exact ⟨_, _, _, _, _, _, _, [], rfl, fun a ha => dynamic_of_mem_literalAttributes ha, rfl⟩
  · rw [pre_created] at h
    obtain ⟨start', stop', places, forbidden, pending, pre, hmarked⟩ :=
      marked_eq src b tag attributes start stop
    have hread := unopened_readOpening (b.marked src tag attributes start stop)
    simp only [created]
    rw [if_neg h]
    generalize readOnce (readCondition (readLoop (b.marked src tag attributes start stop)).1) = e
      at hread
    generalize hbranches : (match e.condition with
      | some exp => [(⟨some exp, b.tree.size⟩ : Branch)]
      | none => []) = branches
    have hopened := congrArg (fun e : Element => { e with branches }) hread
    rw [hmarked] at hopened
    refine ⟨start', stop', places, forbidden, pre, [], false, branches, hopened, by simp, ?_⟩
    rw [← hbranches]
    split <;> rfl

/-- The element of a start tag when it is read together with its reports. -/
theorem created_eq : b.created src tag attributes start stop =
    let e := b.marked src tag attributes start stop
    let processed : Reported :=
      if b.inVerbatim || e.pre then (keepVerbatim e, [])
      else (readOnce (readCondition (readLoop e).1), (readLoop e).2)
    { processed.1 with
      branches :=
        match processed.1.condition with
        | some exp => [⟨some exp, b.tree.size⟩]
        | none => [] } := by
  simp only [created]
  split <;> rfl

/-- An element with a condition starts as the only branch of its conditional. -/
theorem branches_created : (b.created src tag attributes start stop).branches =
    match (b.created src tag attributes start stop).condition with
    | some exp => [⟨some exp, b.tree.size⟩]
    | none => [] := rfl

/-- The first element becomes the root. -/
theorem agrees_takeRoot (c : Builder) (id : NodeId) :
    { c with tree := { c.tree with root := c.tree.root.or (some id) } }.Agrees
      (if c.tree.root.isNone then
        checkRoot { c with tree := { c.tree with root := some id } } id else c) := by
  split
  · rename_i h
    rw [Option.isNone_iff_eq_none.mp h]
    exact agrees_checkRoot _ id
  · rename_i h
    obtain ⟨root, hroot⟩ : ∃ root, c.tree.root = some root := by
      simpa [Option.ne_none_iff_exists'] using h
    obtain ⟨⟨nodes, root'⟩, _, _, _, _, _⟩ := c
    obtain rfl : root' = some root := hroot
    exact Agrees.refl _

/-- A start tag adds an element that is open from then on. -/
theorem agrees_openElement :
    (b.enter src (b.created src tag attributes start stop)).Agrees
      (b.openElement src tag attributes false start stop) := by
  have hpre := pre_created src b tag attributes start stop
  have htag := tag_created src b tag attributes start stop
  simp only [openElement, Bool.false_eq_true, if_false]
  refine Agrees.trans ?_ (Agrees.cons_opened (agrees_takeRoot _ _) _)
  refine ⟨?_, rfl, ?_, ?_⟩
  · simp only [enter, created_eq]
    rfl
  · simp only [enter, hpre]
    rfl
  · simp only [enter, htag]
    rfl

/-- A tag without an end tag is finished right after it was opened. -/
theorem openElement_unary : b.openElement src tag attributes true start stop =
    { b.openElement src tag attributes false start stop with opened := b.opened }.finishElement src
      b.tree.size := by
  have hopened : (b.openElement src tag attributes false start stop).opened.tail = b.opened := by
    rw [(agrees_openElement src b tag attributes start stop).opened]
    rfl
  rw [← hopened]
  simp only [openElement, if_true, Bool.false_eq_true, if_false, List.tail_cons]

end Created

/-! ### Leaves -/

/-- The leaves that may be added: texts, and interpolations where they are looked for, with the
parts of their text and the code for these.  None of them is marked yet. -/
def Admits (src : Source) (b : Builder) : Node → Prop
  | .element _ => False
  | .expression n => b.inVerbatim = false ∧ n.isStatic = none ∧
      Expression.interpolate? src.delimiters n.text = some n.parts ∧
      n.expression = Expression.concatenation n.parts
  | .text n => n.isStatic = none

/-- Where a node starts and where it ends, when that is recorded. -/
def place : Node → Option Nat × Option Nat
  | .element e => (e.start, e.stop)
  | .expression n => (n.start, n.stop)
  | .text n => (n.start, n.stop)

/-- A place, when places are recorded. -/
def recorded (src : Source) (start stop : Nat) : Option Nat × Option Nat :=
  if src.settings.sourceRanges then (some start, some stop) else (none, none)

/-- **What text does**: it adds a leaf to the innermost open element, or nothing.  The leaf has what
is left of the text, stands where the text does, and is no space behind another. -/
theorem addText_leaf (src : Source) (b : Builder) (text : String) (start stop : Nat) :
    b.Agrees (b.addText src text start stop) ∨
      ∃ parent rest e n, b.opened = parent :: rest ∧ b.tree.element? parent = some e ∧
        b.Admits src n ∧ place n = recorded src start stop ∧
        n.text? = some (normalizeText src b.inPre e.tag e.children.isEmpty text) ∧
        (∀ m, n = .text m → m.text = " " →
          (e.children.getLast?.bind b.tree.node?).any (·.text? = some " ") = false) ∧
        b.addText src text start stop = b.append parent n := by
  have hplace : ((if src.settings.sourceRanges then some start else none),
      (if src.settings.sourceRanges then some stop else none)) = recorded src start stop := by
    unfold recorded
    split <;> rfl
  simp only [addText]
  split
  · exact .inl (agrees_strayText src b text start)
  · rename_i parent rest hopened
    split
    · exact .inl (Agrees.refl b)
    · rename_i e he
      generalize hkept : normalizeText src b.inPre e.tag e.children.isEmpty text = kept
      split
      · exact .inl (Agrees.refl b)
      · split
        · rename_i parts hfound
          obtain ⟨hlooked, hparts⟩ := Option.ite_none_right_eq_some.mp hfound
          have hverbatim : b.inVerbatim = false := by
            simpa using (Bool.and_eq_true_iff.mp hlooked).1
          refine .inr ⟨parent, rest, e, .expression _, hopened, he, ?_, ?_, ?_, ?_, rfl⟩
          · exact ⟨hverbatim, rfl, hparts, rfl⟩
          · exact hplace
          · rw [hkept]
            rfl
          · rintro m ⟨⟩
        · split
          · exact .inl (Agrees.refl b)
          · rename_i hafter
            refine .inr ⟨parent, rest, e, .text _, hopened, he, ?_, ?_, ?_, ?_, rfl⟩
            · rfl
            · exact hplace
            · rw [hkept]
              rfl
            · rintro m ⟨⟩ hspace
              obtain rfl : kept = " " := hspace
              simpa using hafter

/-- Text adds a leaf to the innermost open element, or nothing.  The leaf stands where the text
does. -/
theorem addText_placed (src : Source) (b : Builder) (text : String) (start stop : Nat) :
    b.Agrees (b.addText src text start stop) ∨
      ∃ parent rest n, b.opened = parent :: rest ∧ b.Admits src n ∧
        place n = recorded src start stop ∧ b.addText src text start stop = b.append parent n := by
  refine (addText_leaf src b text start stop).imp_right ?_
  rintro ⟨parent, rest, e, n, hopened, -, hn, hplace, -, -, heq⟩
  exact ⟨parent, rest, n, hopened, hn, hplace, heq⟩

/-- A comment adds a leaf to the innermost open element, where the comment stands. -/
theorem addComment_placed (src : Source) (b : Builder) (text : String) (start stop : Nat) :
    b.Agrees (b.addComment src text start stop) ∨
      ∃ parent rest n, b.opened = parent :: rest ∧ b.Admits src n ∧
        place n = recorded src start stop ∧
        b.addComment src text start stop = b.append parent n := by
  simp only [addComment]
  split
  · exact .inl (Agrees.refl b)
  · rename_i parent rest hopened
    refine .inr ⟨parent, rest, .text _, hopened, ?_, ?_, rfl⟩
    · rfl
    · simp only [place, recorded]
      split <;> rfl

theorem addText_cases (src : Source) (b : Builder) (text : String) (start stop : Nat) :
    b.Agrees (b.addText src text start stop) ∨
      ∃ parent rest n, b.opened = parent :: rest ∧ b.Admits src n ∧
        b.addText src text start stop = b.append parent n := by
  refine (addText_placed src b text start stop).imp_right ?_
  rintro ⟨parent, rest, n, hopened, hn, -, heq⟩
  exact ⟨parent, rest, n, hopened, hn, heq⟩

theorem addComment_cases (src : Source) (b : Builder) (text : String) (start stop : Nat) :
    b.Agrees (b.addComment src text start stop) ∨
      ∃ parent rest n, b.opened = parent :: rest ∧ b.Admits src n ∧
        b.addComment src text start stop = b.append parent n := by
  refine (addComment_placed src b text start stop).imp_right ?_
  rintro ⟨parent, rest, n, hopened, hn, -, heq⟩
  exact ⟨parent, rest, n, hopened, hn, heq⟩

end Templating.Build.Builder
