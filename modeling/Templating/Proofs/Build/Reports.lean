import Templating.Proofs.Build.Finishing

/-!
**Reports.**

While a tree is built, reports of two kinds come together: those on how the template is written,
which are passed on as they come up, and those on the tree itself.  Reports are never taken back.

Main definitions:

* `Templating.Build.Builder.OnTree` — a report on the tree;
* `Templating.Build.Builder.Keeps` — reports that are still there, in front of reports on the tree.

Main results:

* `Templating.Build.Builder.allOnTree_readDirectives`, `Templating.Build.Builder.keeps_addToken` —
  what the directives of an element and the tokens of a template lead to;
* `Templating.Build.Builder.problems_step` — an event takes no report back.
-/

set_option autoImplicit false

namespace Templating.Build.Builder

/-! ### Reports on the tree -/

/-- A report on the tree, as opposed to one on how the template is written. -/
def OnTree (d : Diagnostic) : Prop := d.problem = .templateStructure ∨ d.problem = .forbiddenTag

theorem onTree_structural (message : String) (span : Option Span) :
    OnTree (structural message span) := .inl rfl

/-- Reports on the tree only. -/
def AllOnTree (ds : List Diagnostic) : Prop := ∀ d ∈ ds, OnTree d

theorem AllOnTree.nil : AllOnTree [] := by
  intro d hd
  cases hd

theorem AllOnTree.single {d : Diagnostic} (h : OnTree d) : AllOnTree [d] := by
  intro d' hd'
  rwa [List.mem_singleton.mp hd']

theorem AllOnTree.append {a b : List Diagnostic} (ha : AllOnTree a) (hb : AllOnTree b) :
    AllOnTree (a ++ b) := by
  intro d hd
  exact (List.mem_append.mp hd).elim (ha d) (hb d)

/-- A single report that is made under some condition. -/
theorem AllOnTree.ite {d : Diagnostic} (h : OnTree d) (p : Prop) [Decidable p] :
    AllOnTree (if p then [d] else []) := by
  split
  · exact .single h
  · exact .nil

theorem allOnTree_attributeProblems (seen : List String) (attributes : List Markup.Attribute) :
    AllOnTree (attributeProblems seen attributes) := by
  induction attributes generalizing seen with
  | nil => exact .nil
  | cons a rest ih =>
      refine .append (.append (.ite (onTree_structural _ _) _) ?_) (ih _)
      split
      · exact .nil
      · exact .single (onTree_structural _ _)

theorem allOnTree_newElement (src : Source) (parent : Option NodeId) (tag : String)
    (attributes : List Markup.Attribute) (start stop : Nat) :
    AllOnTree (newElement src parent tag attributes start stop).2 :=
  .append (allOnTree_attributeProblems [] attributes) (.ite (.inr rfl) _)

theorem allOnTree_readLoop (e : Element) : AllOnTree (readLoop e).2 := by
  unfold readLoop
  dsimp only
  split
  · exact .nil
  · split
    · exact .nil
    · exact .single (onTree_structural _ _)

theorem allOnTree_interpolationProblem (delimiters : Option (String × String))
    (name value : String) (span : Option Span) :
    AllOnTree (interpolationProblem delimiters name value span) :=
  .ite (onTree_structural _ _) _

theorem allOnTree_readKey (e : Element) : AllOnTree (readKey e).2 := by
  unfold readKey
  dsimp only
  split
  · exact .nil
  · exact .ite (onTree_structural _ _) _

theorem allOnTree_readSlot (e : Element) : AllOnTree (readSlot e).2 := by
  unfold readSlot
  split
  · exact .nil
  · exact .ite (onTree_structural _ _) _

theorem allOnTree_readClasses (delimiters : Option (String × String)) (e : Element) :
    AllOnTree (readClasses delimiters e).2 := by
  unfold readClasses
  dsimp only
  cases (take e "class").1 with
  | none =>
      dsimp only
      split <;> exact .nil
  | some classes =>
      dsimp only
      split <;> exact allOnTree_interpolationProblem _ _ _ _

theorem allOnTree_readInlineStyle (delimiters : Option (String × String)) (e : Element) :
    AllOnTree (readInlineStyle delimiters e).2 := by
  unfold readInlineStyle
  dsimp only
  cases (take e "style").1 with
  | none =>
      dsimp only
      split <;> exact .nil
  | some css =>
      dsimp only
      split <;> exact allOnTree_interpolationProblem _ _ _ _

theorem allOnTree_readAttributes (delimiters : Option (String × String))
    (attributes : List Markup.Attribute) (e : Element) :
    AllOnTree (readAttributes delimiters attributes e).2 := by
  induction attributes generalizing e with
  | nil => exact .nil
  | cons a rest ih =>
      refine .append ?_ (ih _)
      unfold readAttribute
      split
      · exact allOnTree_interpolationProblem _ _ _ _
      · exact .ite (onTree_structural _ _) _
      · exact .nil
      · exact .nil

/-- Whatever the directives of an element lead to is reported on the tree. -/
theorem allOnTree_readDirectives (delimiters : Option (String × String)) (inFor : Bool)
    (e : Element) : AllOnTree (readDirectives delimiters inFor e).2 :=
  .append (.append (.append (.append (allOnTree_readKey _) (allOnTree_readSlot _))
    (allOnTree_readClasses _ _)) (allOnTree_readInlineStyle _ _)) (allOnTree_readAttributes _ _ _)

theorem allOnTree_droppedText (t : Tree) (dropped : List NodeId) :
    AllOnTree (dropped.flatMap (droppedText t)) := by
  intro d hd
  obtain ⟨id, -, hd⟩ := List.mem_flatMap.mp hd
  unfold droppedText at hd
  split at hd
  · cases hd
  · dsimp only at hd
    split at hd
    · cases hd
    · rw [List.mem_singleton.mp hd]
      exact onTree_structural _ _

theorem onTree_orphanBranch (e : Element) : OnTree (orphanBranch e) := by
  unfold orphanBranch
  split <;> exact onTree_structural _ _

/-! ### Reports are never taken back -/

/-- **The reports of `b` are still there in `c`**, in front of reports on the tree. -/
def Keeps (b c : Builder) : Prop := ∃ own, c.problems = b.problems ++ own ∧ AllOnTree own

theorem Keeps.of_eq {b c : Builder} (h : c.problems = b.problems) : Keeps b c :=
  ⟨[], by rw [h, List.append_nil], .nil⟩

theorem Keeps.trans {b c d : Builder} (h : Keeps b c) (h' : Keeps c d) : Keeps b d := by
  obtain ⟨own, heq, hown⟩ := h
  obtain ⟨own', heq', hown'⟩ := h'
  exact ⟨own ++ own', by rw [heq', heq, List.append_assoc], hown.append hown'⟩

theorem Keeps.problems {b c : Builder} (h : Keeps b c) : b.problems <+: c.problems := by
  obtain ⟨own, heq, -⟩ := h
  exact ⟨own, heq.symm⟩

theorem keeps_report (b : Builder) {d : Diagnostic} (h : OnTree d) : Keeps b (b.report d) :=
  ⟨[d], rfl, .single h⟩

theorem keeps_reportRoot (b : Builder) (message : String) (start : Nat) :
    Keeps b (b.reportRoot message start) := by
  unfold reportRoot
  split
  · exact .of_eq rfl
  · exact ⟨_, rfl, .single (onTree_structural _ _)⟩

theorem keeps_checkRoot (b : Builder) (id : NodeId) : Keeps b (b.checkRoot id) := by
  unfold checkRoot
  split
  · exact .of_eq rfl
  · split
    · exact keeps_reportRoot b _ _
    · split
      · exact keeps_reportRoot b _ _
      · exact .of_eq rfl

theorem problems_trimEnd (b : Builder) (id : NodeId) : (b.trimEnd id).problems = b.problems := by
  rw [trimEnd_eq]

theorem keeps_readAll (src : Source) (b : Builder) (id : NodeId) :
    Keeps b (b.readAll src id) := by
  unfold readAll
  split
  · exact .of_eq rfl
  · split
    · exact .of_eq rfl
    · exact ⟨_, rfl, allOnTree_readDirectives _ _ _⟩

theorem keeps_previousElement (b : Builder) (parent : NodeId) :
    Keeps b (b.previousElement parent).2 := by
  unfold previousElement
  split
  · exact .of_eq rfl
  · exact ⟨_, rfl, allOnTree_droppedText _ _⟩

theorem keeps_attach (b : Builder) (id : NodeId) (e : Element) : Keeps b (b.attach id e) := by
  have hbranch : ∀ parent, Keeps b (b.attachBranch parent id e) := by
    intro parent
    have hprev := b.keeps_previousElement parent
    have horphan := hprev.trans (keeps_report _ (onTree_orphanBranch e))
    simp only [attachBranch]
    split
    · split
      · exact hprev.trans (.of_eq rfl)
      · exact horphan
    · exact horphan
  have hroot : Keeps b (b.attachRoot id e) := by
    unfold attachRoot
    split
    · split
      · exact (b.keeps_checkRoot id).trans (.of_eq rfl)
      · exact keeps_reportRoot b _ _
    · exact keeps_reportRoot b _ _
  unfold attach
  split
  · split
    · exact .of_eq rfl
    · exact hroot
  · split
    · exact .of_eq rfl
    · split
      · exact hbranch _
      · exact .of_eq rfl

theorem problems_leaveModes (src : Source) (b : Builder) (id : NodeId) :
    (b.leaveModes src id).problems = b.problems := by
  unfold leaveModes
  split <;> rfl

theorem keeps_finishElement (src : Source) (b : Builder) (id : NodeId) :
    Keeps b (b.finishElement src id) := by
  have hread : Keeps b ((b.trimEnd id).readAll src id) :=
    (Keeps.of_eq (b.problems_trimEnd id)).trans (keeps_readAll src _ id)
  simp only [finishElement]
  split
  · exact hread
  · rename_i e _
    refine (hread.trans (keeps_attach _ id e)).trans (.of_eq ?_)
    rw [problems_leaveModes, problems_trimEnd]

/-- The first element becomes the root, and is checked then. -/
def takeRoot (b : Builder) (id : NodeId) : Builder :=
  if b.tree.root.isNone then checkRoot { b with tree := { b.tree with root := some id } } id else b

theorem keeps_takeRoot (b : Builder) (id : NodeId) : Keeps b (b.takeRoot id) := by
  unfold takeRoot
  split
  · exact keeps_checkRoot { b with tree := { b.tree with root := some id } } id
  · exact .of_eq rfl

/-- The builder with an element that a start tag brings and the reports that come with it, before
the first element becomes the root. -/
def withNew (src : Source) (b : Builder) (e : Element) (reports : List Diagnostic) : Builder :=
  { b with
    tree := b.tree.push (.element e)
    inVerbatim := b.inVerbatim || e.pre
    inPre := b.inPre || src.settings.tags.isPre e.tag
    problems := b.problems ++ reports }

theorem forbidden_created (src : Source) (b : Builder) (tag : String)
    (attributes : List Markup.Attribute) (start stop : Nat) :
    (b.created src tag attributes start stop).forbidden =
      (newElement src b.opened.head? tag attributes start stop).1.forbidden := by
  have hmarked : (b.marked src tag attributes start stop).forbidden =
      (newElement src b.opened.head? tag attributes start stop).1.forbidden := by
    simp only [marked]
    split
    · rfl
    · obtain ⟨_, _, hmark⟩ :=
        markVerbatim_eq (newElement src b.opened.head? tag attributes start stop).1
      rw [hmark]
  refine Eq.trans ?_ hmarked
  simp only [created]
  split
  · obtain ⟨_, _, hkeep, -⟩ := keepVerbatim_eq (b.marked src tag attributes start stop)
    rw [hkeep]
  · have hread := unopened_readOpening (b.marked src tag attributes start stop)
    exact (congrArg Element.forbidden hread :)

/-- **What a start tag does**, with its reports.  A forbidden tag is reported. -/
theorem openElement_eq (src : Source) (b : Builder) (tag : String)
    (attributes : List Markup.Attribute) (start stop : Nat) :
    ∃ reports, AllOnTree reports ∧
      ((b.created src tag attributes start stop).forbidden = true → reports ≠ []) ∧
      b.openElement src tag attributes false start stop =
        { (b.withNew src (b.created src tag attributes start stop)
            reports).takeRoot b.tree.size with
          opened := b.tree.size :: ((b.withNew src (b.created src tag attributes start stop)
            reports).takeRoot b.tree.size).opened } := by
  have hforbidden : (b.created src tag attributes start stop).forbidden = true →
      (newElement src b.opened.head? tag attributes start stop).2 ≠ [] := by
    rw [forbidden_created]
    intro h hnil
    simp only [newElement] at h hnil
    rw [if_pos h] at hnil
    simp at hnil
  have hpre := pre_created src b tag attributes start stop
  have htag := tag_created src b tag attributes start stop
  refine ⟨(newElement src b.opened.head? tag attributes start stop).2 ++
    (if b.inVerbatim || (b.marked src tag attributes start stop).pre then []
      else (readLoop (b.marked src tag attributes start stop)).2), ?_, ?_, ?_⟩
  · refine (allOnTree_newElement _ _ _ _ _ _).append ?_
    split
    · exact .nil
    · exact allOnTree_readLoop _
  · intro h hnil
    exact hforbidden h (List.append_eq_nil_iff.mp hnil).1
  · have hreports : (if b.inVerbatim || (b.marked src tag attributes start stop).pre then []
        else (readLoop (b.marked src tag attributes start stop)).2) =
        (if b.inVerbatim || (b.marked src tag attributes start stop).pre then
          ((keepVerbatim (b.marked src tag attributes start stop), []) : Reported)
        else (readOnce (readCondition (readLoop (b.marked src tag attributes start stop)).1),
          (readLoop (b.marked src tag attributes start stop)).2)).2 := by
      split <;> rfl
    rw [hreports]
    simp only [openElement, Bool.false_eq_true, if_false]
    simp only [withNew, hpre, htag]
    simp only [created_eq]
    rfl

theorem keeps_openElement (src : Source) (b : Builder) (tag : String)
    (attributes : List Markup.Attribute) (unary : Bool) (start stop : Nat) :
    Keeps b (b.openElement src tag attributes unary start stop) := by
  have hopen : Keeps b (b.openElement src tag attributes false start stop) := by
    obtain ⟨reports, hreports, -, heq⟩ := openElement_eq src b tag attributes start stop
    have hnew : Keeps b (b.withNew src (b.created src tag attributes start stop) reports) :=
      ⟨reports, rfl, hreports⟩
    rw [heq]
    exact (hnew.trans (keeps_takeRoot _ b.tree.size)).trans (.of_eq rfl)
  cases unary with
  | false => exact hopen
  | true =>
      rw [openElement_unary]
      have hfinish := keeps_finishElement src
        { b.openElement src tag attributes false start stop with opened := b.opened } b.tree.size
      exact (hopen.trans (.of_eq rfl)).trans hfinish

theorem keeps_closeInnermost (src : Source) (b : Builder) (stop : Nat) :
    Keeps b (b.closeInnermost src stop) := by
  unfold closeInnermost
  split
  · exact .of_eq rfl
  · rename_i id opened _
    dsimp only
    split
    · exact keeps_finishElement src
        { b with
          opened
          tree := b.tree.modifyElement id fun e => { e with stop := some stop } } id
    · exact keeps_finishElement src { b with opened } id

theorem keeps_addText (src : Source) (b : Builder) (text : String) (start stop : Nat) :
    Keeps b (b.addText src text start stop) := by
  have hstray : Keeps b (b.strayText src text start) := by
    unfold strayText
    split
    · exact keeps_reportRoot b _ _
    · dsimp only
      split
      · exact .of_eq rfl
      · exact keeps_reportRoot b _ _
  simp only [addText]
  split
  · exact hstray
  · split
    · exact .of_eq rfl
    · split
      · exact .of_eq rfl
      · split
        · exact .of_eq rfl
        · split <;> exact .of_eq rfl

/-- **A token takes no report back**, and leads to reports on the tree only. -/
theorem keeps_addToken (src : Source) (b : Builder) (t : Markup.Token) :
    Keeps b (b.addToken src t) := by
  cases t with
  | startTag tag attributes unary start stop =>
      exact keeps_openElement src b tag attributes unary start stop
  | endTag name start stop => exact keeps_closeInnermost src b stop
  | text text start stop => exact keeps_addText src b text start stop
  | comment text start stop =>
      simp only [addToken, addComment]
      split <;> exact .of_eq rfl
  | doctype => exact .of_eq rfl

/-- **An event takes no report back.** -/
theorem problems_step (src : Source) (b : Builder) (event : Markup.Event) :
    b.problems <+: (b.step src event).problems := by
  cases event with
  | problem d => exact List.prefix_append _ _
  | token t => exact (keeps_addToken src b t).problems

theorem problems_foldl (src : Source) (events : List Markup.Event) (b : Builder) :
    b.problems <+: (events.foldl (step src) b).problems := by
  induction events generalizing b with
  | nil => exact List.prefix_rfl
  | cons event events ih => exact (problems_step src b event).trans (ih _)

end Templating.Build.Builder
