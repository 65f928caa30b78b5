import Templating.Proofs.Build.Reports

/-!
**Building a tree without reports.**

Reports are never taken back.  As long as there are none, every element that is finished is
attached: it is the root, it becomes a child, or it becomes a branch of a conditional, and then
nothing but single spaces stood between the two.

Main definitions:

* `Templating.Build.Builder.Quiet` — nothing was reported so far;
* `Templating.Build.Builder.Joined` — how an element is attached when there is nothing to report.

Main results:

* `Templating.Build.Builder.joined_attach` — **without reports every element is attached**;
* `Templating.Build.Builder.Quiet.finishElement`, `Templating.Build.Builder.Quiet.openElement` —
  what finishing and opening an element do then.
-/

set_option autoImplicit false

namespace Templating.Build.Builder

/-! ### Without reports -/

/-- Nothing was reported so far. -/
structure Quiet (b : Builder) : Prop where
  problems : b.problems = []
  rootReported : b.rootReported = false

/-- A problem with the root is reported, unless one was reported before. -/
theorem Quiet.reportRoot_ne {b : Builder} (hb : b.Quiet) (message : String) (start : Nat) :
    (b.reportRoot message start).problems ≠ [] := by
  simp [reportRoot, hb.rootReported, report]

theorem Quiet.checkRoot {b : Builder} (hb : b.Quiet) {id : NodeId}
    (h : (b.checkRoot id).problems = []) : b.checkRoot id = b := by
  unfold Builder.checkRoot at h ⊢
  split
  · rfl
  · rename_i e he
    rw [he] at h
    dsimp only at h
    split
    · rename_i htag
      rw [if_pos htag] at h
      exact absurd h (hb.reportRoot_ne _ _)
    · rename_i htag
      rw [if_neg htag] at h
      split
      · rename_i hloop
        rw [if_pos hloop] at h
        exact absurd h (hb.reportRoot_ne _ _)
      · rfl

/-- How an element is attached when there is nothing to report. -/
inductive Joined (t : Tree) (opened : List NodeId) (id : NodeId) (e : Element) : Tree → Prop
  | self (hopened : opened = []) (hroot : t.root = some id) : Joined t opened id e t
  | child {parent : NodeId} {rest : List NodeId} (hopened : opened = parent :: rest)
      (hforbidden : e.forbidden = false) (hbranch : (e.elseCondition.isSome || e.isElse) = false) :
      Joined t opened id e (t.addChild parent id)
  | branch {parent prev : NodeId} {rest : List NodeId} {pe first : Element}
      (hopened : opened = parent :: rest) (hforbidden : e.forbidden = false)
      (hbranch : (e.elseCondition.isSome || e.isElse) = true)
      (hparent : t.element? parent = some pe)
      (hprev : (dropLeaves t pe).children.getLast? = some prev)
      (hfirst : (t.modifyElement parent (dropLeaves t)).element? prev = some first)
      (hcondition : first.condition.isSome = true)
      (hdropped : ∀ c ∈ pe.children.reverse.takeWhile (isLeaf t), droppedText t c = []) :
      Joined t opened id e ((t.modifyElement parent (dropLeaves t)).modifyElement prev
        (withBranch ⟨e.elseCondition, id⟩))
  | root {root : NodeId} {first : Element} (hopened : opened = []) (hroot : t.root = some root)
      (hne : root ≠ id) (hfirst : t.element? root = some first)
      (hcondition : first.condition.isSome = true)
      (hbranch : (e.elseCondition.isSome || e.isElse) = true) :
      Joined t opened id e (t.modifyElement root (withBranch ⟨e.elseCondition, id⟩))

theorem Joined.attached {t t' : Tree} {opened : List NodeId} {id : NodeId} {e : Element}
    (h : Joined t opened id e t') : Attached t opened id e t' := by
  cases h with
  | self hopened _ => exact .nothing (.inl hopened)
  | child hopened hforbidden hbranch => exact .child hopened hforbidden hbranch
  | branch hopened hforbidden hbranch hparent hprev hfirst hcondition _ =>
      exact .branch hopened hforbidden hbranch hparent hprev hfirst hcondition
  | root hopened hroot hne hfirst hcondition hbranch =>
      exact .root hopened hroot hne hfirst hcondition hbranch

/-- A branch finds its conditional, with single spaces between them at most. -/
theorem joined_attachBranch {b : Builder} {parent id : NodeId} {rest : List NodeId}
    {e : Element} (hopened : b.opened = parent :: rest) (hforbidden : e.forbidden = false)
    (hbranch : (e.elseCondition.isSome || e.isElse) = true)
    (h : (b.attachBranch parent id e).problems = []) :
    ∃ t, Joined b.tree b.opened id e t ∧ b.attachBranch parent id e = { b with tree := t } := by
  have hreport : ∀ (b : Builder) (d : Diagnostic), (b.report d).problems ≠ [] := by
    simp [report]
  simp only [attachBranch] at h ⊢
  cases hpe : b.tree.element? parent with
  | none =>
      simp only [previousElement, hpe] at h
      exact absurd h (hreport _ _)
  | some pe =>
      simp only [previousElement, hpe] at h ⊢
      cases hprev : (pe.children.reverse.dropWhile (isLeaf b.tree)).head? with
      | none =>
          simp only [hprev] at h
          exact absurd h (hreport _ _)
      | some prev =>
          simp only [hprev] at h ⊢
          split at h
          · rename_i hstarts
            rw [if_pos hstarts]
            obtain ⟨first, hfirst, hcondition⟩ := (Option.any_eq_true _ _).mp hstarts
            have htree : b.tree.modifyElement parent (dropLeaves b.tree) =
                b.tree.modifyElement parent fun e =>
                  { e with
                    children := (pe.children.reverse.dropWhile (isLeaf b.tree)).reverse } := by
              refine Tree.modifyElement_congr fun e' he' => ?_
              obtain rfl : pe = e' := by simpa [hpe] using he'
              rfl
            have hreported : b.problems ++ (pe.children.reverse.takeWhile (isLeaf b.tree)).flatMap
                (droppedText b.tree) = [] := h
            obtain ⟨-, hdropped⟩ := List.append_eq_nil_iff.mp hreported
            have hlast : (dropLeaves b.tree pe).children.getLast? = some prev := by
              simpa [dropLeaves, Tree.upToElement, List.rdropWhile] using hprev
            refine ⟨_, .branch hopened hforbidden hbranch hpe hlast ?_ hcondition
              (List.flatMap_eq_nil_iff.mp hdropped), ?_⟩
            · rw [htree]
              exact hfirst
            · rw [htree]
              simp only [addBranch, reportAll, hdropped, List.append_nil]
              rfl
          · exact absurd h (hreport _ _)

/-- **Without reports every element is attached.** -/
theorem joined_attach {b : Builder} (hb : b.Quiet) {id : NodeId} {e : Element}
    (hforbidden : e.forbidden = false) (h : (b.attach id e).problems = []) :
    ∃ t, Joined b.tree b.opened id e t ∧ b.attach id e = { b with tree := t } := by
  unfold attach at h ⊢
  split
  · rename_i hopened
    rw [hopened] at h
    dsimp only at h
    split
    · rename_i hroot
      exact ⟨b.tree, .self hopened hroot, rfl⟩
    · rename_i hne
      rw [if_neg hne] at h
      unfold attachRoot at h ⊢
      split
      · rename_i root hroot
        rw [hroot] at h
        dsimp only at h
        split
        · rename_i hstarts
          rw [if_pos hstarts] at h
          have hcheck : b.checkRoot id = b := hb.checkRoot h
          obtain ⟨hcondition, hbranch⟩ := Bool.and_eq_true_iff.mp hstarts
          obtain ⟨first, hfirst, hcondition⟩ := (Option.any_eq_true _ _).mp hcondition
          rw [Tree.rootElement?, hroot] at hfirst
          have hdiff : root ≠ id := fun heq => hne (by rw [hroot, heq])
          refine ⟨_, .root hopened hroot hdiff hfirst hcondition hbranch, ?_⟩
          rw [hcheck]
          rfl
        · rename_i hstarts
          rw [if_neg hstarts] at h
          exact absurd h (hb.reportRoot_ne _ _)
      · rename_i hroot
        rw [hroot] at h
        exact absurd h (hb.reportRoot_ne _ _)
  · rename_i parent rest hopened
    rw [hopened] at h
    dsimp only at h
    rw [if_neg (by simp [hforbidden])] at h ⊢
    split
    · rename_i hbranch
      rw [if_pos hbranch] at h
      exact joined_attachBranch hopened hforbidden hbranch h
    · rename_i hbranch
      exact ⟨_, .child hopened hforbidden (by simpa using hbranch), rfl⟩

theorem rootReported_readAll (src : Source) (b : Builder) (id : NodeId) :
    (b.readAll src id).rootReported = b.rootReported := by
  unfold readAll
  split
  · rfl
  · split <;> rfl

/-- **Finishing an element** without a report attaches it. -/
theorem Quiet.finishElement {src : Source} {b : Builder} (hb : b.Quiet) {id : NodeId} {e : Element}
    (he : b.tree.element? id = some e) (hforbidden : e.forbidden = false)
    (h : (b.finishElement src id).problems = []) :
    (b.finishElement src id).Quiet ∧
      ∃ t, Finished src b id e t (b.finishElement src id) ∧
        Joined (b.tree.modifyElement id fun _ => b.completed src id e) b.opened id
          (b.completed src id e) t := by
  have hread : { b with tree := b.tree.modifyElement id fun _ => b.completed src id e }.Agrees
      ((b.trimEnd id).readAll src id) := agrees_readAll he
  have hcompleted : ((b.trimEnd id).readAll src id).tree.element? id =
      some (b.completed src id e) := by
    rw [hread.tree, Tree.element?_modifyElement, if_pos rfl, he]
    rfl
  have hfinish : b.finishElement src id =
      ((((b.trimEnd id).readAll src id).attach id (b.completed src id e)).trimEnd id).leaveModes
        src id := by
    simp only [Builder.finishElement, hcompleted]
  have hproblems : (((b.trimEnd id).readAll src id).attach id (b.completed src id e)).problems =
      [] := by
    rwa [hfinish, problems_leaveModes, problems_trimEnd] at h
  have hquiet : ((b.trimEnd id).readAll src id).Quiet := by
    refine ⟨?_, ?_⟩
    · have hprefix :=
        (keeps_attach ((b.trimEnd id).readAll src id) id (b.completed src id e)).problems
      rw [hproblems] at hprefix
      exact List.prefix_nil.mp hprefix
    · rw [rootReported_readAll, trimEnd_eq]
      exact hb.rootReported
  have hforbidden' : (b.completed src id e).forbidden = false := by
    have h₁ : (b.completed src id e).forbidden = (b.trimmed e).forbidden :=
      (congrArg Element.forbidden (unclosed_completed src b id e) :)
    have h₂ : (b.trimmed e).forbidden = e.forbidden :=
      (congrArg Element.forbidden (b.core_trimmed e) :)
    rw [h₁, h₂, hforbidden]
  obtain ⟨t, hjoined, hattach⟩ := joined_attach hquiet hforbidden' hproblems
  refine ⟨⟨h, ?_⟩, t, finished_of_attached src b he hjoined.attached ?_, ?_⟩
  · have hleave : ∀ c : Builder, (c.leaveModes src id).rootReported = c.rootReported := by
      intro c
      unfold leaveModes
      split <;> rfl
    rw [hfinish, hleave, trimEnd_eq, hattach]
    exact hquiet.rootReported
  · rw [hattach]
    exact Agrees.refl _
  · rwa [hread.tree, hread.opened] at hjoined

theorem Quiet.takeRoot {b : Builder} (hb : b.Quiet) {id : NodeId}
    (h : (b.takeRoot id).problems = []) :
    b.takeRoot id = { b with tree := { b.tree with root := b.tree.root.or (some id) } } := by
  unfold Builder.takeRoot at h ⊢
  split
  · rename_i hroot
    rw [if_pos hroot] at h
    rw [Option.isNone_iff_eq_none.mp hroot]
    have hquiet : Quiet { b with tree := { b.tree with root := some id } } :=
      ⟨hb.problems, hb.rootReported⟩
    exact hquiet.checkRoot h
  · rename_i hroot
    obtain ⟨root, hroot⟩ : ∃ root, b.tree.root = some root := by
      simpa [Option.ne_none_iff_exists'] using hroot
    obtain ⟨⟨nodes, root'⟩, _, _, _, _, _⟩ := b
    obtain rfl : root' = some root := hroot
    rfl

/-- **Opening an element** without a report adds an element that is not forbidden. -/
theorem Quiet.openElement {src : Source} {b : Builder} (hb : b.Quiet) {tag : String}
    {attributes : List Markup.Attribute} {start stop : Nat}
    (h : (b.openElement src tag attributes false start stop).problems = []) :
    (b.created src tag attributes start stop).forbidden = false ∧
      b.openElement src tag attributes false start stop =
        b.enter src (b.created src tag attributes start stop) := by
  obtain ⟨reports, -, hforbidden, heq⟩ := openElement_eq src b tag attributes start stop
  rw [heq] at h ⊢
  generalize b.created src tag attributes start stop = e at *
  have hnew : b.problems ++ reports = [] := by
    have hprefix := (keeps_takeRoot (b.withNew src e reports) b.tree.size).problems
    rw [show ((b.withNew src e reports).takeRoot b.tree.size).problems = [] from h] at hprefix
    exact List.prefix_nil.mp hprefix
  have hquiet : (b.withNew src e reports).Quiet := ⟨hnew, hb.rootReported⟩
  refine ⟨?_, ?_⟩
  · cases hf : e.forbidden with
    | false => rfl
    | true => exact absurd (List.append_eq_nil_iff.mp hnew).2 (hforbidden hf)
  · obtain rfl : reports = [] := (List.append_eq_nil_iff.mp hnew).2
    rw [hquiet.takeRoot h]
    simp only [withNew, enter, List.append_nil]
    rfl

/-- Text outside of the root is dropped without a report only when it is made of spaces. -/
theorem Quiet.strayText {src : Source} {b : Builder} (hb : b.Quiet) {text : String} {start : Nat}
    (h : (b.strayText src text start).problems = []) :
    b.strayText src text start = b ∧ Text.isBlank text.toList = true := by
  unfold Builder.strayText at h ⊢
  split at h
  · exact absurd h (hb.reportRoot_ne _ _)
  · rename_i htemplate
    rw [if_neg htemplate]
    dsimp only at h ⊢
    split at h
    · rename_i htrimmed
      refine ⟨if_pos htrimmed, (Text.trim_eq_nil_iff _).mp ?_⟩
      simpa using htrimmed
    · exact absurd h (hb.reportRoot_ne _ _)

end Templating.Build.Builder
