import Templating.Proofs.Render.Gathering
import Templating.Proofs.Render.Placing

/-!
**Which elements get a function of their own.**

When no element is rendered once, the elements that are rendered once and for all are the marked
ones among those that are rendered, each of them once.  What else is known of an element does not
matter for this; in particular it may be rendered as it stands, or lie inside such an element.

Main definitions:

* `Templating.Tree.ListsMarks` — a list of the marked nodes of a kind, by increasing number;
* `Templating.Render.Collects` — what the generator puts aside on its way;
* `Templating.Render.Generator.Ready` — what the generator has to know and not to know before.

Main results:

* `Templating.Render.exists_collects_each`, `Templating.Render.exists_collects_element`,
  `Templating.Render.exists_collects_branches` — the parts of an element;
* `Templating.Render.exists_collects_run` — **the marked nodes that are rendered are put aside**.
-/

set_option autoImplicit false

namespace Templating

open Static (dependents)

/-! ### Lists of marked nodes -/

/-- The list has the marked nodes of `R`, by increasing number. -/
structure Tree.ListsMarks (t : Tree) (R : NodeId → Prop) (roots : List NodeId) : Prop where
  ordered : roots.Pairwise (· < ·)
  member : ∀ r, r ∈ roots ↔ R r ∧ (t.marks r).isSome = true

namespace Tree.ListsMarks

variable {t : Tree} {R R' : NodeId → Prop} {roots roots' : List NodeId}

theorem nil (h : ∀ k, R k → t.marks k = none) : t.ListsMarks R [] := by
  refine ⟨.nil, fun r => ?_⟩
  constructor
  · intro hr
    cases hr
  · rintro ⟨hr, hmark⟩
    simp [h r hr] at hmark

theorem congr (h : t.ListsMarks R roots) (hR : ∀ k, R' k ↔ R k) : t.ListsMarks R' roots :=
  ⟨h.ordered, fun r => by rw [hR, h.member]⟩

/-- One after another. -/
theorem append (h : t.ListsMarks R roots) (h' : t.ListsMarks R' roots')
    (hlt : ∀ k k' : Nat, R k → R' k' → k < k') :
    t.ListsMarks (fun k => R k ∨ R' k) (roots ++ roots') := by
  refine ⟨List.pairwise_append.mpr ⟨h.ordered, h'.ordered, fun r hr r' hr' => ?_⟩, fun r => ?_⟩
  · exact hlt r r' ((h.member r).mp hr).1 ((h'.member r').mp hr').1
  · rw [List.mem_append, h.member, h'.member, or_and_right]

/-- Where nothing is marked, the list is empty. -/
theorem eq_nil (h : t.ListsMarks R roots) (hR : ∀ k, R k → t.marks k = none) : roots = [] := by
  refine List.eq_nil_iff_forall_not_mem.mpr fun r hr => ?_
  obtain ⟨hreach, hmark⟩ := (h.member r).mp hr
  simp [hR r hreach] at hmark

/-- A marked element that has no marks below it. -/
theorem single {id : NodeId} (hid : (t.marks id).isSome = true) (hself : R id)
    (hbelow : ∀ k, R k → k ≠ id → t.marks k = none) : t.ListsMarks R [id] := by
  refine ⟨List.pairwise_singleton _ _, fun r => ?_⟩
  rw [List.mem_singleton]
  constructor
  · rintro rfl
    exact ⟨hself, hid⟩
  · rintro ⟨hr, hmark⟩
    by_contra hne
    simp [hbelow r hr hne] at hmark

end Tree.ListsMarks

namespace Render

/-! ### What is put aside on the way -/

/-- **What the generator puts aside on its way from `g` to `g'`**: the codes of `roots`, which are
the marked nodes of `R`.  It deals with nodes of `K` only. -/
structure Collects (t : Tree) (R K : NodeId → Prop) (roots : List NodeId) (g g' : Generator) :
    Prop where
  lists : t.ListsMarks R roots
  hoisted : ∃ codes, g'.hoisted = g.hoisted ++ codes ∧ codes.map Code.origin? = roots.map some
  keeps : g.Keeps K g'

/-- The generator has not dealt with any node of `R`, and it takes nothing for literal in which
there is a mark. -/
structure Generator.Ready (t : Tree) (g : Generator) (R : NodeId → Prop) : Prop where
  untouched : ∀ k, R k → g.Untouched k
  verbatim : g.verbatim = true → ∀ k, R k → t.marks k = none

/-- The generator inside an element whose code is put aside. -/
def Generator.inside (g : Generator) (id : NodeId) (e : Element) : Generator :=
  { g with staticDone := id :: g.staticDone, verbatim := g.verbatim || e.pre }

section Collects

variable {t : Tree} {R R' K K' : NodeId → Prop} {roots roots' : List NodeId}
  {g g' g'' : Generator}

theorem Generator.Ready.mono (h : g.Ready t R) (hR : ∀ k, R' k → R k) : g.Ready t R' :=
  ⟨fun k hk => h.untouched k (hR k hk), fun hg k hk => h.verbatim hg k (hR k hk)⟩

theorem Generator.Ready.keeps (h : g.Ready t R) (hkeeps : g.Keeps R' g') (hR : ∀ k, R k → ¬R' k) :
    g'.Ready t R :=
  ⟨fun k hk => hkeeps.untouched k (hR k hk) (h.untouched k hk),
    fun hg => h.verbatim (hkeeps.verbatim ▸ hg)⟩

/-- Where nothing is marked, nothing is put aside. -/
theorem collects_nil (h : ∀ k, R k → t.marks k = none) : Collects t R K [] g g :=
  ⟨.nil h, ⟨[], (List.append_nil _).symm, rfl⟩, .refl K g⟩

theorem Collects.congr (h : Collects t R K roots g g') (hR : ∀ k, R' k ↔ R k) :
    Collects t R' K roots g g' :=
  ⟨h.lists.congr hR, h.hoisted, h.keeps⟩

theorem Collects.mono (h : Collects t R K roots g g') (hK : ∀ k, K k → K' k) :
    Collects t R K' roots g g' :=
  ⟨h.lists, h.hoisted, h.keeps.mono hK⟩

/-- One after another. -/
theorem Collects.append (h : Collects t R K roots g g') (h' : Collects t R' K roots' g' g'')
    (hlt : ∀ k k' : Nat, R k → R' k' → k < k') :
    Collects t (fun k => R k ∨ R' k) K (roots ++ roots') g g'' := by
  obtain ⟨codes, heq, horigin⟩ := h.hoisted
  obtain ⟨codes', heq', horigin'⟩ := h'.hoisted
  refine ⟨h.lists.append h'.lists hlt, ⟨codes ++ codes', ?_, ?_⟩, h.keeps.trans h'.keeps⟩
  · rw [heq', heq, List.append_assoc]
  · rw [List.map_append, List.map_append, horigin, horigin']

/-- What the generator remembers before it starts does not matter for what is put aside. -/
theorem Collects.of_keeps (h : Collects t R K roots g' g'') (hkeeps : g.Keeps K g')
    (hhoisted : g'.hoisted = g.hoisted) : Collects t R K roots g g'' :=
  ⟨h.lists, hhoisted ▸ h.hoisted, hkeeps.trans h.keeps⟩

end Collects

/-! ### The parts of an element -/

/-- Rendering a node puts aside the marked nodes that are rendered below it. -/
def CollectsAt (t : Tree) (recur : Renderer) (id : NodeId) : Prop :=
  ∀ g : Generator, g.Ready t (t.Reach dependents id) →
    ∃ roots, Collects t (t.Reach rendered id) (t.Reach dependents id) roots g
      (recur (.element id) g).2

section Parts

variable {settings : Settings} {t : Tree} {recur : Renderer}

/-- **Several nodes**, one after another. -/
theorem exists_collects_each {ids : List NodeId} (hids : ∀ id ∈ ids, CollectsAt t recur id)
    (hpair : ids.Pairwise t.Precedes) :
    ∀ {g : Generator}, g.Ready t (t.Reaches dependents ids) →
      ∃ roots, Collects t (t.Reaches rendered ids) (t.Reaches dependents ids) roots g
        (renderEach recur ids g).2 := by
  induction ids with
  | nil =>
      intro g _
      exact ⟨[], collects_nil fun k hk => absurd hk Tree.not_reaches_nil⟩
  | cons id ids ih =>
      intro g hready
      rw [List.pairwise_cons] at hpair
      obtain ⟨roots, hfirst⟩ := hids id (by simp) g
        (hready.mono fun k hk => Tree.reaches_cons.mpr (.inl hk))
      -- what lies below the first node does not lie below the others
      have hdisjoint : ∀ k, t.Reaches dependents ids k → ¬t.Reach dependents id k :=
        fun _ => Tree.not_reach_of_precedes hpair.1
      obtain ⟨roots', hothers⟩ := ih (fun b hb => hids b (List.mem_cons_of_mem id hb)) hpair.2
        ((hready.mono fun k hk => Tree.reaches_cons.mpr (.inr hk)).keeps hfirst.keeps hdisjoint)
      refine ⟨roots ++ roots', ((hfirst.mono fun k hk => Tree.reaches_cons.mpr (.inl hk)).append
        (hothers.mono fun k hk => Tree.reaches_cons.mpr (.inr hk)) ?_).congr
        fun k => Tree.reaches_cons⟩
      rintro k k' hk ⟨b, hb, hk'⟩
      exact hpair.1 b hb k k' (reach_of_rendered hk) (reach_of_rendered hk')

section Element

variable {e : Element} (hids : ∀ id ∈ e.children, CollectsAt t recur id)
  (hpair : e.children.Pairwise t.Precedes)
  {g : Generator} (hready : g.Ready t (t.Reaches dependents e.children))

include hids hpair hready

theorem exists_collects_children (flatten : Bool) :
    ∃ roots, Collects t (t.Reaches rendered e.children) (t.Reaches dependents e.children) roots g
      (renderChildren settings t recur e flatten g).2 := by
  unfold renderChildren
  cases honly : onlyLoop? t e with
  | some p =>
      obtain ⟨id, child⟩ := p
      have hchildren := children_of_onlyLoop? honly
      rw [hchildren] at hready ⊢
      obtain ⟨roots, hitem⟩ := hids id (by simp [hchildren]) g
        (hready.mono fun k hk => Tree.reaches_singleton.mpr hk)
      exact ⟨roots, (hitem.mono fun k hk => Tree.reaches_singleton.mpr hk).congr
        fun k => Tree.reaches_singleton⟩
  | none =>
      dsimp only
      split
      · rename_i hchildren
        rw [hchildren]
        exact ⟨[], collects_nil fun k hk => absurd hk Tree.not_reaches_nil⟩
      · exact exists_collects_each hids hpair hready

/-- **An element itself**, without its loop and its conditional. -/
theorem exists_collects_element (id : NodeId) :
    ∃ roots, Collects t (t.Reaches rendered (renderedChildren e))
      (t.Reaches dependents e.children) roots g (renderElement settings t recur id e g).2 := by
  have hchildren : ∀ flatten, ∃ roots, Collects t (t.Reaches rendered e.children)
      (t.Reaches dependents e.children) roots g
      (renderChildren settings t recur e flatten g).2 := exists_collects_children hids hpair hready
  unfold renderElement
  split
  · rename_i htag
    have hrendered : renderedChildren e = e.children := if_neg (by simp [htag.1])
    rw [hrendered]
    exact hchildren false
  · rename_i htemplate
    split
    · rename_i htag
      have hrendered : renderedChildren e = e.children := if_neg (by simp [htag])
      rw [hrendered]
      exact hchildren false
    · rename_i hslot
      have hinline : ∃ roots, Collects t (t.Reaches rendered (renderedChildren e))
          (t.Reaches dependents e.children) roots g
          (if e.inlineTemplate then (.absent, g)
            else renderChildren settings t recur e true g : Code × Generator).2 := by
        by_cases hinline : e.inlineTemplate
        · rw [if_pos hinline]
          refine ⟨[], collects_nil fun k hk => ?_⟩
          unfold renderedChildren at hk
          split at hk
          · exact absurd hk Tree.not_reaches_nil
          · -- a template that is taken for literal, which has no marks inside
            rename_i hnot
            have htag : e.tag = "template" := by
              by_contra hne
              exact hnot ⟨hinline, hne, hslot⟩
            have hverbatim : g.verbatim = true := by
              by_contra hne
              exact htemplate ⟨htag, by simpa using hne⟩
            exact hready.verbatim hverbatim k (reaches_of_rendered hk)
        · have hrendered : renderedChildren e = e.children := if_neg fun hall => hinline hall.1
          rw [if_neg hinline, hrendered]
          exact hchildren true
      cases e.component with
      | some name => exact hinline
      | none => exact hinline

end Element

/-- **The further branches of a conditional.** -/
theorem exists_collects_branches (origin : NodeId)
    (honce : ∀ id e, t.element? id = some e → e.once = false) {branches : List Branch}
    (hids : ∀ b ∈ branches, CollectsAt t recur b.block)
    (hpair : (branches.map (·.block)).Pairwise t.Precedes) :
    ∀ {g : Generator}, g.Ready t (t.Reaches dependents (branches.map (·.block))) →
      ∃ roots, Collects t (t.Reaches rendered (renderedBlocks branches))
        (t.Reaches dependents (branches.map (·.block))) roots g
        (renderBranches t recur origin branches g).2 := by
  induction branches with
  | nil =>
      intro g _
      exact ⟨[], collects_nil fun k hk => absurd hk Tree.not_reaches_nil⟩
  | cons b branches ih =>
      intro g hready
      rw [List.map_cons, List.pairwise_cons] at hpair
      have hin : ∀ k, t.Reach dependents b.block k →
          t.Reaches dependents ((b :: branches).map (·.block)) k :=
        fun k hk => Tree.reaches_cons.mpr (.inl hk)
      have hout : ∀ k, t.Reaches dependents (branches.map (·.block)) k →
          t.Reaches dependents ((b :: branches).map (·.block)) k :=
        fun k hk => Tree.reaches_cons.mpr (.inr hk)
      obtain ⟨roots, hblock⟩ := hids b (by simp) g (hready.mono hin)
      unfold renderBranches renderedBlocks
      rw [branchJob_eq_element honce]
      cases b.condition with
      | none => exact ⟨roots, (hblock.mono hin).congr fun k => Tree.reaches_singleton⟩
      | some exp =>
          have hdisjoint : ∀ k, t.Reaches dependents (branches.map (·.block)) k →
              ¬t.Reach dependents b.block k :=
            fun _ => Tree.not_reach_of_precedes hpair.1
          obtain ⟨roots', hothers⟩ := ih (fun b' hb' => hids b' (List.mem_cons_of_mem b hb'))
            hpair.2 ((hready.mono hout).keeps hblock.keeps hdisjoint)
          refine ⟨roots ++ roots', ((hblock.mono hin).append (hothers.mono hout) ?_).congr
            fun k => Tree.reaches_cons⟩
          rintro k k' hk ⟨c, hc, hk'⟩
          exact hpair.1 c ((renderedBlocks_sublist branches).subset hc) k k' (reach_of_rendered hk)
            (reach_of_rendered hk')

end Parts

/-! ### From the inside out -/

section Stages

variable {settings : Settings} {t : Tree} {root : NodeId} {id : Nat} {e : Element}
  {g : Generator} {fuel : Nat} (ht : OnceFree t root)
  (hid : t.Reach dependents root id) (he : t.element? id = some e)

include ht hid he

/-- Dealing with an element leaves the generator ready for what lies below it. -/
theorem OnceFree.ready_keeps {g' : Generator}
    (hready : g.Ready t (t.Reaches dependents (dependents e))) (hkeeps : g.Keeps (· = id) g') :
    g'.Ready t (t.Reaches dependents (dependents e)) := by
  have hbehind := (ht.forest.pairwise_dependents (Tree.reaches_singleton.mpr hid) he).1
  exact hready.keeps hkeeps fun k hk hsame => Nat.lt_irrefl id (hsame ▸ hbehind k hk)

variable (hbelow : ∀ fuel : Nat, 4 * (t.size - id) ≤ fuel + 4 → ∀ c ∈ dependents e,
    CollectsAt t (run settings t fuel) c)
  (hready : g.Ready t (t.Reaches dependents (dependents e)))
  (hstatic : e.staticRoot = some true → id ∈ g.staticDone)

include hbelow hready hstatic

/-- An element whose loop and conditional were dealt with. -/
theorem exists_collects_done (hfuel : 4 * (t.size - id) ≤ fuel + 4)
    (hloop : e.loop.isSome = true → id ∈ g.loopDone)
    (hchoice : e.condition.isSome = true → id ∈ g.choiceDone) :
    ∃ roots, Collects t (t.Reaches rendered (renderedChildren e))
      (t.Reaches dependents e.children) roots g (run settings t (fuel + 1) (.element id) g).2 := by
  have hpair := (ht.forest.pairwise_dependents (Tree.reaches_singleton.mpr hid) he).2
  rw [run_of_done he hstatic (ht.onceDone he g) hloop hchoice]
  exact exists_collects_element
    (fun c hc => hbelow fuel hfuel c (List.mem_append_left _ hc)) (List.pairwise_append.mp hpair).1
    (hready.mono fun k hk => Tree.reaches_append.mpr (.inl hk)) id

/-- An element whose loop was dealt with. -/
theorem exists_collects_chosen (hfuel : 4 * (t.size - id) ≤ fuel + 3)
    (hloop : e.loop.isSome = true → id ∈ g.loopDone) (hchoice : id ∉ g.choiceDone) :
    ∃ roots, Collects t (t.Reaches rendered (rendered e)) (t.Reach dependents id) roots g
      (run settings t (fuel + 1) (.element id) g).2 := by
  obtain ⟨-, hpair, hcross⟩ := List.pairwise_append.mp
    (ht.forest.pairwise_dependents (Tree.reaches_singleton.mpr hid) he).2
  have hself : ∀ k, t.Reaches dependents (dependents e) k → t.Reach dependents id k :=
    fun k hk => (Tree.reach_iff_of_element he).mpr (.inr hk)
  have hchildren : ∀ k, t.Reaches dependents e.children k → t.Reach dependents id k :=
    fun k hk => hself k (Tree.reaches_append.mpr (.inl hk))
  have hbranches : ∀ k, t.Reaches dependents ((e.branches.drop 1).map (·.block)) k →
      t.Reaches dependents (dependents e) k := fun k hk => Tree.reaches_append.mpr (.inr hk)
  by_cases hcondition : e.condition.isSome = true
  · have hlt := Tree.lt_size_of_element? he
    obtain ⟨fuel, rfl⟩ : ∃ f, fuel = f + 1 := ⟨fuel - 1, by omega⟩
    -- the first branch is the element itself
    obtain ⟨exp, further, hchain⟩ := exists_branches_eq (ht.chained id e he) hcondition
    have hrendered : rendered e = renderedChildren e ++ renderedBlocks further := by
      simp [rendered, hcondition, hchain]
    rw [run_of_choice he hstatic (ht.onceDone he g) hloop hcondition hchoice, renderChoice, hchain,
      renderBranches, branchJob_eq_element ht.once, hrendered]
    rw [hchain, List.drop_one, List.tail_cons] at hpair hcross hbranches
    have hkeeps := g.keeps_choice id
    have hready' := ht.ready_keeps hid he hready hkeeps
    obtain ⟨roots, hown⟩ : ∃ roots, Collects t (t.Reaches rendered (renderedChildren e))
        (t.Reaches dependents e.children) roots { g with choiceDone := id :: g.choiceDone }
        (run settings t (fuel + 1) (.element id) { g with choiceDone := id :: g.choiceDone }).2 :=
      exists_collects_done ht hid he hbelow hready' hstatic (by omega) hloop (by simp)
    -- what lies below the further branches does not lie below the children
    have hdisjoint : ∀ k, t.Reaches dependents (further.map (·.block)) k →
        ¬t.Reaches dependents e.children k :=
      fun _ => Tree.not_reaches_of_precedes hcross
    obtain ⟨roots', hothers⟩ := exists_collects_branches id ht.once
      (fun b hb => hbelow (fuel + 1) (by omega) b.block
        (List.mem_append_right _ (by simpa [hchain] using ⟨b, hb, rfl⟩)))
      hpair ((hready'.mono hbranches).keeps hown.keeps hdisjoint)
    have hall := (hown.mono hchildren).append
      (hothers.mono fun k hk => hself k (hbranches k hk)) (by
        rintro k k' ⟨a, ha, hk⟩ ⟨b, hb, hk'⟩
        exact hcross a ((renderedChildren_sublist e).subset ha) b
          ((renderedBlocks_sublist _).subset hb) k k' (reach_of_rendered hk)
          (reach_of_rendered hk'))
    exact ⟨roots ++ roots', (hall.congr fun k => Tree.reaches_append).of_keeps
      (hkeeps.mono fun k hk => hk ▸ .refl) rfl⟩
  · have hrendered : rendered e = renderedChildren e := by simp [rendered, hcondition]
    obtain ⟨roots, hown⟩ : ∃ roots, Collects t (t.Reaches rendered (renderedChildren e))
        (t.Reaches dependents e.children) roots g
        (run settings t (fuel + 1) (.element id) g).2 :=
      exists_collects_done ht hid he hbelow hready hstatic (by omega) hloop
        fun h => absurd h hcondition
    rw [hrendered]
    exact ⟨roots, hown.mono hchildren⟩

/-- An element that is not rendered once and for all, or was put aside already. -/
theorem exists_collects_looped (hfuel : 4 * (t.size - id) ≤ fuel + 2) (hloop : id ∉ g.loopDone)
    (hchoice : id ∉ g.choiceDone) :
    ∃ roots, Collects t (t.Reaches rendered (rendered e)) (t.Reach dependents id) roots g
      (run settings t (fuel + 1) (.element id) g).2 := by
  cases hl : e.loop with
  | none =>
      exact exists_collects_chosen ht hid he hbelow hready hstatic (by omega) (by simp [hl]) hchoice
  | some l =>
      have hlt := Tree.lt_size_of_element? he
      obtain ⟨fuel, rfl⟩ : ∃ f, fuel = f + 1 := ⟨fuel - 1, by omega⟩
      rw [run_of_loop he hstatic (ht.onceDone he g) hl hloop, renderLoop]
      have hkeeps := g.keeps_loop id
      obtain ⟨roots, hbody⟩ : ∃ roots, Collects t (t.Reaches rendered (rendered e))
          (t.Reach dependents id) roots { g with loopDone := id :: g.loopDone }
          (run settings t (fuel + 1) (.element id) { g with loopDone := id :: g.loopDone }).2 :=
        exists_collects_chosen ht hid he hbelow (ht.ready_keeps hid he hready hkeeps) hstatic
          (by omega) (by simp) hchoice
      exact ⟨roots, hbody.of_keeps (hkeeps.mono fun k hk => hk ▸ .refl) rfl⟩

omit hstatic in
/-- **An element that is rendered once and for all** is put aside, and nothing below it. -/
theorem collects_renderStatic (hfuel : 4 * (t.size - id) ≤ fuel + 1)
    (hroot : e.staticRoot = some true) (hloop : id ∉ g.loopDone) (hchoice : id ∉ g.choiceDone) :
    Collects t (t.Reach rendered id) (t.Reach dependents id) [id] g
      (renderStatic (run settings t fuel) id e g).2 := by
  have hlt := Tree.lt_size_of_element? he
  obtain ⟨fuel, rfl⟩ : ∃ f, fuel = f + 1 := ⟨fuel - 1, by omega⟩
  have hapart : ∀ k, t.Reaches dependents (dependents e) k → t.marks k = none :=
    fun k hk => ht.apart id e k hid he hroot hk
  have hunmarked : ∀ k, t.Reaches rendered (rendered e) k → t.marks k = none := by
    intro k hk
    obtain ⟨c, hc, hreach⟩ := reaches_of_rendered hk
    exact hapart k ⟨c, (rendered_sublist e).subset hc, hreach⟩
  have hinside : (g.inside id e).Ready t (t.Reaches dependents (dependents e)) :=
    ⟨(ht.ready_keeps hid he hready (g.keeps_static id)).untouched, fun _ => hapart⟩
  obtain ⟨roots, hbody⟩ : ∃ roots, Collects t (t.Reaches rendered (rendered e))
      (t.Reach dependents id) roots (g.inside id e)
      (run settings t (fuel + 1) (.element id) (g.inside id e)).2 :=
    exists_collects_looped ht hid he hbelow hinside (fun _ => List.mem_cons_self) (by omega) hloop
      hchoice
  have horigin : (run settings t (fuel + 1) (.element id) (g.inside id e)).1.origin? = some id :=
    origin?_run_of_once he (ht.chained id e he) (ht.onceDone he _)
  obtain rfl := hbody.lists.eq_nil hunmarked
  obtain ⟨codes, heq, hnil⟩ := hbody.hoisted
  obtain rfl : codes = [] := List.map_eq_nil_iff.mp hnil
  rw [List.append_nil] at heq
  refine ⟨.single ?_ .refl fun k hk hne => ?_,
    ⟨[(run settings t (fuel + 1) (.element id) (g.inside id e)).1], ?_, ?_⟩, rfl,
    fun k hk hg => ?_⟩
  · simp [Tree.marks, he, hroot]
  · exact hunmarked k (((Tree.reach_iff_of_element he).mp hk).resolve_left hne)
  · exact congrArg (· ++ [_]) heq
  · exact congrArg (fun o => [o]) horigin
  · exact hbody.keeps.untouched k hk ((g.keeps_static id).untouched k (fun h => hk (h ▸ .refl)) hg)

end Stages

/-! ### Whole trees -/

/-- **The marked nodes that are rendered are put aside**, whatever bounds the generator. -/
theorem exists_collects_run (settings : Settings) {t : Tree} {root : NodeId} (ht : OnceFree t root)
    (n : Nat) : ∀ id fuel : Nat, t.Reach dependents root id → t.size - id ≤ n →
    4 * (t.size - id) ≤ fuel → CollectsAt t (run settings t fuel) id := by
  induction n with
  | zero =>
      intro id fuel hid hn
      obtain ⟨node, hnode⟩ := ht.forest.exists_of_reaches id (Tree.reaches_singleton.mpr hid)
      have hlt := Tree.lt_size_of_node? hnode
      omega
  | succ n ih =>
      intro id fuel hid hn hfuel g hready
      obtain ⟨node, hnode⟩ := ht.forest.exists_of_reaches id (Tree.reaches_singleton.mpr hid)
      have hlt := Tree.lt_size_of_node? hnode
      obtain ⟨fuel, rfl⟩ : ∃ f, fuel = f + 1 := ⟨fuel - 1, by omega⟩
      cases he : t.element? id with
      | none =>
          rw [run_of_leaf he]
          refine ⟨[], collects_nil fun k hk => ?_⟩
          rw [(Tree.reach_iff_of_leaf he).mp hk, Tree.marks, he]
          rfl
      | some e =>
          have hbehind := (ht.forest.pairwise_dependents (Tree.reaches_singleton.mpr hid) he).1
          have hbelow : ∀ fuel : Nat, 4 * (t.size - id) ≤ fuel + 4 → ∀ c ∈ dependents e,
              CollectsAt t (run settings t fuel) c := by
            intro fuel hfuel c hc
            have hafter : id < c := hbehind c ⟨c, hc, .refl⟩
            exact ih c fuel (hid.step he hc) (by omega) (by omega)
          obtain ⟨hstatic, hloop, hchoice⟩ := hready.untouched id .refl
          have hready' : g.Ready t (t.Reaches dependents (dependents e)) :=
            hready.mono fun k hk => (Tree.reach_iff_of_element he).mpr (.inr hk)
          by_cases hroot : e.staticRoot = some true
          · rw [run_of_static he hroot hstatic]
            exact ⟨[id], collects_renderStatic ht hid he hbelow hready' hfuel hroot hloop hchoice⟩
          · obtain ⟨roots, hcollects⟩ : ∃ roots, Collects t (t.Reaches rendered (rendered e))
                (t.Reach dependents id) roots g (run settings t (fuel + 1) (.element id) g).2 :=
              exists_collects_looped ht hid he hbelow hready' (fun h => absurd h hroot) (by omega)
                hloop hchoice
            refine ⟨roots, ⟨hcollects.lists.ordered, fun r => ?_⟩, hcollects.hoisted,
              hcollects.keeps⟩
            -- the element itself is not marked
            rw [hcollects.lists.member, Tree.reach_iff_of_element he]
            constructor
            · rintro ⟨hr, hmark⟩
              exact ⟨.inr hr, hmark⟩
            · rintro ⟨rfl | hr, hmark⟩
              · simp [Tree.marks, he, hroot] at hmark
              · exact ⟨hr, hmark⟩

end Render

end Templating
