import Templating.Proofs.Build.Chains
import Templating.Proofs.Render.Plain
import Templating.Proofs.Tree.Reach

/-!
**Generating code and lifting codes out of it.**

The generator goes through a tree once and remembers what it dealt with.  When no element is
rendered once, it does the same as somebody who takes the plain code of the tree and lifts the codes
of the marked elements out of it: every node is met once, so nothing that was remembered matters for
it.

Main definitions:

* `Templating.Tree.marks` — the elements that are rendered once and for all;
* `Templating.Render.OnceFree`, `Templating.Render.Regular` — trees in which no element is rendered
  once, and no element as it stands either, with what is known of the tree of a template;
* `Templating.Render.Generator.Fresh`, `Templating.Render.Generator.Keeps` — what the generator has
  not dealt with, before and after;
* `Templating.Render.Answers` — the generator gives what lifting gives.

Main results:

* `Templating.Render.run_of_static`, `Templating.Render.run_of_once`,
  `Templating.Render.run_of_loop`, `Templating.Render.run_of_choice`,
  `Templating.Render.run_of_done` — what is dealt with next;
* `Templating.Render.answers_renderEach`, `Templating.Render.answers_renderElement`,
  `Templating.Render.answers_renderBranches` — the parts of an element;
* `Templating.Render.answers_run` — **the generator lifts the codes of the marked elements out of
  the plain code**.
-/

set_option autoImplicit false

namespace Templating

open Static (dependents)

/-- The mark of an element that is rendered once and for all: whether it stands in a loop. -/
def Tree.marks (t : Tree) (id : NodeId) : Option Bool :=
  (t.element? id).bind fun e =>
    if e.staticRoot = some true then some (e.staticInFor == some true) else none

/-- Marks change no conditional. -/
theorem Tree.Chain.of_unmarked {t t' : Tree} (h : t.Alike Node.unmarked t') {id : NodeId}
    {e e' : Element} (hsame : e'.unmarked = e.unmarked) (hchain : t.Chain id e) :
    t'.Chain id e' := by
  have hlink : e'.link = e.link := (congrArg Element.link hsame :)
  have hbranches : e'.branches = e.branches := (congrArg Element.branches hsame :)
  refine hchain.congr (fun k ek hek => ?_) hlink hbranches
  obtain ⟨ek', hek', hsame'⟩ := h.element? Node.element?_unmarked hek
  exact ⟨ek', hek', (congrArg Element.link hsame' :)⟩

namespace Render

/-- A tree in which no element is rendered once.  It is a forest in document order, its conditionals
are chains, and no mark lies below another one. -/
structure OnceFree (t : Tree) (root : NodeId) : Prop where
  forest : t.Forest none 0 t.size [root]
  chained : ∀ id e, t.element? id = some e → t.Chain id e
  once : ∀ id e, t.element? id = some e → e.once = false
  apart : ∀ id e k, t.Reach dependents root id → t.element? id = some e →
    e.staticRoot = some true → t.Reaches dependents (dependents e) k → t.marks k = none

/-- A tree in which no element is rendered once or as it stands. -/
structure Regular (t : Tree) (root : NodeId) : Prop extends OnceFree t root where
  pre : ∀ id e, t.element? id = some e → e.pre = false

/-- Nothing has to be rendered once. -/
theorem OnceFree.onceDone {t : Tree} {root id : NodeId} {e : Element} (ht : OnceFree t root)
    (he : t.element? id = some e) (g : Generator) : e.once = true → id ∈ g.onceDone := by
  rw [ht.once id e he]
  exact fun h => Bool.noConfusion h

theorem branchJob_eq_element {t : Tree} (honce : ∀ id e, t.element? id = some e → e.once = false)
    (id : NodeId) : branchJob t id = .element id := by
  unfold branchJob
  cases he : t.element? id with
  | none => rfl
  | some e => simp [honce id e he]

/-! ### What the generator remembers -/

namespace Generator

/-- The generator has not dealt with a node. -/
def Untouched (g : Generator) (k : NodeId) : Prop :=
  k ∉ g.staticDone ∧ k ∉ g.loopDone ∧ k ∉ g.choiceDone

/-- The generator has not dealt with any node of `R`. -/
structure Fresh (g : Generator) (R : NodeId → Prop) : Prop where
  verbatim : g.verbatim = false
  untouched : ∀ k, R k → g.Untouched k

/-- Afterwards the generator has dealt with nodes of `R` only. -/
structure Keeps (R : NodeId → Prop) (g g' : Generator) : Prop where
  verbatim : g'.verbatim = g.verbatim
  untouched : ∀ k, ¬R k → g.Untouched k → g'.Untouched k

variable {g g' g'' : Generator} {R R' : NodeId → Prop}

theorem Fresh.mono (h : g.Fresh R) (hR : ∀ k, R' k → R k) : g.Fresh R' :=
  ⟨h.verbatim, fun k hk => h.untouched k (hR k hk)⟩

theorem Fresh.keeps (h : g.Fresh R) (hkeeps : g.Keeps R' g') (hR : ∀ k, R k → ¬R' k) :
    g'.Fresh R :=
  ⟨hkeeps.verbatim.trans h.verbatim, fun k hk => hkeeps.untouched k (hR k hk) (h.untouched k hk)⟩

theorem Keeps.refl (R : NodeId → Prop) (g : Generator) : g.Keeps R g := ⟨rfl, fun _ _ h => h⟩

theorem Keeps.trans (h : g.Keeps R g') (h' : g'.Keeps R g'') : g.Keeps R g'' :=
  ⟨h'.verbatim.trans h.verbatim, fun k hk hg => h'.untouched k hk (h.untouched k hk hg)⟩

theorem Keeps.mono (h : g.Keeps R g') (hR : ∀ k, R k → R' k) : g.Keeps R' g' :=
  ⟨h.verbatim, fun k hk => h.untouched k fun hR' => hk (hR k hR')⟩

/-- Remembering one node touches no other. -/
theorem keeps_static (g : Generator) (id : NodeId) :
    g.Keeps (· = id) { g with staticDone := id :: g.staticDone } :=
  ⟨rfl, fun _ hk hg => ⟨List.not_mem_cons_of_ne_of_not_mem hk hg.1, hg.2.1, hg.2.2⟩⟩

theorem keeps_loop (g : Generator) (id : NodeId) :
    g.Keeps (· = id) { g with loopDone := id :: g.loopDone } :=
  ⟨rfl, fun _ hk hg => ⟨hg.1, List.not_mem_cons_of_ne_of_not_mem hk hg.2.1, hg.2.2⟩⟩

theorem keeps_choice (g : Generator) (id : NodeId) :
    g.Keeps (· = id) { g with choiceDone := id :: g.choiceDone } :=
  ⟨rfl, fun _ hk hg => ⟨hg.1, hg.2.1, List.not_mem_cons_of_ne_of_not_mem hk hg.2.2⟩⟩

end Generator

/-! ### Answers -/

/-- **The generator gives what lifting gives**: it turns the code `c` into the same code and puts
the same codes aside, and it deals with nodes of `R` only. -/
structure Answers (marks : NodeId → Option Bool) (R : NodeId → Prop) (c : Code) (g : Generator)
    (r : Code × Generator) : Prop where
  code : r.1 = (c.lift marks g.hoisted).1
  hoisted : r.2.hoisted = (c.lift marks g.hoisted).2
  keeps : g.Keeps R r.2

/-- The same for several codes. -/
structure AnswersAll (marks : NodeId → Option Bool) (R : NodeId → Prop) (cs : List Code)
    (g : Generator) (r : List Code × Generator) : Prop where
  code : r.1 = (Code.liftAll marks cs g.hoisted).1
  hoisted : r.2.hoisted = (Code.liftAll marks cs g.hoisted).2
  keeps : g.Keeps R r.2

section Answers

variable {marks : NodeId → Option Bool} {R R' : NodeId → Prop} {g : Generator}

theorem reference?_eq_none {c : Code} (h : c.origin?.bind marks = none) (index : Nat) :
    Code.reference? marks index c = none := by
  unfold Code.reference?
  cases horigin : c.origin? with
  | none => rfl
  | some id =>
      rw [horigin, Option.bind_some] at h
      simp [h]

theorem Answers.mono {c : Code} {r : Code × Generator} (h : Answers marks R c g r)
    (hR : ∀ k, R k → R' k) : Answers marks R' c g r :=
  ⟨h.code, h.hoisted, h.keeps.mono hR⟩

/-- What the generator remembers before it starts does not matter for what is lifted. -/
theorem Answers.of_keeps {g' : Generator} {c : Code} {r : Code × Generator}
    (h : Answers marks R c g' r) (hkeeps : g.Keeps R g') (hhoisted : g'.hoisted = g.hoisted) :
    Answers marks R c g r :=
  ⟨hhoisted ▸ h.code, hhoisted ▸ h.hoisted, hkeeps.trans h.keeps⟩

/-- Nothing is lifted out of a code that has no parts and stays. -/
theorem lift_of_nil {c : Code} (hparts : c.parts = []) (hc : c.origin?.bind marks = none)
    (lifted : List Code) : c.lift marks lifted = (c, lifted) := by
  rw [Code.lift_eq (reference?_eq_none hc _), hparts, Code.liftAll, ← hparts, Code.rebuild_parts]

theorem answers_of_nil {c : Code} (hparts : c.parts = []) (hc : c.origin?.bind marks = none) :
    Answers marks R c g (c, g) :=
  ⟨by rw [lift_of_nil hparts hc], by rw [lift_of_nil hparts hc], .refl R g⟩

/-- A code with one part that stays itself. -/
theorem Answers.rebuild {c : Code} {r : Code × Generator} (h : Answers marks R c g r) (c' : Code)
    (hparts : c'.parts = [c]) (hc : c'.origin?.bind marks = none) :
    Answers marks R c' g (c'.rebuild [r.1], r.2) := by
  have hlift : c'.lift marks g.hoisted = (c'.rebuild [r.1], r.2.hoisted) := by
    rw [Code.lift_eq (reference?_eq_none hc _), hparts, h.code, h.hoisted]
    rfl
  exact ⟨by rw [hlift], by rw [hlift], h.keeps⟩

theorem AnswersAll.list {cs : List Code} {r : List Code × Generator}
    (h : AnswersAll marks R cs g r) (flattening : Nat) :
    Answers marks R (.list cs flattening) g (.list r.1 flattening, r.2) := by
  have hlift : (Code.list cs flattening).lift marks g.hoisted =
      (.list r.1 flattening, r.2.hoisted) := by
    rw [Code.lift_eq (reference?_eq_none rfl _), h.code, h.hoisted]
    rfl
  exact ⟨by rw [hlift], by rw [hlift], h.keeps⟩

/-- Two codes behind a condition that stays itself. -/
theorem Answers.choice {yes no : Code} {r r' : Code × Generator} {id : NodeId}
    (h : Answers marks R yes g r) (h' : Answers marks R no r.2 r') (hid : marks id = none)
    (condition : String) :
    Answers marks R (.choice id condition yes no) g (.choice id condition r.1 r'.1, r'.2) := by
  have hlift : (Code.choice id condition yes no).lift marks g.hoisted =
      (.choice id condition r.1 r'.1, r'.2.hoisted) := by
    rw [Code.lift_eq (reference?_eq_none (by simpa [Code.origin?] using hid) _), h.code, h'.code,
      h'.hoisted, h.hoisted]
    rfl
  exact ⟨by rw [hlift], by rw [hlift], h.keeps.trans h'.keeps⟩

end Answers

/-! ### The parts of an element -/

/-- Rendering a node gives what lifting gives, when the generator has not dealt with it and with
what lies below. -/
def RendersAt (t : Tree) (recur : Renderer) (code : NodeId → Code) (id : NodeId) : Prop :=
  ∀ (marks : NodeId → Option Bool) (g : Generator), g.Fresh (t.Reach dependents id) →
    (∀ k, t.Reach dependents id k → marks k = t.marks k) →
    Answers marks (t.Reach dependents id) (code id) g (recur (.element id) g)

section Parts

variable {settings : Settings} {t : Tree} {recur : Renderer} {code : NodeId → Code}
  {marks : NodeId → Option Bool}

/-- **Several nodes**, one after another. -/
theorem answers_renderEach {ids : List NodeId} (hids : ∀ id ∈ ids, RendersAt t recur code id)
    (hpair : ids.Pairwise t.Precedes) :
    ∀ {g : Generator}, g.Fresh (t.Reaches dependents ids) →
      (∀ k, t.Reaches dependents ids k → marks k = t.marks k) →
      AnswersAll marks (t.Reaches dependents ids) (ids.map code) g (renderEach recur ids g) := by
  induction ids with
  | nil => exact fun _ _ => ⟨rfl, rfl, .refl _ _⟩
  | cons id ids ih =>
      intro g hfresh hmarks
      rw [List.pairwise_cons] at hpair
      have hfirst := hids id (by simp) marks g
        (hfresh.mono fun k hk => Tree.reaches_cons.mpr (.inl hk))
        fun k hk => hmarks k (Tree.reaches_cons.mpr (.inl hk))
      -- what lies below the first node does not lie below the others
      have hdisjoint : ∀ k, t.Reaches dependents ids k → ¬t.Reach dependents id k :=
        fun _ => Tree.not_reach_of_precedes hpair.1
      have hothers := ih (fun b hb => hids b (List.mem_cons_of_mem id hb)) hpair.2
        ((hfresh.mono fun k hk => Tree.reaches_cons.mpr (.inr hk)).keeps hfirst.keeps hdisjoint)
        fun k hk => hmarks k (Tree.reaches_cons.mpr (.inr hk))
      refine ⟨?_, ?_, ?_⟩
      · rw [renderEach, List.map_cons, Code.liftAll, hothers.code, hfirst.code, hfirst.hoisted]
      · rw [renderEach, List.map_cons, Code.liftAll, hothers.hoisted, hfirst.hoisted]
      · exact (hfirst.keeps.mono fun k hk => Tree.reaches_cons.mpr (.inl hk)).trans
          (hothers.keeps.mono fun k hk => Tree.reaches_cons.mpr (.inr hk))

theorem children_of_onlyLoop? {e child : Element} {id : NodeId}
    (h : onlyLoop? t e = some (id, child)) : e.children = [id] := by
  unfold onlyLoop? at h
  split at h
  · rename_i id' hchildren
    split at h
    · split at h
      · cases h
        exact hchildren
      · cases h
    · cases h
  · cases h

section Element

variable {e : Element} (hids : ∀ id ∈ e.children, RendersAt t recur code id)
  (hpair : e.children.Pairwise t.Precedes)
  {g : Generator} (hfresh : g.Fresh (t.Reaches dependents e.children))
  (hmarks : ∀ k, t.Reaches dependents e.children k → marks k = t.marks k)

include hids hpair hfresh hmarks

theorem answers_renderChildren (flatten : Bool) :
    Answers marks (t.Reaches dependents e.children) (childrenCode settings t code e flatten) g
      (renderChildren settings t recur e flatten g) := by
  unfold renderChildren childrenCode
  cases honly : onlyLoop? t e with
  | some p =>
      obtain ⟨id, child⟩ := p
      have hchildren := children_of_onlyLoop? honly
      have hreach : ∀ k, t.Reach dependents id k → t.Reaches dependents e.children k := by
        intro k hk
        rw [hchildren]
        exact Tree.reaches_singleton.mpr hk
      have hitem := hids id (by simp [hchildren]) marks g (hfresh.mono hreach)
        fun k hk => hmarks k (hreach k hk)
      exact (hitem.mono hreach).rebuild
        (.alone (code id)
          (if flatten then some (if mayBeComponent settings child then 1 else 0) else none)) rfl rfl
  | none =>
      dsimp only
      split
      · exact answers_of_nil rfl rfl
      · exact (answers_renderEach hids hpair hfresh hmarks).list _

/-- **An element itself**, without its loop and its conditional. -/
theorem answers_renderElement {id : NodeId} (hid : marks id = none) (hpre : e.pre = false) :
    Answers marks (t.Reaches dependents e.children) (elementCode settings t code id e) g
      (renderElement settings t recur id e g) := by
  have hchildren : ∀ flatten, Answers marks (t.Reaches dependents e.children)
      (childrenCode settings t code e flatten) g (renderChildren settings t recur e flatten g) :=
    answers_renderChildren hids hpair hfresh hmarks
  have hinline : Answers marks (t.Reaches dependents e.children)
      (if e.inlineTemplate then .absent else childrenCode settings t code e true) g
      (if e.inlineTemplate then (.absent, g) else renderChildren settings t recur e true g) := by
    split
    · exact answers_of_nil rfl rfl
    · exact hchildren true
  unfold renderElement elementCode
  simp only [hfresh.verbatim, hpre, Bool.not_false, and_true, Bool.false_and, Bool.or_false]
  split
  · exact (hchildren false).rebuild (.fragment id _) rfl hid
  · split
    · exact (hchildren false).rebuild (.slot id _ _ _) rfl hid
    · cases e.component with
      | some name => exact hinline.rebuild (.create id name _ _) rfl hid
      | none => exact hinline.rebuild (.create id _ _ _) rfl hid

end Element

/-- **The further branches of a conditional.** -/
theorem answers_renderBranches {origin : NodeId} (horigin : marks origin = none)
    (honce : ∀ id e, t.element? id = some e → e.once = false) {branches : List Branch}
    (hids : ∀ b ∈ branches, RendersAt t recur code b.block)
    (hpair : (branches.map (·.block)).Pairwise t.Precedes) :
    ∀ {g : Generator}, g.Fresh (t.Reaches dependents (branches.map (·.block))) →
      (∀ k, t.Reaches dependents (branches.map (·.block)) k → marks k = t.marks k) →
      Answers marks (t.Reaches dependents (branches.map (·.block)))
        (branchesCode code origin branches) g (renderBranches t recur origin branches g) := by
  induction branches with
  | nil => exact fun _ _ => answers_of_nil rfl rfl
  | cons b branches ih =>
      intro g hfresh hmarks
      rw [List.map_cons, List.pairwise_cons] at hpair
      have hjob := branchJob_eq_element honce b.block
      have hin : ∀ k, t.Reach dependents b.block k →
          t.Reaches dependents ((b :: branches).map (·.block)) k :=
        fun k hk => Tree.reaches_cons.mpr (.inl hk)
      have hout : ∀ k, t.Reaches dependents (branches.map (·.block)) k →
          t.Reaches dependents ((b :: branches).map (·.block)) k :=
        fun k hk => Tree.reaches_cons.mpr (.inr hk)
      have hblock := hids b (by simp) marks g (hfresh.mono hin) fun k hk => hmarks k (hin k hk)
      unfold renderBranches branchesCode
      rw [hjob]
      cases b.condition with
      | none => exact hblock.mono hin
      | some exp =>
          have hdisjoint : ∀ k, t.Reaches dependents (branches.map (·.block)) k →
              ¬t.Reach dependents b.block k :=
            fun _ => Tree.not_reach_of_precedes hpair.1
          have hothers := ih (fun b' hb' => hids b' (List.mem_cons_of_mem b hb')) hpair.2
            ((hfresh.mono hout).keeps hblock.keeps hdisjoint) fun k hk => hmarks k (hout k hk)
          exact (hblock.mono hin).choice (hothers.mono hout) horigin exp

end Parts

/-! ### What is dealt with next -/

section Run

variable {settings : Settings} {t : Tree} {id : NodeId} {e : Element} {g : Generator} {fuel : Nat}

theorem run_of_leaf (he : t.element? id = none) :
    run settings t (fuel + 1) (.element id) g = (leafCode t id, g) := by
  simp only [run, work, he]

theorem run_once (he : t.element? id = some e) :
    run settings t (fuel + 1) (.once id) g = renderOnce t (run settings t fuel) id e g := by
  simp only [run, work, he]

theorem run_of_static (he : t.element? id = some e) (hroot : e.staticRoot = some true)
    (hdone : id ∉ g.staticDone) :
    run settings t (fuel + 1) (.element id) g = renderStatic (run settings t fuel) id e g := by
  simp [run, work, he, hroot, hdone]

/-- What was dealt with is not dealt with again. -/
theorem not_pending {p : Prop} {done : List NodeId} (h : p → id ∈ done) :
    ¬(p ∧ (!done.contains id) = true) := by
  rintro ⟨hp, hnot⟩
  simp [h hp] at hnot

theorem pendingLoop_eq_none (h : e.loop.isSome = true → id ∈ g.loopDone) :
    (if g.loopDone.contains id then none else e.loop) = none := by
  cases hl : e.loop with
  | none => simp
  | some l => simp [h (by simp [hl])]

variable (he : t.element? id = some e)
  (hstatic : e.staticRoot = some true → id ∈ g.staticDone)

include he hstatic

theorem run_of_once (honce : e.once = true) (hdone : id ∉ g.onceDone) :
    run settings t (fuel + 1) (.element id) g = renderOnce t (run settings t fuel) id e g := by
  simp only [run, work, he, if_neg (not_pending hstatic)]
  simp [honce, hdone]

variable (honce : e.once = true → id ∈ g.onceDone)

include honce

theorem run_of_loop {l : Expression.Loop} (hloop : e.loop = some l) (hdone : id ∉ g.loopDone) :
    run settings t (fuel + 1) (.element id) g = renderLoop (run settings t fuel) id l g := by
  simp only [run, work, he, if_neg (not_pending hstatic), if_neg (not_pending honce)]
  simp [hloop, hdone]

variable (hloop : e.loop.isSome = true → id ∈ g.loopDone)

include hloop

theorem run_of_choice (hcondition : e.condition.isSome = true) (hdone : id ∉ g.choiceDone) :
    run settings t (fuel + 1) (.element id) g = renderChoice t (run settings t fuel) id e g := by
  simp only [run, work, he, if_neg (not_pending hstatic), if_neg (not_pending honce),
    pendingLoop_eq_none hloop]
  simp [hcondition, hdone]

theorem run_of_done (hdone : e.condition.isSome = true → id ∈ g.choiceDone) :
    run settings t (fuel + 1) (.element id) g =
      renderElement settings t (run settings t fuel) id e g := by
  simp only [run, work, he, if_neg (not_pending hstatic), if_neg (not_pending honce),
    pendingLoop_eq_none hloop, if_neg (not_pending hdone)]

end Run

/-! ### From the inside out -/

/-- Dealing with an element leaves what lies below it fresh. -/
theorem Regular.fresh_keeps {t : Tree} {root id : NodeId} {e : Element} (ht : Regular t root)
    (hid : t.Reach dependents root id) (he : t.element? id = some e) {g g' : Generator}
    (hfresh : g.Fresh (t.Reaches dependents (dependents e))) (hkeeps : g.Keeps (· = id) g') :
    g'.Fresh (t.Reaches dependents (dependents e)) := by
  have hbehind := (ht.forest.pairwise_dependents (Tree.reaches_singleton.mpr hid) he).1
  exact hfresh.keeps hkeeps fun k hk hsame => Nat.lt_irrefl id (hsame ▸ hbehind k hk)

section Stages

variable {settings : Settings} {t : Tree} {root : NodeId} {id : Nat} {e : Element}
  {code : NodeId → Code} {marks : NodeId → Option Bool} {g : Generator} {fuel : Nat}
  (ht : Regular t root)
  (hid : t.Reach dependents root id) (he : t.element? id = some e)
  (hcode : ∀ fuel : Nat, 4 * (t.size - id) ≤ fuel + 4 → ∀ c ∈ dependents e,
    RendersAt t (run settings t fuel) code c)
  (hfresh : g.Fresh (t.Reaches dependents (dependents e)))
  (hmarks : ∀ k, t.Reaches dependents (dependents e) k → marks k = t.marks k)
  (hmark : marks id = none) (hstatic : e.staticRoot = some true → id ∈ g.staticDone)

include ht hid he hcode hfresh hmarks hmark hstatic

/-- An element whose loop and conditional were dealt with. -/
theorem answers_done (hfuel : 4 * (t.size - id) ≤ fuel + 4)
    (hloop : e.loop.isSome = true → id ∈ g.loopDone)
    (hchoice : e.condition.isSome = true → id ∈ g.choiceDone) :
    Answers marks (t.Reaches dependents e.children) (elementCode settings t code id e) g
      (run settings t (fuel + 1) (.element id) g) := by
  have hpair := (ht.forest.pairwise_dependents (Tree.reaches_singleton.mpr hid) he).2
  have hin : ∀ k, t.Reaches dependents e.children k → t.Reaches dependents (dependents e) k :=
    fun k hk => Tree.reaches_append.mpr (.inl hk)
  rw [run_of_done he hstatic (ht.onceDone he g) hloop hchoice]
  exact answers_renderElement
    (fun c hc => hcode fuel hfuel c (List.mem_append_left _ hc)) (List.pairwise_append.mp hpair).1
    (hfresh.mono hin) (fun k hk => hmarks k (hin k hk)) hmark (ht.pre id e he)

/-- An element whose loop was dealt with. -/
theorem answers_chosen (hfuel : 4 * (t.size - id) ≤ fuel + 3)
    (hloop : e.loop.isSome = true → id ∈ g.loopDone) (hchoice : id ∉ g.choiceDone) :
    Answers marks (t.Reach dependents id) (inChoice id e.condition
      (elementCode settings t code id e) (branchesCode code id (e.branches.drop 1))) g
      (run settings t (fuel + 1) (.element id) g) := by
  obtain ⟨-, hpair, hcross⟩ := List.pairwise_append.mp
    (ht.forest.pairwise_dependents (Tree.reaches_singleton.mpr hid) he).2
  have hself : ∀ k, t.Reaches dependents (dependents e) k → t.Reach dependents id k :=
    fun k hk => (Tree.reach_iff_of_element he).mpr (.inr hk)
  have hchildren : ∀ k, t.Reaches dependents e.children k → t.Reach dependents id k :=
    fun k hk => hself k (Tree.reaches_append.mpr (.inl hk))
  have hbranches : ∀ k, t.Reaches dependents ((e.branches.drop 1).map (·.block)) k →
      t.Reaches dependents (dependents e) k := fun k hk => Tree.reaches_append.mpr (.inr hk)
  cases hcondition : e.condition with
  | none =>
      exact (answers_done ht hid he hcode hfresh hmarks hmark hstatic (by omega) hloop
        (by simp [hcondition])).mono hchildren
  | some exp =>
      have hlt := Tree.lt_size_of_element? he
      obtain ⟨fuel, rfl⟩ : ∃ f, fuel = f + 1 := ⟨fuel - 1, by omega⟩
      -- the first branch is the element itself
      obtain ⟨further, hchain⟩ : ∃ further, e.branches = ⟨some exp, id⟩ :: further := by
        have hhead := (ht.chained id e he).head
        rw [hcondition] at hhead
        exact List.head?_eq_some_iff.mp hhead
      have hjob := branchJob_eq_element ht.once id
      rw [run_of_choice he hstatic (ht.onceDone he g) hloop (by simp [hcondition]) hchoice,
        renderChoice, hchain, renderBranches, hjob, List.drop_one, List.tail_cons]
      rw [hchain, List.drop_one, List.tail_cons] at hpair hcross hbranches
      have hkeeps := g.keeps_choice id
      have hfresh' := ht.fresh_keeps hid he hfresh hkeeps
      have hown : Answers marks (t.Reaches dependents e.children)
          (elementCode settings t code id e) { g with choiceDone := id :: g.choiceDone }
          (run settings t (fuel + 1) (.element id) { g with choiceDone := id :: g.choiceDone }) :=
        answers_done ht hid he hcode hfresh' hmarks hmark hstatic (by omega) hloop (by simp)
      -- what lies below the further branches does not lie below the children
      have hdisjoint : ∀ k, t.Reaches dependents (further.map (·.block)) k →
          ¬t.Reaches dependents e.children k :=
        fun _ => Tree.not_reaches_of_precedes hcross
      have hothers := answers_renderBranches hmark ht.once
        (fun b hb => hcode (fuel + 1) (by omega) b.block
          (List.mem_append_right _ (by simpa [hchain] using ⟨b, hb, rfl⟩)))
        hpair ((hfresh'.mono hbranches).keeps hown.keeps hdisjoint)
        fun k hk => hmarks k (hbranches k hk)
      have hall := (hown.mono hchildren).choice
        (hothers.mono fun k hk => hself k (hbranches k hk)) hmark exp
      exact hall.of_keeps (hkeeps.mono fun k hk => hk ▸ .refl) rfl

/-- An element that is not rendered once and for all, or was put aside already. -/
theorem answers_looped (hfuel : 4 * (t.size - id) ≤ fuel + 2) (hloop : id ∉ g.loopDone)
    (hchoice : id ∉ g.choiceDone) :
    Answers marks (t.Reach dependents id) (inLoop id e.loop (inChoice id e.condition
      (elementCode settings t code id e) (branchesCode code id (e.branches.drop 1)))) g
      (run settings t (fuel + 1) (.element id) g) := by
  cases hl : e.loop with
  | none =>
      exact answers_chosen ht hid he hcode hfresh hmarks hmark hstatic (by omega) (by simp [hl])
        hchoice
  | some l =>
      have hlt := Tree.lt_size_of_element? he
      obtain ⟨fuel, rfl⟩ : ∃ f, fuel = f + 1 := ⟨fuel - 1, by omega⟩
      rw [run_of_loop he hstatic (ht.onceDone he g) hl hloop, renderLoop]
      have hkeeps := g.keeps_loop id
      have hfresh' := ht.fresh_keeps hid he hfresh hkeeps
      have hbody : Answers marks (t.Reach dependents id) (inChoice id e.condition
          (elementCode settings t code id e) (branchesCode code id (e.branches.drop 1)))
          { g with loopDone := id :: g.loopDone }
          (run settings t (fuel + 1) (.element id) { g with loopDone := id :: g.loopDone }) :=
        answers_chosen ht hid he hcode hfresh' hmarks hmark hstatic (by omega) (by simp) hchoice
      exact (hbody.rebuild (.loop id l _) rfl hmark).of_keeps
        (hkeeps.mono fun k hk => hk ▸ .refl) rfl

end Stages

/-- **An element that is rendered once and for all** is put aside as it is, since no mark lies below
it. -/
theorem answers_renderStatic {settings : Settings} {t : Tree} {root : NodeId} {id : Nat}
    {e : Element} {code : NodeId → Code} {marks : NodeId → Option Bool} {g : Generator} {fuel : Nat}
    (ht : Regular t root) (hid : t.Reach dependents root id) (he : t.element? id = some e)
    (hcode : ∀ fuel : Nat, 4 * (t.size - id) ≤ fuel + 4 → ∀ c ∈ dependents e,
      RendersAt t (run settings t fuel) code c)
    (hfresh : g.Fresh (t.Reaches dependents (dependents e))) (hloop : id ∉ g.loopDone)
    (hchoice : id ∉ g.choiceDone) {c : Code}
    (hc : c = inLoop id e.loop (inChoice id e.condition (elementCode settings t code id e)
      (branchesCode code id (e.branches.drop 1)))) (horigin : c.origin? = some id)
    (hfuel : 4 * (t.size - id) ≤ fuel + 1) (hroot : e.staticRoot = some true)
    (hmark : marks id = t.marks id) :
    Answers marks (t.Reach dependents id) c g (renderStatic (run settings t fuel) id e g) := by
  have hlt := Tree.lt_size_of_element? he
  obtain ⟨fuel, rfl⟩ : ∃ f, fuel = f + 1 := ⟨fuel - 1, by omega⟩
  have hkeeps := g.keeps_static id
  have hfresh' := ht.fresh_keeps hid he hfresh hkeeps
  have hbody : Answers (fun _ => none) (t.Reach dependents id) c
      { g with staticDone := id :: g.staticDone }
      (run settings t (fuel + 1) (.element id) { g with staticDone := id :: g.staticDone }) := by
    rw [hc]
    exact answers_looped ht hid he hcode hfresh'
      (fun k hk => (ht.apart id e k hid he hroot hk).symm) rfl (by simp) (by omega) hloop hchoice
  have hverbatim : (g.verbatim || e.pre) = g.verbatim := by rw [ht.pre id e he, Bool.or_false]
  have hlift : c.lift marks g.hoisted =
      (.hoisted id g.hoisted.length (e.staticInFor == some true), g.hoisted ++ [c]) := by
    refine Code.lift_of_reference? ?_
    simp [Code.reference?, horigin, hmark, Tree.marks, he, hroot]
  simp only [renderStatic, hverbatim]
  generalize run settings t (fuel + 1) (.element id) { g with staticDone := id :: g.staticDone } = r
    at hbody
  have hcode' : r.1 = c := hbody.code.trans (by rw [Code.lift_unmarked])
  have hhoisted : r.2.hoisted = g.hoisted := hbody.hoisted.trans (by rw [Code.lift_unmarked])
  refine ⟨?_, ?_, ?_⟩
  · rw [hlift, hhoisted]
  · rw [hlift, hhoisted, hcode']
  · have hall := (hkeeps.mono fun k hk => hk ▸ .refl).trans hbody.keeps
    exact ⟨rfl, fun k hk hg => hall.untouched k hk hg⟩

/-! ### Whole trees -/

/-- **The generator lifts the codes of the marked elements out of the plain code**, of every node
that is met, whatever bounds the two. -/
theorem answers_run (settings : Settings) {t : Tree} {root : NodeId} (ht : Regular t root)
    (n : Nat) : ∀ (id fuel depth : Nat), t.Reach dependents root id → t.size - id ≤ n →
    4 * (t.size - id) ≤ fuel → t.size - id ≤ depth →
    RendersAt t (run settings t fuel) (plainFuel settings t depth) id := by
  induction n with
  | zero =>
      intro id fuel depth hid hn
      obtain ⟨n, hn'⟩ := ht.forest.exists_of_reaches id (Tree.reaches_singleton.mpr hid)
      have hlt := Tree.lt_size_of_node? hn'
      omega
  | succ n ih =>
      intro id fuel depth hid hn hfuel hdepth marks g hfresh hmarks
      obtain ⟨node, hnode⟩ := ht.forest.exists_of_reaches id (Tree.reaches_singleton.mpr hid)
      have hlt := Tree.lt_size_of_node? hnode
      obtain ⟨fuel, rfl⟩ : ∃ f, fuel = f + 1 := ⟨fuel - 1, by omega⟩
      obtain ⟨depth, rfl⟩ : ∃ d, depth = d + 1 := ⟨depth - 1, by omega⟩
      cases he : t.element? id with
      | none =>
          have hmark : marks id = none := by
            rw [hmarks id .refl, Tree.marks, he]
            rfl
          rw [run_of_leaf he, plainFuel_of_leaf settings he]
          exact answers_of_nil (parts_leafCode t id) (bind_origin?_leafCode t hmark)
      | some e =>
          have hbehind :=
            (ht.forest.pairwise_dependents (Tree.reaches_singleton.mpr hid) he).1
          have hself : ∀ k, t.Reaches dependents (dependents e) k → t.Reach dependents id k :=
            fun k hk => (Tree.reach_iff_of_element he).mpr (.inr hk)
          have hcode : ∀ fuel : Nat, 4 * (t.size - id) ≤ fuel + 4 → ∀ c ∈ dependents e,
              RendersAt t (run settings t fuel) (plainFuel settings t depth) c := by
            intro fuel hfuel c hc
            have hafter : id < c := hbehind c ⟨c, hc, .refl⟩
            exact ih c fuel depth (hid.step he hc) (by omega) (by omega) (by omega)
          obtain ⟨hstatic, hloop, hchoice⟩ := hfresh.untouched id .refl
          have hbelow := hfresh.mono hself
          have horigin : (plainFuel settings t (depth + 1) id).origin? = some id :=
            origin?_plainFuel he depth
          rw [plainFuel_of_element settings he] at horigin ⊢
          by_cases hroot : e.staticRoot = some true
          · rw [run_of_static he hroot hstatic]
            exact answers_renderStatic ht hid he hcode hbelow hloop hchoice rfl horigin hfuel hroot
              (hmarks id .refl)
          · have hmark : marks id = none := by
              rw [hmarks id .refl, Tree.marks, he, Option.bind_some, if_neg hroot]
            exact answers_looped ht hid he hcode hbelow (fun k hk => hmarks k (hself k hk)) hmark
              (fun h => absurd h hroot) (by omega) hloop hchoice

end Render

end Templating
