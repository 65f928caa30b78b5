import Templating.Proofs.Render.Scope

/-!
**Every piece of code has the scope of its element.**

The generator deals with an element from the outside in: it puts its code into a function of its
own, opens the callback of its loop, asks the condition of its conditional, and makes the element.
An element that is rendered once asks its condition before all that.  At every stage the scope is
known, and what lies below an element has greater numbers than everything that was dealt with
before.

Main definitions:

* `Templating.Render.Arrives` — a scope in which the code of a node may stand;
* `Templating.Render.PlacedIn`, `Templating.Render.PlacedAll` — rendering a node, or several, gives
  pieces with the right scopes;
* `Templating.Render.Situated` — what is known of an element when it is rendered;
* `Templating.Render.Pending` — an element whose loop is dealt with next.

Main results:

* `Templating.Render.produces_renderEach`, `Templating.Render.produces_renderElement`,
  `Templating.Render.produces_renderBranches` — the parts of an element;
* `Templating.Render.Situated.produces_chosen`, `Templating.Render.Situated.produces_looped`,
  `Templating.Render.Situated.produces_lifted`, `Templating.Render.Situated.produces_renderOnce` —
  the stages of an element;
* `Templating.Render.Situated.placedIn`, `Templating.Render.placedAll_of_forest` — elements and
  forests;
* `Templating.Render.places_generate` — **every piece of the code of a tree has the scope of its
  element**.
-/

set_option autoImplicit false

namespace Templating.Render

open Static (dependents)

/-! ### What the code of an element belongs to -/

section Origin

variable {settings : Settings} {t : Tree} {id : NodeId} {e : Element} {fuel : Nat} {g : Generator}

theorem origin?_renderElement (recur : Renderer) (id : NodeId) (e : Element) (g : Generator) :
    (renderElement settings t recur id e g).1.origin? = some id := by
  unfold renderElement
  split
  · rfl
  · split
    · rfl
    · cases e.component with
      | some name => rfl
      | none => rfl

/-- The branches of an element with a condition: the first one is the element itself. -/
theorem exists_branches_eq (hchain : t.Chain id e) (hcondition : e.condition.isSome = true) :
    ∃ exp further, e.branches = ⟨some exp, id⟩ :: further := by
  obtain ⟨exp, hexp⟩ := Option.isSome_iff_exists.mp hcondition
  have hhead := hchain.head
  rw [hexp] at hhead
  obtain ⟨further, hfurther⟩ := List.head?_eq_some_iff.mp hhead
  exact ⟨exp, further, hfurther⟩

theorem origin?_renderChoice (recur : Renderer) (hchain : t.Chain id e)
    (hcondition : e.condition.isSome = true) (g : Generator) :
    (renderChoice t recur id e g).1.origin? = some id := by
  obtain ⟨exp, further, hbranches⟩ := exists_branches_eq hchain hcondition
  rw [renderChoice, hbranches]
  rfl

/-- The code of an element that is not to be rendered once any more. -/
theorem origin?_run_of_once (he : t.element? id = some e) (hchain : t.Chain id e)
    (honce : e.once = true → id ∈ g.onceDone) :
    (run settings t (fuel + 1) (.element id) g).1.origin? = some id := by
  by_cases hstatic : e.staticRoot = some true → id ∈ g.staticDone
  · by_cases hloop : e.loop.isSome = true → id ∈ g.loopDone
    · by_cases hchoice : e.condition.isSome = true → id ∈ g.choiceDone
      · rw [run_of_done he hstatic honce hloop hchoice]
        exact origin?_renderElement _ id e g
      · obtain ⟨hcondition, hdone⟩ := Classical.not_imp.mp hchoice
        rw [run_of_choice he hstatic honce hloop hcondition hdone]
        exact origin?_renderChoice _ hchain hcondition g
    · obtain ⟨hsome, hdone⟩ := Classical.not_imp.mp hloop
      obtain ⟨l, hl⟩ := Option.isSome_iff_exists.mp hsome
      rw [run_of_loop he hstatic honce hl hdone]
      rfl
  · obtain ⟨hroot, hdone⟩ := Classical.not_imp.mp hstatic
    rw [run_of_static he hroot hdone]
    rfl

theorem origin?_renderOnce (he : t.element? id = some e) (hchain : t.Chain id e) :
    (renderOnce t (run settings t (fuel + 1)) id e g).1.origin? = some id := by
  unfold renderOnce
  dsimp only
  split
  · rename_i hchoice
    exact origin?_renderChoice _ hchain ((Bool.and_eq_true _ _).mp hchoice).1 _
  · split
    · rfl
    · split
      · exact origin?_run_of_once he hchain fun _ => List.mem_cons_self
      · rfl

/-- **The code of an element belongs to the element.** -/
theorem origin?_run (he : t.element? id = some e) (hchain : t.Chain id e) {job : Job}
    (hjob : job = .element id ∨ job = .once id) :
    (run settings t (fuel + 2) job g).1.origin? = some id := by
  rcases hjob with rfl | rfl
  · by_cases honce : e.once = true → id ∈ g.onceDone
    · exact origin?_run_of_once he hchain honce
    · obtain ⟨honce, hdone⟩ := Classical.not_imp.mp honce
      by_cases hstatic : e.staticRoot = some true → id ∈ g.staticDone
      · rw [run_of_once he hstatic honce hdone]
        exact origin?_renderOnce he hchain
      · obtain ⟨hroot, hdone⟩ := Classical.not_imp.mp hstatic
        rw [run_of_static he hroot hdone]
        rfl
  · rw [run_once he]
    exact origin?_renderOnce he hchain

theorem branchJob_cases (t : Tree) (id : NodeId) :
    branchJob t id = .element id ∨ branchJob t id = .once id := by
  unfold branchJob
  split
  · exact .inr rfl
  · exact .inl rfl

end Origin

/-! ### Nodes one after another -/

/-- The code of the node `id` may stand among the children of `owner` in the scope: the loops are
those around the node and, for a text, those of the children of `owner`. -/
structure Arrives (t : Tree) (root : NodeId) (owner : Option NodeId) (scope : List NodeId)
    (id : Nat) : Prop where
  around : t.Around id scope
  text : t.element? id = none → ∀ o ∈ owner, (⟨.text, o, scope⟩ : Place).Exact t root

/-- Rendering the node `id` gives code that belongs to it, with pieces of the right scopes and all
of them, when nothing from `lo` on was dealt with; afterwards nothing from `hi` on was. -/
def PlacedIn (settings : Settings) (t : Tree) (root : NodeId) (lo hi : Nat) (id : NodeId) : Prop :=
  ∀ (fuel : Nat) (job : Job) (owner : Option NodeId) (scope : List NodeId) (g : Generator),
    8 * (hi - lo) ≤ fuel → job = .element id ∨ job = branchJob t id → g.Behind lo →
    Arrives t root owner scope id →
    Produces t root (Wanted t id) hi g ((run settings t fuel job g).1.places owner scope)
        (run settings t fuel job g).2 ∧
      ∀ e, t.element? id = some e → (run settings t fuel job g).1.origin? = some id

/-- The same for several nodes, one after another. -/
def PlacedAll (settings : Settings) (t : Tree) (root : NodeId) : (lo hi : Nat) → List NodeId → Prop
  | lo, hi, [] => lo ≤ hi
  | lo, hi, id :: ids =>
      ∃ mid, lo ≤ mid ∧ PlacedIn settings t root lo mid id ∧ PlacedAll settings t root mid hi ids

section Parts

variable {settings : Settings} {t : Tree} {root : NodeId} {owner : Option NodeId}
  {scope : List NodeId} {fuel : Nat}

theorem PlacedAll.le {ids : List NodeId} : ∀ {lo hi : Nat},
    PlacedAll settings t root lo hi ids → lo ≤ hi := by
  induction ids with
  | nil => exact fun h => h
  | cons id ids ih =>
      rintro lo hi ⟨mid, hle, -, hrest⟩
      exact Nat.le_trans hle (ih hrest)

/-- **Several nodes**, one after another. -/
theorem produces_renderEach {ids : List NodeId} : ∀ {lo hi : Nat} {g : Generator},
    PlacedAll settings t root lo hi ids → 8 * (hi - lo) ≤ fuel → g.Behind lo →
    (∀ id ∈ ids, Arrives t root owner scope id) →
    Produces t root (fun role k => ∃ id ∈ ids, Wanted t id role k) hi g
      (Code.placesAll owner scope (renderEach (run settings t fuel) ids g).1)
      (renderEach (run settings t fuel) ids g).2 := by
  induction ids with
  | nil =>
      intro lo hi g hle _ hbehind _
      exact .refl (hbehind.mono hle) (by simp)
  | cons id ids ih =>
      rintro lo hi g ⟨mid, hle, hid, hrest⟩ hfuel hbehind harrives
      have hle' := hrest.le
      obtain ⟨hfirst, -⟩ := hid fuel (.element id) owner scope g (by omega) (.inl rfl) hbehind
        (harrives id (by simp))
      have hothers := ih hrest (by omega) hfirst.behind
        fun c hc => harrives c (List.mem_cons_of_mem id hc)
      refine (hfirst.append hothers).mono le_rfl ?_
      rintro role k ⟨c, hc, hwanted⟩
      rcases List.mem_cons.mp hc with rfl | hc
      · exact .inl hwanted
      · exact .inr ⟨c, hc, hwanted⟩

theorem produces_renderChildren {e : Element} {lo hi : Nat} {g : Generator}
    (hplaced : PlacedAll settings t root lo hi e.children) (hfuel : 8 * (hi - lo) ≤ fuel)
    (hbehind : g.Behind lo) (harrives : ∀ c ∈ e.children, Arrives t root owner scope c)
    (flatten : Bool) :
    Produces t root (fun role k => ∃ c ∈ e.children, Wanted t c role k) hi g
      ((renderChildren settings t (run settings t fuel) e flatten g).1.places owner scope)
      (renderChildren settings t (run settings t fuel) e flatten g).2 := by
  unfold renderChildren
  cases honly : onlyLoop? t e with
  | some p =>
      obtain ⟨id, child⟩ := p
      rw [children_of_onlyLoop? honly] at hplaced harrives ⊢
      obtain ⟨mid, -, hid, hle⟩ := hplaced
      change mid ≤ hi at hle
      refine (hid fuel (.element id) owner scope g (by omega) (.inl rfl) hbehind
        (harrives id (by simp))).1.mono hle ?_
      rintro role k ⟨c, hc, hwanted⟩
      rwa [List.mem_singleton.mp hc] at hwanted
  | none =>
      dsimp only
      split
      · rename_i hnil
        exact .refl (hbehind.mono hplaced.le) (by simp [hnil])
      · exact produces_renderEach hplaced hfuel hbehind harrives

/-- **An element itself**, without its loop and its conditional. -/
theorem produces_renderElement {id : NodeId} {e : Element} {lo hi : Nat} {g : Generator}
    (hplaced : PlacedAll settings t root lo hi e.children) (hfuel : 8 * (hi - lo) ≤ fuel)
    (hbehind : g.Behind lo) (hbody : (⟨.body, id, scope⟩ : Place).Exact t root)
    (harrives : ∀ c ∈ e.children, Arrives t root (some id) scope c) :
    Produces t root (WantedOwn t id e) hi g
      ((renderElement settings t (run settings t fuel) id e g).1.places owner scope)
      (renderElement settings t (run settings t fuel) id e g).2 := by
  have hchildren : ∀ flatten, Produces t root (fun role k => ∃ c ∈ shownChildren e,
      Wanted t c role k) hi g
      ((renderChildren settings t (run settings t fuel) e flatten g).1.places (some id) scope)
      (renderChildren settings t (run settings t fuel) e flatten g).2 := by
    intro flatten
    refine (produces_renderChildren hplaced hfuel hbehind harrives flatten).mono le_rfl ?_
    rintro role k ⟨c, hc, hwanted⟩
    unfold shownChildren at hc
    split at hc
    · cases hc
    · exact ⟨c, hc, hwanted⟩
  have hinline : Produces t root (fun role k => ∃ c ∈ shownChildren e, Wanted t c role k) hi g
      ((if e.inlineTemplate then (.absent, g)
        else renderChildren settings t (run settings t fuel) e true g).1.places (some id) scope)
      (if e.inlineTemplate then (.absent, g)
        else renderChildren settings t (run settings t fuel) e true g).2 := by
    split
    · rename_i hinline
      exact .refl (hbehind.mono hplaced.le) (by simp [shownChildren, hinline])
    · exact hchildren true
  have hR : ∀ role k, WantedOwn t id e role k →
      role = Role.body ∧ k = id ∨ ∃ c ∈ shownChildren e, Wanted t c role k := by
    rintro role k (⟨hk, hrole⟩ | hwanted)
    · exact .inl ⟨hrole, hk⟩
    · exact .inr hwanted
  unfold renderElement
  split
  · exact (hchildren false).cons hbody hR
  · split
    · exact (hchildren false).cons hbody hR
    · cases e.component with
      | some name => exact hinline.cons hbody hR
      | none => exact hinline.cons hbody hR

/-- **The branches of a conditional.** -/
theorem produces_renderBranches {origin : NodeId} {branches : List Branch}
    (hguards : ∀ b ∈ branches, b.condition.isSome = true →
      (⟨.guard, b.block, scope⟩ : Place).Exact t root) : ∀ {lo hi : Nat} {g : Generator},
    PlacedAll settings t root lo hi (branches.map (·.block)) → 8 * (hi - lo) ≤ fuel →
    g.Behind lo → (∀ b ∈ branches, Arrives t root owner scope b.block) →
    Produces t root (fun role k => ∃ c ∈ renderedBlocks branches, Wanted t c role k) hi g
      ((renderBranches t (run settings t fuel) origin branches g).1.places owner scope)
      (renderBranches t (run settings t fuel) origin branches g).2 := by
  induction branches with
  | nil =>
      intro lo hi g hle _ hbehind _
      exact .refl (hbehind.mono hle) (by simp [renderedBlocks])
  | cons b branches ih =>
      rintro lo hi g ⟨mid, hle, hid, hrest⟩ hfuel hbehind harrives
      have hle' := hrest.le
      obtain ⟨hblock, horigin⟩ := hid fuel (branchJob t b.block) owner scope g (by omega)
        (.inr rfl) hbehind (harrives b (by simp))
      unfold renderBranches renderedBlocks
      cases hcondition : b.condition with
      | none =>
          refine hblock.mono hle' ?_
          rintro role k ⟨c, hc, hwanted⟩
          rcases List.mem_cons.mp hc with rfl | hc
          · exact hwanted
          · simp at hc
      | some exp =>
          have hguard := hguards b (by simp) (by simp [hcondition])
          obtain ⟨-, e, he, -⟩ := hguard.guard rfl
          have hothers := ih (fun c hc => hguards c (List.mem_cons_of_mem b hc)) hrest (by omega)
            hblock.behind fun c hc => harrives c (List.mem_cons_of_mem b hc)
          simp only [Code.places, horigin e he, Option.getD_some]
          refine (hblock.append hothers).cons hguard ?_
          rintro role k ⟨c, hc, hwanted⟩
          rcases List.mem_cons.mp hc with rfl | hc
          · exact .inr (.inl hwanted)
          · exact .inr (.inr ⟨c, by simpa using hc, hwanted⟩)

/-- **Code that is put into a function of its own** leaves all loops behind. -/
theorem produces_renderStatic {id : NodeId} {e : Element} {R : Role → NodeId → Prop} {n : Nat}
    {g : Generator}
    (h : Produces t root R n g
      ((run settings t fuel (.element id)
        { g with staticDone := id :: g.staticDone, verbatim := g.verbatim || e.pre }).1.places
          none [])
      (run settings t fuel (.element id)
        { g with staticDone := id :: g.staticDone, verbatim := g.verbatim || e.pre }).2) :
    Produces t root R n g ((renderStatic (run settings t fuel) id e g).1.places owner scope)
      (renderStatic (run settings t fuel) id e g).2 :=
  Produces.lift h rfl ⟨h.behind.static, h.behind.once, h.behind.loop, h.behind.choice⟩

end Parts

/-! ### Elements -/

/-- What is known of the element `e` with the number `id` when it is rendered: what lies below its
children comes before `mid₁`, what lies below the further branches before `mid₂`, and all of that is
rendered with the right scopes. -/
structure Situated (settings : Settings) (t : Tree) (root : NodeId) (id : Nat) (e : Element)
    (mid₁ mid₂ : Nat) : Prop where
  parentsFirst : t.ParentsFirst
  met : t.Reach dependents root id
  element : t.element? id = some e
  chain : t.Chain id e
  unconditional : e.staticRoot = some true → e.condition = none
  children : PlacedAll settings t root (id + 1) mid₁ e.children
  inside : ∀ c : Nat, c ∈ e.children →
    id < c ∧ ∀ ec, t.element? c = some ec → ec.parent = some id
  further : PlacedAll settings t root mid₁ mid₂ e.links.further
  beside : ∀ b : Nat, b ∈ e.links.further →
    id < b ∧ ∃ eb, t.element? b = some eb ∧ eb.parent = e.parent

/-- An element that is not to be rendered once any more, and whose loop is dealt with next.  Its
condition was asked when it is one that is rendered once, and was not asked otherwise. -/
structure Pending (id : Nat) (e : Element) (g : Generator) : Prop where
  once : e.once = true → id ∈ g.onceDone
  asked : e.once = true → e.condition.isSome = true → id ∈ g.choiceDone
  unasked : e.once = false → id ∉ g.choiceDone
  behind : g.Behind (id + 1)

/-- The pieces that are due when an element is pending. -/
def Due (t : Tree) (id : NodeId) (e : Element) (role : Role) (k : NodeId) : Prop :=
  WantedOwn t id e role k ∨ e.once = false ∧ Wanted t id role k

/-- What is due of an element that is rendered once are its own pieces. -/
theorem Produces.own {t : Tree} {root id : NodeId} {e : Element} {mid₁ mid₂ : Nat}
    {g g' : Generator} {ps : List Place} (honce : e.once = true)
    (h : Produces t root (Due t id e) (if e.once then mid₁ else mid₂) g ps g') :
    Produces t root (WantedOwn t id e) mid₁ g ps g' := by
  rw [if_pos honce] at h
  exact h.mono le_rfl fun _ _ => .inl

/-- What is due of any other element are all its pieces. -/
theorem Produces.all {t : Tree} {root id : NodeId} {e : Element} {mid₁ mid₂ : Nat}
    {g g' : Generator} {ps : List Place} (honce : e.once = false)
    (h : Produces t root (Due t id e) (if e.once then mid₁ else mid₂) g ps g') :
    Produces t root (Wanted t id) mid₂ g ps g' := by
  rw [honce, if_neg Bool.false_ne_true] at h
  exact h.mono le_rfl fun _ _ hwanted => .inr ⟨honce, hwanted⟩

namespace Situated

variable {settings : Settings} {t : Tree} {root : NodeId} {id : Nat} {e : Element}
  {mid₁ mid₂ : Nat} {owner : Option NodeId} {scope : List NodeId} {fuel : Nat} {g : Generator}

section Scope

variable (h : Situated settings t root id e mid₁ mid₂)

include h

theorem le : id + 1 ≤ mid₁ ∧ mid₁ ≤ mid₂ := ⟨h.children.le, h.further.le⟩

/-- The pieces of an element behind its loop and its conditional. -/
theorem exact_own {role : Role} (hrole : role ≠ .guard) (hscope : t.FullScope id scope) :
    (⟨role, id, scope⟩ : Place).Exact t root where
  met := h.met
  guard hguard := absurd hguard hrole
  own _ := ⟨hscope.within, e, h.element⟩

/-- The condition that a conditional starts with. -/
theorem exact_guard (hcondition : e.condition.isSome = true)
    (hscope : t.ScopeOf (t.Inside id) scope)
    (hself : e.loop.isSome = true → (id ∈ scope ↔ e.once = false)) :
    (⟨.guard, id, scope⟩ : Place).Exact t root where
  met := h.met
  guard _ := ⟨hscope, e, h.element, .inl hcondition, by simpa [hcondition] using hself⟩
  own hrole := absurd rfl hrole

theorem arrives_child (hscope : t.FullScope id scope) {c : Nat} (hc : c ∈ e.children) :
    Arrives t root (some id) scope c := by
  obtain ⟨hlt, hparent⟩ := h.inside c hc
  refine ⟨⟨?_, fun s hs => Nat.lt_of_le_of_lt (hscope.le s hs) hlt⟩, ?_⟩
  · cases hec : t.element? c with
    | none =>
        intro a ha
        cases ha with
        | parent he => simp [hec] at he
        | step he => simp [hec] at he
    | some ec =>
        intro a ha hloop
        have hinside : ∀ o, t.Inside c o ↔ t.Within id o :=
          fun o => Tree.inside_iff_of_parent hec (hparent ec hec)
        simp only [hinside] at ha ⊢
        exact hscope.within a ha hloop
  · intro _ o ho
    obtain rfl : id = o := by simpa using ho
    exact h.exact_own (by simp) hscope

/-- A further branch has the same around it as the first one. -/
theorem around_block (hscope : t.ScopeOf (t.Inside id) scope)
    (hle : ∀ s : Nat, s ∈ scope → s ≤ id) {b : Nat} (hb : b ∈ e.links.further) :
    t.Around b scope := by
  obtain ⟨hlt, eb, heb, hparent⟩ := h.beside b hb
  refine ⟨fun a ha hloop => ?_, fun s hs => Nat.lt_of_le_of_lt (hle s hs) hlt⟩
  have hinside : ∀ o, t.Inside b o ↔ t.Inside id o :=
    fun o => Tree.inside_congr h.element heb hparent
  simp only [hinside] at ha ⊢
  exact hscope a ha hloop

theorem arrives_block (hscope : t.ScopeOf (t.Inside id) scope)
    (hle : ∀ s : Nat, s ∈ scope → s ≤ id) {b : Nat} (hb : b ∈ e.links.further) :
    Arrives t root owner scope b := by
  refine ⟨h.around_block hscope hle hb, fun hnone => ?_⟩
  obtain ⟨-, eb, heb, -⟩ := h.beside b hb
  rw [heb] at hnone
  cases hnone

/-- The condition of a further branch, which is never inside the loop of the branch. -/
theorem exact_guard_block (hscope : t.ScopeOf (t.Inside id) scope)
    (hle : ∀ s : Nat, s ∈ scope → s ≤ id) {b : Branch} (hb : b ∈ e.branches.drop 1)
    (hcondition : b.condition.isSome = true) :
    (⟨.guard, b.block, scope⟩ : Place).Exact t root := by
  have hmem : b.block ∈ e.links.further := List.mem_map_of_mem hb
  have haround := h.around_block hscope hle hmem
  obtain ⟨eb, heb, hnone, helse, -⟩ := h.chain.further b hb
  have hout : b.block ∉ scope := fun hin => Nat.lt_irrefl _ (haround.le b.block hin)
  refine ⟨h.met.step h.element (List.mem_append_right _ hmem), fun _ => ?_,
    fun hrole => absurd rfl hrole⟩
  exact ⟨haround.inside, eb, heb, .inr (helse ▸ hcondition), by simp [hout, hnone]⟩

/-- An element with a condition stays where it is, unless it is rendered once. -/
theorem not_lifts (honce : e.once = false) (hcondition : e.condition.isSome = true) :
    ¬t.Lifts id := by
  rw [Tree.lifts_iff h.element, honce]
  rintro (hroot | ⟨hfalse, -⟩)
  · rw [h.unconditional hroot] at hcondition
    cases hcondition
  · cases hfalse

end Scope

/-! ### The stages of an element, from the inside out -/

section Stages

variable (h : Situated settings t root id e mid₁ mid₂)

include h

/-- The conditional of an element, when its first branch is the element itself. -/
theorem produces_renderChoice (hcondition : e.condition.isSome = true)
    (hguard : (⟨.guard, id, scope⟩ : Place).Exact t root)
    (hscope : t.ScopeOf (t.Inside id) scope) (hle : ∀ s : Nat, s ∈ scope → s ≤ id)
    (hfuel : 8 * (mid₂ - mid₁) ≤ fuel)
    (horigin : (run settings t fuel (branchJob t id)
      { g with choiceDone := id :: g.choiceDone }).1.origin? = some id)
    (hown : Produces t root (WantedOwn t id e) mid₁ g
      ((run settings t fuel (branchJob t id)
        { g with choiceDone := id :: g.choiceDone }).1.places owner scope)
      (run settings t fuel (branchJob t id) { g with choiceDone := id :: g.choiceDone }).2) :
    Produces t root (Wanted t id) mid₂ g
      ((renderChoice t (run settings t fuel) id e g).1.places owner scope)
      (renderChoice t (run settings t fuel) id e g).2 := by
  obtain ⟨exp, further, hchain⟩ := exists_branches_eq h.chain hcondition
  have hblocks : e.links.further = further.map (·.block) := by
    simp [Element.links, hchain]
  have hplaced := h.further
  rw [hblocks] at hplaced
  rw [renderChoice, hchain, renderBranches]
  simp only [Code.places, horigin, Option.getD_some]
  refine (hown.append (produces_renderBranches (fun b hb => h.exact_guard_block hscope hle ?_)
    hplaced hfuel hown.behind fun b hb => h.arrives_block hscope hle ?_)).cons hguard ?_
  · simpa [hchain] using hb
  · rw [hblocks]
    exact List.mem_map_of_mem hb
  · intro role k hwanted
    rcases wanted_cases h.element hwanted with hwanted | ⟨-, ⟨hk, hrole⟩ | hwanted⟩
    · exact .inr (.inl hwanted)
    · exact .inl ⟨hrole, hk⟩
    · rw [hchain] at hwanted
      exact .inr (.inr hwanted)

/-- An element whose loop and conditional were dealt with. -/
theorem produces_done (hfuel : 8 * (mid₂ - id) ≤ fuel + 7)
    (hstatic : e.staticRoot = some true → id ∈ g.staticDone)
    (honce : e.once = true → id ∈ g.onceDone) (hloop : e.loop.isSome = true → id ∈ g.loopDone)
    (hchoice : e.condition.isSome = true → id ∈ g.choiceDone) (hbehind : g.Behind (id + 1))
    (hscope : t.FullScope id scope) :
    Produces t root (WantedOwn t id e) mid₁ g
      ((run settings t (fuel + 1) (.element id) g).1.places owner scope)
      (run settings t (fuel + 1) (.element id) g).2 := by
  have hle := h.le
  rw [run_of_done h.element hstatic honce hloop hchoice]
  exact produces_renderElement h.children (by omega) hbehind (h.exact_own (by simp) hscope)
    fun c hc => h.arrives_child hscope hc

/-- A pending element whose loop was dealt with. -/
theorem produces_chosen (hfuel : 8 * (mid₂ - id) ≤ fuel + 6) (hp : Pending id e g)
    (hstatic : e.staticRoot = some true → id ∈ g.staticDone)
    (hloop : e.loop.isSome = true → id ∈ g.loopDone) (hscope : t.FullScope id scope) :
    Produces t root (Due t id e) (if e.once then mid₁ else mid₂) g
      ((run settings t (fuel + 1) (.element id) g).1.places owner scope)
      (run settings t (fuel + 1) (.element id) g).2 := by
  have hle := h.le
  cases honce : e.once with
  | true =>
      refine (h.produces_done (by omega) hstatic hp.once hloop (hp.asked honce) hp.behind
        hscope).mono le_rfl ?_
      rintro role k (hwanted | ⟨hfalse, -⟩)
      · exact hwanted
      · rw [honce] at hfalse
        cases hfalse
  | false =>
      cases hcondition : e.condition.isSome with
      | false =>
          refine (h.produces_done (by omega) hstatic hp.once hloop (by simp [hcondition])
            hp.behind hscope).mono hle.2 ?_
          rintro role k (hwanted | ⟨-, hwanted⟩)
          · exact hwanted
          · rcases wanted_cases h.element hwanted with hwanted | ⟨htrue, -⟩
            · exact hwanted
            · rw [hcondition] at htrue
              cases htrue
      | true =>
          have hinside := hscope.scopeOf_inside (h.not_lifts honce hcondition)
          have hself : e.loop.isSome = true → (id ∈ scope ↔ e.once = false) := by
            intro hloops
            simp only [honce, iff_true]
            exact hscope.mem_self h.parentsFirst ((Tree.loops_iff h.element).mpr hloops)
          obtain ⟨fuel, rfl⟩ : ∃ f, fuel = f + 2 := ⟨fuel - 2, by omega⟩
          rw [run_of_choice h.element hstatic hp.once hloop hcondition (hp.unasked honce)]
          refine (h.produces_renderChoice hcondition (h.exact_guard hcondition hinside hself)
            hinside hscope.le (by omega)
            (origin?_run h.element h.chain (branchJob_cases t id)) ?_).mono le_rfl ?_
          · -- the first branch is the element itself
            have hjob : branchJob t id = .element id := by simp [branchJob, h.element, honce]
            rw [hjob]
            have hbehind : ({ g with choiceDone := id :: g.choiceDone } : Generator).Behind
                (id + 1) :=
              ⟨hp.behind.static, hp.behind.once, hp.behind.loop,
                List.forall_mem_cons.mpr ⟨Nat.lt_succ_self id, hp.behind.choice⟩⟩
            exact (h.produces_done (by omega) (by exact hstatic) (by exact hp.once)
              (by exact hloop) (fun _ => List.mem_cons_self) hbehind hscope).of_hoisted_eq rfl
          · rintro role k (hwanted | ⟨-, hwanted⟩)
            · exact wanted_of_own h.element hwanted
            · exact hwanted

/-- A pending element with its loop before it. -/
theorem produces_looped (hfuel : 8 * (mid₂ - id) ≤ fuel + 5) (hp : Pending id e g)
    (hstatic : e.staticRoot = some true → id ∈ g.staticDone) (hloop : id ∉ g.loopDone)
    (hscope : t.OwnScope id scope) :
    Produces t root (Due t id e) (if e.once then mid₁ else mid₂) g
      ((run settings t (fuel + 1) (.element id) g).1.places owner scope)
      (run settings t (fuel + 1) (.element id) g).2 := by
  have hle := h.le
  cases hl : e.loop with
  | none =>
      have hno : ¬t.Loops id := by simp [Tree.loops_iff h.element, hl]
      exact h.produces_chosen (by omega) hp hstatic (by simp [hl]) (hscope.unlooped hno)
  | some l =>
      obtain ⟨fuel, rfl⟩ : ∃ f, fuel = f + 1 := ⟨fuel - 1, by omega⟩
      rw [run_of_loop h.element hstatic hp.once hl hloop, renderLoop]
      have hp' : Pending id e { g with loopDone := id :: g.loopDone } :=
        ⟨hp.once, hp.asked, hp.unasked, hp.behind.static, hp.behind.once,
          List.forall_mem_cons.mpr ⟨Nat.lt_succ_self id, hp.behind.loop⟩, hp.behind.choice⟩
      exact (h.produces_chosen (by omega) hp' hstatic (fun _ => List.mem_cons_self)
        (hscope.looped h.parentsFirst)).of_hoisted_eq rfl

/-- A pending element that is put into a function of its own. -/
theorem produces_lifted (hfuel : 8 * (mid₂ - id) ≤ fuel + 4) (hp : Pending id e g)
    (hloop : id ∉ g.loopDone) (hlifts : t.Lifts id) :
    Produces t root (Due t id e) (if e.once then mid₁ else mid₂) g
      ((renderStatic (run settings t fuel) id e g).1.places owner scope)
      (renderStatic (run settings t fuel) id e g).2 := by
  have hle := h.le
  obtain ⟨fuel, rfl⟩ : ∃ f, fuel = f + 1 := ⟨fuel - 1, by omega⟩
  have hp' : Pending id e
      { g with staticDone := id :: g.staticDone, verbatim := g.verbatim || e.pre } :=
    ⟨hp.once, hp.asked, hp.unasked,
      List.forall_mem_cons.mpr ⟨Nat.lt_succ_self id, hp.behind.static⟩, hp.behind.once,
      hp.behind.loop, hp.behind.choice⟩
  exact produces_renderStatic ((h.produces_looped (by omega) hp' (fun _ => List.mem_cons_self)
    hloop (.nil h.parentsFirst hlifts)).of_hoisted_eq rfl)

/-- A pending element that may have to be put into a function of its own first. -/
theorem produces_pending (hfuel : 8 * (mid₂ - id) ≤ fuel + 4) (hp : Pending id e g)
    (hloop : id ∉ g.loopDone) (hscope : e.staticRoot ≠ some true → t.OwnScope id scope)
    (hdone : id ∈ g.staticDone → t.OwnScope id scope) :
    Produces t root (Due t id e) (if e.once then mid₁ else mid₂) g
      ((run settings t (fuel + 1) (.element id) g).1.places owner scope)
      (run settings t (fuel + 1) (.element id) g).2 := by
  by_cases hroot : e.staticRoot = some true
  · by_cases hstatic : id ∈ g.staticDone
    · exact h.produces_looped (by omega) hp (fun _ => hstatic) hloop (hdone hstatic)
    · rw [run_of_static h.element hroot hstatic]
      exact h.produces_lifted hfuel hp hloop ((Tree.lifts_iff h.element).mpr (.inl hroot))
  · exact h.produces_looped (by omega) hp (fun hroot' => absurd hroot' hroot) hloop (hscope hroot)

/-- An element that is rendered once, when its condition was asked or there is none. -/
theorem produces_renderOnce_of_asked (hfuel : 8 * (mid₂ - id) ≤ fuel + 3) (honce : e.once = true)
    (hasked : e.condition.isSome = true → id ∈ g.choiceDone) (hloop : id ∉ g.loopDone)
    (hbehind : g.Behind (id + 1)) (haround : e.staticRoot ≠ some true → t.Around id scope)
    (hdone : id ∈ g.staticDone → t.OwnScope id scope) :
    Produces t root (WantedOwn t id e) mid₁ g
      ((renderOnce t (run settings t fuel) id e g).1.places owner scope)
      (renderOnce t (run settings t fuel) id e g).2 := by
  have hle := h.le
  have hp : Pending id e { g with onceDone := id :: g.onceDone } :=
    ⟨fun _ => List.mem_cons_self, fun _ => hasked, by simp [honce], hbehind.static,
      List.forall_mem_cons.mpr ⟨Nat.lt_succ_self id, hbehind.once⟩, hbehind.loop, hbehind.choice⟩
  have hchoice : (e.condition.isSome && !g.choiceDone.contains id) = false := by
    cases hcondition : e.condition.isSome with
    | false => rfl
    | true => simp [hasked hcondition]
  unfold renderOnce
  simp only [hchoice, Bool.false_eq_true, if_false]
  by_cases hinFor : e.staticInFor = some true
  · rw [if_neg (not_not.mpr hinFor)]
    obtain ⟨fuel, rfl⟩ : ∃ f, fuel = f + 1 := ⟨fuel - 1, by omega⟩
    have hstays : e.staticRoot ≠ some true → t.OwnScope id scope := fun hroot =>
      (haround hroot).own (by simp [Tree.lifts_iff h.element, hroot, hinFor])
    have hbody : Produces t root (WantedOwn t id e) mid₁ g
        ((run settings t (fuel + 1) (.element id)
          { g with onceDone := id :: g.onceDone }).1.places owner scope) _ :=
      ((h.produces_pending (by omega) hp hloop hstays hdone).own honce).of_hoisted_eq rfl
    split
    · exact hbody
    · exact hbody.congr rfl
        ⟨hbody.behind.static, hbody.behind.once, hbody.behind.loop, hbody.behind.choice⟩
  · rw [if_pos hinFor]
    have hlifts : t.Lifts id := (Tree.lifts_iff h.element).mpr (.inr ⟨honce, hinFor⟩)
    exact ((h.produces_lifted (by omega) hp hloop hlifts).own honce).of_hoisted_eq rfl

/-- **An element that is rendered once** asks its condition first of all, outside of its own
loop. -/
theorem produces_renderOnce (hfuel : 8 * (mid₂ - id) ≤ fuel + 2) (honce : e.once = true)
    (hchoice : id ∉ g.choiceDone) (hloop : id ∉ g.loopDone) (hbehind : g.Behind (id + 1))
    (haround : e.staticRoot ≠ some true → t.Around id scope)
    (hdone : id ∈ g.staticDone → t.OwnScope id scope) :
    Produces t root (Wanted t id) mid₂ g
      ((renderOnce t (run settings t fuel) id e g).1.places owner scope)
      (renderOnce t (run settings t fuel) id e g).2 := by
  have hle := h.le
  cases hcondition : e.condition.isSome with
  | false =>
      refine (h.produces_renderOnce_of_asked (by omega) honce (by simp [hcondition]) hloop hbehind
        haround hdone).mono hle.2 ?_
      intro role k hwanted
      rcases wanted_cases h.element hwanted with hwanted | ⟨htrue, -⟩
      · exact hwanted
      · rw [hcondition] at htrue
        cases htrue
  | true =>
      have hroot : e.staticRoot ≠ some true := by
        intro hroot
        rw [h.unconditional hroot] at hcondition
        cases hcondition
      have hscope := haround hroot
      have hself : e.loop.isSome = true → (id ∈ scope ↔ e.once = false) := by
        intro _
        have hout : id ∉ scope := fun hmem => Nat.lt_irrefl id (hscope.le id hmem)
        simp [hout, honce]
      obtain ⟨fuel, rfl⟩ : ∃ f, fuel = f + 2 := ⟨fuel - 2, by omega⟩
      unfold renderOnce
      simp only [hcondition, hchoice, List.contains_eq_mem, decide_false, Bool.not_false,
        Bool.and_self, if_true]
      refine Produces.of_hoisted_eq (h.produces_renderChoice hcondition
        (h.exact_guard hcondition hscope.inside hself) hscope.inside
        (fun s hs => Nat.le_of_lt (hscope.le s hs)) (by omega)
        (origin?_run h.element h.chain (branchJob_cases t id)) ?_) rfl
      -- the first branch is the element itself, which is rendered once
      have hjob : branchJob t id = .once id := by simp [branchJob, h.element, honce]
      rw [hjob, run_once h.element]
      have hbehind' : ({ g with onceDone := id :: g.onceDone, choiceDone := id :: g.choiceDone } :
          Generator).Behind (id + 1) :=
        ⟨hbehind.static, List.forall_mem_cons.mpr ⟨Nat.lt_succ_self id, hbehind.once⟩,
          hbehind.loop, List.forall_mem_cons.mpr ⟨Nat.lt_succ_self id, hbehind.choice⟩⟩
      exact (h.produces_renderOnce_of_asked (by omega) honce (fun _ => List.mem_cons_self)
        (by exact hloop) hbehind' haround hdone).of_hoisted_eq rfl

/-- An element that is rendered once, and once and for all: the latter comes first. -/
theorem produces_lifted_of_once (hfuel : 8 * (mid₂ - id) ≤ fuel + 1) (honce : e.once = true)
    (hroot : e.staticRoot = some true) (hdone : id ∉ g.onceDone) (hchoice : id ∉ g.choiceDone)
    (hloop : id ∉ g.loopDone) (hbehind : g.Behind (id + 1)) :
    Produces t root (Wanted t id) mid₂ g
      ((renderStatic (run settings t fuel) id e g).1.places owner scope)
      (renderStatic (run settings t fuel) id e g).2 := by
  have hle := h.le
  obtain ⟨fuel, rfl⟩ : ∃ f, fuel = f + 1 := ⟨fuel - 1, by omega⟩
  have hnil : t.OwnScope id [] :=
    .nil h.parentsFirst ((Tree.lifts_iff h.element).mpr (.inl hroot))
  have hbehind' : ({ g with staticDone := id :: g.staticDone, verbatim := g.verbatim || e.pre } :
      Generator).Behind (id + 1) :=
    ⟨List.forall_mem_cons.mpr ⟨Nat.lt_succ_self id, hbehind.static⟩, hbehind.once, hbehind.loop,
      hbehind.choice⟩
  refine produces_renderStatic ?_
  rw [run_of_once h.element (fun _ => List.mem_cons_self) honce (by exact hdone)]
  exact (h.produces_renderOnce (by omega) honce (by exact hchoice) (by exact hloop) hbehind'
    (fun hroot' => absurd hroot hroot') fun _ => hnil).of_hoisted_eq rfl

/-- **An element**, whatever has to be done with it. -/
theorem produces_run {lo : Nat} {job : Job} (hlo : lo ≤ id) (hfuel : 8 * (mid₂ - lo) ≤ fuel)
    (hjob : job = .element id ∨ job = branchJob t id) (hbehind : g.Behind lo)
    (harrives : Arrives t root owner scope id) :
    Produces t root (Wanted t id) mid₂ g ((run settings t fuel job g).1.places owner scope)
      (run settings t fuel job g).2 := by
  have hle := h.le
  have hbehind' : g.Behind (id + 1) := hbehind.mono (Nat.le_succ_of_le hlo)
  obtain ⟨hstatic, honceDone, hloop, hchoice⟩ := (hbehind.mono hlo).not_mem
  obtain ⟨fuel, rfl⟩ : ∃ f, fuel = f + 1 := ⟨fuel - 1, by omega⟩
  have hfresh : id ∈ g.staticDone → t.OwnScope id scope := fun hmem => absurd hmem hstatic
  cases honce : e.once with
  | true =>
      -- the element is rendered once, wherever it is met
      have hown : Produces t root (Wanted t id) mid₂ g
          ((renderOnce t (run settings t fuel) id e g).1.places owner scope)
          (renderOnce t (run settings t fuel) id e g).2 :=
        h.produces_renderOnce (by omega) honce hchoice hloop hbehind'
          (fun _ => harrives.around) hfresh
      have hbranch : branchJob t id = .once id := by simp [branchJob, h.element, honce]
      rcases hjob with rfl | rfl
      · by_cases hroot : e.staticRoot = some true
        · rw [run_of_static h.element hroot hstatic]
          exact h.produces_lifted_of_once (by omega) honce hroot honceDone hchoice hloop
            hbehind'
        · rw [run_of_once h.element (fun hroot' => absurd hroot' hroot) honce honceDone]
          exact hown
      · rw [hbranch, run_once h.element]
        exact hown
  | false =>
      have hjob : job = .element id := by simpa [branchJob, h.element, honce] using hjob
      have hp : Pending id e g := ⟨by simp [honce], by simp [honce], fun _ => hchoice, hbehind'⟩
      have hstays : e.staticRoot ≠ some true → t.OwnScope id scope := fun hroot =>
        harrives.around.own (by simp [Tree.lifts_iff h.element, hroot, honce])
      rw [hjob]
      exact (h.produces_pending (by omega) hp hloop hstays hfresh).all honce

theorem placedIn {lo : Nat} (hlo : lo ≤ id) : PlacedIn settings t root lo mid₂ id := by
  intro fuel job owner scope g hfuel hjob hbehind harrives
  refine ⟨h.produces_run hlo hfuel hjob hbehind harrives, fun _ _ => ?_⟩
  have hle := h.le
  obtain ⟨fuel, rfl⟩ : ∃ f, fuel = f + 2 := ⟨fuel - 2, by omega⟩
  refine origin?_run h.element h.chain ?_
  rcases hjob with rfl | rfl
  · exact .inl rfl
  · exact branchJob_cases t id

end Stages

end Situated

/-! ### Trees -/

section Trees

variable {settings : Settings} {t : Tree} {root : NodeId}

theorem places_leafCode {id : NodeId} {owner : Option NodeId} {scope : List NodeId} {p : Place}
    (h : p ∈ (leafCode t id).places owner scope) : ∃ o ∈ owner, p = ⟨.text, o, scope⟩ := by
  have htext : p ∈ (owner.toList.map fun o => (⟨.text, o, scope⟩ : Place)) →
      ∃ o ∈ owner, p = ⟨.text, o, scope⟩ := by
    intro hp
    obtain ⟨o, ho, rfl⟩ := List.mem_map.mp hp
    exact ⟨o, Option.mem_toList.mp ho, rfl⟩
  unfold leafCode at h
  split at h
  · split at h
    · exact htext h
    · exact htext h
  · exact htext h
  · cases h

/-- A node that is no element. -/
theorem placedIn_of_leaf {id lo : Nat} (hnone : t.element? id = none) (hlo : lo ≤ id) :
    PlacedIn settings t root lo (id + 1) id := by
  intro fuel job owner scope g hfuel hjob hbehind harrives
  obtain ⟨fuel, rfl⟩ : ∃ f, fuel = f + 1 := ⟨fuel - 1, by omega⟩
  have hjob : job = .element id := by simpa [branchJob, hnone] using hjob
  rw [hjob, run_of_leaf hnone]
  refine ⟨⟨fun p hp => ?_, List.Subset.refl _, hbehind.mono (by omega), fun role k hwanted =>
    absurd hwanted (not_wanted_of_leaf hnone)⟩, by simp [hnone]⟩
  rcases List.mem_append.mp hp with hp | hp
  · obtain ⟨o, ho, rfl⟩ := places_leafCode hp
    exact .inr (harrives.text hnone o ho)
  · exact .inl hp

/-- **Forests are rendered with the right scopes.** -/
theorem placedAll_of_forest (hfirst : t.ParentsFirst)
    (hchain : ∀ id e, t.element? id = some e → t.Chain id e)
    (hstatic : ∀ id e, t.element? id = some e → e.staticRoot = some true → e.condition = none)
    {p : Option NodeId} {lo hi : Nat} {ids : List NodeId} (h : t.Forest p lo hi ids) :
    (∀ id ∈ ids, t.Reach dependents root id) → PlacedAll settings t root lo hi ids := by
  induction h with
  | nil hle => exact fun _ => hle
  | @leaf p lo hi id ids hlinks hlo h ih =>
      intro hmet
      exact ⟨id + 1, by omega, placedIn_of_leaf (Tree.element?_of_links? hlinks) hlo,
        ih fun c hc => hmet c (List.mem_cons_of_mem id hc)⟩
  | @element p lo mid₁ mid₂ hi id ids l hlinks hparent hlo hchildren hbranches hfurther h
      ih₁ ih₂ ih₃ =>
      intro hmet
      obtain ⟨e, he, rfl⟩ := Tree.links?_eq_some_some_iff.mp hlinks
      have hid := hmet id (by simp)
      have hle₁ := hchildren.le
      have hle₂ := hfurther.le
      have hsituated : Situated settings t root id e mid₁ mid₂ := by
        constructor
        case parentsFirst => exact hfirst
        case met => exact hid
        case element => exact he
        case chain => exact hchain id e he
        case unconditional => exact hstatic id e he
        case children => exact ih₁ fun c hc => hid.step he (List.mem_append_left _ hc)
        case further => exact ih₂ fun b hb => hid.step he (List.mem_append_right _ hb)
        case inside =>
          intro c hc
          refine ⟨(hchildren.mem_interval c hc).1, fun ec hec => ?_⟩
          exact hchildren.parent_eq c ec.links hc (Tree.links?_of_element? hec)
        case beside =>
          intro b hb
          have hbound := (hfurther.mem_interval b hb).1
          obtain ⟨lb, hlb⟩ := hbranches b hb
          obtain ⟨eb, heb, rfl⟩ := Tree.links?_eq_some_some_iff.mp hlb
          exact ⟨by omega, eb, heb, (hfurther.parent_eq b eb.links hb hlb).trans hparent.symm⟩
      exact ⟨mid₂, by omega, hsituated.placedIn hlo,
        ih₃ fun c hc => hmet c (List.mem_cons_of_mem id hc)⟩

/-- **Every piece of the code of a tree has the scope of its element**, and all pieces are there
that have to be there. -/
theorem places_generate (hfirst : t.ParentsFirst) (hroot : t.root = some root)
    (hforest : t.Forest none 0 t.size [root])
    (hchain : ∀ id e, t.element? id = some e → t.Chain id e)
    (hstatic : ∀ id e, t.element? id = some e → e.staticRoot = some true → e.condition = none) :
    (∀ p ∈ (generate settings t).places, p.Exact t root) ∧
      ∀ role k, Wanted t root role k →
        ∃ scope, ⟨role, k, scope⟩ ∈ (generate settings t).places := by
  have hmet : ∀ id ∈ [root], t.Reach dependents root id := fun id hid =>
    List.mem_singleton.mp hid ▸ .refl
  obtain ⟨mid, -, hplaced, hle⟩ : PlacedAll settings t root 0 t.size [root] :=
    placedAll_of_forest hfirst hchain hstatic hforest hmet
  change mid ≤ t.size at hle
  have hnone : ∀ a, ¬t.Inside root a := by
    intro a ha
    cases ha with
    | parent he hparent =>
        have hno := hforest.parent_eq root _ (by simp) (Tree.links?_of_element? he)
        cases hparent.symm.trans hno
    | step he hparent _ =>
        have hno := hforest.parent_eq root _ (by simp) (Tree.links?_of_element? he)
        cases hparent.symm.trans hno
  have harrives : Arrives t root none [] root :=
    ⟨⟨fun a ha => absurd ha (hnone a), by simp⟩, by simp⟩
  obtain ⟨hproduces, -⟩ := hplaced (fuelFor t) (.element root) none [] {} (by unfold fuelFor; omega)
    (.inl rfl) ⟨by simp, by simp, by simp, by simp⟩ harrives
  have hplaces : (generate settings t).places =
      (run settings t (fuelFor t) (.element root) {}).1.places none [] ++
        (run settings t (fuelFor t) (.element root) {}).2.places := by
    simp only [Rendered.places, generate, hroot, Option.toList_some, List.flatMap_append,
      List.flatMap_singleton, Generator.places]
  rw [hplaces]
  refine ⟨fun p hp => ?_, hproduces.present⟩
  rcases hproduces.sound p hp with hp | hp
  · cases hp
  · exact hp

end Trees

end Templating.Render
