import Templating.Proofs.Render.Placing
import Templating.Proofs.Render.Trace

/-!
**Every stage of the generator is entered once.**

The generator comes back to an element after each stage, so what was dealt with has to be
remembered, and a conditional leads from its first element to the other branches.  The loop and the
conditional of an element are remembered for good.  That a node itself is made once has another
reason: in document order what lies below different nodes has different numbers, and where a
conditional is decided the first element is left with its children only.

Main definitions:

* `Templating.Render.Stage`, `Templating.Render.Step.stage?` — the stages that must not be repeated;
* `Templating.Render.Own` — the nodes that may be made when an element is rendered;
* `Templating.Render.Enters` — what the stages of a trace enter, each at most once.

Main results:

* `Templating.Render.Enters.append`, `Templating.Render.Enters.make`,
  `Templating.Render.Enters.enter` — putting stages together;
* `Templating.Render.enters_run` — **a job enters every stage at most once**;
* `Templating.Render.nodup_entries` — so does the generator for a whole tree.
-/

set_option autoImplicit false

namespace Templating.Render

open Static (dependents)

/-! ### Entries -/

/-- A stage that an element goes through at most once. -/
inductive Stage where
  | loop
  | choice
  | made
  deriving Repr, DecidableEq

/-- The stage of a step, with the node it is about. -/
def Step.stage? : Step → Option (Stage × NodeId)
  | static _ => none
  | loop id => some (.loop, id)
  | choice id => some (.choice, id)
  | made id => some (.made, id)

/-- The stages of a trace. -/
def entries (steps : List Step) : List (Stage × NodeId) := steps.filterMap Step.stage?

@[simp] theorem entries_nil : entries [] = [] := rfl

@[simp] theorem entries_append (steps steps' : List Step) :
    entries (steps ++ steps') = entries steps ++ entries steps' :=
  List.filterMap_append

theorem entries_singleton (step : Step) : entries [step] = step.stage?.toList := by
  cases step <;> rfl

/-- The stages that the generator knows it has dealt with. -/
def Generator.Dealt (g : Generator) : Stage × NodeId → Prop
  | (.loop, id) => id ∈ g.loopDone
  | (.choice, id) => id ∈ g.choiceDone
  | (.made, _) => False

/-- **What the stages `steps` enter**, each at most once: loops and conditionals that were not dealt
with and are by then, and nodes of `R`. -/
structure Enters (R : NodeId → Prop) (d : Stage × NodeId → Prop) (steps : List Step)
    (d' : Stage × NodeId → Prop) : Prop where
  grows : ∀ x, d x → d' x
  fresh : ∀ x ∈ entries steps, x.1 ≠ .made → ¬d x ∧ d' x
  made : ∀ k, (.made, k) ∈ entries steps → R k
  nodup : (entries steps).Nodup

namespace Enters

variable {R R' : NodeId → Prop} {d d' d'' : Stage × NodeId → Prop} {steps steps' : List Step}

theorem nil : Enters R d [] d where
  grows _ hx := hx
  fresh := by simp
  made := by simp
  nodup := by simp

theorem mono (h : Enters R d steps d') (hR : ∀ k, R k → R' k) : Enters R' d steps d' :=
  { h with made := fun k hk => hR k (h.made k hk) }

/-- Stages that follow each other. -/
theorem append (h : Enters R d steps d') (h' : Enters R' d' steps' d'')
    (hapart : ∀ k, R k → ¬R' k) :
    Enters (fun k => R k ∨ R' k) d (steps ++ steps') d'' where
  grows x hx := h'.grows x (h.grows x hx)
  fresh := by
    intro x hx hstage
    rw [entries_append, List.mem_append] at hx
    rcases hx with hx | hx
    · exact ⟨(h.fresh x hx hstage).1, h'.grows x (h.fresh x hx hstage).2⟩
    · exact ⟨fun hdealt => (h'.fresh x hx hstage).1 (h.grows x hdealt), (h'.fresh x hx hstage).2⟩
  made := by
    intro k hk
    rw [entries_append, List.mem_append] at hk
    exact hk.imp (h.made k) (h'.made k)
  nodup := by
    rw [entries_append, List.nodup_append]
    refine ⟨h.nodup, h'.nodup, ?_⟩
    rintro ⟨stage, k⟩ hk _ hk' rfl
    by_cases hstage : stage = .made
    · subst hstage
      exact hapart k (h.made k hk) (h'.made k hk')
    · exact (h'.fresh _ hk' hstage).1 (h.fresh _ hk hstage).2

/-- A step that is not counted. -/
theorem quiet (h : Enters R d steps d') {step : Step} (hstep : step.stage? = none) :
    Enters R d (steps ++ [step]) d' := by
  have hsame : entries (steps ++ [step]) = entries steps := by
    simp [entries_singleton, hstep]
  exact ⟨h.grows, by rw [hsame]; exact h.fresh, by rw [hsame]; exact h.made,
    by rw [hsame]; exact h.nodup⟩

/-- **A node that was not made is made.** -/
theorem make (h : Enters R d steps d') {id : NodeId} (hid : ¬R id) :
    Enters (fun k => k = id ∨ R k) d (steps ++ [.made id]) d' := by
  have hlast : Enters (fun k => k = id) d' [.made id] d' :=
    ⟨fun x hx => hx, by simp [entries, Step.stage?], by simp [entries, Step.stage?],
      by simp [entries, Step.stage?]⟩
  exact (h.append hlast fun k hk heq => hid (heq ▸ hk)).mono fun k hk => hk.symm

/-- **A loop is opened, or a conditional is decided.**  What is inside knows about that. -/
theorem enter {x : Stage × NodeId} {step : Step} (h : Enters R (fun y => y = x ∨ d y) steps d')
    (hstep : step.stage? = some x) (hstage : x.1 ≠ .made) (hx : ¬d x) :
    Enters R d (steps ++ [step]) d' where
  grows y hy := h.grows y (.inr hy)
  fresh := by
    intro y hy hstage
    rw [entries_append, entries_singleton, hstep, List.mem_append] at hy
    rcases hy with hy | hy
    · exact ⟨fun hdealt => (h.fresh y hy hstage).1 (.inr hdealt), (h.fresh y hy hstage).2⟩
    · obtain rfl : y = x := by simpa using hy
      exact ⟨hx, h.grows y (.inl rfl)⟩
  made := by
    intro k hk
    rw [entries_append, entries_singleton, hstep, List.mem_append] at hk
    rcases hk with hk | hk
    · exact h.made k hk
    · obtain rfl : (.made, k) = x := by simpa using hk
      exact absurd rfl hstage
  nodup := by
    rw [entries_append, entries_singleton, hstep]
    refine List.nodup_append.mpr ⟨h.nodup, by simp, ?_⟩
    rintro y hy _ hlast rfl
    obtain rfl : y = x := by simpa using hlast
    exact (h.fresh y hy hstage).1 (.inl rfl)

theorem congr {d₁ d₁' : Stage × NodeId → Prop} (h : Enters R d steps d')
    (hbefore : ∀ x, d₁ x ↔ d x) (hafter : ∀ x, d₁' x ↔ d' x) : Enters R d₁ steps d₁' := by
  obtain rfl : d₁ = d := funext fun x => propext (hbefore x)
  obtain rfl : d₁' = d' := funext fun x => propext (hafter x)
  exact h

end Enters

theorem Generator.dealt_loop (g : Generator) (id : NodeId) (x : Stage × NodeId) :
    { g with loopDone := id :: g.loopDone }.Dealt x ↔ x = (.loop, id) ∨ g.Dealt x := by
  obtain ⟨stage, k⟩ := x
  cases stage <;> simp [Dealt]

theorem Generator.dealt_choice (g : Generator) (id : NodeId) (x : Stage × NodeId) :
    { g with choiceDone := id :: g.choiceDone }.Dealt x ↔ x = (.choice, id) ∨ g.Dealt x := by
  obtain ⟨stage, k⟩ := x
  cases stage <;> simp [Dealt]

/-! ### What is made -/

/-- The nodes that may be made when the node `id` is rendered: itself and everything below it, but
for the further branches of its conditional when that was decided. -/
def Own (t : Tree) (decided : List NodeId) (id k : NodeId) : Prop :=
  k = id ∨ ∃ e, t.element? id = some e ∧
    t.Reaches dependents (if id ∈ decided then e.children else dependents e) k

theorem Own.reach {t : Tree} {decided : List NodeId} {id k : NodeId} (h : Own t decided id k) :
    t.Reach dependents id k := by
  rcases h with rfl | ⟨e, he, hk⟩
  · exact .refl
  · refine (Tree.reach_iff_of_element he).mpr (.inr ?_)
    split at hk
    · exact Tree.reaches_append.mpr (.inl hk)
    · exact hk

/-- An element with its children only. -/
theorem own_of_children {t : Tree} {decided : List NodeId} {id k : NodeId} {e : Element}
    (he : t.element? id = some e) (h : k = id ∨ t.Reaches dependents e.children k) :
    Own t decided id k := by
  rcases h with rfl | hk
  · exact .inl rfl
  · refine .inr ⟨e, he, ?_⟩
    split
    · exact hk
    · exact Tree.reaches_append.mpr (.inl hk)

/-! ### The parts of an element -/

/-- **The code of an element itself** is put together from that of its children, which may be left
out, and its stages are those of the children before its own. -/
theorem exists_renderElement_eq (settings : Settings) (t : Tree) (recur : Renderer) (steps : Tracer)
    (id : NodeId) (e : Element) (g : Generator) :
    ∃ body inner,
      (body = (.absent, g) ∧ inner = [] ∨ ∃ flatten,
        body = renderChildren settings t recur e flatten g ∧
          inner = traceChildren t recur steps e g) ∧
      (renderElement settings t recur id e g).1.parts = [body.1] ∧
      (renderElement settings t recur id e g).2 = body.2 ∧
      traceElement t recur steps id e g = inner ++ [.made id] := by
  unfold renderElement traceElement
  split
  · exact ⟨_, _, .inr ⟨false, rfl, rfl⟩, rfl, rfl, rfl⟩
  · split
    · exact ⟨_, _, .inr ⟨false, rfl, rfl⟩, rfl, rfl, rfl⟩
    · dsimp only
      have hbody : (if e.inlineTemplate then (.absent, g)
            else renderChildren settings t recur e true g : Code × Generator) = (.absent, g) ∧
          (if e.inlineTemplate then [] else traceChildren t recur steps e g) = [] ∨ ∃ flatten,
          (if e.inlineTemplate then (.absent, g)
            else renderChildren settings t recur e true g : Code × Generator) =
              renderChildren settings t recur e flatten g ∧
          (if e.inlineTemplate then [] else traceChildren t recur steps e g) =
            traceChildren t recur steps e g := by
        split
        · exact .inl ⟨rfl, rfl⟩
        · exact .inr ⟨true, rfl, rfl⟩
      cases e.component with
      | some code => exact ⟨_, _, hbody, rfl, rfl, rfl⟩
      | none => exact ⟨_, _, hbody, rfl, rfl, rfl⟩

/-- The branches of an element with a condition: the element itself, and those it leads to besides
its children. -/
theorem exists_further {t : Tree} {id : NodeId} {e : Element} (hchain : t.Chain id e)
    (hcondition : e.condition.isSome = true) : ∃ exp further,
      e.branches = ⟨some exp, id⟩ :: further ∧
        dependents e = e.children ++ further.map (·.block) := by
  obtain ⟨exp, further, hbranches⟩ := exists_branches_eq hchain hcondition
  refine ⟨exp, further, hbranches, ?_⟩
  rw [dependents, hbranches]
  rfl

section Parts

variable {settings : Settings} {t : Tree} {root : NodeId} {recur : Renderer} {steps : Tracer}
  (hrecur : ∀ (job : Job) (id : NodeId), job = .element id ∨ job = .once id →
    t.Reach dependents root id → ∀ g : Generator,
      Enters (Own t g.choiceDone id) g.Dealt (steps job g) (recur job g).2.Dealt)

include hrecur

/-- **Several nodes**, one after another. -/
theorem enters_renderEach {ids : List NodeId} (hmet : ∀ id ∈ ids, t.Reach dependents root id)
    (hpair : ids.Pairwise t.Precedes) (g : Generator) :
    Enters (t.Reaches dependents ids) g.Dealt (traceEach recur steps ids g)
      (renderEach recur ids g).2.Dealt := by
  induction ids generalizing g with
  | nil => exact .nil
  | cons id rest ih =>
      obtain ⟨hfirst, hrest⟩ := List.pairwise_cons.mp hpair
      have hid := (hrecur (.element id) id (.inl rfl) (hmet id List.mem_cons_self) g).mono
        fun k hk => hk.reach
      have hothers := ih (fun c hc => hmet c (List.mem_cons_of_mem id hc)) hrest
        (recur (.element id) g).2
      refine (hid.append hothers fun k hk hk' => ?_).mono fun k hk => Tree.reaches_cons.mpr hk
      exact Tree.not_reach_of_precedes hfirst hk' hk

theorem enters_renderChildren {e : Element} (hmet : ∀ c ∈ e.children, t.Reach dependents root c)
    (hpair : e.children.Pairwise t.Precedes) (flatten : Bool) (g : Generator) :
    Enters (t.Reaches dependents e.children) g.Dealt (traceChildren t recur steps e g)
      (renderChildren settings t recur e flatten g).2.Dealt := by
  unfold renderChildren traceChildren
  cases honly : onlyLoop? t e with
  | some only =>
      obtain ⟨id, child⟩ := only
      rw [children_of_onlyLoop? honly] at hmet ⊢
      refine (hrecur (.element id) id (.inl rfl) (hmet id List.mem_cons_self) g).mono ?_
      exact fun k hk => Tree.reaches_singleton.mpr hk.reach
  | none =>
      dsimp only
      split
      · rename_i hnil
        rw [hnil]
        exact .nil
      · exact enters_renderEach hrecur hmet hpair g

/-- **An element itself**: what is below it is made first. -/
theorem enters_renderElement {id : NodeId} {e : Element}
    (hmet : ∀ c ∈ e.children, t.Reach dependents root c)
    (hpair : e.children.Pairwise t.Precedes) (hself : ¬t.Reaches dependents e.children id)
    (g : Generator) :
    Enters (fun k => k = id ∨ t.Reaches dependents e.children k) g.Dealt
      (traceElement t recur steps id e g) (renderElement settings t recur id e g).2.Dealt := by
  obtain ⟨body, inner, hbody, -, hafter, hsteps⟩ :=
    exists_renderElement_eq settings t recur steps id e g
  rw [hafter, hsteps]
  refine Enters.make ?_ hself
  rcases hbody with ⟨rfl, rfl⟩ | ⟨flatten, rfl, rfl⟩
  · exact .nil
  · exact enters_renderChildren hrecur hmet hpair flatten g

theorem enters_renderStatic {id : NodeId} (hid : t.Reach dependents root id) (e : Element)
    (g : Generator) :
    Enters (Own t g.choiceDone id) g.Dealt (traceStatic recur steps id e g)
      (renderStatic recur id e g).2.Dealt :=
  (hrecur (.element id) id (.inl rfl) hid
    { g with staticDone := id :: g.staticDone, verbatim := g.verbatim || e.pre }).quiet rfl

theorem enters_renderLoop {id : NodeId} (hid : t.Reach dependents root id) (l : Expression.Loop)
    {g : Generator} (hdone : id ∉ g.loopDone) :
    Enters (Own t g.choiceDone id) g.Dealt (traceLoop steps id g)
      (renderLoop recur id l g).2.Dealt := by
  have hbody := hrecur (.element id) id (.inl rfl) hid { g with loopDone := id :: g.loopDone }
  refine (hbody.congr (fun x => ?_) fun _ => .rfl).enter rfl (by simp) hdone
  exact (g.dealt_loop id x).symm

/-- The branches of a conditional behind the first one. -/
theorem enters_renderBranches (origin : NodeId) {branches : List Branch}
    (hmet : ∀ b ∈ branches, t.Reach dependents root b.block)
    (hpair : (branches.map (·.block)).Pairwise t.Precedes) (g : Generator) :
    Enters (t.Reaches dependents (branches.map (·.block))) g.Dealt
      (traceBranches t recur steps branches g)
      (renderBranches t recur origin branches g).2.Dealt := by
  induction branches generalizing g with
  | nil => exact .nil
  | cons b rest ih =>
      obtain ⟨hfirst, hrest⟩ := List.pairwise_cons.mp hpair
      have hblock := (hrecur (branchJob t b.block) b.block (branchJob_cases t b.block)
        (hmet b List.mem_cons_self) g).mono fun k hk => hk.reach
      unfold renderBranches traceBranches
      cases b.condition with
      | none =>
          dsimp only
          rw [List.append_nil]
          exact hblock.mono fun k hk => Tree.reaches_cons.mpr (.inl hk)
      | some exp =>
          have hothers := ih (fun c hc => hmet c (List.mem_cons_of_mem b hc)) hrest
            (recur (branchJob t b.block) g).2
          refine (hblock.append hothers fun k hk hk' => ?_).mono
            fun k hk => Tree.reaches_cons.mpr hk
          exact Tree.not_reach_of_precedes hfirst hk' hk

/-- **The conditional that starts at an element.**  The element comes back without its further
branches. -/
theorem enters_renderChoice {id : NodeId} {e : Element} (hforest : t.Forest none 0 t.size [root])
    (hid : t.Reach dependents root id) (he : t.element? id = some e) (hchain : t.Chain id e)
    (hcondition : e.condition.isSome = true) {g : Generator} (hdone : id ∉ g.choiceDone) :
    Enters (Own t g.choiceDone id) g.Dealt (traceChoice t recur steps id e g)
      (renderChoice t recur id e g).2.Dealt := by
  obtain ⟨hbehind, hpair⟩ := hforest.pairwise_dependents (Tree.reaches_singleton.mpr hid) he
  obtain ⟨exp, further, hbranches, hdependents⟩ := exists_further hchain hcondition
  rw [hdependents] at hbehind hpair
  obtain ⟨-, hfurther, hbetween⟩ := List.pairwise_append.mp hpair
  have hmet : ∀ b ∈ further, t.Reach dependents root b.block := by
    intro b hb
    refine hid.step he ?_
    rw [hdependents]
    exact List.mem_append_right _ (List.mem_map_of_mem hb)
  -- the element without its further branches, and then these
  have hfirst : Enters (fun k => k = id ∨ t.Reaches dependents e.children k)
      { g with choiceDone := id :: g.choiceDone }.Dealt
      (steps (branchJob t id) { g with choiceDone := id :: g.choiceDone })
      (recur (branchJob t id) { g with choiceDone := id :: g.choiceDone }).2.Dealt := by
    refine (hrecur (branchJob t id) id (branchJob_cases t id) hid _).mono fun k hk => ?_
    rcases hk with rfl | ⟨e', he', hk⟩
    · exact .inl rfl
    · obtain rfl : e = e' := by simpa [he] using he'
      rw [if_pos List.mem_cons_self] at hk
      exact .inr hk
  have hothers := enters_renderBranches hrecur id hmet hfurther
    (recur (branchJob t id) { g with choiceDone := id :: g.choiceDone }).2
  have hall := hfirst.append hothers fun k hk hk' => by
    rcases hk with rfl | hk
    · exact Nat.lt_irrefl k (hbehind k (Tree.reaches_append.mpr (.inr hk')))
    · exact Tree.not_reaches_of_precedes hbetween hk' hk
  have hown : ∀ k, (k = id ∨ t.Reaches dependents e.children k) ∨
      t.Reaches dependents (further.map (·.block)) k → Own t g.choiceDone id k := by
    rintro k (hk | hk)
    · exact own_of_children he hk
    · refine .inr ⟨e, he, ?_⟩
      rw [if_neg hdone, hdependents]
      exact Tree.reaches_append.mpr (.inr hk)
  rw [renderChoice, traceChoice, hbranches]
  refine ((hall.mono hown).congr (fun x => ?_) fun _ => .rfl).enter rfl (by simp) hdone
  exact (g.dealt_choice id x).symm

theorem enters_renderOnce {id : NodeId} {e : Element} (hforest : t.Forest none 0 t.size [root])
    (hid : t.Reach dependents root id) (he : t.element? id = some e) (hchain : t.Chain id e)
    (g : Generator) :
    Enters (Own t g.choiceDone id) g.Dealt (traceOnce t recur steps id e g)
      (renderOnce t recur id e g).2.Dealt := by
  unfold renderOnce traceOnce
  dsimp only
  split
  · rename_i hchoice
    obtain ⟨hcondition, hdone⟩ := (Bool.and_eq_true _ _).mp hchoice
    exact enters_renderChoice hrecur hforest hid he hchain hcondition
      (g := { g with onceDone := id :: g.onceDone }) (by simpa using hdone)
  · split
    · exact enters_renderStatic hrecur hid e { g with onceDone := id :: g.onceDone }
    · have hbody := hrecur (.element id) id (.inl rfl) hid { g with onceDone := id :: g.onceDone }
      cases (t.nearestLoop? e.parent).bind (·.key) with
      | none => exact hbody
      | some key => exact hbody

end Parts

/-- **A job enters every stage at most once.** -/
theorem enters_run (settings : Settings) {t : Tree} {root : NodeId}
    (hforest : t.Forest none 0 t.size [root])
    (hchained : ∀ id e, t.element? id = some e → t.Chain id e) (fuel : Nat) (job : Job)
    (id : NodeId) (hjob : job = .element id ∨ job = .once id) (hid : t.Reach dependents root id)
    (g : Generator) :
    Enters (Own t g.choiceDone id) g.Dealt (trace settings t fuel job g)
      (run settings t fuel job g).2.Dealt := by
  induction fuel generalizing job id g with
  | zero => exact .nil
  | succ fuel ih =>
      rcases hjob with rfl | rfl
      · simp only [run, trace, work, traceWork]
        cases he : t.element? id with
        | none =>
            have hmade : Enters (fun k => k = id ∨ False) g.Dealt ([] ++ [.made id]) g.Dealt :=
              Enters.nil.make not_false
            exact hmade.mono fun k hk => .inl (hk.resolve_right not_false)
        | some e =>
            dsimp only
            split
            · exact enters_renderStatic ih hid e g
            · split
              · exact enters_renderOnce ih hforest hid he (hchained id e he) g
              · cases hloop : (if g.loopDone.contains id then none else e.loop) with
                | some l =>
                    have hdone : id ∉ g.loopDone := by
                      intro hmem
                      simp [hmem] at hloop
                    exact enters_renderLoop ih hid l hdone
                | none =>
                    dsimp only
                    split
                    · rename_i hchoice
                      exact enters_renderChoice ih hforest hid he (hchained id e he) hchoice.1
                        (by simpa using hchoice.2)
                    · obtain ⟨hbehind, hpair⟩ :=
                        hforest.pairwise_dependents (Tree.reaches_singleton.mpr hid) he
                      have hchildren := (List.pairwise_append.mp hpair).1
                      refine (enters_renderElement ih ?_ hchildren ?_ g).mono
                        fun k hk => own_of_children he hk
                      · exact fun c hc => hid.step he (List.mem_append_left _ hc)
                      · intro hk
                        exact Nat.lt_irrefl id (hbehind id (Tree.reaches_append.mpr (.inl hk)))
      · simp only [run, trace, work, traceWork]
        cases he : t.element? id with
        | none => exact .nil
        | some e => exact enters_renderOnce ih hforest hid he (hchained id e he) g

/-- **The generator enters every stage at most once**: the loop and the conditional of an element,
and what makes a node. -/
theorem nodup_entries (settings : Settings) {t : Tree}
    (hforest : ∀ root, t.root = some root → t.Forest none 0 t.size [root])
    (hchained : ∀ id e, t.element? id = some e → t.Chain id e) :
    (entries (traceOf settings t)).Nodup := by
  unfold traceOf
  cases hroot : t.root with
  | none => exact .nil
  | some root =>
      exact (enters_run settings (hforest root hroot) hchained (fuelFor t) (.element root) root
        (.inl rfl) .refl {}).nodup

end Templating.Render
