import Templating.Proofs.Render.Emitted
import Templating.Proofs.Render.Entries

/-!
**Every stage of the generator leaves its mark in the code.**

A loop, a conditional and a node that is made each leave one code behind, and nothing else leaves
such a code.  A conditional with several conditions is one chain of codes, in which the last one
stands for the conditional.  So the code that is generated says which stages were entered, and how
often.

Main definitions:

* `Templating.Render.Code.stage?` — the stage that a code comes of;
* `Templating.Render.written` — the stages that codes come of;
* `Templating.Render.Tallies` — codes and stages that correspond to each other.

Main results:

* `Templating.Render.Tallies.append`, `Templating.Render.Tallies.leave`,
  `Templating.Render.Tallies.static` — putting stages together;
* `Templating.Render.tallies_run` — the code of a job comes of its stages;
* `Templating.Render.perm_entries` — **the code of a tree comes of the stages that were entered**.
-/

set_option autoImplicit false

namespace Templating.Render

open Static (dependents)

/-! ### The stage of a code -/

namespace Code

/-- Whether a code asks a condition of the conditional that starts at `id`. -/
def asks (id : NodeId) : Code → Bool
  | choice origin _ _ _ => origin == id
  | _ => false

/-- The stage that a code comes of.  In a conditional only the last condition counts. -/
def stage? : Code → Option (Stage × NodeId)
  | loop id _ _ => some (.loop, id)
  | choice id _ _ no => if no.asks id then none else some (.choice, id)
  | fragment id _ => some (.made, id)
  | slot id _ _ _ => some (.made, id)
  | create id _ _ _ => some (.made, id)
  | text id _ => some (.made, id)
  | comment id _ => some (.made, id)
  | _ => none

theorem allInside_append (cs ds : List Code) :
    allInside (cs ++ ds) = allInside cs ++ allInside ds := by
  induction cs with
  | nil => rfl
  | cons c cs ih => rw [List.cons_append, allInside, allInside, ih, List.append_assoc]

theorem allInside_singleton (c : Code) : allInside [c] = c :: allInside c.parts := by
  cases c <;> simp [allInside, inside, parts]

end Code

/-- The stages that codes come of. -/
def written (codes : List Code) : List (Stage × NodeId) :=
  (Code.allInside codes).filterMap Code.stage?

@[simp] theorem written_nil : written [] = [] := rfl

@[simp] theorem written_append (codes codes' : List Code) :
    written (codes ++ codes') = written codes ++ written codes' := by
  rw [written, Code.allInside_append, List.filterMap_append]
  rfl

theorem written_of_none {c : Code} (h : c.stage? = none) : written [c] = written c.parts := by
  rw [written, Code.allInside_singleton, List.filterMap_cons_none h]
  rfl

theorem written_of_some {c : Code} {x : Stage × NodeId} (h : c.stage? = some x) :
    written [c] = x :: written c.parts := by
  rw [written, Code.allInside_singleton, List.filterMap_cons_some h]
  rfl

/-! ### Codes and stages -/

/-- **The codes `codes`, and what is added to a list of codes, come of the stages `steps`.** -/
def Tallies (hoisted codes : List Code) (steps : List Step) (hoisted' : List Code) : Prop :=
  (written (codes ++ hoisted')).Perm (written hoisted ++ entries steps)

namespace Tallies

variable {hoisted hoisted' hoisted'' codes codes' : List Code} {steps steps' : List Step} {c : Code}

theorem nil (h : written codes = []) : Tallies hoisted codes [] hoisted := by
  rw [Tallies, written_append, h]
  simp

/-- Stages that follow each other. -/
theorem append (h : Tallies hoisted codes steps hoisted')
    (h' : Tallies hoisted' codes' steps' hoisted'') :
    Tallies hoisted (codes ++ codes') (steps ++ steps') hoisted'' := by
  unfold Tallies at h h' ⊢
  calc written (codes ++ codes' ++ hoisted'')
      = written codes ++ written (codes' ++ hoisted'') := by
        rw [List.append_assoc, written_append]
    List.Perm _ (written codes ++ (written hoisted' ++ entries steps')) := h'.append_left _
    _ = written (codes ++ hoisted') ++ entries steps' := by
        rw [written_append, List.append_assoc]
    List.Perm _ (written hoisted ++ entries steps ++ entries steps') := h.append_right _
    _ = written hoisted ++ entries (steps ++ steps') := by
        rw [entries_append, List.append_assoc]

/-- A code that comes of no stage of its own. -/
theorem rebuild (h : Tallies hoisted c.parts steps hoisted') (hc : c.stage? = none) :
    Tallies hoisted [c] steps hoisted' := by
  unfold Tallies at h ⊢
  rwa [written_append, written_of_none hc, ← written_append]

/-- **A stage leaves a code.** -/
theorem leave {x : Stage × NodeId} {step : Step} (h : Tallies hoisted c.parts steps hoisted')
    (hc : c.stage? = some x) (hstep : step.stage? = some x) :
    Tallies hoisted [c] (steps ++ [step]) hoisted' := by
  unfold Tallies at h ⊢
  rw [written_append, written_of_some hc, entries_append, entries_singleton, hstep,
    List.cons_append, ← written_append]
  refine (h.cons x).trans ?_
  rw [← List.append_assoc]
  exact (List.perm_append_singleton x _).symm

/-- **A code is put aside.** -/
theorem static {body : Code} {id : NodeId} {index : Nat} {inFor : Bool} {call : StaticCall}
    (h : Tallies hoisted [body] steps hoisted') :
    Tallies hoisted [.hoisted id index inFor] (steps ++ [.static call]) (hoisted' ++ [body]) := by
  unfold Tallies at h ⊢
  have hreference : written [.hoisted id index inFor] = [] := rfl
  have hstatic : entries [.static call] = [] := rfl
  rw [written_append, hreference, List.nil_append, entries_append, hstatic, List.append_nil,
    written_append]
  rw [written_append] at h
  exact List.perm_append_comm.trans h

end Tallies

/-- A code that asks no condition but those of the conditional at `id`. -/
def Code.AsksOnly (id : NodeId) (c : Code) : Prop := ∀ id', c.asks id' = true → id' = id

theorem Code.AsksOnly.of_none {c : Code} {id : NodeId} (h : ∀ id', c.asks id' = false) :
    c.AsksOnly id := by
  intro id' hasks
  rw [h id'] at hasks
  cases hasks

/-! ### The generator -/

theorem stage?_renderElement (settings : Settings) (t : Tree) (recur : Renderer) (id : NodeId)
    (e : Element) (g : Generator) :
    (renderElement settings t recur id e g).1.stage? = some (.made, id) ∧
      ∀ id', (renderElement settings t recur id e g).1.asks id' = false := by
  unfold renderElement
  split
  · exact ⟨rfl, fun _ => rfl⟩
  · split
    · exact ⟨rfl, fun _ => rfl⟩
    · cases e.component with
      | some code => exact ⟨rfl, fun _ => rfl⟩
      | none => exact ⟨rfl, fun _ => rfl⟩

section Parts

variable {settings : Settings} {t : Tree} {root : NodeId} {recur : Renderer} {steps : Tracer}
  (hrecur : ∀ (job : Job) (id : NodeId), job = .element id ∨ job = .once id →
    t.Reach dependents root id → ∀ g : Generator,
      Tallies g.hoisted [(recur job g).1] (steps job g) (recur job g).2.hoisted ∧
        (recur job g).1.AsksOnly id)

include hrecur

theorem tallies_renderEach {ids : List NodeId} (hmet : ∀ id ∈ ids, t.Reach dependents root id)
    (g : Generator) :
    Tallies g.hoisted (renderEach recur ids g).1 (traceEach recur steps ids g)
      (renderEach recur ids g).2.hoisted := by
  induction ids generalizing g with
  | nil => exact .nil rfl
  | cons id rest ih =>
      obtain ⟨hid, -⟩ := hrecur (.element id) id (.inl rfl) (hmet id List.mem_cons_self) g
      exact hid.append (ih (fun c hc => hmet c (List.mem_cons_of_mem id hc)) _)

theorem tallies_renderChildren {e : Element} (hmet : ∀ c ∈ e.children, t.Reach dependents root c)
    (flatten : Bool) (g : Generator) :
    Tallies g.hoisted [(renderChildren settings t recur e flatten g).1]
      (traceChildren t recur steps e g)
      (renderChildren settings t recur e flatten g).2.hoisted := by
  unfold renderChildren traceChildren
  cases honly : onlyLoop? t e with
  | some only =>
      obtain ⟨id, child⟩ := only
      rw [children_of_onlyLoop? honly] at hmet
      exact (hrecur (.element id) id (.inl rfl) (hmet id List.mem_cons_self) g).1.rebuild rfl
  | none =>
      dsimp only
      split
      · rename_i hnil
        rw [hnil]
        exact .nil rfl
      · exact (tallies_renderEach hrecur hmet g).rebuild rfl

theorem tallies_renderElement (id : NodeId) {e : Element}
    (hmet : ∀ c ∈ e.children, t.Reach dependents root c) (g : Generator) :
    Tallies g.hoisted [(renderElement settings t recur id e g).1]
      (traceElement t recur steps id e g) (renderElement settings t recur id e g).2.hoisted := by
  obtain ⟨body, inner, hbody, hparts, hafter, hsteps⟩ :=
    exists_renderElement_eq settings t recur steps id e g
  have hinner : Tallies g.hoisted [body.1] inner body.2.hoisted := by
    rcases hbody with ⟨rfl, rfl⟩ | ⟨flatten, rfl, rfl⟩
    · exact .nil rfl
    · exact tallies_renderChildren hrecur hmet flatten g
  rw [hafter, hsteps]
  rw [← hparts] at hinner
  exact hinner.leave (stage?_renderElement settings t recur id e g).1 rfl

theorem tallies_renderStatic {id : NodeId} (hid : t.Reach dependents root id) (e : Element)
    (g : Generator) :
    Tallies g.hoisted [(renderStatic recur id e g).1] (traceStatic recur steps id e g)
      (renderStatic recur id e g).2.hoisted :=
  (hrecur (.element id) id (.inl rfl) hid
    { g with staticDone := id :: g.staticDone, verbatim := g.verbatim || e.pre }).1.static

theorem tallies_renderLoop {id : NodeId} (hid : t.Reach dependents root id) (l : Expression.Loop)
    (g : Generator) :
    Tallies g.hoisted [(renderLoop recur id l g).1] (traceLoop steps id g)
      (renderLoop recur id l g).2.hoisted :=
  (hrecur (.element id) id (.inl rfl) hid
    { g with loopDone := id :: g.loopDone }).1.leave (c := .loop id l _) rfl rfl

/-- **The branches of a conditional.**  The chain of conditions, if there is any, comes of the
conditional. -/
theorem tallies_renderBranches {origin : NodeId} {branches : List Branch}
    (hmet : ∀ b ∈ branches, t.Reach dependents root b.block)
    (hother : ∀ b ∈ branches, b.condition = none → b.block ≠ origin) (g : Generator) :
    Tallies g.hoisted [(renderBranches t recur origin branches g).1]
      (traceBranches t recur steps branches g ++
        if (renderBranches t recur origin branches g).1.asks origin then [.choice origin] else [])
      (renderBranches t recur origin branches g).2.hoisted := by
  induction branches generalizing g with
  | nil => exact .nil rfl
  | cons b rest ih =>
      obtain ⟨hblock, hasks⟩ := hrecur (branchJob t b.block) b.block (branchJob_cases t b.block)
        (hmet b List.mem_cons_self) g
      unfold renderBranches traceBranches
      cases hcondition : b.condition with
      | none =>
          -- the code of another element is no condition of this conditional
          have hno : ¬(recur (branchJob t b.block) g).1.asks origin = true := fun htrue =>
            hother b List.mem_cons_self hcondition (hasks origin htrue).symm
          dsimp only
          rwa [if_neg hno, List.append_nil, List.append_nil]
      | some exp =>
          have hothers := ih (fun c hc => hmet c (List.mem_cons_of_mem b hc))
            (fun c hc => hother c (List.mem_cons_of_mem b hc)) (recur (branchJob t b.block) g).2
          have hself : Code.asks origin (.choice origin exp (recur (branchJob t b.block) g).1
              (renderBranches t recur origin rest (recur (branchJob t b.block) g).2).1) = true := by
            simp [Code.asks]
          dsimp only
          rw [if_pos hself, List.append_assoc]
          have hboth := hblock.append hothers
          split at hboth
          · rename_i hfurther
            exact hboth.rebuild (c := .choice origin exp _ _) (if_pos hfurther)
          · rename_i hlast
            rw [List.append_nil] at hboth
            rw [← List.append_assoc]
            exact hboth.leave (c := .choice origin exp _ _) (if_neg hlast) rfl

/-- **The conditional that starts at an element.** -/
theorem tallies_renderChoice {id : NodeId} {e : Element} (hforest : t.Forest none 0 t.size [root])
    (hid : t.Reach dependents root id) (he : t.element? id = some e) (hchain : t.Chain id e)
    (hcondition : e.condition.isSome = true) (g : Generator) :
    Tallies g.hoisted [(renderChoice t recur id e g).1] (traceChoice t recur steps id e g)
        (renderChoice t recur id e g).2.hoisted ∧ (renderChoice t recur id e g).1.AsksOnly id := by
  obtain ⟨hbehind, -⟩ := hforest.pairwise_dependents (Tree.reaches_singleton.mpr hid) he
  obtain ⟨exp, further, hbranches, hdependents⟩ := exists_further hchain hcondition
  have hmem : ∀ b ∈ further, b.block ∈ dependents e := by
    intro b hb
    rw [hdependents]
    exact List.mem_append_right _ (List.mem_map_of_mem hb)
  have hasks : ∀ id', (renderChoice t recur id e g).1.asks id' = (id == id') := by
    intro id'
    rw [renderChoice, hbranches]
    rfl
  have hmet : ∀ b ∈ e.branches, t.Reach dependents root b.block := by
    rw [hbranches]
    intro b hb
    rcases List.mem_cons.mp hb with rfl | hb
    · exact hid
    · exact hid.step he (hmem b hb)
  have hother : ∀ b ∈ e.branches, b.condition = none → b.block ≠ id := by
    rw [hbranches]
    intro b hb hnone
    rcases List.mem_cons.mp hb with rfl | hb
    · cases hnone
    · exact Nat.ne_of_gt (hbehind b.block ⟨b.block, hmem b hb, .refl⟩)
  have hall := tallies_renderBranches hrecur hmet hother
    { g with choiceDone := id :: g.choiceDone }
  have hself : (renderChoice t recur id e g).1.asks id = true := by
    rw [hasks, beq_self_eq_true]
  unfold renderChoice at hself
  rw [if_pos hself] at hall
  exact ⟨hall, fun id' hid' => (beq_iff_eq.mp ((hasks id').symm.trans hid')).symm⟩

theorem tallies_renderOnce {id : NodeId} {e : Element} (hforest : t.Forest none 0 t.size [root])
    (hid : t.Reach dependents root id) (he : t.element? id = some e) (hchain : t.Chain id e)
    (g : Generator) :
    Tallies g.hoisted [(renderOnce t recur id e g).1] (traceOnce t recur steps id e g)
        (renderOnce t recur id e g).2.hoisted ∧ (renderOnce t recur id e g).1.AsksOnly id := by
  unfold renderOnce traceOnce
  dsimp only
  split
  · rename_i hchoice
    exact tallies_renderChoice hrecur hforest hid he hchain ((Bool.and_eq_true _ _).mp hchoice).1
      { g with onceDone := id :: g.onceDone }
  · split
    · exact ⟨tallies_renderStatic hrecur hid e { g with onceDone := id :: g.onceDone },
        .of_none fun _ => rfl⟩
    · have hbody := hrecur (.element id) id (.inl rfl) hid { g with onceDone := id :: g.onceDone }
      cases (t.nearestLoop? e.parent).bind (·.key) with
      | none => exact hbody
      | some key =>
          exact ⟨hbody.1.rebuild (c := .keyed id _ _ key) rfl,
            .of_none fun _ => rfl⟩

end Parts

/-- A leaf that is there is made. -/
theorem stage?_leafCode {t : Tree} {id : NodeId} {n : Node} (hn : t.node? id = some n)
    (he : t.element? id = none) :
    (leafCode t id).stage? = some (.made, id) ∧ (leafCode t id).parts = [] ∧
      ∀ id', (leafCode t id).asks id' = false := by
  cases n with
  | element e =>
      rw [Tree.element?_of_node? hn] at he
      cases he
  | expression n => simp [leafCode, hn, Code.stage?, Code.parts, Code.asks]
  | text n =>
      cases hcomment : n.isComment with
      | true => simp [leafCode, hn, hcomment, Code.stage?, Code.parts, Code.asks]
      | false => simp [leafCode, hn, hcomment, Code.stage?, Code.parts, Code.asks]

/-- **The code of a job comes of its stages.** -/
theorem tallies_run (settings : Settings) {t : Tree} {root : NodeId}
    (hforest : t.Forest none 0 t.size [root])
    (hchained : ∀ id e, t.element? id = some e → t.Chain id e) (fuel : Nat) (job : Job)
    (id : NodeId) (hjob : job = .element id ∨ job = .once id) (hid : t.Reach dependents root id)
    (g : Generator) :
    Tallies g.hoisted [(run settings t fuel job g).1] (trace settings t fuel job g)
        (run settings t fuel job g).2.hoisted ∧ (run settings t fuel job g).1.AsksOnly id := by
  induction fuel generalizing job id g with
  | zero => exact ⟨.nil rfl, .of_none fun _ => rfl⟩
  | succ fuel ih =>
      rcases hjob with rfl | rfl
      · simp only [run, trace, work, traceWork]
        cases he : t.element? id with
        | none =>
            obtain ⟨n, hn⟩ := hforest.exists_of_reaches id (Tree.reaches_singleton.mpr hid)
            obtain ⟨hentry, hparts, hasks⟩ := stage?_leafCode hn he
            have hnone : Tallies g.hoisted (leafCode t id).parts [] g.hoisted := by
              rw [hparts]
              exact .nil rfl
            exact ⟨hnone.leave hentry rfl, .of_none hasks⟩
        | some e =>
            dsimp only
            split
            · exact ⟨tallies_renderStatic ih hid e g, .of_none fun _ => rfl⟩
            · split
              · exact tallies_renderOnce ih hforest hid he (hchained id e he) g
              · cases (if g.loopDone.contains id then none else e.loop) with
                | some l => exact ⟨tallies_renderLoop ih hid l g, .of_none fun _ => rfl⟩
                | none =>
                    dsimp only
                    split
                    · rename_i hchoice
                      exact tallies_renderChoice ih hforest hid he (hchained id e he) hchoice.1 g
                    · exact ⟨tallies_renderElement ih id
                        (fun c hc => hid.step he (List.mem_append_left _ hc)) g,
                        .of_none (stage?_renderElement settings t _ id e g).2⟩
      · simp only [run, trace, work, traceWork]
        cases he : t.element? id with
        | none => exact ⟨.nil rfl, .of_none fun _ => rfl⟩
        | some e => exact tallies_renderOnce ih hforest hid he (hchained id e he) g

/-- **The code of a tree comes of the stages that were entered**, one code for each. -/
theorem perm_entries (settings : Settings) {t : Tree}
    (hforest : ∀ root, t.root = some root → t.Forest none 0 t.size [root])
    (hchained : ∀ id e, t.element? id = some e → t.Chain id e) :
    ((generate settings t).codes.filterMap Code.stage?).Perm (entries (traceOf settings t)) := by
  unfold generate traceOf
  cases hroot : t.root with
  | none => exact .nil
  | some root =>
      exact (tallies_run settings (hforest root hroot) hchained (fuelFor t) (.element root) root
        (.inl rfl) .refl {}).1

end Templating.Render
