import Templating.Proofs.Render.Callbacks
import Templating.Proofs.Render.Tallies

/-!
**How deep the generator goes.**

The generator is given a depth below which it does nothing.  It is never asked to go there: an
element is the subject of a few jobs only, since each of them deals with a stage that is not dealt
with again, and all other jobs are about nodes with greater numbers.  So the depth is no part of
what is generated, and going through a tree comes to an end.

Main definitions:

* `Templating.Render.Worker`, `Templating.Render.Worker.deepen` — jobs down to a certain depth, and
  someone for those below it;
* `Templating.Render.need` — the depth that a job needs;
* `Templating.Render.GeneratesOnce` — generating ends, and does nothing twice.

Main results:

* `Templating.Render.same_next` — one more level does all jobs that need one more level;
* `Templating.Render.same_deepen` — **a job that is given the depth it needs does not depend on what
  lies below**;
* `Templating.Render.exists_parse_generatesOnce` — **generating the code of a template ends, and
  does nothing twice**.
-/

set_option autoImplicit false

namespace Templating.Render

open Static (dependents)

/-! ### Levels -/

/-- Someone who does jobs, and a record of what is done. -/
structure Worker where
  render : Renderer
  steps : Tracer

namespace Worker

/-- One level more. -/
def next (settings : Settings) (t : Tree) (w : Worker) : Worker where
  render := work settings t w.render
  steps := traceWork t w.render w.steps

/-- Jobs that are done `depth` levels deep; `bottom` does what is called for below. -/
def deepen (settings : Settings) (t : Tree) (bottom : Worker) : (depth : Nat) → Worker
  | 0 => bottom
  | depth + 1 => (deepen settings t bottom depth).next settings t

/-- Someone who does nothing. -/
def idle : Worker where
  render _ g := (.absent, g)
  steps _ _ := []

/-- **The generator does nothing below its depth.** -/
theorem deepen_idle (settings : Settings) (t : Tree) (depth : Nat) :
    deepen settings t idle depth = ⟨run settings t depth, trace settings t depth⟩ := by
  induction depth with
  | zero => rfl
  | succ depth ih =>
      rw [deepen, ih]
      rfl

/-- Two do the same job alike. -/
structure Same (w w' : Worker) (job : Job) (g : Generator) : Prop where
  render : w.render job g = w'.render job g
  steps : w.steps job g = w'.steps job g

end Worker

/-! ### Jobs that are done alike -/

section Parts

variable (settings : Settings) (t : Tree) {w w' : Worker}

theorem same_renderEach {ids : List NodeId} (h : ∀ id ∈ ids, ∀ g, w.Same w' (.element id) g)
    (g : Generator) :
    renderEach w.render ids g = renderEach w'.render ids g ∧
      traceEach w.render w.steps ids g = traceEach w'.render w'.steps ids g := by
  induction ids generalizing g with
  | nil => exact ⟨rfl, rfl⟩
  | cons id rest ih =>
      obtain ⟨hrender, hsteps⟩ := h id List.mem_cons_self g
      obtain ⟨hothers, hothers'⟩ := ih (fun c hc => h c (List.mem_cons_of_mem id hc))
        (w'.render (.element id) g).2
      exact ⟨by simp only [renderEach, hrender, hothers],
        by simp only [traceEach, hrender, hsteps, hothers']⟩

theorem same_renderChildren {e : Element} (h : ∀ c ∈ e.children, ∀ g, w.Same w' (.element c) g)
    (flatten : Bool) (g : Generator) :
    renderChildren settings t w.render e flatten g =
        renderChildren settings t w'.render e flatten g ∧
      traceChildren t w.render w.steps e g = traceChildren t w'.render w'.steps e g := by
  unfold renderChildren traceChildren
  cases honly : onlyLoop? t e with
  | some only =>
      obtain ⟨id, child⟩ := only
      have hmem : id ∈ e.children := by simp [children_of_onlyLoop? honly]
      obtain ⟨hrender, hsteps⟩ := h id hmem g
      exact ⟨by simp only [hrender], hsteps⟩
  | none =>
      obtain ⟨hrender, hsteps⟩ := same_renderEach h g
      exact ⟨by simp only [hrender], hsteps⟩

theorem same_renderElement (id : NodeId) {e : Element}
    (h : ∀ c ∈ e.children, ∀ g, w.Same w' (.element c) g) (g : Generator) :
    renderElement settings t w.render id e g = renderElement settings t w'.render id e g ∧
      traceElement t w.render w.steps id e g = traceElement t w'.render w'.steps id e g := by
  have hrender := fun flatten => (same_renderChildren settings t h flatten g).1
  have hsteps := (same_renderChildren settings t h false g).2
  exact ⟨by simp only [renderElement, hrender], by simp only [traceElement, hsteps]⟩

theorem same_renderStatic {id : NodeId} {e : Element} {g : Generator}
    (h : w.Same w' (.element id)
      { g with staticDone := id :: g.staticDone, verbatim := g.verbatim || e.pre }) :
    renderStatic w.render id e g = renderStatic w'.render id e g ∧
      traceStatic w.render w.steps id e g = traceStatic w'.render w'.steps id e g := by
  obtain ⟨hrender, hsteps⟩ := h
  exact ⟨by simp only [renderStatic, hrender],
    by simp only [traceStatic, renderStatic, hrender, hsteps]⟩

theorem same_renderBranches (origin : NodeId) {branches : List Branch}
    (h : ∀ b ∈ branches, ∀ g, w.Same w' (branchJob t b.block) g) (g : Generator) :
    renderBranches t w.render origin branches g = renderBranches t w'.render origin branches g ∧
      traceBranches t w.render w.steps branches g =
        traceBranches t w'.render w'.steps branches g := by
  induction branches generalizing g with
  | nil => exact ⟨rfl, rfl⟩
  | cons b rest ih =>
      obtain ⟨hrender, hsteps⟩ := h b List.mem_cons_self g
      obtain ⟨hothers, hothers'⟩ := ih (fun c hc => h c (List.mem_cons_of_mem b hc))
        (w'.render (branchJob t b.block) g).2
      exact ⟨by simp only [renderBranches, hrender, hothers],
        by simp only [traceBranches, hrender, hsteps, hothers']⟩

/-- **The conditional that starts at an element.**  Only of the element itself it matters what was
dealt with. -/
theorem same_renderChoice {id : NodeId} {e : Element} {exp : Option String} {further : List Branch}
    (hbranches : e.branches = ⟨exp, id⟩ :: further) {g : Generator}
    (hself : w.Same w' (branchJob t id) { g with choiceDone := id :: g.choiceDone })
    (hfurther : ∀ b ∈ further, ∀ g, w.Same w' (branchJob t b.block) g) :
    renderChoice t w.render id e g = renderChoice t w'.render id e g ∧
      traceChoice t w.render w.steps id e g = traceChoice t w'.render w'.steps id e g := by
  obtain ⟨hrender, hsteps⟩ := hself
  obtain ⟨hothers, hothers'⟩ := same_renderBranches t id hfurther
    (w'.render (branchJob t id) { g with choiceDone := id :: g.choiceDone }).2
  constructor
  · simp only [renderChoice, hbranches, renderBranches, hrender, hothers]
  · simp only [traceChoice, hbranches, traceBranches, hrender, hsteps, hothers']

end Parts

/-! ### The depth that a job needs -/

/-- How many stages of an element are not dealt with, rendering it once aside.  Coming back from a
conditional may take one job more. -/
def Generator.left (g : Generator) (id : NodeId) (e : Element) : Nat :=
  1 + (if e.staticRoot = some true ∧ id ∉ g.staticDone then 1 else 0) +
    (if e.loop.isSome = true ∧ id ∉ g.loopDone then 1 else 0) +
    (if e.condition.isSome = true ∧ id ∉ g.choiceDone then 2 else 0)

/-- **The depth that a job needs.** -/
def need (t : Tree) (job : Job) (g : Generator) : Nat :=
  match job with
  | .element id =>
      8 * (t.size - id) + (t.element? id).elim 1 fun e =>
        g.left id e + if e.once = true ∧ id ∉ g.onceDone then 1 else 0
  | .once id => 8 * (t.size - id) + (t.element? id).elim 1 fun e => g.left id e + 1

theorem need_element {t : Tree} {id : NodeId} {e : Element} (he : t.element? id = some e)
    (g : Generator) : need t (.element id) g =
      8 * (t.size - id) + g.left id e + if e.once = true ∧ id ∉ g.onceDone then 1 else 0 := by
  simp [need, he, Nat.add_assoc]

theorem need_once {t : Tree} {id : NodeId} {e : Element} (he : t.element? id = some e)
    (g : Generator) : need t (.once id) g = 8 * (t.size - id) + g.left id e + 1 := by
  simp [need, he, Nat.add_assoc]

theorem Generator.left_le (g : Generator) (id : NodeId) (e : Element) :
    1 ≤ g.left id e ∧ g.left id e ≤ 5 := by
  unfold left
  split <;> split <;> split <;> omega

theorem need_bounds (t : Tree) {job : Job} {id : NodeId}
    (hjob : job = .element id ∨ job = .once id) (g : Generator) :
    8 * (t.size - id) < need t job g ∧ need t job g ≤ 8 * (t.size - id) + 6 := by
  cases he : t.element? id with
  | none =>
      have hneed : need t job g = 8 * (t.size - id) + 1 := by
        rcases hjob with rfl | rfl <;> simp [need, he]
      omega
  | some e =>
      have hleft := g.left_le id e
      rcases hjob with rfl | rfl
      · rw [need_element he]
        split <;> omega
      · rw [need_once he]
        omega

/-- An element that is not to be rendered once any more. -/
theorem need_element_of_mem {t : Tree} {id : NodeId} {e : Element} (he : t.element? id = some e)
    {g : Generator} (hdone : id ∈ g.onceDone) :
    need t (.element id) g = 8 * (t.size - id) + g.left id e := by
  rw [need_element he, if_neg (fun honce => honce.2 hdone), Nat.add_zero]

section Steps

variable {t : Tree} {w w' : Worker} {id : NodeId} {e : Element} {n : Nat}
  (he : t.element? id = some e)
  (hown : ∀ job g, job = .element id ∨ job = .once id → need t job g ≤ n → w.Same w' job g)

include he hown

/-- An element that is rendered once and for all comes back without that mark. -/
theorem same_static {g : Generator} (hroot : e.staticRoot = some true) (hdone : id ∉ g.staticDone)
    (hneed : need t (.element id) g ≤ n + 1) :
    renderStatic w.render id e g = renderStatic w'.render id e g ∧
      traceStatic w.render w.steps id e g = traceStatic w'.render w'.steps id e g := by
  refine same_renderStatic (hown _ _ (.inl rfl) ?_)
  rw [need_element he] at hneed ⊢
  have hleft : { g with staticDone := id :: g.staticDone, verbatim := g.verbatim || e.pre }.left
      id e + 1 = g.left id e := by
    simp [Generator.left, hroot, hdone]
    omega
  dsimp only
  omega

theorem same_loop {g : Generator} {l : Expression.Loop} (hloop : e.loop = some l)
    (hdone : id ∉ g.loopDone) (hneed : need t (.element id) g ≤ n + 1) :
    renderLoop w.render id l g = renderLoop w'.render id l g ∧
      traceLoop w.steps id g = traceLoop w'.steps id g := by
  have hleft : { g with loopDone := id :: g.loopDone }.left id e + 1 = g.left id e := by
    simp [Generator.left, hloop, hdone]
    omega
  obtain ⟨hrender, hsteps⟩ := hown (.element id) { g with loopDone := id :: g.loopDone } (.inl rfl)
    (by rw [need_element he] at hneed ⊢; dsimp only; omega)
  exact ⟨by simp only [renderLoop, hrender], by simp only [traceLoop, hsteps]⟩

variable (hbelow : ∀ c ∈ dependents e, ∀ job g, job = .element c ∨ job = .once c →
  w.Same w' job g)

include hbelow

/-- Deciding a conditional takes the two jobs that it may take to come back to the element. -/
theorem same_choice (hchain : t.Chain id e) (hcondition : e.condition.isSome = true)
    {g : Generator} (hdone : id ∉ g.choiceDone)
    (hneed : 8 * (t.size - id) + g.left id e ≤ n + 1) :
    renderChoice t w.render id e g = renderChoice t w'.render id e g ∧
      traceChoice t w.render w.steps id e g = traceChoice t w'.render w'.steps id e g := by
  obtain ⟨exp, further, hbranches, hdependents⟩ := exists_further hchain hcondition
  refine same_renderChoice t hbranches (hown _ _ (branchJob_cases t id) ?_) fun b hb g => ?_
  · have hleft : { g with choiceDone := id :: g.choiceDone }.left id e + 2 = g.left id e := by
      simp [Generator.left, hcondition, hdone]
    rcases branchJob_cases t id with hjob | hjob
    · rw [hjob, need_element he]
      split <;> omega
    · rw [hjob, need_once he]
      omega
  · refine hbelow b.block ?_ _ g (branchJob_cases t b.block)
    rw [hdependents]
    exact List.mem_append_right _ (List.mem_map_of_mem hb)

theorem same_once (hchain : t.Chain id e) {g : Generator}
    (hneed : 8 * (t.size - id) + g.left id e ≤ n) :
    renderOnce t w.render id e g = renderOnce t w'.render id e g ∧
      traceOnce t w.render w.steps id e g = traceOnce t w'.render w'.steps id e g := by
  have hleft : { g with onceDone := id :: g.onceDone }.left id e = g.left id e := rfl
  have hneed' : ∀ g' : Generator, id ∈ g'.onceDone → g'.left id e ≤ g.left id e →
      need t (.element id) g' ≤ n := by
    intro g' hdone hle
    rw [need_element_of_mem he hdone]
    omega
  unfold renderOnce traceOnce
  dsimp only
  split
  · rename_i hchoice
    obtain ⟨hcondition, hdone⟩ := (Bool.and_eq_true _ _).mp hchoice
    exact same_choice he hown hbelow hchain hcondition (by simpa using hdone)
      (by rw [hleft]; omega)
  · split
    · refine same_renderStatic (hown _ _ (.inl rfl) (hneed' _ List.mem_cons_self ?_))
      simp only [Generator.left, List.mem_cons, true_or, not_true_eq_false, and_false, if_false]
      omega
    · obtain ⟨hrender, hsteps⟩ := hown (.element id) { g with onceDone := id :: g.onceDone }
        (.inl rfl) (hneed' _ List.mem_cons_self (Nat.le_of_eq hleft))
      exact ⟨by simp only [hrender], hsteps⟩

end Steps

/-- **One more level** does all jobs that need one more level. -/
theorem same_next (settings : Settings) {t : Tree} {root : NodeId} {w w' : Worker} {n : Nat}
    (hforest : t.Forest none 0 t.size [root])
    (hchained : ∀ id e, t.element? id = some e → t.Chain id e)
    (h : ∀ job id g, job = .element id ∨ job = .once id → t.Reach dependents root id →
      need t job g ≤ n → w.Same w' job g)
    (job : Job) (id : NodeId) (g : Generator) (hjob : job = .element id ∨ job = .once id)
    (hid : t.Reach dependents root id) (hneed : need t job g ≤ n + 1) :
    (w.next settings t).Same (w'.next settings t) job g := by
  cases he : t.element? id with
  | none => rcases hjob with rfl | rfl <;> constructor <;> simp [Worker.next, work, traceWork, he]
  | some e =>
      have hchain := hchained id e he
      have hown := fun job g hjob => h job id g hjob hid
      have hbelow : ∀ c ∈ dependents e, ∀ job g, job = .element c ∨ job = .once c →
          w.Same w' job g := by
        intro c hc job' g' hjob'
        obtain ⟨hbehind, -⟩ := hforest.pairwise_dependents (Tree.reaches_singleton.mpr hid) he
        have hlt := hbehind c ⟨c, hc, .refl⟩
        have hsize := Tree.lt_size_of_element? he
        have hlow := (need_bounds t hjob g).1
        have hhigh := (need_bounds t hjob' g').2
        exact h job' c g' hjob' (hid.step he hc) (by omega)
      suffices hsame : work settings t w.render job g = work settings t w'.render job g ∧
          traceWork t w.render w.steps job g = traceWork t w'.render w'.steps job g from
        ⟨hsame.1, hsame.2⟩
      rcases hjob with rfl | rfl
      · simp only [work, traceWork, he]
        split
        · rename_i hstatic
          exact same_static he hown hstatic.1 (by simpa using hstatic.2) hneed
        · split
          · rename_i honce
            refine same_once he hown hbelow hchain ?_
            rw [need_element he, if_pos ⟨honce.1, by simpa using honce.2⟩] at hneed
            exact Nat.le_of_succ_le_succ hneed
          · cases hloop : (if g.loopDone.contains id then none else e.loop) with
            | some l =>
                obtain ⟨hdone, hloop⟩ := Option.ite_none_left_eq_some.mp hloop
                exact same_loop he hown hloop (by simpa using hdone) hneed
            | none =>
                dsimp only
                split
                · rename_i hchoice
                  refine same_choice he hown hbelow hchain hchoice.1 (by simpa using hchoice.2) ?_
                  rw [need_element he] at hneed
                  exact Nat.le_trans (Nat.le_add_right _ _) hneed
                · exact same_renderElement settings t id
                    (fun c hc g => hbelow c (List.mem_append_left _ hc) _ g (.inl rfl)) g
      · simp only [work, traceWork, he]
        refine same_once he hown hbelow hchain ?_
        rw [need_once he] at hneed
        exact Nat.le_of_succ_le_succ hneed

/-- **A job that is given the depth it needs does not depend on what lies below.** -/
theorem same_deepen (settings : Settings) {t : Tree} {root : NodeId} (bottom bottom' : Worker)
    (hforest : t.Forest none 0 t.size [root])
    (hchained : ∀ id e, t.element? id = some e → t.Chain id e) (depth : Nat) (job : Job)
    (id : NodeId) (g : Generator) (hjob : job = .element id ∨ job = .once id)
    (hid : t.Reach dependents root id) (hneed : need t job g ≤ depth) :
    (bottom.deepen settings t depth).Same (bottom'.deepen settings t depth) job g := by
  induction depth generalizing job id g with
  | zero =>
      have hbound := (need_bounds t hjob g).1
      omega
  | succ depth ih => exact same_next settings hforest hchained ih job id g hjob hid hneed

/-! ### Templates -/

/-- The code of a tree and the stages of the generator, when `bottom` does what lies below the depth
of the generator. -/
def generateOver (settings : Settings) (t : Tree) (bottom : Worker) : Rendered × List Step :=
  match t.root with
  | none => (⟨none, []⟩, [])
  | some root =>
      let w := bottom.deepen settings t (fuelFor t)
      let code := w.render (.element root) {}
      (⟨some code.1, code.2.hoisted⟩, w.steps (.element root) {})

/-- **Generating the code of a tree ends, and does nothing twice.** -/
structure GeneratesOnce (settings : Settings) (t : Tree) : Prop where
  /-- Nothing is ever left to whoever does what lies below the depth of the generator, whatever that
  would be. -/
  ends : ∀ bottom, generateOver settings t bottom = (generate settings t, traceOf settings t)
  /-- The loop and the conditional of an element are entered once at most, and every node is made
  once at most. -/
  once : (entries (traceOf settings t)).Nodup
  /-- What is in the code are these stages, one code for each. -/
  written : ((generate settings t).codes.filterMap Code.stage?).Perm (entries (traceOf settings t))

theorem generateOver_eq (settings : Settings) {t : Tree}
    (hforest : ∀ root, t.root = some root → t.Forest none 0 t.size [root])
    (hchained : ∀ id e, t.element? id = some e → t.Chain id e) (bottom : Worker) :
    generateOver settings t bottom = (generate settings t, traceOf settings t) := by
  unfold generateOver generate traceOf
  cases hroot : t.root with
  | none => rfl
  | some root =>
      have hneed : need t (.element root) {} ≤ fuelFor t := by
        have hbound := (need_bounds t (.inl (Eq.refl (Job.element root))) {}).2
        unfold fuelFor
        omega
      obtain ⟨hrender, hsteps⟩ := same_deepen settings bottom .idle (hforest root hroot) hchained
        (fuelFor t) (.element root) root {} (.inl rfl) .refl hneed
      simp only [hrender, hsteps, Worker.deepen_idle]

theorem generatesOnce_of_forest (settings : Settings) {t : Tree}
    (hforest : ∀ root, t.root = some root → t.Forest none 0 t.size [root])
    (hchained : ∀ id e, t.element? id = some e → t.Chain id e) : GeneratesOnce settings t where
  ends := generateOver_eq settings hforest hchained
  once := nodup_entries settings hforest hchained
  written := perm_entries settings hforest hchained

/-- **Generating the code of a template ends, and does nothing twice**, with and without marks on
what never changes and whatever the settings are. -/
theorem exists_parse_generatesOnce (settings : Settings) (template : String)
    (h : ∀ opening closing, settings.customDelimiters = some (opening, closing) →
      opening ≠ "" ∧ closing ≠ "") :
    ∃ parsed, Build.parse settings template = .ok parsed ∧
      ∀ t, t = parsed.tree ∨ (∃ marking, t = Static.mark marking parsed.tree) →
        ∀ generating, GeneratesOnce generating t := by
  obtain ⟨parsed, hparsed⟩ := Build.exists_parse settings template h
  have hfresh := Build.fresh_of_parse hparsed
  refine ⟨parsed, hparsed, fun t ht generating => ?_⟩
  rcases ht with rfl | ⟨marking, rfl⟩
  · exact generatesOnce_of_forest generating hfresh.forest
      fun id e he => Build.chain_of_parse hparsed he
  · obtain ⟨hroot, halike⟩ := Static.alike_mark marking hfresh
    refine generatesOnce_of_forest generating (fun root hmarked => ?_) fun id e he => ?_
    · rw [halike.size_eq]
      exact (hfresh.forest root (hroot.symm.trans hmarked)).congr
        fun k _ _ => halike.links? Node.links_unmarked k
    · obtain ⟨e₀, he₀, hsame⟩ := halike.symm.element? Node.element?_unmarked he
      exact (Build.chain_of_parse hparsed he₀).of_unmarked halike hsame.symm

/-- A conditional with three branches, whose first element also has a loop and is rendered once, as
is the last one. -/
theorem exists_parse_generatesOnce_chain :
    ∃ parsed, Build.parse Settings.web ("<div><p v-for=\"i in l\" v-if=i v-once><b>x</b></p>" ++
        "<p v-else-if=c>y</p><p v-else v-once>z</p></div>") = .ok parsed ∧
      GeneratesOnce Settings.web parsed.tree ∧
      GeneratesOnce Settings.web (Static.mark Settings.web parsed.tree) ∧
      entries (traceOf Settings.web (Static.mark Settings.web parsed.tree)) =
        [(.made, 3), (.made, 2), (.made, 1), (.loop, 1), (.made, 5), (.made, 4), (.made, 7),
          (.made, 6), (.choice, 1), (.made, 0)] := by
  obtain ⟨parsed, hparsed, hall⟩ := exists_parse_generatesOnce Settings.web
    ("<div><p v-for=\"i in l\" v-if=i v-once><b>x</b></p>" ++
      "<p v-else-if=c>y</p><p v-else v-once>z</p></div>") (by simp [Settings.web])
  have hcheck : (Except.ok parsed : Except CompileError Build.Parsed).toOption.any (fun parsed =>
      entries (traceOf Settings.web (Static.mark Settings.web parsed.tree)) ==
        [(.made, 3), (.made, 2), (.made, 1), (.loop, 1), (.made, 5), (.made, 4), (.made, 7),
          (.made, 6), (.choice, 1), (.made, 0)]) := by
    rw [← hparsed]
    decide +kernel
  exact ⟨parsed, hparsed, hall _ (.inl rfl) _, hall _ (.inr ⟨_, rfl⟩) _, beq_iff_eq.mp hcheck⟩

end Templating.Render
