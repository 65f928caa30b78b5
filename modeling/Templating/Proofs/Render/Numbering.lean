import Templating.Build.Builder
import Templating.Proofs.Render.Lifting
import Templating.Proofs.Render.Trace

/-!
**Codes that are put aside are found again.**

The code of an element that is rendered once and for all goes to the end of a list, and a reference
with its place in the list is left behind.  The code is put there when it is complete: what was put
aside while it was generated comes before it.  So the codes are numbered in the order in which they
are put aside, a code refers to smaller numbers only, and no number is given twice.

Main definitions:

* `Templating.Render.Code.references`, `Templating.Render.Code.index?` — the references in a code,
  and the number of a reference;
* `Templating.Render.StaticCall.Numbered` — a code that was put aside has the number it should have;
* `Templating.Render.Records` — what the stages of a trace add to the list.

Main results:

* `Templating.Render.Records.append`, `Templating.Render.Records.static` — putting stages together,
  and putting a code aside;
* `Templating.Render.records_run` — **the trace of a job has everything that the job puts aside**.
-/

set_option autoImplicit false

namespace Templating.Render

/-! ### References -/

namespace Code

mutual

/-- The numbers of the references in a code. -/
def references : Code → List Nat
  | absent | nothing | text .. | comment .. => []
  | hoisted _ index _ => [index]
  | keyed _ body _ _ => references body
  | loop _ _ body => references body
  | choice _ _ yes no => references yes ++ references no
  | fragment _ children => references children
  | slot _ _ children _ => references children
  | create _ _ _ children => references children
  | list items _ => allReferences items
  | alone item _ => references item

/-- The numbers of the references in several codes. -/
def allReferences : List Code → List Nat
  | [] => []
  | c :: rest => references c ++ allReferences rest

end

/-- The number of a code that is a reference. -/
def index? : Code → Option Nat
  | hoisted _ index _ => some index
  | _ => none

theorem render_hoisted (id : NodeId) (index : Nat) (inFor : Bool) :
    (hoisted id index inFor).render =
      "_m(" ++ toString index ++ (if inFor then ",true" else "") ++ ")" :=
  rfl

theorem mem_allReferences {i : Nat} {cs : List Code} :
    i ∈ allReferences cs ↔ ∃ c ∈ cs, i ∈ c.references := by
  induction cs with
  | nil => simp [allReferences]
  | cons c cs ih => simp [allReferences, ih]

/-- A code that is no reference itself has the references of its parts. -/
theorem mem_references_iff {i : Nat} {c : Code} (h : c.isReference = false) :
    i ∈ c.references ↔ ∃ p ∈ c.parts, i ∈ p.references := by
  cases c with
  | hoisted => cases h
  | list => simp only [references, parts, mem_allReferences]
  | absent | nothing | text | comment => simp [references, parts]
  | keyed | loop | choice | fragment | slot | create | alone => simp [references, parts]

end Code

/-! ### Numbers -/

/-- **A code that was put aside has the number `k`**: this is what its reference says, and it refers
to smaller numbers only. -/
structure StaticCall.Numbered (t : Tree) (k : Nat) (c : StaticCall) : Prop where
  answer : ∃ e, t.element? c.element = some e ∧
    c.answer = .hoisted c.element k (e.staticInFor == some true)
  below : ∀ i ∈ c.body.references, i < k

/-- **What the stages `steps` add to a list of codes**: everything that was put aside, numbered in
order.  The codes `codes` that came of it refer to what is in the list by then. -/
structure Records (t : Tree) (hoisted codes : List Code) (steps : List Step)
    (hoisted' : List Code) : Prop where
  added : hoisted' = hoisted ++ (steps.filterMap Step.call?).map (·.body)
  known : ∀ c ∈ codes, ∀ i ∈ c.references, i < hoisted'.length
  numbered : ∀ (i : Nat) (c : StaticCall), (steps.filterMap Step.call?)[i]? = some c →
    c.Numbered t (hoisted.length + i)

namespace Records

variable {t : Tree} {hoisted hoisted' hoisted'' codes codes' : List Code} {steps steps' : List Step}

theorem nil (hknown : ∀ c ∈ codes, ∀ i ∈ c.references, i < hoisted.length) :
    Records t hoisted codes [] hoisted where
  added := by simp
  known := hknown
  numbered := by simp

theorem length_le (h : Records t hoisted codes steps hoisted') :
    hoisted.length ≤ hoisted'.length := by
  rw [h.added, List.length_append]
  exact Nat.le_add_right _ _

/-- Stages that follow each other. -/
theorem append (h : Records t hoisted codes steps hoisted')
    (h' : Records t hoisted' codes' steps' hoisted'') :
    Records t hoisted (codes ++ codes') (steps ++ steps') hoisted'' where
  added := by
    rw [h'.added, h.added, List.filterMap_append, List.map_append, List.append_assoc]
  known := by
    intro c hc i hi
    rcases List.mem_append.mp hc with hc | hc
    · exact Nat.lt_of_lt_of_le (h.known c hc i hi) h'.length_le
    · exact h'.known c hc i hi
  numbered := by
    intro i c hc
    rw [List.filterMap_append, List.getElem?_append] at hc
    split at hc
    · exact h.numbered i c hc
    · have hnumbered := h'.numbered _ c hc
      rename_i hle
      rw [h.added, List.length_append, List.length_map, Nat.add_assoc,
        Nat.add_sub_cancel' (Nat.not_lt.mp hle)] at hnumbered
      exact hnumbered

/-- The same stages, with other codes that refer to the same. -/
theorem congr (h : Records t hoisted codes steps hoisted')
    (hcodes : ∀ c ∈ codes', ∀ i ∈ c.references, ∃ p ∈ codes, i ∈ p.references) :
    Records t hoisted codes' steps hoisted' where
  added := h.added
  known c hc i hi := by
    obtain ⟨p, hp, hi⟩ := hcodes c hc i hi
    exact h.known p hp i hi
  numbered := h.numbered

/-- A code that is put together from those that came of the stages. -/
theorem rebuild {c : Code} (hc : c.isReference = false)
    (h : Records t hoisted c.parts steps hoisted') : Records t hoisted [c] steps hoisted' := by
  refine h.congr fun c' hc' i hi => ?_
  rw [List.mem_singleton.mp hc'] at hi
  exact (Code.mem_references_iff hc).mp hi

/-- A stage that puts nothing aside. -/
theorem done {step : Step} (h : Records t hoisted codes steps hoisted')
    (hstep : step.call? = none) : Records t hoisted codes (steps ++ [step]) hoisted' := by
  have hsame : (steps ++ [step]).filterMap Step.call? = steps.filterMap Step.call? := by
    simp [hstep]
  refine ⟨by rw [hsame]; exact h.added, h.known, fun i c hc => h.numbered i c ?_⟩
  rwa [hsame] at hc

/-- **Putting a code aside.**  It comes behind everything that was put aside before, which is what
it may refer to. -/
theorem static {body : Code} {id : NodeId} {e : Element}
    (h : Records t hoisted [body] steps hoisted') (he : t.element? id = some e) :
    Records t hoisted [.hoisted id hoisted'.length (e.staticInFor == some true)]
      (steps ++ [.static ⟨id, body, .hoisted id hoisted'.length (e.staticInFor == some true)⟩])
      (hoisted' ++ [body]) := by
  have hbody : Records t hoisted' [.hoisted id hoisted'.length (e.staticInFor == some true)]
      [.static ⟨id, body, .hoisted id hoisted'.length (e.staticInFor == some true)⟩]
      (hoisted' ++ [body]) := by
    refine ⟨rfl, ?_, ?_⟩
    · intro c hc i hi
      rw [List.mem_singleton.mp hc] at hi
      rw [List.mem_singleton.mp hi, List.length_append]
      exact Nat.lt_succ_self _
    · intro i c hc
      obtain ⟨hi, rfl⟩ := List.getElem?_eq_some_iff.mp hc
      obtain rfl : i = 0 := by simpa [Step.call?] using hi
      exact ⟨⟨e, he, rfl⟩, h.known body (List.mem_singleton.mpr rfl)⟩
  refine (h.append hbody).congr fun c hc i hi => ⟨c, ?_, hi⟩
  exact List.mem_append_right _ hc

end Records

/-! ### The generator -/

section Parts

variable {settings : Settings} {t : Tree} {recur : Renderer} {steps : Tracer}
  (hrecur : ∀ job g,
    Records t g.hoisted [(recur job g).1] (steps job g) (recur job g).2.hoisted)

include hrecur

theorem records_renderEach (ids : List NodeId) (g : Generator) :
    Records t g.hoisted (renderEach recur ids g).1 (traceEach recur steps ids g)
      (renderEach recur ids g).2.hoisted := by
  induction ids generalizing g with
  | nil => exact .nil (by simp [renderEach])
  | cons id rest ih => exact (hrecur (.element id) g).append (ih _)

theorem records_renderChildren (e : Element) (flatten : Bool) (g : Generator) :
    Records t g.hoisted [(renderChildren settings t recur e flatten g).1]
      (traceChildren t recur steps e g)
      (renderChildren settings t recur e flatten g).2.hoisted := by
  unfold renderChildren traceChildren
  cases honly : onlyLoop? t e with
  | some only =>
      obtain ⟨id, child⟩ := only
      exact .rebuild rfl (hrecur (.element id) g)
  | none =>
      dsimp only
      split
      · rename_i hnil
        rw [hnil]
        exact .nil (by simp [Code.references])
      · exact .rebuild rfl (records_renderEach hrecur e.children g)

theorem records_renderElement (id : NodeId) (e : Element) (g : Generator) :
    Records t g.hoisted [(renderElement settings t recur id e g).1]
      (traceElement t recur steps id e g) (renderElement settings t recur id e g).2.hoisted := by
  have hchildren : ∀ flatten, Records t g.hoisted
      [(renderChildren settings t recur e flatten g).1] (traceChildren t recur steps e g)
      (renderChildren settings t recur e flatten g).2.hoisted :=
    fun flatten => records_renderChildren hrecur e flatten g
  refine Records.done ?_ rfl
  unfold renderElement
  split
  · exact .rebuild rfl (hchildren false)
  · split
    · exact .rebuild rfl (hchildren false)
    · have hbody : Records t g.hoisted
          [(if e.inlineTemplate then (.absent, g)
            else renderChildren settings t recur e true g : Code × Generator).1]
          (if e.inlineTemplate then [] else traceChildren t recur steps e g)
          (if e.inlineTemplate then (.absent, g)
            else renderChildren settings t recur e true g : Code × Generator).2.hoisted := by
        split
        · exact .nil (by simp [Code.references])
        · exact hchildren true
      dsimp only
      cases e.component with
      | some code => exact .rebuild rfl hbody
      | none => exact .rebuild rfl hbody

theorem records_renderStatic {id : NodeId} {e : Element} (he : t.element? id = some e)
    (g : Generator) :
    Records t g.hoisted [(renderStatic recur id e g).1] (traceStatic recur steps id e g)
      (renderStatic recur id e g).2.hoisted :=
  (hrecur (.element id)
    { g with staticDone := id :: g.staticDone, verbatim := g.verbatim || e.pre }).static he

theorem records_renderBranches (origin : NodeId) (branches : List Branch) (g : Generator) :
    Records t g.hoisted [(renderBranches t recur origin branches g).1]
      (traceBranches t recur steps branches g)
      (renderBranches t recur origin branches g).2.hoisted := by
  induction branches generalizing g with
  | nil => exact .nil (by simp [renderBranches, Code.references])
  | cons b rest ih =>
      unfold renderBranches traceBranches
      have hblock := hrecur (branchJob t b.block) g
      cases hcondition : b.condition with
      | none =>
          dsimp only
          rwa [List.append_nil]
      | some exp => exact .rebuild rfl (hblock.append (ih _))

theorem records_renderChoice (id : NodeId) (e : Element) (g : Generator) :
    Records t g.hoisted [(renderChoice t recur id e g).1] (traceChoice t recur steps id e g)
      (renderChoice t recur id e g).2.hoisted :=
  Records.done (records_renderBranches hrecur id e.branches
    { g with choiceDone := id :: g.choiceDone }) rfl

theorem records_renderLoop (id : NodeId) (l : Expression.Loop) (g : Generator) :
    Records t g.hoisted [(renderLoop recur id l g).1] (traceLoop steps id g)
      (renderLoop recur id l g).2.hoisted := by
  refine Records.done (.rebuild rfl ?_) rfl
  exact hrecur (.element id) { g with loopDone := id :: g.loopDone }

theorem records_renderOnce {id : NodeId} {e : Element} (he : t.element? id = some e)
    (g : Generator) :
    Records t g.hoisted [(renderOnce t recur id e g).1] (traceOnce t recur steps id e g)
      (renderOnce t recur id e g).2.hoisted := by
  unfold renderOnce traceOnce
  dsimp only
  split
  · exact records_renderChoice hrecur id e { g with onceDone := id :: g.onceDone }
  · split
    · exact records_renderStatic hrecur he { g with onceDone := id :: g.onceDone }
    · have hbody := hrecur (.element id) { g with onceDone := id :: g.onceDone }
      cases (t.nearestLoop? e.parent).bind (·.key) with
      | none => exact hbody
      | some key => exact .rebuild rfl hbody

end Parts

theorem references_leafCode (t : Tree) (id : NodeId) : (leafCode t id).references = [] := by
  unfold leafCode
  split
  · split <;> rfl
  · rfl
  · rfl

/-- **The trace of a job has everything that the job puts aside**, in order and with its numbers. -/
theorem records_run (settings : Settings) (t : Tree) (fuel : Nat) (job : Job) (g : Generator) :
    Records t g.hoisted [(run settings t fuel job g).1] (trace settings t fuel job g)
      (run settings t fuel job g).2.hoisted := by
  induction fuel generalizing job g with
  | zero => exact .nil (by simp [run, Code.references])
  | succ fuel ih =>
      cases job with
      | once id =>
          simp only [run, trace, work, traceWork]
          cases he : t.element? id with
          | none => exact .nil (by simp [Code.references])
          | some e => exact records_renderOnce ih he g
      | element id =>
          simp only [run, trace, work, traceWork]
          cases he : t.element? id with
          | none => exact (Records.nil (by simp [references_leafCode])).done rfl
          | some e =>
              dsimp only
              split
              · exact records_renderStatic ih he g
              · split
                · exact records_renderOnce ih he g
                · cases (if g.loopDone.contains id then none else e.loop) with
                  | some l => exact records_renderLoop ih id l g
                  | none =>
                      dsimp only
                      split
                      · exact records_renderChoice ih id e g
                      · exact records_renderElement ih id e g

/-- The trace of a whole tree has everything that is rendered once and for all. -/
theorem records_generate (settings : Settings) (t : Tree) :
    Records t [] (generate settings t).root.toList (traceOf settings t)
      (generate settings t).hoisted := by
  unfold generate traceOf
  cases t.root with
  | none => exact .nil (by simp)
  | some root => exact records_run settings t (fuelFor t) (.element root) {}

/-- **References are numbered by the order in which codes are put aside**: the functions are the
codes that were put aside, one for each, the reference to each says its place, and the code there
refers to earlier ones only. -/
theorem staticRenderFns_generate (settings : Settings) (t : Tree) :
    (generate settings t).staticRenderFns =
        (staticCalls settings t).map (fun c => functionBody c.body.render) ∧
      (staticCalls settings t).map (·.answer.index?) =
        (List.range (generate settings t).staticRenderFns.length).map some ∧
      ∀ c ∈ staticCalls settings t, ∀ k, c.answer.index? = some k →
        ∃ e, t.element? c.element = some e ∧
          c.answer.render = (if e.staticInFor = some true then "_m(" ++ toString k ++ ",true)"
            else "_m(" ++ toString k ++ ")") ∧
          (generate settings t).staticRenderFns[k]? = some (functionBody c.body.render) ∧
          ∀ i ∈ c.body.references, i < k := by
  have hrecords := records_generate settings t
  have hfns : (generate settings t).staticRenderFns =
      (staticCalls settings t).map (fun c => functionBody c.body.render) := by
    rw [Rendered.staticRenderFns, hrecords.added, List.nil_append, List.map_map]
    rfl
  have hnumbered : ∀ (k : Nat) (c : StaticCall), (staticCalls settings t)[k]? = some c →
      c.Numbered t k := by
    intro k c hc
    have hk := hrecords.numbered k c hc
    rwa [List.length_nil, Nat.zero_add] at hk
  have hindex : ∀ (k : Nat) (c : StaticCall), (staticCalls settings t)[k]? = some c →
      c.answer.index? = some k := by
    intro k c hc
    obtain ⟨e, -, hanswer⟩ := (hnumbered k c hc).answer
    rw [hanswer]
    rfl
  refine ⟨hfns, ?_, ?_⟩
  · apply List.ext_getElem?
    intro k
    rw [hfns, List.length_map, List.getElem?_map, List.getElem?_map]
    cases hc : (staticCalls settings t)[k]? with
    | none =>
        have hle := List.getElem?_eq_none_iff.mp hc
        rw [List.getElem?_eq_none (by rwa [List.length_range]), Option.map_none, Option.map_none]
    | some c =>
        obtain ⟨hk, -⟩ := List.getElem?_eq_some_iff.mp hc
        rw [List.getElem?_range hk, Option.map_some, Option.map_some, hindex k c hc]
  · intro c hc k hk
    obtain ⟨k', hc⟩ := List.mem_iff_getElem?.mp hc
    obtain rfl : k' = k := Option.some.inj ((hindex k' c hc).symm.trans hk)
    obtain ⟨⟨e, he, hanswer⟩, hbelow⟩ := hnumbered k' c hc
    refine ⟨e, he, ?_, ?_, hbelow⟩
    · rw [hanswer, Code.render_hoisted]
      by_cases hfor : e.staticInFor = some true
      · rw [if_pos hfor, hfor, if_pos (beq_self_eq_true _), String.append_assoc]
        rfl
      · rw [if_neg hfor, if_neg (by simpa using hfor), String.append_empty]
    · rw [hfns, List.getElem?_map, hc]
      rfl

/-- The code of an inner element is put aside first. -/
example : (Build.parse Settings.web "<div v-once><p v-once>a</p><p v-once>b</p></div>").toOption.any
    (fun parsed => (staticCalls Settings.web parsed.tree).map
      (fun c => (c.element, c.answer.render)) ==
        [(1, "_m(0)"), (3, "_m(1)"), (0, "_m(2)")]) = true := by
  decide +kernel

end Templating.Render
