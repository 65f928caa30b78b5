import Templating.Proofs.Render.Lifting
import Templating.Render.Generator

/-!
**Everything that is in generated code.**

Generated code is put together from codes, and the text of each is part of the text of the whole.
Every code with something of its own to say, that is of a leaf, of an element and of a slot, says
what its node has to say.

Main definitions:

* `Templating.Text.Within` — a text inside another one;
* `Templating.Render.Code.inside`, `Templating.Render.Rendered.codes` — all codes in a code, and in
  the code of a tree;
* `Templating.Render.Code.Says` — a code that says what its node has to say.

Main results:

* `Templating.Render.Code.within_render` — the text of a code is part of the text of the whole;
* `Templating.Render.says_run`, `Templating.Render.says_generate` — **every code that is generated
  says what its node has to say**.
-/

set_option autoImplicit false

namespace Templating

/-! ### Texts inside texts -/

namespace Text

/-- A text inside another one. -/
structure Within (a b : String) : Prop where
  toList : a.toList <:+: b.toList

namespace Within

variable {a b c : String}

theorem intro (before after : String) (h : b = before ++ a ++ after) : Within a b :=
  ⟨before.toList, after.toList, by rw [h, String.toList_append, String.toList_append]⟩

theorem refl (a : String) : Within a a := ⟨List.infix_rfl⟩

theorem empty (a : String) : Within "" a := .intro a "" (by simp)

theorem trans (h : Within a b) (h' : Within b c) : Within a c := ⟨h.toList.trans h'.toList⟩

theorem append_left (h : Within a b) (s : String) : Within a (s ++ b) :=
  h.trans (.intro s "" (by simp))

theorem append_right (h : Within a b) (s : String) : Within a (b ++ s) :=
  h.trans (.intro "" s (by simp))

end Within

/-- A piece is in what is put together from it and others. -/
theorem within_join {sep a : String} {l : List String} (h : a ∈ l) : Within a (join sep l) := by
  induction l with
  | nil => cases h
  | cons b l ih =>
      cases l with
      | nil =>
          obtain rfl := List.mem_singleton.mp h
          exact .refl a
      | cons c l =>
          rcases List.mem_cons.mp h with rfl | h
          · exact ((Within.refl a).append_right sep).append_right _
          · exact (ih h).append_left _

end Text

namespace Render

open Text

/-! ### Codes inside codes -/

namespace Code

mutual

/-- A code and all codes inside it. -/
def inside : Code → List Code
  | absent => [absent]
  | nothing => [nothing]
  | hoisted id index inFor => [hoisted id index inFor]
  | keyed id body number key => keyed id body number key :: inside body
  | loop id l body => loop id l body :: inside body
  | choice id condition yes no => choice id condition yes no :: (inside yes ++ inside no)
  | fragment id children => fragment id children :: inside children
  | slot id name children properties => slot id name children properties :: inside children
  | create id tag data children => create id tag data children :: inside children
  | text id code => [text id code]
  | comment id code => [comment id code]
  | list items flattening => list items flattening :: allInside items
  | alone item flattening => alone item flattening :: inside item

/-- Several codes and all codes inside them. -/
def allInside : List Code → List Code
  | [] => []
  | c :: rest => inside c ++ allInside rest

end

theorem mem_allInside {c : Code} {cs : List Code} :
    c ∈ allInside cs ↔ ∃ d ∈ cs, c ∈ d.inside := by
  induction cs with
  | nil => simp [allInside]
  | cons d cs ih => simp [allInside, ih]

/-- What is inside a code is the code itself, or inside one of its parts. -/
theorem mem_inside {c d : Code} : c ∈ d.inside ↔ c = d ∨ ∃ p ∈ d.parts, c ∈ p.inside := by
  cases d with
  | list => simp only [inside, parts, List.mem_cons, mem_allInside]
  | absent | nothing | hoisted | text | comment => simp [inside, parts]
  | keyed | loop | choice | fragment | slot | create | alone => simp [inside, parts]

theorem renderAll_eq (cs : List Code) : renderAll cs = cs.map render := by
  induction cs with
  | nil => rfl
  | cons c cs ih => rw [renderAll, ih, List.map_cons]

/-- The text of a part is in the text of the code. -/
theorem within_render_of_mem_parts {p c : Code} (h : p ∈ c.parts) : Within p.render c.render := by
  -- where a part may be left out, its text is empty
  have habsent : ∀ {c : Code} {s : String}, c.isAbsent = true → Within c.render s := by
    intro c s hc
    cases c with
    | absent => exact .empty s
    | _ => cases hc
  cases c with
  | absent | nothing | hoisted | text | comment => cases h
  | keyed _ body number key =>
      obtain rfl := List.mem_singleton.mp h
      exact .intro "_o(" ("," ++ toString number ++ "," ++ key ++ ")")
        (by simp only [render, String.append_assoc])
  | loop _ l body =>
      obtain rfl := List.mem_singleton.mp h
      exact .intro ("_l((" ++ l.source ++ "),function(" ++ l.item ++ parameter l.iterator1 ++
        parameter l.iterator2 ++ ")\x7breturn ") "\x7d)"
        (by simp only [render, String.append_assoc])
  | choice _ condition yes no =>
      simp only [parts, List.mem_cons, List.not_mem_nil, or_false] at h
      rcases h with rfl | rfl
      · exact .intro ("(" ++ condition ++ ")?") (":" ++ no.render)
          (by simp only [render, String.append_assoc])
      · exact .intro ("(" ++ condition ++ ")?" ++ yes.render ++ ":") ""
          (by simp only [render, String.append_assoc, String.append_empty])
  | fragment _ children =>
      obtain rfl := List.mem_singleton.mp h
      simp only [render]
      split
      · exact habsent ‹_›
      · exact .refl _
  | slot _ name children properties =>
      obtain rfl := List.mem_singleton.mp h
      simp only [render]
      split
      · exact habsent ‹_›
      · refine Within.append_right (Within.append_right (Within.append_left ?_ _) _) _
        exact ((Within.refl _).append_left _).append_right _
  | create _ tag data children =>
      obtain rfl := List.mem_singleton.mp h
      simp only [render]
      split
      · exact habsent ‹_›
      · exact (((Within.refl _).append_left _).append_left _).append_right _
  | list items =>
      simp only [render, renderAll_eq]
      refine Within.append_right (Within.append_right (Within.append_left ?_ _) _) _
      exact within_join (List.mem_map_of_mem h)
  | alone item =>
      obtain rfl := List.mem_singleton.mp h
      simp only [render]
      exact (Within.refl _).append_right _

/-- **The text of a code is part of the text of the whole.** -/
theorem within_render {c d : Code} (h : c ∈ d.inside) : Within c.render d.render := by
  induction d using induction_parts with
  | _ d ih =>
      rcases mem_inside.mp h with rfl | ⟨p, hp, hc⟩
      · exact .refl _
      · exact (ih p hp hc).trans (within_render_of_mem_parts hp)

end Code

/-- All codes in the code of a tree. -/
def Rendered.codes (r : Rendered) : List Code := Code.allInside (r.root.toList ++ r.hoisted)

/-- The text of every code is in one of the functions. -/
theorem Rendered.exists_within {r : Rendered} {c : Code} (h : c ∈ r.codes) :
    ∃ body ∈ r.render :: r.staticRenderFns, Within c.render body := by
  have hbody : ∀ s : String, Within s (functionBody s) := by
    intro s
    exact .intro "with(this)\x7breturn " "\x7d" rfl
  obtain ⟨d, hd, hc⟩ := Code.mem_allInside.mp h
  have hwithin := Code.within_render hc
  rcases List.mem_append.mp hd with hd | hd
  · have hroot : r.root = some d := by simpa using hd
    refine ⟨r.render, List.mem_cons_self, hwithin.trans ?_⟩
    simp only [Rendered.render, hroot]
    exact hbody _
  · refine ⟨functionBody d.render, List.mem_cons_of_mem _ ?_, hwithin.trans (hbody _)⟩
    exact List.mem_map.mpr ⟨d, hd, rfl⟩

/-! ### What a code says -/

/-- **A code that says what its node has to say**, its parts aside: a leaf its text, an element its
data and which component it is, a slot its name and its properties. -/
def Code.Says (t : Tree) : Code → Prop
  | .text id code => leafCode t id = .text id code
  | .comment id code => leafCode t id = .comment id code
  | .create id tag data _ => ∃ e, t.element? id = some e ∧
      (∀ code, data = some code → code = dataCode e) ∧ ∀ code, e.component = some code → tag = code
  | .slot id name _ properties => ∃ e, t.element? id = some e ∧ e.tag = "slot" ∧
      name = e.slotName.getD "\"default\"" ∧
      properties = if e.attrs = [] then none else some (propertiesCode e.attrs)
  | _ => True

/-- All codes in several codes say what their nodes have to say. -/
def SaysAll (t : Tree) (codes : List Code) : Prop := ∀ c ∈ Code.allInside codes, c.Says t

namespace SaysAll

variable {t : Tree} {c : Code} {codes codes' : List Code}

theorem nil : SaysAll t [] := by
  intro c hc
  cases hc

theorem append (h : SaysAll t codes) (h' : SaysAll t codes') : SaysAll t (codes ++ codes') := by
  intro c hc
  obtain ⟨d, hd, hc⟩ := Code.mem_allInside.mp hc
  rcases List.mem_append.mp hd with hd | hd
  · exact h c (Code.mem_allInside.mpr ⟨d, hd, hc⟩)
  · exact h' c (Code.mem_allInside.mpr ⟨d, hd, hc⟩)

/-- A code that is put together from others. -/
theorem rebuild (hc : c.Says t) (h : SaysAll t c.parts) : SaysAll t [c] := by
  intro d hd
  have hinside : d ∈ c.inside := by simpa [Code.mem_allInside] using hd
  rcases Code.mem_inside.mp hinside with rfl | hpart
  · exact hc
  · exact h d (Code.mem_allInside.mpr hpart)

end SaysAll

section Parts

variable {settings : Settings} {t : Tree} {recur : Renderer}
  (hrecur : ∀ job g, SaysAll t g.hoisted →
    SaysAll t [(recur job g).1] ∧ SaysAll t (recur job g).2.hoisted)

include hrecur

theorem says_renderEach (ids : List NodeId) (g : Generator) (h : SaysAll t g.hoisted) :
    SaysAll t (renderEach recur ids g).1 ∧ SaysAll t (renderEach recur ids g).2.hoisted := by
  induction ids generalizing g with
  | nil => exact ⟨.nil, h⟩
  | cons id rest ih =>
      obtain ⟨hfirst, hhoisted⟩ := hrecur (.element id) g h
      obtain ⟨hothers, hhoisted'⟩ := ih _ hhoisted
      exact ⟨hfirst.append hothers, hhoisted'⟩

theorem says_renderChildren (e : Element) (flatten : Bool) (g : Generator)
    (h : SaysAll t g.hoisted) :
    SaysAll t [(renderChildren settings t recur e flatten g).1] ∧
      SaysAll t (renderChildren settings t recur e flatten g).2.hoisted := by
  unfold renderChildren
  split
  · rename_i id child _
    obtain ⟨hitem, hhoisted⟩ := hrecur (.element id) g h
    exact ⟨.rebuild trivial hitem, hhoisted⟩
  · split
    · exact ⟨.rebuild trivial .nil, h⟩
    · obtain ⟨hitems, hhoisted⟩ := says_renderEach hrecur e.children g h
      exact ⟨.rebuild trivial hitems, hhoisted⟩

/-- **The code of an element itself** says what the element has to say. -/
theorem says_renderElement {id : NodeId} {e : Element} (he : t.element? id = some e)
    (g : Generator) (h : SaysAll t g.hoisted) :
    SaysAll t [(renderElement settings t recur id e g).1] ∧
      SaysAll t (renderElement settings t recur id e g).2.hoisted := by
  have hchildren : ∀ flatten, SaysAll t [(renderChildren settings t recur e flatten g).1] ∧
      SaysAll t (renderChildren settings t recur e flatten g).2.hoisted :=
    fun flatten => says_renderChildren hrecur e flatten g h
  unfold renderElement
  split
  · exact ⟨.rebuild trivial (hchildren false).1, (hchildren false).2⟩
  · split
    · rename_i hslot
      exact ⟨.rebuild ⟨e, he, hslot, rfl, rfl⟩ (hchildren false).1, (hchildren false).2⟩
    · have hbody : SaysAll t [(if e.inlineTemplate then (.absent, g)
            else renderChildren settings t recur e true g : Code × Generator).1] ∧
          SaysAll t (if e.inlineTemplate then (.absent, g)
            else renderChildren settings t recur e true g : Code × Generator).2.hoisted := by
        split
        · exact ⟨.rebuild trivial .nil, h⟩
        · exact hchildren true
      dsimp only
      cases hcomponent : e.component with
      | some code =>
          refine ⟨.rebuild ⟨e, he, fun data hdata => ?_, fun code' hcode' => ?_⟩ hbody.1, hbody.2⟩
          · exact (Option.some.inj hdata).symm
          · exact Option.some.inj (hcomponent.symm.trans hcode')
      | none =>
          refine ⟨.rebuild ⟨e, he, fun data hdata => ?_, fun code' hcode' => ?_⟩ hbody.1, hbody.2⟩
          · exact (Option.some.inj (Option.ite_none_right_eq_some.mp hdata).2).symm
          · cases hcomponent.symm.trans hcode'

theorem says_renderStatic (id : NodeId) (e : Element) (g : Generator) (h : SaysAll t g.hoisted) :
    SaysAll t [(renderStatic recur id e g).1] ∧
      SaysAll t (renderStatic recur id e g).2.hoisted := by
  obtain ⟨hbody, hhoisted⟩ := hrecur (.element id)
    { g with staticDone := id :: g.staticDone, verbatim := g.verbatim || e.pre } h
  exact ⟨.rebuild trivial .nil, hhoisted.append hbody⟩

theorem says_renderBranches (origin : NodeId) (branches : List Branch) (g : Generator)
    (h : SaysAll t g.hoisted) :
    SaysAll t [(renderBranches t recur origin branches g).1] ∧
      SaysAll t (renderBranches t recur origin branches g).2.hoisted := by
  induction branches generalizing g with
  | nil => exact ⟨.rebuild trivial .nil, h⟩
  | cons b rest ih =>
      obtain ⟨hblock, hhoisted⟩ := hrecur (branchJob t b.block) g h
      unfold renderBranches
      cases b.condition with
      | none => exact ⟨hblock, hhoisted⟩
      | some exp =>
          obtain ⟨hothers, hhoisted'⟩ := ih _ hhoisted
          exact ⟨.rebuild trivial (hblock.append hothers), hhoisted'⟩

theorem says_renderOnce (id : NodeId) (e : Element) (g : Generator) (h : SaysAll t g.hoisted) :
    SaysAll t [(renderOnce t recur id e g).1] ∧
      SaysAll t (renderOnce t recur id e g).2.hoisted := by
  unfold renderOnce
  dsimp only
  split
  · exact says_renderBranches hrecur id e.branches
      { g with onceDone := id :: g.onceDone, choiceDone := id :: g.choiceDone } h
  · split
    · exact says_renderStatic hrecur id e { g with onceDone := id :: g.onceDone } h
    · obtain ⟨hbody, hhoisted⟩ := hrecur (.element id) { g with onceDone := id :: g.onceDone } h
      cases (t.nearestLoop? e.parent).bind (·.key) with
      | none => exact ⟨hbody, hhoisted⟩
      | some key => exact ⟨.rebuild trivial hbody, hhoisted⟩

end Parts

/-- The code of a leaf says what the leaf has to say. -/
theorem says_leafCode (t : Tree) (id : NodeId) : SaysAll t [leafCode t id] := by
  have hleaf : ∀ c, leafCode t id = c → c.Says t ∧ c.parts = [] := by
    intro c hc
    have hcode := hc
    unfold leafCode at hcode
    split at hcode
    · split at hcode
      · subst hcode
        exact ⟨hc, rfl⟩
      · subst hcode
        exact ⟨hc, rfl⟩
    · subst hcode
      exact ⟨hc, rfl⟩
    · subst hcode
      exact ⟨trivial, rfl⟩
  obtain ⟨hown, hparts⟩ := hleaf _ rfl
  refine .rebuild hown ?_
  rw [hparts]
  exact .nil

/-- **Every code that comes of a job says what its node has to say**, and so does everything that is
put aside. -/
theorem says_run (settings : Settings) (t : Tree) (fuel : Nat) (job : Job) (g : Generator)
    (h : SaysAll t g.hoisted) :
    SaysAll t [(run settings t fuel job g).1] ∧
      SaysAll t (run settings t fuel job g).2.hoisted := by
  induction fuel generalizing job g with
  | zero => exact ⟨.rebuild trivial .nil, h⟩
  | succ fuel ih =>
      cases job with
      | once id =>
          simp only [run, work]
          cases t.element? id with
          | none => exact ⟨.rebuild trivial .nil, h⟩
          | some e => exact says_renderOnce ih id e g h
      | element id =>
          simp only [run, work]
          cases he : t.element? id with
          | none => exact ⟨says_leafCode t id, h⟩
          | some e =>
              dsimp only
              split
              · exact says_renderStatic ih id e g h
              · split
                · exact says_renderOnce ih id e g h
                · split
                  · rename_i l _
                    obtain ⟨hbody, hhoisted⟩ := ih (.element id)
                      { g with loopDone := id :: g.loopDone } h
                    exact ⟨.rebuild trivial hbody, hhoisted⟩
                  · split
                    · exact says_renderBranches ih id e.branches
                        { g with choiceDone := id :: g.choiceDone } h
                    · exact says_renderElement ih he g h

/-- **Every code in the code of a tree** says what its node has to say. -/
theorem says_generate (settings : Settings) (t : Tree) :
    ∀ c ∈ (generate settings t).codes, c.Says t := by
  cases hroot : t.root with
  | none => simp [generate, hroot, Rendered.codes, Code.allInside]
  | some root =>
      obtain ⟨hcode, hhoisted⟩ := says_run settings t (fuelFor t) (.element root) {} .nil
      have hall := hcode.append hhoisted
      simpa [generate, hroot, Rendered.codes, SaysAll] using hall

end Render

end Templating
