import Templating.Proofs.Render.Lifting
import Templating.Proofs.Static.Steady
import Templating.Render.Generator

/-!
**The code of a tree in which nothing is rendered once.**

As long as nothing is rendered once, and nothing once and for all, the code of a node depends on the
tree alone and not on what was generated before.  It is the code of the element itself, as a choice
when the element starts a conditional, in a loop when it has one.

Main definitions:

* `Templating.Render.childrenCode`, `Templating.Render.elementCode`,
  `Templating.Render.branchesCode` — the code of an element, when the codes of the nodes below it
  are known;
* `Templating.Render.plainFuel` — the code of a node.

Main results:

* `Templating.Render.plainFuel_alike` — marks on a tree change no code;
* `Templating.Render.origin?_plainFuel` — the code of an element knows the element;
* `Templating.Render.plain_plainFuel` — no code refers to one that is rendered once and for all.
-/

set_option autoImplicit false

namespace Templating.Render

/-! ### The code of a node -/

/-- The code of the children of an element, when `code` gives their codes. -/
def childrenCode (settings : Settings) (t : Tree) (code : NodeId → Code) (e : Element)
    (flatten : Bool) : Code :=
  match onlyLoop? t e with
  | some (id, child) =>
      .alone (code id)
        (if flatten then some (if mayBeComponent settings child then 1 else 0) else none)
  | none =>
      if e.children = [] then .absent
      else .list (e.children.map code) (if flatten then flattening settings t e.children else 0)

/-- The code of an element itself, when `code` gives the codes of its children. -/
def elementCode (settings : Settings) (t : Tree) (code : NodeId → Code) (id : NodeId)
    (e : Element) : Code :=
  if e.tag = "template" then .fragment id (childrenCode settings t code e false)
  else if e.tag = "slot" then
    .slot id (e.slotName.getD "\"default\"") (childrenCode settings t code e false)
      (if e.attrs = [] then none else some (propertiesCode e.attrs))
  else
    let children := if e.inlineTemplate then .absent else childrenCode settings t code e true
    match e.component with
    | some name => .create id name (some (dataCode e)) children
    | none =>
        .create id ("'" ++ e.tag ++ "'") (if !e.plain then some (dataCode e) else none) children

/-- The code of the branches of a conditional, up to the first without a condition, when `code`
gives the codes of their elements. -/
def branchesCode (code : NodeId → Code) (origin : NodeId) : List Branch → Code
  | [] => .nothing
  | b :: rest =>
      match b.condition with
      | none => code b.block
      | some exp => .choice origin exp (code b.block) (branchesCode code origin rest)

/-- Code behind a condition, when there is one. -/
def inChoice (id : NodeId) (condition : Option String) (yes no : Code) : Code :=
  match condition with
  | none => yes
  | some exp => .choice id exp yes no

/-- Code in a loop, when there is one. -/
def inLoop (id : NodeId) (loop : Option Expression.Loop) (body : Code) : Code :=
  match loop with
  | none => body
  | some l => .loop id l body

/-- The code of a node when nothing is rendered once, `fuel` steps deep.  The first branch of a
conditional is the element that it starts at. -/
def plainFuel (settings : Settings) (t : Tree) : (fuel : Nat) → NodeId → Code
  | 0, _ => .absent
  | fuel + 1, id =>
      match t.element? id with
      | none => leafCode t id
      | some e =>
          inLoop id e.loop (inChoice id e.condition
            (elementCode settings t (plainFuel settings t fuel) id e)
            (branchesCode (plainFuel settings t fuel) id (e.branches.drop 1)))

theorem plainFuel_of_element (settings : Settings) {t : Tree} {id : NodeId} {e : Element}
    (he : t.element? id = some e) (fuel : Nat) :
    plainFuel settings t (fuel + 1) id = inLoop id e.loop (inChoice id e.condition
      (elementCode settings t (plainFuel settings t fuel) id e)
      (branchesCode (plainFuel settings t fuel) id (e.branches.drop 1))) := by
  simp only [plainFuel, he]

theorem plainFuel_of_leaf (settings : Settings) {t : Tree} {id : NodeId}
    (he : t.element? id = none) (fuel : Nat) :
    plainFuel settings t (fuel + 1) id = leafCode t id := by
  simp only [plainFuel, he]

/-! ### Marks -/

section Alike

variable {settings : Settings} {t t' : Tree} (h : t.Alike Node.unmarked t')

include h

theorem element?_alike (id : NodeId) :
    (t'.element? id).map Element.unmarked = (t.element? id).map Element.unmarked := by
  cases he : t.element? id with
  | some e =>
      obtain ⟨e', he', hsame⟩ := h.element? Node.element?_unmarked he
      simp [he', hsame]
  | none =>
      cases he' : t'.element? id with
      | none => rfl
      | some e' =>
          obtain ⟨e, he₀, -⟩ := h.symm.element? Node.element?_unmarked he'
          simp [he] at he₀

/-- A property of elements that does not depend on marks. -/
theorem any_element?_alike {p : Element → Bool} (hp : ∀ e, p e.unmarked = p e) (id : NodeId) :
    (t'.element? id).any p = (t.element? id).any p := by
  have hany : ∀ o : Option Element, (o.map Element.unmarked).any p = o.any p := by
    intro o
    cases o with
    | none => rfl
    | some e => exact hp e
  rw [← hany, element?_alike h id, hany]

theorem leafCode_alike (id : NodeId) : leafCode t' id = leafCode t id := by
  unfold leafCode
  cases hn : t.node? id with
  | none =>
      have hnone := h id
      rw [hn] at hnone
      rw [show t'.node? id = none by simpa using hnone]
  | some n =>
      obtain ⟨n', hn', hsame⟩ := h.node? hn
      rw [hn']
      -- nodes that differ in marks are of the same kind
      cases n with
      | element e =>
          cases n' with
          | element => rfl
          | expression => cases hsame
          | text => cases hsame
      | expression m =>
          cases n' with
          | expression m' =>
              have hexpression : m'.expression = m.expression :=
                (congrArg ExpressionNode.expression (Node.expression.inj hsame) :)
              simp only [hexpression]
          | element => cases hsame
          | text => cases hsame
      | text m =>
          cases n' with
          | text m' =>
              have htext : m'.text = m.text := (congrArg TextNode.text (Node.text.inj hsame) :)
              have hcomment : m'.isComment = m.isComment :=
                (congrArg TextNode.isComment (Node.text.inj hsame) :)
              simp only [htext, hcomment]
          | element => cases hsame
          | expression => cases hsame

theorem flattening_alike (children : List NodeId) :
    flattening settings t' children = flattening settings t children := by
  have hbranch : ∀ (p : Element → Bool), (∀ e, p e.unmarked = p e) → ∀ e : Element,
      anyBranch t' p e.unmarked = anyBranch t p e := by
    intro p hp e
    have hblocks : (e.branches.any fun b => (t'.element? b.block).any p) =
        e.branches.any fun b => (t.element? b.block).any p := by
      congr 1
      funext b
      exact any_element?_alike h hp b.block
    unfold anyBranch
    rw [hp, ← hblocks]
    rfl
  have hany : ∀ (p : Element → Bool), (∀ e, p e.unmarked = p e) →
      (children.filterMap t'.element?).any (anyBranch t' p) =
        (children.filterMap t.element?).any (anyBranch t p) := by
    intro p hp
    induction children with
    | nil => rfl
    | cons id children ih =>
        have hid := element?_alike h id
        cases he : t.element? id with
        | none =>
            rw [he] at hid
            have he' : t'.element? id = none := by simpa using hid
            rw [List.filterMap_cons_none he, List.filterMap_cons_none he', ih]
        | some e =>
            obtain ⟨e', he', hsame⟩ := h.element? Node.element?_unmarked he
            have hp' : anyBranch t' p e' = anyBranch t p e := by
              rw [← hbranch p hp e, ← hsame]
              simp only [anyBranch, hp]
              rfl
            rw [List.filterMap_cons_some he, List.filterMap_cons_some he', List.any_cons,
              List.any_cons, hp', ih]
  unfold flattening
  dsimp only
  rw [hany rendersList fun _ => rfl, hany (mayBeComponent settings) fun _ => rfl]

theorem childrenCode_alike (code : NodeId → Code) {e e' : Element}
    (hsame : e'.unmarked = e.unmarked) (flatten : Bool) :
    childrenCode settings t' code e' flatten = childrenCode settings t code e flatten := by
  have hchildren : e'.children = e.children := (congrArg Element.children hsame :)
  have honly : (onlyLoop? t' e').map (fun p => (p.1, p.2.unmarked)) =
      (onlyLoop? t e).map fun p => (p.1, p.2.unmarked) := by
    unfold onlyLoop?
    rw [hchildren]
    split
    · rename_i id _
      cases he : t.element? id with
      | none =>
          have hnone := element?_alike h id
          rw [he] at hnone
          have he' : t'.element? id = none := by simpa using hnone
          rw [he']
      | some child =>
          obtain ⟨child', he', hchild⟩ := h.element? Node.element?_unmarked he
          have hloop : child'.loop = child.loop := (congrArg Element.loop hchild :)
          have htag : child'.tag = child.tag := (congrArg Element.tag hchild :)
          simp only [he', hloop, htag]
          split
          · simp [hchild]
          · rfl
    · rfl
  unfold childrenCode
  rw [hchildren, flattening_alike h]
  cases hloop : onlyLoop? t e with
  | none =>
      rw [hloop] at honly
      have hloop' : onlyLoop? t' e' = none := by simpa using honly
      rw [hloop']
  | some p =>
      rw [hloop] at honly
      obtain ⟨p', hloop', hpair⟩ := Option.map_eq_some_iff.mp honly
      obtain ⟨id, child⟩ := p
      obtain ⟨id', child'⟩ := p'
      obtain ⟨rfl, hchild⟩ := Prod.mk.inj hpair
      have hcomponent : mayBeComponent settings child' = mayBeComponent settings child :=
        (congrArg (mayBeComponent settings) hchild :)
      rw [hloop']
      simp only [hcomponent]

theorem elementCode_alike (code : NodeId → Code) (id : NodeId) {e e' : Element}
    (hsame : e'.unmarked = e.unmarked) :
    elementCode settings t' code id e' = elementCode settings t code id e := by
  have htag : e'.tag = e.tag := (congrArg Element.tag hsame :)
  have hslot : e'.slotName = e.slotName := (congrArg Element.slotName hsame :)
  have hattrs : e'.attrs = e.attrs := (congrArg Element.attrs hsame :)
  have hinline : e'.inlineTemplate = e.inlineTemplate := (congrArg Element.inlineTemplate hsame :)
  have hcomponent : e'.component = e.component := (congrArg Element.component hsame :)
  have hplain : e'.plain = e.plain := (congrArg Element.plain hsame :)
  have hdata : dataCode e' = dataCode e := (congrArg dataCode hsame :)
  simp only [elementCode, htag, hslot, hattrs, hinline, hcomponent, hplain, hdata,
    childrenCode_alike h code hsame]

/-- **Marks on a tree change no code.** -/
theorem plainFuel_alike (fuel : Nat) : plainFuel settings t' fuel = plainFuel settings t fuel := by
  induction fuel with
  | zero => rfl
  | succ fuel ih =>
      funext id
      cases he : t.element? id with
      | none =>
          have hnone := element?_alike h id
          rw [he] at hnone
          rw [plainFuel_of_leaf settings he,
            plainFuel_of_leaf settings (by simpa using hnone : t'.element? id = none),
            leafCode_alike h]
      | some e =>
          obtain ⟨e', he', hsame⟩ := h.element? Node.element?_unmarked he
          have hloop : e'.loop = e.loop := (congrArg Element.loop hsame :)
          have hcondition : e'.condition = e.condition := (congrArg Element.condition hsame :)
          have hbranches : e'.branches = e.branches := (congrArg Element.branches hsame :)
          rw [plainFuel_of_element settings he, plainFuel_of_element settings he', hloop,
            hcondition, hbranches, ih, elementCode_alike h _ id hsame]

end Alike

/-! ### What codes know -/

section Code

variable {settings : Settings} {t : Tree}

theorem origin?_elementCode (code : NodeId → Code) (id : NodeId) (e : Element) :
    (elementCode settings t code id e).origin? = some id := by
  unfold elementCode
  split
  · rfl
  · split
    · rfl
    · dsimp only
      split <;> rfl

/-- The code of an element knows the element. -/
theorem origin?_plainFuel {id : NodeId} {e : Element} (he : t.element? id = some e) (fuel : Nat) :
    (plainFuel settings t (fuel + 1) id).origin? = some id := by
  rw [plainFuel_of_element settings he]
  cases e.loop with
  | some l => rfl
  | none =>
      cases e.condition with
      | some exp => rfl
      | none => exact origin?_elementCode _ id e

theorem parts_leafCode (t : Tree) (id : NodeId) : (leafCode t id).parts = [] := by
  unfold leafCode
  split
  · split <;> rfl
  · rfl
  · rfl

/-- The code of a node that is no element stays unless the node is marked. -/
theorem bind_origin?_leafCode (t : Tree) {marks : NodeId → Option Bool} {id : NodeId}
    (h : marks id = none) : (leafCode t id).origin?.bind marks = none := by
  unfold leafCode
  split
  · split <;> exact h
  · exact h
  · rfl

theorem plain_leafCode (id : NodeId) : (leafCode t id).Plain := by
  unfold leafCode
  split
  · split
    · exact .of_parts rfl (by simp [Code.parts])
    · exact .of_parts rfl (by simp [Code.parts])
  · exact .of_parts rfl (by simp [Code.parts])
  · exact .of_parts rfl (by simp [Code.parts])

theorem plain_childrenCode {code : NodeId → Code} (hcode : ∀ id, (code id).Plain) (e : Element)
    (flatten : Bool) : (childrenCode settings t code e flatten).Plain := by
  unfold childrenCode
  split
  · exact .of_parts rfl (by simpa [Code.parts] using hcode _)
  · split
    · exact .of_parts rfl (by simp [Code.parts])
    · refine .of_parts rfl fun p hp => ?_
      obtain ⟨id, -, rfl⟩ := List.mem_map.mp hp
      exact hcode id

theorem plain_elementCode {code : NodeId → Code} (hcode : ∀ id, (code id).Plain) (id : NodeId)
    (e : Element) : (elementCode settings t code id e).Plain := by
  have hchildren : ∀ flatten, (childrenCode settings t code e flatten).Plain :=
    plain_childrenCode hcode e
  have hinline : (if e.inlineTemplate then .absent
      else childrenCode settings t code e true : Code).Plain := by
    split
    · exact .of_parts rfl (by simp [Code.parts])
    · exact hchildren true
  unfold elementCode
  split
  · exact .of_parts rfl (by simpa [Code.parts] using hchildren false)
  · split
    · exact .of_parts rfl (by simpa [Code.parts] using hchildren false)
    · dsimp only
      split
      · exact .of_parts rfl (by simpa [Code.parts] using hinline)
      · exact .of_parts rfl (by simpa [Code.parts] using hinline)

theorem plain_branchesCode {code : NodeId → Code} (hcode : ∀ id, (code id).Plain) (origin : NodeId)
    (branches : List Branch) : (branchesCode code origin branches).Plain := by
  induction branches with
  | nil => exact .of_parts rfl (by simp [branchesCode, Code.parts])
  | cons b rest ih =>
      unfold branchesCode
      split
      · exact hcode b.block
      · refine .of_parts rfl fun p hp => ?_
        simp only [Code.parts, List.mem_cons, List.not_mem_nil, or_false] at hp
        rcases hp with rfl | rfl
        · exact hcode b.block
        · exact ih

/-- **No code refers to one that is rendered once and for all.** -/
theorem plain_plainFuel (fuel : Nat) : ∀ id, (plainFuel settings t fuel id).Plain := by
  induction fuel with
  | zero => exact fun id => .of_parts rfl (by simp [plainFuel, Code.parts])
  | succ fuel ih =>
      intro id
      cases he : t.element? id with
      | none =>
          rw [plainFuel_of_leaf settings he]
          exact plain_leafCode id
      | some e =>
          have hown : (elementCode settings t (plainFuel settings t fuel) id e).Plain :=
            plain_elementCode ih id e
          have hchoice : (inChoice id e.condition
              (elementCode settings t (plainFuel settings t fuel) id e)
              (branchesCode (plainFuel settings t fuel) id (e.branches.drop 1))).Plain := by
            unfold inChoice
            split
            · exact hown
            · refine .of_parts rfl fun p hp => ?_
              simp only [Code.parts, List.mem_cons, List.not_mem_nil, or_false] at hp
              rcases hp with rfl | rfl
              · exact hown
              · exact plain_branchesCode ih id _
          rw [plainFuel_of_element settings he]
          unfold inLoop
          split
          · exact hchoice
          · exact .of_parts rfl (by simpa [Code.parts] using hchoice)

end Code

end Templating.Render
