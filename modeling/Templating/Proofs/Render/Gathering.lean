import Templating.Proofs.Render.Lockstep

/-!
**Which codes are put aside, and in which order.**

The nodes of a tree are rendered in document order: an element first, then its children, then the
further branches of its conditional.  Not all of them are rendered: the children of an element with
an inline template are not, and neither are branches behind one without a condition.  What is lifted
out of the code of a node are therefore the codes of the marked nodes that are rendered below it, by
increasing number.

Main definitions:

* `Templating.Render.rendered` — the nodes whose code goes into the code of an element;
* `Templating.Render.Gathers` — what is put aside, and in which order.

Main results:

* `Templating.Render.rendered_sublist` — what is rendered is part of what an element leads to;
* `Templating.Render.exists_gathers_each`, `Templating.Render.exists_gathers_element`,
  `Templating.Render.exists_gathers_branches` — the parts of an element;
* `Templating.Render.exists_gathers` — **the codes of the marked nodes that are rendered are put
  aside by increasing number**.
-/

set_option autoImplicit false

namespace Templating.Render

open Static (dependents)

/-! ### What is rendered -/

/-- The children whose code goes into the code of an element.  A component with an inline template
renders its children by itself. -/
def renderedChildren (e : Element) : List NodeId :=
  if e.inlineTemplate ∧ e.tag ≠ "template" ∧ e.tag ≠ "slot" then [] else e.children

/-- The elements of the branches of a conditional, up to the first without a condition. -/
def renderedBlocks : List Branch → List NodeId
  | [] => []
  | b :: rest => b.block :: if b.condition.isNone then [] else renderedBlocks rest

/-- The nodes whose code goes into the code of an element: its children and, when it starts a
conditional, the further branches. -/
def rendered (e : Element) : List NodeId :=
  renderedChildren e ++ if e.condition.isSome then renderedBlocks (e.branches.drop 1) else []

theorem renderedChildren_sublist (e : Element) : (renderedChildren e).Sublist e.children := by
  unfold renderedChildren
  split
  · exact List.nil_sublist _
  · exact List.Sublist.refl _

theorem renderedBlocks_sublist (branches : List Branch) :
    (renderedBlocks branches).Sublist (branches.map (·.block)) := by
  induction branches with
  | nil => exact List.Sublist.refl _
  | cons b rest ih =>
      unfold renderedBlocks
      refine List.Sublist.cons_cons b.block ?_
      split
      · exact List.nil_sublist _
      · exact ih

/-- What is rendered is part of what an element leads to. -/
theorem rendered_sublist (e : Element) : (rendered e).Sublist (dependents e) := by
  refine (renderedChildren_sublist e).append ?_
  split
  · exact renderedBlocks_sublist _
  · exact List.nil_sublist _

/-- What is rendered below a node lies below it. -/
theorem reach_of_rendered {t : Tree} {id k : NodeId} (h : t.Reach rendered id k) :
    t.Reach dependents id k :=
  h.mono fun e => (rendered_sublist e).subset

theorem reaches_of_rendered {t : Tree} {ids : List NodeId} {k : NodeId}
    (h : t.Reaches rendered ids k) : t.Reaches dependents ids k := by
  obtain ⟨id, hid, hreach⟩ := h
  exact ⟨id, hid, reach_of_rendered hreach⟩

/-! ### What is put aside -/

/-- **What `f` puts aside**: the codes of `roots`, which are the marked nodes of `R`, by increasing
number. -/
structure Gathers (marks : NodeId → Option Bool) (code : NodeId → Code) (R : NodeId → Prop)
    (roots : List NodeId) (f : List Code → List Code) : Prop where
  ordered : roots.Pairwise (· < ·)
  member : ∀ r, r ∈ roots ↔ R r ∧ (marks r).isSome = true
  lifted : ∀ lifted, f lifted = lifted ++ roots.map code

/-- What is put aside when the code of a node is generated. -/
def GathersAt (t : Tree) (marks : NodeId → Option Bool) (code : NodeId → Code) (id : NodeId) :
    Prop :=
  ∃ roots, Gathers marks code (t.Reach rendered id) roots fun lifted =>
    ((code id).lift marks lifted).2

section Gathers

variable {marks : NodeId → Option Bool} {code : NodeId → Code} {R R' : NodeId → Prop}
  {roots roots' : List NodeId} {f f' : List Code → List Code}

/-- Where nothing is marked, nothing is put aside. -/
theorem gathers_nil (h : ∀ k, R k → marks k = none) (hf : ∀ lifted, f lifted = lifted) :
    Gathers marks code R [] f := by
  refine ⟨.nil, fun r => ?_, fun lifted => by simp [hf]⟩
  constructor
  · intro hr
    cases hr
  · rintro ⟨hr, hmark⟩
    simp [h r hr] at hmark

theorem Gathers.congr (h : Gathers marks code R roots f) (hR : ∀ k, R' k ↔ R k)
    (hf : ∀ lifted, f' lifted = f lifted) : Gathers marks code R' roots f' :=
  ⟨h.ordered, fun r => by rw [hR, h.member], fun lifted => by rw [hf, h.lifted]⟩

/-- One after another. -/
theorem Gathers.append (h : Gathers marks code R roots f) (h' : Gathers marks code R' roots' f')
    (hlt : ∀ k k' : Nat, R k → R' k' → k < k') :
    Gathers marks code (fun k => R k ∨ R' k) (roots ++ roots') fun lifted => f' (f lifted) := by
  refine ⟨List.pairwise_append.mpr ⟨h.ordered, h'.ordered, fun r hr r' hr' => ?_⟩, fun r => ?_,
    fun lifted => ?_⟩
  · exact hlt r r' ((h.member r).mp hr).1 ((h'.member r').mp hr').1
  · rw [List.mem_append, h.member, h'.member, or_and_right]
  · rw [h'.lifted, h.lifted, List.map_append, List.append_assoc]

/-- A code with one part that stays itself. -/
theorem Gathers.rebuild {c : Code} (h : Gathers marks code R roots fun l => (c.lift marks l).2)
    (c' : Code) (hparts : c'.parts = [c]) (hc : c'.origin?.bind marks = none) :
    Gathers marks code R roots fun l => (c'.lift marks l).2 := by
  refine h.congr (fun _ => .rfl) fun l => ?_
  rw [Code.lift_eq (reference?_eq_none hc _), hparts]
  rfl

/-- Two codes behind a condition that stays itself. -/
theorem Gathers.choice {yes no : Code} {id : NodeId}
    (h : Gathers marks code R roots fun l => (yes.lift marks l).2)
    (h' : Gathers marks code R' roots' fun l => (no.lift marks l).2)
    (hlt : ∀ k k' : Nat, R k → R' k' → k < k') (hid : marks id = none) (condition : String) :
    Gathers marks code (fun k => R k ∨ R' k) (roots ++ roots') fun l =>
      ((Code.choice id condition yes no).lift marks l).2 := by
  refine (h.append h' hlt).congr (fun _ => .rfl) fun l => ?_
  have hstays : (Code.choice id condition yes no).origin?.bind marks = none := hid
  rw [Code.lift_eq (reference?_eq_none hstays _)]
  rfl

end Gathers

/-! ### The parts of an element -/

section Parts

variable {settings : Settings} {t : Tree} {marks : NodeId → Option Bool} {code : NodeId → Code}

/-- **Several nodes**, one after another. -/
theorem exists_gathers_each {ids : List NodeId} (hids : ∀ id ∈ ids, GathersAt t marks code id)
    (hpair : ids.Pairwise t.Precedes) :
    ∃ roots, Gathers marks code (t.Reaches rendered ids) roots fun l =>
      (Code.liftAll marks (ids.map code) l).2 := by
  induction ids with
  | nil => exact ⟨[], gathers_nil (fun k hk => absurd hk Tree.not_reaches_nil) fun _ => rfl⟩
  | cons id ids ih =>
      rw [List.pairwise_cons] at hpair
      obtain ⟨roots, hfirst⟩ := hids id (by simp)
      obtain ⟨roots', hothers⟩ := ih (fun b hb => hids b (List.mem_cons_of_mem id hb)) hpair.2
      refine ⟨roots ++ roots', (hfirst.append hothers ?_).congr (fun k => Tree.reaches_cons)
        fun l => rfl⟩
      rintro k k' hk ⟨b, hb, hk'⟩
      exact hpair.1 b hb k k' (reach_of_rendered hk) (reach_of_rendered hk')

section Element

variable {e : Element} (hids : ∀ id ∈ e.children, GathersAt t marks code id)
  (hpair : e.children.Pairwise t.Precedes)

include hids hpair

theorem exists_gathers_children (flatten : Bool) :
    ∃ roots, Gathers marks code (t.Reaches rendered e.children) roots fun l =>
      ((childrenCode settings t code e flatten).lift marks l).2 := by
  unfold childrenCode
  cases honly : onlyLoop? t e with
  | some p =>
      obtain ⟨id, child⟩ := p
      have hchildren := children_of_onlyLoop? honly
      obtain ⟨roots, hitem⟩ := hids id (by simp [hchildren])
      refine ⟨roots, (hitem.rebuild (.alone (code id) _) rfl rfl).congr (fun k => ?_) fun _ => rfl⟩
      rw [hchildren]
      exact Tree.reaches_singleton
  | none =>
      dsimp only
      split
      · rename_i hchildren
        rw [hchildren]
        refine ⟨[], gathers_nil (fun k hk => absurd hk Tree.not_reaches_nil) fun l => ?_⟩
        rw [lift_of_nil rfl rfl]
      · obtain ⟨roots, heach⟩ := exists_gathers_each hids hpair
        refine ⟨roots, heach.congr (fun _ => .rfl) fun l => ?_⟩
        rw [Code.lift_eq (reference?_eq_none rfl _)]
        rfl

/-- **An element itself**, without its loop and its conditional. -/
theorem exists_gathers_element {id : NodeId} (hid : marks id = none) :
    ∃ roots, Gathers marks code (t.Reaches rendered (renderedChildren e)) roots fun l =>
      ((elementCode settings t code id e).lift marks l).2 := by
  have hchildren : ∀ flatten, ∃ roots, Gathers marks code (t.Reaches rendered e.children) roots
      fun l => ((childrenCode settings t code e flatten).lift marks l).2 :=
    exists_gathers_children hids hpair
  unfold elementCode
  split
  · rename_i htag
    have hrendered : renderedChildren e = e.children := if_neg (by simp [htag])
    obtain ⟨roots, h⟩ := hchildren false
    rw [hrendered]
    exact ⟨roots, h.rebuild (.fragment id _) rfl hid⟩
  · split
    · rename_i htag
      have hrendered : renderedChildren e = e.children := if_neg (by simp [htag])
      obtain ⟨roots, h⟩ := hchildren false
      rw [hrendered]
      exact ⟨roots, h.rebuild (.slot id _ _ _) rfl hid⟩
    · rename_i htemplate hslot
      have hinline : ∃ roots, Gathers marks code (t.Reaches rendered (renderedChildren e)) roots
          fun l => ((if e.inlineTemplate then .absent
            else childrenCode settings t code e true : Code).lift marks l).2 := by
        unfold renderedChildren
        by_cases h : e.inlineTemplate
        · rw [if_pos ⟨h, htemplate, hslot⟩, if_pos h]
          refine ⟨[], gathers_nil (fun k hk => absurd hk Tree.not_reaches_nil) fun l => ?_⟩
          rw [lift_of_nil rfl rfl]
        · rw [if_neg (fun hall => h hall.1), if_neg h]
          exact hchildren true
      obtain ⟨roots, h⟩ := hinline
      cases e.component with
      | some name => exact ⟨roots, h.rebuild (.create id name _ _) rfl hid⟩
      | none => exact ⟨roots, h.rebuild (.create id _ _ _) rfl hid⟩

end Element

/-- **The further branches of a conditional.** -/
theorem exists_gathers_branches {origin : NodeId} (horigin : marks origin = none)
    {branches : List Branch} (hids : ∀ b ∈ branches, GathersAt t marks code b.block)
    (hpair : (branches.map (·.block)).Pairwise t.Precedes) :
    ∃ roots, Gathers marks code (t.Reaches rendered (renderedBlocks branches)) roots fun l =>
      ((branchesCode code origin branches).lift marks l).2 := by
  induction branches with
  | nil =>
      refine ⟨[], gathers_nil (fun k hk => absurd hk Tree.not_reaches_nil) fun l => ?_⟩
      rw [branchesCode, lift_of_nil rfl rfl]
  | cons b rest ih =>
      rw [List.map_cons, List.pairwise_cons] at hpair
      obtain ⟨roots, hblock⟩ := hids b (by simp)
      unfold branchesCode renderedBlocks
      cases b.condition with
      | none => exact ⟨roots, hblock.congr (fun k => Tree.reaches_singleton) fun _ => rfl⟩
      | some exp =>
          obtain ⟨roots', hothers⟩ :=
            ih (fun b' hb' => hids b' (List.mem_cons_of_mem b hb')) hpair.2
          refine ⟨roots ++ roots', (hblock.choice hothers ?_ horigin exp).congr
            (fun k => Tree.reaches_cons) fun _ => rfl⟩
          rintro k k' hk ⟨c, hc, hk'⟩
          exact hpair.1 c ((renderedBlocks_sublist rest).subset hc) k k' (reach_of_rendered hk)
            (reach_of_rendered hk')

end Parts

/-! ### Whole trees -/

section Tree

variable {settings : Settings} {t : Tree} {root : NodeId} {code : NodeId → Code}

/-- A marked element is put aside as a whole, since no mark lies below it. -/
theorem gathers_marked (ht : Regular t root) {id : NodeId} {e : Element}
    (hid : t.Reach dependents root id) (he : t.element? id = some e)
    (hroot : e.staticRoot = some true) (horigin : (code id).origin? = some id) :
    Gathers t.marks code (t.Reach rendered id) [id] fun l => ((code id).lift t.marks l).2 := by
  have hmark : t.marks id = some (e.staticInFor == some true) := by
    rw [Tree.marks, he, Option.bind_some, if_pos hroot]
  refine ⟨List.pairwise_singleton _ _, fun r => ?_, fun l => ?_⟩
  · rw [List.mem_singleton]
    constructor
    · rintro rfl
      exact ⟨.refl, by simp [hmark]⟩
    · rintro ⟨hr, hsome⟩
      rcases (Tree.reach_iff_of_element he).mp hr with rfl | hbelow
      · rfl
      · obtain ⟨c, hc, hreach⟩ := reaches_of_rendered hbelow
        have hnone := ht.apart id e r hid he hroot ⟨c, (rendered_sublist e).subset hc, hreach⟩
        simp [hnone] at hsome
  · have href : Code.reference? t.marks l.length (code id) =
        some (.hoisted id l.length (e.staticInFor == some true)) := by
      simp [Code.reference?, horigin, hmark]
    rw [Code.lift_of_reference? href]
    rfl

/-- An element that is not marked: its own code, in its conditional and in its loop. -/
theorem gathersAt_of_element (ht : Regular t root) {id : NodeId} {e : Element}
    (hid : t.Reach dependents root id) (he : t.element? id = some e) (hmark : t.marks id = none)
    (hcode : code id = inLoop id e.loop (inChoice id e.condition (elementCode settings t code id e)
      (branchesCode code id (e.branches.drop 1))))
    (hbelow : ∀ c ∈ dependents e, GathersAt t t.marks code c) : GathersAt t t.marks code id := by
  obtain ⟨hpair, hpair', hcross⟩ := List.pairwise_append.mp
    (ht.forest.pairwise_dependents (Tree.reaches_singleton.mpr hid) he).2
  obtain ⟨roots, hown⟩ : ∃ roots, Gathers t.marks code
      (t.Reaches rendered (renderedChildren e)) roots fun l =>
        ((elementCode settings t code id e).lift t.marks l).2 :=
    exists_gathers_element (fun c hc => hbelow c (List.mem_append_left _ hc)) hpair hmark
  have hchosen : ∃ roots, Gathers t.marks code (t.Reaches rendered (rendered e)) roots fun l =>
      ((inChoice id e.condition (elementCode settings t code id e)
        (branchesCode code id (e.branches.drop 1))).lift t.marks l).2 := by
    cases hcondition : e.condition with
    | none =>
        have hrendered : rendered e = renderedChildren e := by simp [rendered, hcondition]
        rw [hrendered]
        exact ⟨roots, hown⟩
    | some exp =>
        have hrendered : rendered e = renderedChildren e ++ renderedBlocks (e.branches.drop 1) := by
          simp [rendered, hcondition]
        rw [hrendered]
        obtain ⟨roots', hothers⟩ := exists_gathers_branches hmark
          (fun b hb => hbelow b.block (List.mem_append_right _ (List.mem_map_of_mem hb))) hpair'
        refine ⟨roots ++ roots', (hown.choice hothers ?_ hmark exp).congr
          (fun k => Tree.reaches_append) fun _ => rfl⟩
        rintro k k' ⟨a, ha, hk⟩ ⟨b, hb, hk'⟩
        exact hcross a ((renderedChildren_sublist e).subset ha) b
          ((renderedBlocks_sublist _).subset hb) k k' (reach_of_rendered hk) (reach_of_rendered hk')
  obtain ⟨roots, hchosen⟩ := hchosen
  -- the element itself is not marked
  have hall : ∀ {f : List Code → List Code},
      Gathers t.marks code (t.Reaches rendered (rendered e)) roots f →
      Gathers t.marks code (t.Reach rendered id) roots f := by
    intro f h
    refine ⟨h.ordered, fun r => ?_, h.lifted⟩
    rw [h.member, Tree.reach_iff_of_element he]
    constructor
    · rintro ⟨hr, hsome⟩
      exact ⟨.inr hr, hsome⟩
    · rintro ⟨rfl | hr, hsome⟩
      · simp [hmark] at hsome
      · exact ⟨hr, hsome⟩
  refine ⟨roots, hall ?_⟩
  rw [hcode]
  cases e.loop with
  | none => exact hchosen
  | some l => exact hchosen.rebuild (.loop id l _) rfl hmark

/-- **The codes of the marked nodes that are rendered are put aside by increasing number**, when the
plain codes of the tree do not change with another step. -/
theorem exists_gathers (ht : Regular t root)
    (hstable : ∀ id, t.Reach dependents root id →
      plainFuel settings t (t.size + 1) id = plainFuel settings t t.size id) (n : Nat) :
    ∀ id : Nat, t.Reach dependents root id → t.size - id ≤ n →
      GathersAt t t.marks (plainFuel settings t t.size) id := by
  induction n with
  | zero =>
      intro id hid hn
      obtain ⟨node, hnode⟩ := ht.forest.exists_of_reaches id (Tree.reaches_singleton.mpr hid)
      have hlt := Tree.lt_size_of_node? hnode
      omega
  | succ n ih =>
      intro id hid hn
      cases he : t.element? id with
      | none =>
          have hmark : t.marks id = none := by
            rw [Tree.marks, he]
            rfl
          refine ⟨[], gathers_nil (fun k hk => ?_) fun l => ?_⟩
          · rw [(Tree.reach_iff_of_leaf he).mp hk]
            exact hmark
          · rw [← hstable id hid, plainFuel_of_leaf settings he,
              lift_of_nil (parts_leafCode t id) (bind_origin?_leafCode t hmark)]
      | some e =>
          by_cases hroot : e.staticRoot = some true
          · refine ⟨[id], gathers_marked ht hid he hroot ?_⟩
            rw [← hstable id hid]
            exact origin?_plainFuel he t.size
          · have hmark : t.marks id = none := by
              rw [Tree.marks, he, Option.bind_some, if_neg hroot]
            have hbehind := (ht.forest.pairwise_dependents (Tree.reaches_singleton.mpr hid) he).1
            refine gathersAt_of_element ht hid he hmark
              ((hstable id hid).symm.trans (plainFuel_of_element settings he t.size)) ?_
            intro c hc
            have hafter : id < c := hbehind c ⟨c, hc, .refl⟩
            have hlt := Tree.lt_size_of_element? he
            exact ih c (hid.step he hc) (by omega)

end Tree

end Templating.Render
