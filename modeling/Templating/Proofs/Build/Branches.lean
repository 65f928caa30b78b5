import Templating.Proofs.Build.Chains
import Templating.Proofs.Tree.Reach

/-!
**A branch belongs to one conditional and to nothing else.**

A branch is added to a conditional when it is finished.  Nothing refers to an element before it is
finished, and finishing it adds it to a single list, so a branch is in one chain only and is no
child; and since it is finished after everything that is there, a chain is in the order of its
elements.  This holds of all nodes of the table, also of those that end up outside of the tree.

Main definitions:

* `Templating.Tree.Unclaimed` — a node that no element refers to;
* `Templating.Tree.Apart` — open elements are unclaimed, chains ascend, and branches are in one
  chain only and are no children.

Main results:

* `Templating.Tree.Apart.addChild`, `Templating.Tree.Apart.addFurther` — an unclaimed node becomes a
  child or a branch;
* `Templating.Build.Builder.invariant_apart` — **every event keeps branches apart**;
* `Templating.Build.exists_parse_branches` — the conditionals of a template.
-/

set_option autoImplicit false

namespace Templating

open Build Build.Builder

/-! ### The elements of a chain -/

/-- An element without a condition has no branches. -/
theorem Tree.Chain.branches_eq_nil {t : Tree} {id : NodeId} {e : Element} (h : t.Chain id e)
    (hcondition : e.condition = none) : e.branches = [] := by
  have hhead := h.head
  rw [hcondition] at hhead
  exact List.head?_eq_none_iff.mp hhead

/-- The elements of a chain: the one that it starts at, and the further ones. -/
theorem Tree.Chain.map_block {t : Tree} {id : NodeId} {e : Element} (h : t.Chain id e)
    (hbranches : e.branches ≠ []) : e.branches.map (·.block) = id :: e.links.further := by
  obtain ⟨first, further, heq⟩ := List.exists_cons_of_ne_nil hbranches
  have hhead := h.head
  rw [heq] at hhead
  obtain ⟨exp, -, hfirst⟩ := Option.map_eq_some_iff.mp hhead.symm
  simp [Element.links, heq, ← hfirst]

/-! ### Nodes that are referred to once -/

namespace Tree

/-- A node that no element refers to. -/
def Unclaimed (t : Tree) (c : NodeId) : Prop :=
  ∀ k l, t.links? k = some (some l) → c ∉ l.children ∧ c ∉ l.further

/-- **Branches belong to one conditional**, and open elements belong to nothing yet. -/
structure Apart (t : Tree) (opened : List NodeId) : Prop where
  inUse : ∀ {k : NodeId} {l : Links} {c : Nat}, t.links? k = some (some l) →
    c ∈ l.children ∨ c ∈ l.further → c < t.size
  unclaimed : ∀ c ∈ opened, t.Unclaimed c
  ascending : ∀ {k : Nat} {l : Links}, t.links? k = some (some l) →
    (k :: l.further).Pairwise (· < ·)
  apart : ∀ {k k' c : NodeId} {l l' : Links}, t.links? k = some (some l) →
    t.links? k' = some (some l') → c ∈ l.further → c ∉ l'.children
  once : ∀ {k k' c : NodeId} {l l' : Links}, t.links? k = some (some l) →
    t.links? k' = some (some l') → c ∈ l.further → c ∈ l'.further → k = k'

variable {t t' : Tree} {opened : List NodeId}

/-- Every element comes from one with the same links, less children dropped from the end. -/
theorem Shrinks.exists_of_links? (hs : Shrinks t t' 0 t.size) (hsize : t'.size = t.size) {k : Nat}
    {l' : Links} (h : t'.links? k = some (some l')) :
    ∃ l, t.links? k = some (some l) ∧ l.Shrinks l' := by
  have hlt : k < t.size := by
    by_contra hge
    rw [links?_eq_none_iff.mpr (by omega)] at h
    cases h
  cases hl : t.links? k with
  | none =>
      have := links?_eq_none_iff.mp hl
      omega
  | some links =>
      cases links with
      | none =>
          rw [hs.leaf k (by omega) hlt hl] at h
          cases h
      | some l =>
          obtain ⟨l'', hl'', hshrinks⟩ := hs.element k l (by omega) hlt hl
          obtain rfl : l'' = l' := by simpa [h] using hl''.symm
          exact ⟨l, rfl, hshrinks⟩

/-- A change that adds the node `c` to the children of some elements and to the branches of others,
and that drops children at most. -/
structure Gains (t t' : Tree) (c : NodeId) (child branch : NodeId → Prop) : Prop where
  size : t'.size = t.size
  links : ∀ {k : NodeId} {l' : Links}, t'.links? k = some (some l') →
    ∃ l, t.links? k = some (some l) ∧ (∀ d ∈ l'.children, d ∈ l.children ∨ d = c ∧ child k) ∧
      ∀ d ∈ l'.further, d ∈ l.further ∨ d = c ∧ branch k

/-- **Adding an unclaimed node to a single list** keeps branches apart. -/
theorem Apart.gains {c : NodeId} {child branch : NodeId → Prop} (h : t.Apart opened)
    (hgains : Gains t t' c child branch)
    (hfresh : ∀ k, child k ∨ branch k → t.Unclaimed c ∧ c < t.size ∧ c ∉ opened)
    (hapart : ∀ k k', branch k → ¬child k') (honce : ∀ k k', branch k → branch k' → k = k')
    (hascending : ∀ {k : Nat} {l : Links}, t'.links? k = some (some l) →
      (k :: l.further).Pairwise (· < ·)) : t'.Apart opened := by
  refine ⟨?_, ?_, hascending, ?_, ?_⟩
  · intro k l' d hl' hd
    obtain ⟨l, hl, hchildren, hfurther⟩ := hgains.links hl'
    rw [hgains.size]
    rcases hd with hd | hd
    · rcases hchildren d hd with hd | ⟨rfl, hk⟩
      · exact h.inUse hl (.inl hd)
      · exact (hfresh k (.inl hk)).2.1
    · rcases hfurther d hd with hd | ⟨rfl, hk⟩
      · exact h.inUse hl (.inr hd)
      · exact (hfresh k (.inr hk)).2.1
  · intro d hd k l' hl'
    obtain ⟨l, hl, hchildren, hfurther⟩ := hgains.links hl'
    obtain ⟨hnochild, hnofurther⟩ := h.unclaimed d hd k l hl
    constructor
    · intro hmem
      rcases hchildren d hmem with hmem | ⟨rfl, hk⟩
      · exact hnochild hmem
      · exact (hfresh k (.inl hk)).2.2 hd
    · intro hmem
      rcases hfurther d hmem with hmem | ⟨rfl, hk⟩
      · exact hnofurther hmem
      · exact (hfresh k (.inr hk)).2.2 hd
  · intro k k' d l₁ l₂ hl₁ hl₂ hd hchild
    obtain ⟨l, hl, -, hfurther⟩ := hgains.links hl₁
    obtain ⟨l', hl', hchildren, -⟩ := hgains.links hl₂
    rcases hfurther d hd with hd | ⟨rfl, hk⟩
    · rcases hchildren d hchild with hchild | ⟨rfl, hk'⟩
      · exact h.apart hl hl' hd hchild
      · exact ((hfresh k' (.inl hk')).1 k l hl).2 hd
    · rcases hchildren d hchild with hchild | ⟨-, hk'⟩
      · exact ((hfresh k (.inr hk)).1 k' l' hl').1 hchild
      · exact hapart k k' hk hk'
  · intro k k' d l₁ l₂ hl₁ hl₂ hd hd'
    obtain ⟨l, hl, -, hfurther⟩ := hgains.links hl₁
    obtain ⟨l', hl', -, hfurther'⟩ := hgains.links hl₂
    rcases hfurther d hd with hd | ⟨rfl, hk⟩
    · rcases hfurther' d hd' with hd' | ⟨rfl, hk'⟩
      · exact h.once hl hl' hd hd'
      · exact absurd hd ((hfresh k' (.inr hk')).1 k l hl).2
    · rcases hfurther' d hd' with hd' | ⟨-, hk'⟩
      · exact absurd hd' ((hfresh k (.inr hk)).1 k' l' hl').2
      · exact honce k k' hk hk'

/-- Dropping children keeps branches apart. -/
theorem Apart.shrink (h : t.Apart opened) (hs : Shrinks t t' 0 t.size) (hsize : t'.size = t.size) :
    t'.Apart opened := by
  have hgains : Gains t t' 0 (fun _ => False) fun _ => False := by
    refine ⟨hsize, ?_⟩
    intro k l' hl'
    obtain ⟨l, hl, hshrinks⟩ := hs.exists_of_links? hsize hl'
    refine ⟨l, hl, fun d hd => .inl (hshrinks.children.subset hd), fun d hd => .inl ?_⟩
    rwa [hshrinks.further] at hd
  refine h.gains hgains (by simp) (by simp) (by simp) ?_
  intro k l' hl'
  obtain ⟨l, hl, hshrinks⟩ := hs.exists_of_links? hsize hl'
  rw [hshrinks.further]
  exact h.ascending hl

/-- An element that is no longer open is still unclaimed. -/
theorem Apart.pop {id : NodeId} (h : t.Apart (id :: opened)) : t.Apart opened where
  inUse := h.inUse
  unclaimed c hc := h.unclaimed c (List.mem_cons_of_mem id hc)
  ascending := h.ascending
  apart := h.apart
  once := h.once

/-- A node that is added to the table is unclaimed, and refers to nothing. -/
theorem Apart.push (h : t.Apart opened) (n : Node)
    (hn : ∀ l, n.links = some l → l.children = [] ∧ l.further = []) :
    (t.push n).Apart (t.size :: opened) := by
  -- what refers to something was there before
  have hold : ∀ {k : NodeId} {l : Links}, (t.push n).links? k = some (some l) →
      (l.children = [] ∧ l.further = []) ∨ t.links? k = some (some l) := by
    intro k l hl
    rw [links?_push] at hl
    split at hl
    · exact .inl (hn l (Option.some.inj hl))
    · exact .inr hl
  have hinUse : ∀ {k : NodeId} {l : Links} {c : Nat}, (t.push n).links? k = some (some l) →
      c ∈ l.children ∨ c ∈ l.further → t.links? k = some (some l) ∧ c < t.size := by
    intro k l c hl hc
    rcases hold hl with ⟨hchildren, hfurther⟩ | hl'
    · simp [hchildren, hfurther] at hc
    · exact ⟨hl', h.inUse hl' hc⟩
  refine ⟨?_, ?_, ?_, ?_, ?_⟩
  · intro k l c hl hc
    have hlt := (hinUse hl hc).2
    rw [size_push]
    omega
  · intro c hc k l hl
    rcases List.mem_cons.mp hc with rfl | hc
    · constructor
      · intro hmem
        exact absurd (hinUse hl (.inl hmem)).2 (Nat.lt_irrefl _)
      · intro hmem
        exact absurd (hinUse hl (.inr hmem)).2 (Nat.lt_irrefl _)
    · constructor
      · intro hmem
        exact (h.unclaimed c hc k l (hinUse hl (.inl hmem)).1).1 hmem
      · intro hmem
        exact (h.unclaimed c hc k l (hinUse hl (.inr hmem)).1).2 hmem
  · intro k l hl
    rcases hold hl with ⟨-, hfurther⟩ | hl'
    · simp [hfurther]
    · exact h.ascending hl'
  · intro k k' c l l' hl hl' hfurther hchild
    exact h.apart (hinUse hl (.inr hfurther)).1 (hinUse hl' (.inl hchild)).1 hfurther hchild
  · intro k k' c l l' hl hl' hc hc'
    exact h.once (hinUse hl (.inr hc)).1 (hinUse hl' (.inr hc')).1 hc hc'

/-- **An unclaimed node becomes a child.** -/
theorem Apart.addChild (h : t.Apart opened) {parent c : NodeId} {pe : Element}
    (hpe : t.element? parent = some pe) (hc : t.Unclaimed c) (hlt : c < t.size)
    (hopened : c ∉ opened) : (t.addChild parent c).Apart opened := by
  have hnew : ∀ k, (t.addChild parent c).links? k = if k = parent then
      some (some { pe.links with children := pe.links.children ++ [c] }) else t.links? k :=
    links?_modifyElement _ hpe
  have hgains : Gains t (t.addChild parent c) c (· = parent) fun _ => False := by
    refine ⟨by simp [Tree.addChild], ?_⟩
    intro k l' hl'
    rw [hnew] at hl'
    split at hl'
    · rename_i hk
      obtain rfl := Option.some.inj (Option.some.inj hl')
      refine ⟨pe.links, by rw [hk, links?_of_element? hpe], ?_, fun d hd => .inl hd⟩
      intro d hd
      simpa [hk] using hd
    · exact ⟨l', hl', fun d hd => .inl hd, fun d hd => .inl hd⟩
  refine h.gains hgains (fun _ _ => ⟨hc, hlt, hopened⟩) (by simp) (by simp) ?_
  intro k l' hl'
  rw [hnew] at hl'
  split at hl'
  · rename_i hk
    subst hk
    obtain rfl := Option.some.inj (Option.some.inj hl')
    have hascending := h.ascending (links?_of_element? hpe)
    exact hascending
  · exact h.ascending hl'

/-- **An unclaimed node becomes a branch**, behind those that are there. -/
theorem Apart.addFurther (h : t.Apart opened) {first c : Nat} {l : Links}
    (hfirst : t.links? first = some (some l)) (hc : t.Unclaimed c) (hlt : c < t.size)
    (hopened : c ∉ opened) (hbehind : ∀ b : Nat, b ∈ first :: l.further → b < c)
    (hsize : t'.size = t.size) (hnew : ∀ k, t'.links? k = if k = first then
      some (some { l with further := l.further ++ [c] }) else t.links? k) : t'.Apart opened := by
  have hgains : Gains t t' c (fun _ => False) (· = first) := by
    refine ⟨hsize, ?_⟩
    intro k l' hl'
    rw [hnew] at hl'
    split at hl'
    · rename_i hk
      obtain rfl := Option.some.inj (Option.some.inj hl')
      refine ⟨l, by rw [hk, hfirst], fun d hd => .inl hd, ?_⟩
      intro d hd
      simpa [hk] using hd
    · exact ⟨l', hl', fun d hd => .inl hd, fun d hd => .inl hd⟩
  refine h.gains hgains (fun _ _ => ⟨hc, hlt, hopened⟩) (by simp)
    (fun k k' hk hk' => hk.trans hk'.symm) ?_
  intro k l' hl'
  rw [hnew] at hl'
  split at hl'
  · rename_i hk
    subst hk
    obtain rfl := Option.some.inj (Option.some.inj hl')
    rw [← List.cons_append, List.pairwise_append]
    refine ⟨h.ascending hfirst, by simp, ?_⟩
    intro b hb d hd
    rw [List.mem_singleton.mp hd]
    exact hbehind b hb
  · exact h.ascending hl'

/-- The branches of a conditional are in the order of their elements. -/
theorem Apart.pairwise_block (h : t.Apart opened) {k : NodeId} {e : Element}
    (he : t.element? k = some e) (hchain : t.Chain k e) :
    (e.branches.map (·.block)).Pairwise (· < ·) := by
  by_cases hne : e.branches = []
  · simp [hne]
  · rw [hchain.map_block hne]
    exact h.ascending (links?_of_element? he)

/-- The elements of a chain in a forest lie in front of its end. -/
theorem Forest.branches_lt {p : Option NodeId} {lo hi k : Nat} {ids : List NodeId} {e : Element}
    (h : Forest t p lo hi ids) (hk : k ∈ ids) (he : t.element? k = some e) :
    ∀ b : Nat, b ∈ k :: e.links.further → b < hi := by
  intro b hb
  rcases List.mem_cons.mp hb with rfl | hb
  · exact (h.mem_interval b hk).2
  · exact (h.mem_dependents_interval ⟨k, hk, .refl⟩ he (List.mem_append_right _ hb)).2

/-- A finished element becomes a branch of the conditional that starts at an element before it. -/
theorem Apart.withBranch (h : t.Apart opened) {first id : Nat} {fe e : Element}
    (hfirst : t.element? first = some fe) (hchain : t.Chain first fe)
    (hcondition : fe.condition.isSome = true) (hid : t.Unclaimed id) (hlt : id < t.size)
    (hopened : id ∉ opened) (hbehind : ∀ b : Nat, b ∈ first :: fe.links.further → b < id) :
    (t.modifyElement first (Builder.withBranch ⟨e.elseCondition, id⟩)).Apart opened := by
  refine h.addFurther (links?_of_element? hfirst) hid hlt hopened hbehind (by simp) ?_
  intro k
  rw [links?_modifyElement _ hfirst, links_withBranch _ _ (hchain.branches_ne_nil hcondition)]

/-- **Attaching a finished element** keeps branches apart. -/
theorem Apart.attached {id : Nat} {e : Element} (h : t.Apart (id :: opened))
    (hstacked : Stacked t opened id) (hlt : id < t.size) (hroot : t.root = some 0)
    (hchains : ∀ k ek, t.element? k = some ek → t.Chain k ek) (ha : Attached t opened id e t') :
    t'.Apart opened := by
  have hid : t.Unclaimed id := h.unclaimed id List.mem_cons_self
  have hclosed : id ∉ opened := fun hmem => Nat.lt_irrefl id (hstacked.mem_lt id hmem)
  have hdrop : ∀ parent, Shrinks t (t.modifyElement parent (dropLeaves t)) 0 t.size :=
    fun parent => shrinks_modifyElement t parent (fun e _ => shrinks_dropLeaves t e) 0 _
  have hdropped : ∀ parent, (t.modifyElement parent (dropLeaves t)).Apart (id :: opened) :=
    fun parent => h.shrink (hdrop parent) (by simp)
  cases ha with
  | nothing => exact h.pop
  | @child parent rest hparent =>
      subst hparent
      cases hstacked with
      | cons hlinks =>
          obtain ⟨pe, hpe, -⟩ := links?_eq_some_some_iff.mp hlinks
          exact h.pop.addChild hpe hid hlt hclosed
  | orphan => exact (hdropped _).pop
  | @branch parent prev rest pe first hparent _ _ hpe hprev hfirst hcondition =>
      subst hparent
      have hunclaimed := (hdropped parent).unclaimed id List.mem_cons_self
      have hchains' : ∀ k ek, (t.modifyElement parent (dropLeaves t)).element? k = some ek →
          (t.modifyElement parent (dropLeaves t)).Chain k ek :=
        Chained.modifyElement (fun _ _ => ⟨rfl, rfl⟩) hchains
      refine (hdropped parent).pop.withBranch hfirst (hchains' prev first hfirst) hcondition
        hunclaimed (by simpa using hlt) hclosed ?_
      -- what is in the parent already lies in front of the finished element
      have hchildren : (t.modifyElement parent (dropLeaves t)).Forest (some parent) (parent + 1) id
          (dropLeaves t pe).children := by
        have hshrunk := hstacked.shrink (shrinks_modifyElement t parent
          (fun e _ => shrinks_dropLeaves t e) 0 id)
        cases hshrunk with
        | cons hlinks _ _ hforest =>
            rw [links?_modifyElement _ hpe, if_pos rfl] at hlinks
            obtain rfl := Option.some.inj (Option.some.inj hlinks)
            exact hforest
      exact hchildren.branches_lt (List.mem_of_getLast? hprev) hfirst
  | @root root first hnil hroot' hne hfirst hcondition =>
      subst hnil
      obtain rfl : root = 0 := by simpa [hroot] using hroot'.symm
      refine h.pop.withBranch hfirst (hchains 0 first hfirst) hcondition hid hlt hclosed ?_
      have hpos : 0 < id := Nat.pos_of_ne_zero fun hzero => hne hzero.symm
      exact (hstacked.forest hpos).1.branches_lt (by simp) hfirst

end Tree

/-! ### Builders -/

namespace Build.Builder

/-- A leaf becomes a child as soon as it is there. -/
theorem apart_append {src : Source} {b : Builder} {parent : NodeId} {rest : List NodeId}
    {n : Node} (hopened : b.opened = parent :: rest) (hn : b.Admits src n) (hb : b.Ordered)
    (h : b.tree.Apart b.opened) : (b.append parent n).tree.Apart b.opened := by
  have hpush : (b.tree.push n).Apart (b.tree.size :: b.opened) := by
    refine h.push n ?_
    intro l hl
    cases n with
    | element => exact hn.elim
    | expression => cases hl
    | text => cases hl
  have hstacked := hb.stacked
  have hlt := hstacked.mem_lt
  rw [hopened] at hstacked
  cases hstacked with
  | cons hlinks =>
      obtain ⟨pe, hpe, -⟩ := Tree.links?_eq_some_some_iff.mp hlinks
      have hpe' : (b.tree.push n).element? parent = some pe := by
        have hne : parent ≠ b.tree.size := Nat.ne_of_lt (hlt parent (by simp [hopened]))
        rw [Tree.element?_push, if_neg hne, hpe]
      exact hpush.pop.addChild hpe' (hpush.unclaimed _ List.mem_cons_self) (by simp)
        fun hmem => Nat.lt_irrefl _ (hlt _ hmem)

/-- An element that is opened refers to nothing yet. -/
theorem apart_enter {b : Builder} (src : Source) (tag : String)
    (attributes : List Markup.Attribute) (start stop : Nat) (h : b.tree.Apart b.opened) :
    (b.enter src (b.created src tag attributes start stop)).tree.Apart
      (b.enter src (b.created src tag attributes start stop)).opened := by
  obtain ⟨_, _, _, _, _, _, _, branches, hcreated, -, hbranches⟩ :=
    unopened_created src b tag attributes start stop
  generalize b.created src tag attributes start stop = e at hcreated
  have hchildren : e.children = [] := (congrArg Element.children hcreated :)
  have hfurther : e.branches = branches := (congrArg Element.branches hcreated :)
  have hpush : (b.tree.push (.element e)).Apart (b.tree.size :: b.opened) := by
    refine h.push (.element e) ?_
    intro l hl
    cases hl
    exact ⟨hchildren, by simp [Element.links, hfurther, hbranches]⟩
  exact ⟨hpush.inUse, hpush.unclaimed, hpush.ascending, hpush.apart, hpush.once⟩

/-- **Finishing an element** makes it a child or a branch at most. -/
theorem apart_finishElement {b : Builder} {id : NodeId} {rest : List NodeId} (src : Source)
    (hopened : b.opened = id :: rest) (hb : b.Ordered) (hchained : b.Chained)
    (h : b.tree.Apart b.opened) :
    ({ b with opened := rest }.finishElement src id).tree.Apart
      ({ b with opened := rest }.finishElement src id).opened := by
  have hstacked := hb.stacked
  rw [hopened] at hstacked h
  have hlt := hstacked.lt
  have hroot := hb.root_eq hopened
  cases hstacked with
  | cons hlinks _ _ _ houter =>
      obtain ⟨e, he, -⟩ := Tree.links?_eq_some_some_iff.mp hlinks
      obtain ⟨t, hfinished⟩ := finished_finishElement src { b with opened := rest } he
      have hs := Tree.shrinks_completed src { b with opened := rest } he
      have hcompleted := h.shrink (hs 0 b.tree.size) (by simp)
      have hchained' : Chained { b with opened := rest } := hchained
      have hattached := hcompleted.attached (houter.shrink (hs 0 id)) (by simpa using hlt) hroot
        (hchained'.completed src he) hfinished.attached
      rw [hfinished.tree, hfinished.opened]
      exact hattached.shrink
        (Tree.shrinks_modifyElement t id (fun e _ => Tree.shrinks_trimmed _ e) 0 _) (by simp)

/-- **Every event keeps branches apart.** -/
theorem invariant_apart (src : Source) :
    Invariant src fun b => b.Ordered ∧ b.Chained ∧ b.tree.Apart b.opened where
  init := by
    refine ⟨Ordered.init, Chained.init, ?_⟩
    constructor <;> simp [Tree.links?, Tree.node?]
  agrees hagrees h := by
    refine ⟨h.1.agrees hagrees, (invariant_chained src).agrees hagrees h.2.1, ?_⟩
    rw [hagrees.tree, hagrees.opened]
    exact h.2.2
  leaf hopened hn h := ⟨h.1.leaf hopened hn, h.2.1.leaf hn, apart_append hopened hn h.1 h.2.2⟩
  enter tag attributes start stop h :=
    ⟨h.1.enter src tag attributes start stop, h.2.1.enter src tag attributes start stop,
      apart_enter src tag attributes start stop h.2.2⟩
  stop id stop h := by
    refine ⟨h.1.stop id stop, h.2.1.stop id stop, h.2.2.shrink ?_ (by simp)⟩
    exact Tree.shrinks_modifyElement _ id (f := fun e => { e with stop := some stop })
      (fun e _ => Links.Shrinks.refl e.links) 0 _
  finish hopened h :=
    ⟨h.1.finish src hopened, h.2.1.finish src, apart_finishElement src hopened h.1 h.2.1 h.2.2⟩

end Build.Builder

/-! ### Templates -/

namespace Build

/-- The table of a template keeps branches apart. -/
theorem apart_of_parse {settings : Settings} {template : String} {parsed : Parsed}
    (h : parse settings template = .ok parsed) : parsed.tree.Apart [] := by
  obtain ⟨b, ⟨-, -, hb⟩, htree⟩ := Builder.Invariant.of_parse invariant_apart h
  rw [← htree]
  exact ⟨hb.inUse, by simp, hb.ascending, hb.apart, hb.once⟩

/-- **The conditionals of a template**: an element has branches when it has a condition.  The first
branch is the element itself.  Each further one is an element with `v-else` or `v-else-if` that
comes later than the branch before it, has no condition and no branches of its own, and is no child
and no branch of another conditional. -/
theorem exists_parse_branches (settings : Settings) (template : String)
    (hdelimiters : ∀ opening closing, settings.customDelimiters = some (opening, closing) →
      opening ≠ "" ∧ closing ≠ "") :
    ∃ parsed, parse settings template = .ok parsed ∧
      ∀ id e, parsed.tree.element? id = some e →
        (e.branches ≠ [] ↔ e.condition.isSome = true) ∧
        (∀ exp, e.condition = some exp → e.branches.head? = some ⟨some exp, id⟩) ∧
        (e.branches.map (·.block)).Pairwise (· < ·) ∧
        ∀ branch ∈ e.branches.drop 1, ∃ eb, parsed.tree.element? branch.block = some eb ∧
          eb.condition = none ∧ eb.branches = [] ∧
          (eb.elseCondition.isSome = true ∨ eb.isElse = true) ∧
          branch.condition = eb.elseCondition ∧
          ∀ k ek, parsed.tree.element? k = some ek → branch.block ∉ ek.children ∧
            (branch.block ∈ ek.branches.map (·.block) → k = id) := by
  obtain ⟨parsed, hparsed⟩ := exists_parse settings template hdelimiters
  refine ⟨parsed, hparsed, ?_⟩
  have hapart := apart_of_parse hparsed
  intro id e he
  have hchain := chain_of_parse hparsed he
  refine ⟨⟨?_, hchain.branches_ne_nil⟩, ?_, ?_, ?_⟩
  · intro hne
    cases hcondition : e.condition with
    | none => exact absurd (hchain.branches_eq_nil hcondition) hne
    | some exp => rfl
  · intro exp hexp
    rw [hchain.head, hexp]
    rfl
  · exact hapart.pairwise_block he hchain
  · intro branch hbranch
    obtain ⟨eb, heb, hnone, hexp, helse⟩ := hchain.further branch hbranch
    have hempty := (chain_of_parse hparsed heb).branches_eq_nil hnone
    have hmem : branch.block ∈ e.links.further := List.mem_map_of_mem hbranch
    refine ⟨eb, heb, hnone, hempty, by simpa using helse, hexp, ?_⟩
    intro k ek hek
    refine ⟨hapart.apart (Tree.links?_of_element? he) (Tree.links?_of_element? hek) hmem, ?_⟩
    intro hblock
    have hne : ek.branches ≠ [] := by
      intro hnil
      simp [hnil] at hblock
    rw [(chain_of_parse hparsed hek).map_block hne] at hblock
    rcases List.mem_cons.mp hblock with heq | hfurther
    · -- the branch would start the other chain itself
      rw [heq, hek] at heb
      cases heb
      exact absurd hempty hne
    · exact hapart.once (Tree.links?_of_element? hek) (Tree.links?_of_element? he) hfurther hmem

/-- A conditional at the root, with another one inside of its branch. -/
theorem exists_parse_branches_nested :
    ∃ parsed e, parse Settings.web
        "<p v-if=\"a\">x</p><div v-else><i v-if=\"b\"/><b v-else-if=\"c\"/></div>" = .ok parsed ∧
      parsed.tree.element? 0 = some e ∧ e.branches = [⟨some "a", 0⟩, ⟨none, 2⟩] ∧
      ∃ eb, parsed.tree.element? 2 = some eb ∧ eb.branches = [] ∧
        ∀ k ek, parsed.tree.element? k = some ek → 2 ∉ ek.children ∧
          (2 ∈ ek.branches.map (·.block) → k = 0) := by
  obtain ⟨parsed, hparsed, hbranches⟩ := exists_parse_branches Settings.web
    "<p v-if=\"a\">x</p><div v-else><i v-if=\"b\"/><b v-else-if=\"c\"/></div>"
    (by simp [Settings.web])
  have hcheck : (Except.ok parsed : Except CompileError Parsed).toOption.any (fun parsed =>
      (parsed.tree.element? 0).any (·.branches = [⟨some "a", 0⟩, ⟨none, 2⟩])) := by
    rw [← hparsed]
    decide +kernel
  obtain ⟨e, he, hlist⟩ := (Option.any_eq_true _ (parsed.tree.element? 0)).mp hcheck
  have hlist : e.branches = [⟨some "a", 0⟩, ⟨none, 2⟩] := of_decide_eq_true hlist
  obtain ⟨-, -, -, hfurther⟩ := hbranches 0 e he
  obtain ⟨eb, heb, -, hempty, -, -, honce⟩ := hfurther ⟨none, 2⟩ (by simp [hlist])
  exact ⟨parsed, e, hparsed, he, hlist, eb, heb, hempty, honce⟩

end Build

end Templating
