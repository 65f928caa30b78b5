import Templating.Proofs.Tree.Forest
import Templating.Static.Marking

/-!
**Where the links of a tree lead.**

A pass over a tree follows the links of some elements and stops at others.  What it meets is said
by a relation that depends on where an element leads.  In a forest every node that is met has a
single place where it is met from, since what lies below different nodes has different numbers.

Main definitions:

* `Templating.Tree.Reach`, `Templating.Tree.Reaches` — the nodes that are met from a node and from a
  list of nodes;
* `Templating.Tree.Precedes` — the order of what lies below two nodes.

Main results:

* `Templating.Tree.reach_iff_of_element`, `Templating.Tree.reach_iff_of_leaf` — one step of what is
  met;
* `Templating.Tree.Forest.reaches_interval`, `Templating.Tree.Forest.exists_of_reaches` — what is
  met from a forest is there and lies in its interval;
* `Templating.Tree.Forest.eq_of_mem_dependents` — **no node is met from two places**;
* `Templating.Tree.Forest.pairwise_dependents` — what an element leads to comes behind it, in order.
-/

set_option autoImplicit false

namespace Templating.Tree

open Static (dependents)

/-! ### What is met -/

/-- The nodes that are met from a node on, itself included, when `next` says where an element
leads. -/
inductive Reach (t : Tree) (next : Element → List NodeId) (top : NodeId) : NodeId → Prop
  | refl : Reach t next top top
  | step {id c : NodeId} {e : Element} (h : Reach t next top id) (he : t.element? id = some e)
      (hc : c ∈ next e) : Reach t next top c

/-- The nodes that are met from one of several nodes on. -/
def Reaches (t : Tree) (next : Element → List NodeId) (ids : List NodeId) (k : NodeId) : Prop :=
  ∃ id ∈ ids, t.Reach next id k

/-- What lies below a node comes before what lies below another one. -/
def Precedes (t : Tree) (a b : NodeId) : Prop :=
  ∀ k k' : Nat, t.Reach dependents a k → t.Reach dependents b k' → k < k'

variable {t t' : Tree} {next next' : Element → List NodeId} {top id k : NodeId} {e : Element}

theorem Reach.trans (h : t.Reach next top id) (h' : t.Reach next id k) : t.Reach next top k := by
  induction h' with
  | refl => exact h
  | step _ he hc ih => exact .step ih he hc

/-- What is met from an element: itself, and what is met from where it leads. -/
theorem reach_iff_of_element (he : t.element? id = some e) :
    t.Reach next id k ↔ k = id ∨ t.Reaches next (next e) k := by
  constructor
  · intro h
    induction h with
    | refl => exact .inl rfl
    | step _ he' hc ih =>
        refine .inr ?_
        rcases ih with rfl | ⟨c, hmem, hreach⟩
        · obtain rfl : e = _ := by simpa [he] using he'
          exact ⟨_, hc, .refl⟩
        · exact ⟨c, hmem, hreach.step he' hc⟩
  · rintro (rfl | ⟨c, hmem, hreach⟩)
    · exact .refl
    · exact (Reach.refl.step he hmem).trans hreach

/-- A node that is no element leads nowhere. -/
theorem reach_iff_of_leaf (h : t.element? id = none) : t.Reach next id k ↔ k = id := by
  constructor
  · intro hreach
    induction hreach with
    | refl => rfl
    | step _ he _ ih =>
        rw [ih, h] at he
        cases he
  · rintro rfl
    exact .refl

theorem element?_of_links? (h : t.links? id = some none) : t.element? id = none := by
  cases he : t.element? id with
  | none => rfl
  | some e =>
      rw [links?_of_element? he] at h
      cases h

theorem not_reaches_nil : ¬t.Reaches next [] k := by
  rintro ⟨id, hid, -⟩
  cases hid

theorem reaches_cons {ids : List NodeId} :
    t.Reaches next (id :: ids) k ↔ t.Reach next id k ∨ t.Reaches next ids k := by
  simp [Reaches]

theorem reaches_append {ids ids' : List NodeId} :
    t.Reaches next (ids ++ ids') k ↔ t.Reaches next ids k ∨ t.Reaches next ids' k := by
  simp [Reaches, or_and_right, exists_or]

theorem reaches_singleton : t.Reaches next [id] k ↔ t.Reach next id k := by
  simp [Reaches]

/-- What lies below nodes that come behind others does not lie below those. -/
theorem not_reaches_of_precedes {ids ids' : List NodeId}
    (h : ∀ a ∈ ids, ∀ b ∈ ids', t.Precedes a b) (hk : t.Reaches dependents ids' k) :
    ¬t.Reaches dependents ids k := by
  obtain ⟨b, hb, hbelow⟩ := hk
  rintro ⟨a, ha, habove⟩
  exact Nat.lt_irrefl k (h a ha b hb k k habove hbelow)

theorem not_reach_of_precedes {ids : List NodeId} (h : ∀ b ∈ ids, t.Precedes id b)
    (hk : t.Reaches dependents ids k) : ¬t.Reach dependents id k := by
  rw [← reaches_singleton]
  exact not_reaches_of_precedes (by simpa using h) hk

/-- Whoever is led further meets more. -/
theorem Reach.mono (hnext : ∀ e, next e ⊆ next' e) (h : t.Reach next top k) :
    t.Reach next' top k := by
  induction h with
  | refl => exact .refl
  | step _ he hc ih => exact .step ih he (hnext _ hc)

/-- The same is met in trees whose elements lead to the same places. -/
theorem Reach.congr (hnext : ∀ id e, t.element? id = some e →
    ∃ e', t'.element? id = some e' ∧ next' e' = next e) (h : t.Reach next top k) :
    t'.Reach next' top k := by
  induction h with
  | refl => exact .refl
  | step _ he hc ih =>
      obtain ⟨e', he', hsame⟩ := hnext _ _ he
      exact .step ih he' (hsame ▸ hc)

/-! ### Forests -/

namespace Forest

variable {p : Option NodeId} {lo hi : Nat} {ids : List NodeId}

/-- What is met from a forest lies in its interval. -/
theorem reaches_interval (h : Forest t p lo hi ids) :
    ∀ k : Nat, t.Reaches dependents ids k → lo ≤ k ∧ k < hi := by
  induction h with
  | nil => exact fun k hk => absurd hk not_reaches_nil
  | leaf hlinks hlo h ih =>
      intro k hk
      have hle := h.le
      rcases reaches_cons.mp hk with hk | hk
      · rw [reach_iff_of_leaf (element?_of_links? hlinks)] at hk
        subst hk
        exact ⟨hlo, hle⟩
      · have := ih k hk
        omega
  | element hlinks _ hlo hchildren _ hfurther h ih₁ ih₂ ih₃ =>
      intro k hk
      have hle₁ := hchildren.le
      have hle₂ := hfurther.le
      have hle₃ := h.le
      obtain ⟨e, he, rfl⟩ := links?_eq_some_some_iff.mp hlinks
      rw [reaches_cons, reach_iff_of_element he, dependents, reaches_append] at hk
      rcases hk with (rfl | hk | hk) | hk
      · omega
      · have := ih₁ k hk
        omega
      · have := ih₂ k hk
        omega
      · have := ih₃ k hk
        omega

/-- What is met from a forest is there. -/
theorem exists_of_reaches (h : Forest t p lo hi ids) :
    ∀ k, t.Reaches dependents ids k → ∃ n, t.node? k = some n := by
  induction h with
  | nil => exact fun k hk => absurd hk not_reaches_nil
  | leaf hlinks _ _ ih =>
      intro k hk
      rw [reaches_cons, reach_iff_of_leaf (element?_of_links? hlinks)] at hk
      rcases hk with rfl | hk
      · obtain ⟨n, hn, -⟩ := Option.map_eq_some_iff.mp hlinks
        exact ⟨n, hn⟩
      · exact ih k hk
  | element hlinks _ _ _ _ _ _ ih₁ ih₂ ih₃ =>
      intro k hk
      obtain ⟨e, he, rfl⟩ := links?_eq_some_some_iff.mp hlinks
      rw [reaches_cons, reach_iff_of_element he, dependents, reaches_append] at hk
      rcases hk with (rfl | hk | hk) | hk
      · exact ⟨_, node?_of_element? he⟩
      · exact ih₁ k hk
      · exact ih₂ k hk
      · exact ih₃ k hk

/-- Where an element leads lies in the interval of its forest. -/
theorem mem_dependents_interval (h : Forest t p lo hi ids) {c : Nat}
    (hid : t.Reaches dependents ids id) (he : t.element? id = some e) (hc : c ∈ dependents e) :
    lo ≤ c ∧ c < hi := by
  obtain ⟨top, htop, hreach⟩ := hid
  exact h.reaches_interval c ⟨top, htop, hreach.step he hc⟩

/-- No element of a forest leads to where the forest starts. -/
theorem not_mem_of_mem_dependents (h : Forest t p lo hi ids) : ∀ (id : NodeId) (e : Element)
    (c : Nat), t.Reaches dependents ids id → t.element? id = some e → c ∈ dependents e →
    c ∉ ids := by
  induction h with
  | nil => exact fun id e c hid => absurd hid not_reaches_nil
  | leaf hlinks hlo h ih =>
      intro id e c hid he hc
      rcases reaches_cons.mp hid with hid | hid
      · have hnone := element?_of_links? hlinks
        rw [reach_iff_of_leaf hnone] at hid
        rw [hid, hnone] at he
        cases he
      · have hmem := h.mem_dependents_interval hid he hc
        rw [List.mem_cons, not_or]
        exact ⟨by omega, ih id e c hid he hc⟩
  | @element p lo mid₁ mid₂ hi top ids l hlinks _ hlo hchildren _ hfurther h ih₁ ih₂ ih₃ =>
      intro id e c hid he hc
      have hle₁ := hchildren.le
      have hle₂ := hfurther.le
      obtain ⟨etop, hetop, rfl⟩ := links?_eq_some_some_iff.mp hlinks
      -- numbers between the first node and the others are no starting points
      have hbetween : c ≠ top → c < mid₂ → c ∉ top :: ids := by
        intro hne hlt hmem
        rcases List.mem_cons.mp hmem with rfl | hmem
        · exact hne rfl
        · have := (h.mem_interval c hmem).1
          omega
      rw [reaches_cons, reach_iff_of_element hetop, dependents, reaches_append] at hid
      rcases hid with (rfl | hid | hid) | hid
      · obtain rfl : etop = e := by simpa [hetop] using he
        rcases List.mem_append.mp hc with hc | hc
        · have := hchildren.mem_interval c hc
          exact hbetween (by omega) (by omega)
        · have := hfurther.mem_interval c hc
          exact hbetween (by omega) (by omega)
      · have := hchildren.mem_dependents_interval hid he hc
        exact hbetween (by omega) (by omega)
      · have := hfurther.mem_dependents_interval hid he hc
        exact hbetween (by omega) (by omega)
      · have hmem := h.mem_dependents_interval hid he hc
        rw [List.mem_cons, not_or]
        exact ⟨by omega, ih₃ id e c hid he hc⟩

/-- **No node is met from two places.** -/
theorem eq_of_mem_dependents (h : Forest t p lo hi ids) : ∀ (id id' : NodeId) (e e' : Element)
    (c : Nat), t.Reaches dependents ids id → t.Reaches dependents ids id' →
    t.element? id = some e → t.element? id' = some e' → c ∈ dependents e → c ∈ dependents e' →
    id = id' := by
  induction h with
  | nil => exact fun id id' e e' c hid => absurd hid not_reaches_nil
  | leaf hlinks hlo h ih =>
      intro id id' e e' c hid hid' he he' hc hc'
      have hnone := element?_of_links? hlinks
      rw [reaches_cons, reach_iff_of_leaf hnone] at hid hid'
      rcases hid with rfl | hid
      · rw [hnone] at he
        cases he
      · rcases hid' with rfl | hid'
        · rw [hnone] at he'
          cases he'
        · exact ih id id' e e' c hid hid' he he' hc hc'
  | @element p lo mid₁ mid₂ hi top ids l hlinks _ hlo hchildren _ hfurther h ih₁ ih₂ ih₃ =>
      intro id id' e e' c hid hid' he he' hc hc'
      have hle₁ := hchildren.le
      have hle₂ := hfurther.le
      obtain ⟨etop, hetop, rfl⟩ := links?_eq_some_some_iff.mp hlinks
      change Forest t (some top) (top + 1) mid₁ etop.children at hchildren
      -- where a node is met from: the interval that it lies in tells
      have hplace : ∀ (k : NodeId) (ek : Element), t.Reaches dependents (top :: ids) k →
          t.element? k = some ek → c ∈ dependents ek →
          (c < mid₁ ∧ (k = top ∧ c ∈ etop.children ∨ t.Reaches dependents etop.children k)) ∨
          (mid₁ ≤ c ∧ c < mid₂ ∧
            (k = top ∧ c ∈ etop.links.further ∨ t.Reaches dependents etop.links.further k)) ∨
          (mid₂ ≤ c ∧ t.Reaches dependents ids k) := by
        intro k ek hk hek hck
        rw [reaches_cons, reach_iff_of_element hetop, dependents, reaches_append] at hk
        rcases hk with (rfl | hk | hk) | hk
        · obtain rfl : etop = ek := by simpa [hetop] using hek
          rcases List.mem_append.mp hck with hck | hck
          · exact .inl ⟨(hchildren.mem_interval c hck).2, .inl ⟨rfl, hck⟩⟩
          · obtain ⟨hlow, hhigh⟩ := hfurther.mem_interval c hck
            exact .inr (.inl ⟨hlow, hhigh, .inl ⟨rfl, hck⟩⟩)
        · exact .inl ⟨(hchildren.mem_dependents_interval hk hek hck).2, .inr hk⟩
        · obtain ⟨hlow, hhigh⟩ := hfurther.mem_dependents_interval hk hek hck
          exact .inr (.inl ⟨hlow, hhigh, .inr hk⟩)
        · exact .inr (.inr ⟨(h.mem_dependents_interval hk hek hck).1, hk⟩)
      rcases hplace id e hid he hc with ⟨hlt, hcase⟩ | ⟨hge, hlt, hcase⟩ | ⟨hge, hcase⟩ <;>
        rcases hplace id' e' hid' he' hc' with
          ⟨hlt', hcase'⟩ | ⟨hge', hlt', hcase'⟩ | ⟨hge', hcase'⟩ <;> try omega
      · rcases hcase with ⟨rfl, hmem⟩ | hcase <;> rcases hcase' with ⟨rfl, hmem'⟩ | hcase'
        · rfl
        · exact absurd hmem (hchildren.not_mem_of_mem_dependents id' e' c hcase' he' hc')
        · exact absurd hmem' (hchildren.not_mem_of_mem_dependents id e c hcase he hc)
        · exact ih₁ id id' e e' c hcase hcase' he he' hc hc'
      · rcases hcase with ⟨rfl, hmem⟩ | hcase <;> rcases hcase' with ⟨rfl, hmem'⟩ | hcase'
        · rfl
        · exact absurd hmem (hfurther.not_mem_of_mem_dependents id' e' c hcase' he' hc')
        · exact absurd hmem' (hfurther.not_mem_of_mem_dependents id e c hcase he hc)
        · exact ih₂ id id' e e' c hcase hcase' he he' hc hc'
      · exact ih₃ id id' e e' c hcase hcase' he he' hc hc'

/-- **Below an element** of a forest there are two forests, that of its children and behind it that
of its further branches. -/
theorem exists_below (h : Forest t p lo hi ids) : ∀ (k : Nat) (e : Element),
    t.Reaches dependents ids k → t.element? k = some e →
    ∃ mid₁ mid₂ p', mid₂ ≤ hi ∧ Forest t (some k) (k + 1) mid₁ e.children ∧
      Forest t p' mid₁ mid₂ e.links.further := by
  induction h with
  | nil => exact fun k e hk => absurd hk not_reaches_nil
  | leaf hlinks _ h ih =>
      intro k e hk he
      rcases reaches_cons.mp hk with hk | hk
      · have hnone := element?_of_links? hlinks
        rw [reach_iff_of_leaf hnone] at hk
        rw [hk, hnone] at he
        cases he
      · exact ih k e hk he
  | @element p lo mid₁ mid₂ hi top ids l hlinks _ hlo hchildren _ hfurther h ih₁ ih₂ ih₃ =>
      intro k e hk he
      have hle₁ := hchildren.le
      have hle₂ := hfurther.le
      have hle₃ := h.le
      obtain ⟨etop, hetop, rfl⟩ := links?_eq_some_some_iff.mp hlinks
      rw [reaches_cons, reach_iff_of_element hetop, dependents, reaches_append] at hk
      rcases hk with (rfl | hk | hk) | hk
      · obtain rfl : etop = e := by simpa [hetop] using he
        exact ⟨mid₁, mid₂, p, by omega, hchildren, hfurther⟩
      · obtain ⟨m₁, m₂, p', hle, hbelow⟩ := ih₁ k e hk he
        exact ⟨m₁, m₂, p', by omega, hbelow⟩
      · obtain ⟨m₁, m₂, p', hle, hbelow⟩ := ih₂ k e hk he
        exact ⟨m₁, m₂, p', by omega, hbelow⟩
      · exact ih₃ k e hk he

/-- What is met from the nodes of a forest comes one after another. -/
theorem pairwise_reach (h : Forest t p lo hi ids) : ids.Pairwise t.Precedes := by
  induction h with
  | nil => exact .nil
  | leaf hlinks _ h ih =>
      refine .cons (fun b hb k k' hk hk' => ?_) ih
      rw [reach_iff_of_leaf (element?_of_links? hlinks)] at hk
      have hmem := h.reaches_interval k' ⟨b, hb, hk'⟩
      rw [hk]
      exact hmem.1
  | @element p lo mid₁ mid₂ hi top ids l hlinks hparent hlo hchildren hbranches hfurther h _ _ ih =>
      refine .cons (fun b hb k k' hk hk' => ?_) ih
      have hmem := h.reaches_interval k' ⟨b, hb, hk'⟩
      have hnone : Forest t p mid₂ mid₂ [] := .nil le_rfl
      have hfirst : Forest t p lo mid₂ [top] :=
        .element hlinks hparent hlo hchildren hbranches hfurther hnone
      have hbound := hfirst.reaches_interval k (reaches_singleton.mpr hk)
      omega

/-- An element leads to what comes behind it, in order. -/
theorem pairwise_dependents (h : Forest t p lo hi ids) {k : Nat} {e : Element}
    (hk : t.Reaches dependents ids k) (he : t.element? k = some e) :
    (∀ k' : Nat, t.Reaches dependents (dependents e) k' → k < k') ∧
      (dependents e).Pairwise t.Precedes := by
  obtain ⟨mid₁, mid₂, p', -, hchildren, hfurther⟩ := h.exists_below k e hk he
  have hle := hchildren.le
  refine ⟨fun k' hk' => ?_, List.pairwise_append.mpr ⟨hchildren.pairwise_reach,
    hfurther.pairwise_reach, fun a ha b hb j j' hj hj' => ?_⟩⟩
  · rcases reaches_append.mp hk' with hk' | hk'
    · exact (hchildren.reaches_interval k' hk').1
    · have := hfurther.reaches_interval k' hk'
      omega
  · have := hchildren.reaches_interval j ⟨a, ha, hj⟩
    have := hfurther.reaches_interval j' ⟨b, hb, hj'⟩
    omega

end Forest

end Templating.Tree
