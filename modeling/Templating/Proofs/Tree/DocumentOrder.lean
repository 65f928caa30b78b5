import Templating.Proofs.Tree.Forest
import Templating.Tree.Walk

/-!
**Trees in document order.**

A walk from the root of a tree meets every node that it reaches once, in the order of the template,
and parents and children agree about each other.  A tree whose root is a forest of its own is such a
tree.

Main definitions:

* `Templating.Visit.met?`, `Templating.Tree.visited` — the numbers that a walk meets, in order;
* `Templating.Tree.InDocumentOrder` — walking the tree meets increasing numbers, and the parents of
  what it meets are right.

Main results:

* `Templating.Tree.Forest.increasingIn` — **a walk meets the numbers of a forest in increasing
  order**;
* `Templating.Tree.Forest.walk_congr` — it does not depend on what bounds it;
* `Templating.Tree.Forest.inDocumentOrder` — a tree whose root is a forest is in document order.
-/

set_option autoImplicit false

namespace Templating

namespace Tree

/-! ### Walks -/

/-- Increasing numbers from `lo` on and below `hi`. -/
def IncreasingIn (lo hi : Nat) (ids : List Nat) : Prop :=
  ids.Pairwise (· < ·) ∧ ∀ id ∈ ids, lo ≤ id ∧ id < hi

theorem IncreasingIn.nil (lo hi : Nat) : IncreasingIn lo hi [] := by
  simp [IncreasingIn]

theorem IncreasingIn.append {lo mid hi : Nat} {a b : List Nat} (ha : IncreasingIn lo mid a)
    (hb : IncreasingIn mid hi b) (hlo : lo ≤ mid) (hhi : mid ≤ hi) :
    IncreasingIn lo hi (a ++ b) := by
  refine ⟨List.pairwise_append.mpr ⟨ha.1, hb.1, fun x hx y hy => ?_⟩, fun x hx => ?_⟩
  · have := ha.2 x hx
    have := hb.2 y hy
    omega
  · rcases List.mem_append.mp hx with hx | hx
    · have := ha.2 x hx
      omega
    · have := hb.2 x hx
      omega

theorem IncreasingIn.cons {lo mid hi id : Nat} {ids : List Nat} (h : IncreasingIn mid hi ids)
    (hlo : lo ≤ id) (hmid : id < mid) (hhi : mid ≤ hi) : IncreasingIn lo hi (id :: ids) := by
  have hone : IncreasingIn lo mid [id] := by
    simp only [IncreasingIn, List.pairwise_singleton, List.mem_singleton, forall_eq, true_and]
    omega
  exact hone.append h (by omega) hhi

end Tree

/-- The number that a step of a walk meets for the first time. -/
def Visit.met? : Visit → Option NodeId
  | enter id _ => some id
  | leave _ _ => none
  | expression id _ => some id
  | text id _ => some id
  | missing id => some id

namespace Tree

/-- The numbers that a walk from the root meets, in the order in which it meets them. -/
def visited (t : Tree) : List NodeId := (t.walk fun _ => true).filterMap Visit.met?

theorem walkFuel_of_leaf {t : Tree} {id : NodeId} (descend : Element → Bool) (fuel : Nat)
    (h : t.links? id = some none) :
    ∃ v, t.walkFuel descend (fuel + 1) id = [v] ∧ v.met? = some id := by
  simp only [links?] at h
  cases hn : t.node? id with
  | none => simp [hn] at h
  | some n =>
      cases n with
      | element e => simp [hn, Node.links] at h
      | expression n => exact ⟨.expression id n, by simp [walkFuel, hn], rfl⟩
      | text n => exact ⟨.text id n, by simp [walkFuel, hn], rfl⟩

theorem walkFuel_of_element {t : Tree} {id : NodeId} {e : Element} (descend : Element → Bool)
    (fuel : Nat) (h : t.element? id = some e) :
    t.walkFuel descend (fuel + 1) id =
      .enter id e ::
        (if descend e then e.children.flatMap (t.walkFuel descend fuel) else []) ++
        .leave id e :: e.links.further.flatMap (t.walkFuel descend fuel) := by
  simp only [walkFuel, node?_of_element? h, Element.links, List.flatMap_map]

namespace Forest

variable {t : Tree} {p : Option NodeId} {lo hi : Nat} {ids : List NodeId}

/-- **A walk meets the numbers of a forest in increasing order.** -/
theorem increasingIn (h : Forest t p lo hi ids) : ∀ fuel, hi ≤ lo + fuel →
    IncreasingIn lo hi ((ids.flatMap (t.walkFuel (fun _ => true) fuel)).filterMap Visit.met?) := by
  induction h with
  | nil => intro fuel _; exact IncreasingIn.nil _ _
  | @leaf p lo hi id ids hlinks hlo h ih =>
      intro fuel hfuel
      have hle := h.le
      obtain ⟨f, rfl⟩ : ∃ f, fuel = f + 1 := ⟨fuel - 1, by omega⟩
      obtain ⟨v, hv, hmet⟩ := walkFuel_of_leaf (fun _ => true) f hlinks
      rw [List.flatMap_cons, hv, List.filterMap_append, List.filterMap_cons, hmet]
      exact (ih (f + 1) (by omega)).cons hlo (by omega) hle
  | @element p lo mid₁ mid₂ hi id ids l hlinks _ hlo hchildren _ hfurther h ih₁ ih₂ ih₃ =>
      intro fuel hfuel
      have hle₁ := hchildren.le
      have hle₂ := hfurther.le
      have hle₃ := h.le
      obtain ⟨f, rfl⟩ : ∃ f, fuel = f + 1 := ⟨fuel - 1, by omega⟩
      obtain ⟨e, he, rfl⟩ := links?_eq_some_some_iff.mp hlinks
      -- one step of the bound is spent on the element, whose number nothing inside it has
      have hinside := ih₁ f (by omega)
      have hbeside := ih₂ f (by omega)
      have hafter := ih₃ (f + 1) (by omega)
      rw [List.flatMap_cons, walkFuel_of_element _ f he]
      simp only [if_true, List.cons_append, List.filterMap_append, List.filterMap_cons, Visit.met?,
        List.append_assoc]
      exact (hinside.append (hbeside.append hafter hle₂ hle₃) hle₁ (by omega)).cons hlo (by omega)
        (by omega)

/-- A walk through a forest does not depend on what bounds it. -/
theorem walk_congr (h : Forest t p lo hi ids) (descend : Element → Bool) : ∀ f g,
    hi ≤ lo + f → hi ≤ lo + g →
    ids.flatMap (t.walkFuel descend f) = ids.flatMap (t.walkFuel descend g) := by
  induction h with
  | nil => intro f g _ _; rfl
  | @leaf p lo hi id ids hlinks hlo h ih =>
      intro f g hf hg
      have hle := h.le
      obtain ⟨f, rfl⟩ : ∃ f', f = f' + 1 := ⟨f - 1, by omega⟩
      obtain ⟨g, rfl⟩ : ∃ g', g = g' + 1 := ⟨g - 1, by omega⟩
      have hhead : t.walkFuel descend (f + 1) id = t.walkFuel descend (g + 1) id := by
        simp only [walkFuel]
        cases hn : t.node? id with
        | none => rfl
        | some n => cases n <;> simp_all [links?, Node.links]
      rw [List.flatMap_cons, List.flatMap_cons, hhead, ih (f + 1) (g + 1) (by omega) (by omega)]
  | @element p lo mid₁ mid₂ hi id ids l hlinks _ hlo hchildren _ hfurther h ih₁ ih₂ ih₃ =>
      intro f g hf hg
      have hle₁ := hchildren.le
      have hle₂ := hfurther.le
      have hle₃ := h.le
      obtain ⟨f, rfl⟩ : ∃ f', f = f' + 1 := ⟨f - 1, by omega⟩
      obtain ⟨g, rfl⟩ : ∃ g', g = g' + 1 := ⟨g - 1, by omega⟩
      obtain ⟨e, he, rfl⟩ := links?_eq_some_some_iff.mp hlinks
      rw [List.flatMap_cons, List.flatMap_cons, walkFuel_of_element _ f he,
        walkFuel_of_element _ g he, ih₂ f g (by omega) (by omega),
        ih₃ (f + 1) (g + 1) (by omega) (by omega)]
      have hinside : e.children.flatMap (t.walkFuel descend f) =
          e.children.flatMap (t.walkFuel descend g) := ih₁ f g (by omega) (by omega)
      rw [hinside]

/-- An element that a walk enters stands in a forest of its own. -/
theorem of_enter (h : Forest t p lo hi ids) (descend : Element → Bool) : ∀ (fuel : Nat)
    (id : NodeId) (e : Element), .enter id e ∈ ids.flatMap (t.walkFuel descend fuel) →
    t.element? id = some e ∧ ∃ lo' hi', Forest t e.parent lo' hi' [id] := by
  induction h with
  | nil =>
      intro fuel x e hx
      simp at hx
  | leaf hlinks _ _ ih =>
      intro fuel x e hx
      rw [List.flatMap_cons, List.mem_append] at hx
      rcases hx with hx | hx
      · cases fuel with
        | zero => simp [walkFuel] at hx
        | succ f =>
            -- the only step at a leaf enters nothing
            simp only [links?] at hlinks
            simp only [walkFuel] at hx
            split at hx <;> simp_all [Node.links]
      · exact ih fuel x e hx
  | @element p lo mid₁ mid₂ hi id ids l hlinks hparent hlo hchildren hbranches hfurther h
      ih₁ ih₂ ih₃ =>
      intro fuel x e' hx
      obtain ⟨e, he, rfl⟩ := links?_eq_some_some_iff.mp hlinks
      rw [List.flatMap_cons, List.mem_append] at hx
      rcases hx with hx | hx
      · cases fuel with
        | zero => simp [walkFuel] at hx
        | succ f =>
            rw [walkFuel_of_element _ f he] at hx
            simp only [List.cons_append, List.mem_cons, List.mem_append, Visit.enter.injEq,
              reduceCtorEq, false_or] at hx
            rcases hx with ⟨rfl, rfl⟩ | hx | hx
            · have hp : e'.parent = p := hparent
              rw [hp]
              exact ⟨he, lo, mid₂, element hlinks hparent hlo hchildren hbranches hfurther
                (nil le_rfl)⟩
            · split at hx
              · exact ih₁ f x e' hx
              · simp at hx
            · exact ih₂ f x e' hx
      · exact ih₃ fuel x e' hx

end Forest

/-! ### Document order -/

/-- **The tree is in document order**: a walk from the root meets increasing numbers of the table,
and the parents of what it meets are right. -/
structure InDocumentOrder (t : Tree) : Prop where
  /-- No node is met twice, and none before what stands in front of it. -/
  increasing : t.visited.Pairwise (· < ·)
  /-- Every number that is met belongs to a node. -/
  inRange : ∀ id ∈ t.visited, id < t.size
  /-- The walk ends by itself: no larger bound makes it longer. -/
  bounded : ∀ root, t.root = some root → ∀ fuel, t.size ≤ fuel →
    t.walkFuel (fun _ => true) fuel root = t.walk fun _ => true
  /-- The root is an element without a parent. -/
  root : ∀ root, t.root = some root → ∃ e, t.element? root = some e ∧ e.parent = none
  /-- An element that is met is the parent of the elements among its children. -/
  child : ∀ id e, .enter id e ∈ t.walk (fun _ => true) → ∀ c ∈ e.children, ∀ e',
    t.element? c = some e' → e'.parent = some id
  /-- The further branches of a conditional that is met are elements beside its first one. -/
  branch : ∀ id e, .enter id e ∈ t.walk (fun _ => true) → ∀ b ∈ e.branches.drop 1, ∃ e',
    t.element? b.block = some e' ∧ e'.parent = e.parent

/-- A tree without a root is in document order. -/
theorem inDocumentOrder_of_root_eq_none {t : Tree} (h : t.root = none) : t.InDocumentOrder where
  increasing := by simp [visited, walk, h]
  inRange := by simp [visited, walk, h]
  bounded := by simp [h]
  root := by simp [h]
  child := by simp [walk, h]
  branch := by simp [walk, h]

/-- **A tree whose root is a forest** of elements without a parent is in document order. -/
theorem Forest.inDocumentOrder {t : Tree} {root : NodeId} {l : Links} (hroot : t.root = some root)
    (hlinks : t.links? root = some (some l)) (h : Forest t none 0 t.size [root]) :
    t.InDocumentOrder := by
  have hwalk : t.walk (fun _ => true) =
      [root].flatMap (t.walkFuel (fun _ => true) (t.size + 1)) := by
    simp [walk, walkFrom, hroot]
  have hvisited := h.increasingIn (t.size + 1) (by omega)
  rw [← hwalk] at hvisited
  refine ⟨hvisited.1, fun id hid => (hvisited.2 id hid).2, ?_, ?_, ?_, ?_⟩
  · intro root' hroot' fuel hfuel
    obtain rfl : root = root' := by simpa [hroot] using hroot'
    have hcongr := h.walk_congr (fun _ => true) fuel (t.size + 1) (by omega) (by omega)
    rw [← hwalk] at hcongr
    simpa using hcongr
  · intro root' hroot'
    obtain rfl : root = root' := by simpa [hroot] using hroot'
    obtain ⟨e, he, rfl⟩ := links?_eq_some_some_iff.mp hlinks
    exact ⟨e, he, h.parent_eq root e.links (by simp) hlinks⟩
  · intro id e henter c hc e' he'
    rw [hwalk] at henter
    obtain ⟨he, lo, hi, hforest⟩ := h.of_enter _ _ id e henter
    cases hforest with
    | leaf hleaf => rw [links?_of_element? he] at hleaf; cases hleaf
    | element hlinks _ _ hchildren =>
        rw [links?_of_element? he] at hlinks
        cases hlinks
        exact hchildren.parent_eq c e'.links hc (links?_of_element? he')
  · intro id e henter b hb
    rw [hwalk] at henter
    obtain ⟨he, lo, hi, hforest⟩ := h.of_enter _ _ id e henter
    cases hforest with
    | leaf hleaf => rw [links?_of_element? he] at hleaf; cases hleaf
    | element hlinks _ _ _ hbranches hfurther =>
        rw [links?_of_element? he] at hlinks
        cases hlinks
        have hmem : b.block ∈ e.links.further := List.mem_map.mpr ⟨b, hb, rfl⟩
        obtain ⟨lb, hlb⟩ := hbranches b.block hmem
        obtain ⟨e', he', rfl⟩ := links?_eq_some_some_iff.mp hlb
        exact ⟨e', he', hfurther.parent_eq b.block e'.links hmem hlb⟩

end Tree

end Templating
