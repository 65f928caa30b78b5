import Mathlib.Data.List.Infix
import Templating.Proofs.Tree.Alike

/-!
**Forests in document order.**

The numbers in the table of a tree say where a node stands in the template: a node comes before
everything inside it, and what is inside it comes before the further branches of its conditional and
before its later neighbours.  A forest is a list of nodes with everything below them, laid out in an
interval of numbers in that order.

Main definitions:

* `Templating.Links`, `Templating.Tree.links?` — how a node refers to others;
* `Templating.Tree.Forest` — nodes with everything below them, in document order;
* `Templating.Tree.Shrinks` — a change of the table that only drops children from the end.

Main results:

* `Templating.Tree.Forest.append`, `Templating.Tree.Forest.split` — forests side by side;
* `Templating.Tree.Forest.shrink` — dropping children from the end leaves a forest;
* `Templating.Tree.Forest.addFurther` — **adding a branch** to the last conditional of a forest.
-/

set_option autoImplicit false

namespace Templating

/-! ### Links -/

/-- How an element refers to other nodes: its parent, its children, and the further branches of its
conditional. -/
structure Links where
  parent : Option NodeId
  children : List NodeId
  further : List NodeId

/-- Links that differ at most in children dropped from the end. -/
structure Links.Shrinks (l l' : Links) : Prop where
  parent : l'.parent = l.parent
  children : l'.children <+: l.children
  further : l'.further = l.further

theorem Links.Shrinks.refl (l : Links) : l.Shrinks l := ⟨rfl, List.prefix_rfl, rfl⟩

/-- The links of an element. -/
def Element.links (e : Element) : Links :=
  ⟨e.parent, e.children, (e.branches.drop 1).map (·.block)⟩

/-- The links of a node; a node that is no element has none. -/
def Node.links : Node → Option Links
  | .element e => some e.links
  | _ => none

namespace Tree

/-- The links of the node with a number. -/
def links? (t : Tree) (id : NodeId) : Option (Option Links) := (t.node? id).map Node.links

theorem links?_eq_some_some_iff {t : Tree} {id : NodeId} {l : Links} :
    t.links? id = some (some l) ↔ ∃ e, t.element? id = some e ∧ e.links = l := by
  simp only [links?, element?]
  cases t.node? id with
  | none => simp
  | some n => cases n <;> simp [Node.links, Node.element?]

theorem links?_of_element? {t : Tree} {id : NodeId} {e : Element} (h : t.element? id = some e) :
    t.links? id = some (some e.links) :=
  links?_eq_some_some_iff.mpr ⟨e, h, rfl⟩

theorem links?_push (t : Tree) (n : Node) (id : NodeId) :
    (t.push n).links? id = if id = t.size then some n.links else t.links? id := by
  simp only [links?, node?_push]
  split <;> rfl

/-- Changing an element changes its links and no others. -/
theorem links?_modifyElement {t : Tree} {id : NodeId} {e : Element} (f : Element → Element)
    (h : t.element? id = some e) (k : NodeId) :
    (t.modifyElement id f).links? k = if k = id then some (some (f e).links) else t.links? k := by
  simp only [links?, modifyElement, node?_modifyNode]
  by_cases hk : k = id
  · subst hk
    simp [node?_of_element? h, Node.links]
  · rw [if_neg (fun h => hk h.symm), if_neg hk]

/-- A change of no element changes nothing. -/
theorem links?_modifyElement_of_none {t : Tree} {id : NodeId} (f : Element → Element)
    (h : t.element? id = none) (k : NodeId) : (t.modifyElement id f).links? k = t.links? k := by
  simp only [links?, modifyElement, node?_modifyNode]
  split
  · rename_i hk
    subst hk
    simp only [element?] at h
    cases hn : t.node? id with
    | none => rfl
    | some n => cases n <;> simp_all [Node.element?]
  · rfl

theorem links?_eq_none_iff {t : Tree} {id : NodeId} : t.links? id = none ↔ t.size ≤ id := by
  simp [links?, node?, size]

/-! ### Forests -/

/-- Nodes with the parent `p` and everything below them, in document order and with numbers from
`lo` on and below `hi`. -/
inductive Forest (t : Tree) : (p : Option NodeId) → (lo hi : Nat) → List NodeId → Prop
  | nil {p : Option NodeId} {lo hi : Nat} (h : lo ≤ hi) : Forest t p lo hi []
  | leaf {p : Option NodeId} {lo hi : Nat} {id : NodeId} {ids : List NodeId}
      (hlinks : t.links? id = some none) (hlo : lo ≤ id) (h : Forest t p (id + 1) hi ids) :
      Forest t p lo hi (id :: ids)
  | element {p : Option NodeId} {lo mid₁ mid₂ hi : Nat} {id : NodeId} {ids : List NodeId}
      {l : Links} (hlinks : t.links? id = some (some l)) (hparent : l.parent = p) (hlo : lo ≤ id)
      (hchildren : Forest t (some id) (id + 1) mid₁ l.children)
      (hbranches : ∀ b ∈ l.further, ∃ lb, t.links? b = some (some lb))
      (hfurther : Forest t p mid₁ mid₂ l.further) (h : Forest t p mid₂ hi ids) :
      Forest t p lo hi (id :: ids)

namespace Forest

variable {t t' : Tree} {p : Option NodeId} {lo mid hi : Nat} {ids ids' : List NodeId}

theorem le (h : Forest t p lo hi ids) : lo ≤ hi := by
  induction h with
  | nil h => exact h
  | leaf _ hlo _ ih => omega
  | element _ _ hlo _ _ _ _ ih₁ ih₂ ih₃ => omega

/-- The numbers of a forest lie in its interval. -/
theorem mem_interval (h : Forest t p lo hi ids) : ∀ id : Nat, id ∈ ids → lo ≤ id ∧ id < hi := by
  induction h with
  | nil => simp
  | leaf _ hlo h ih =>
      intro id hid
      have := h.le
      rcases List.mem_cons.mp hid with rfl | hid
      · omega
      · have := ih id hid
        omega
  | element _ _ hlo hchildren _ hfurther h _ _ ih =>
      intro id hid
      have := hchildren.le
      have := hfurther.le
      have := h.le
      rcases List.mem_cons.mp hid with rfl | hid
      · omega
      · have := ih id hid
        omega

/-- An interval may be wider than its forest. -/
theorem widen {lo' hi' : Nat} (h : Forest t p lo hi ids) (hlo : lo' ≤ lo) (hhi : hi ≤ hi') :
    Forest t p lo' hi' ids := by
  induction h generalizing lo' with
  | nil h => exact nil (by omega)
  | leaf hlinks hid h ih => exact leaf hlinks (by omega) (ih le_rfl hhi)
  | element hlinks hparent hid hchildren hbranches hfurther h _ _ ih =>
      exact element hlinks hparent (by omega) hchildren hbranches hfurther (ih le_rfl hhi)

/-- Forests side by side. -/
theorem append (h : Forest t p lo mid ids) (h' : Forest t p mid hi ids') :
    Forest t p lo hi (ids ++ ids') := by
  induction h with
  | nil h => exact h'.widen h le_rfl
  | leaf hlinks hlo _ ih => exact leaf hlinks hlo (ih h')
  | element hlinks hparent hlo hchildren hbranches hfurther _ _ _ ih =>
      exact element hlinks hparent hlo hchildren hbranches hfurther (ih h')

/-- The parts of a forest side by side. -/
theorem split (h : Forest t p lo hi (ids ++ ids')) :
    ∃ mid, Forest t p lo mid ids ∧ Forest t p mid hi ids' := by
  induction ids generalizing lo with
  | nil => exact ⟨lo, nil le_rfl, h⟩
  | cons id ids ih =>
      cases h with
      | leaf hlinks hlo h =>
          obtain ⟨mid, h₁, h₂⟩ := ih h
          exact ⟨mid, leaf hlinks hlo h₁, h₂⟩
      | element hlinks hparent hlo hchildren hbranches hfurther h =>
          obtain ⟨mid, h₁, h₂⟩ := ih h
          exact ⟨mid, element hlinks hparent hlo hchildren hbranches hfurther h₁, h₂⟩

/-- The first nodes of a forest are a forest. -/
theorem truncate (h : Forest t p lo hi ids) (hpre : ids' <+: ids) : Forest t p lo hi ids' := by
  obtain ⟨rest, rfl⟩ := hpre
  obtain ⟨mid, h₁, h₂⟩ := h.split
  exact h₁.widen le_rfl h₂.le

end Forest

/-! ### Changes of the table -/

/-- The table changes, for numbers from `lo` on and below `hi`, by children dropped from the end at
most. -/
structure Shrinks (t t' : Tree) (lo hi : Nat) : Prop where
  leaf : ∀ id : Nat, lo ≤ id → id < hi → t.links? id = some none → t'.links? id = some none
  element : ∀ (id : Nat) (l : Links), lo ≤ id → id < hi → t.links? id = some (some l) →
    ∃ l', t'.links? id = some (some l') ∧ l.Shrinks l'

/-- Nothing changes. -/
theorem Shrinks.of_eq {t t' : Tree} {lo hi : Nat}
    (h : ∀ id : Nat, lo ≤ id → id < hi → t'.links? id = t.links? id) : Shrinks t t' lo hi where
  leaf id hlo hhi hid := by rw [h id hlo hhi, hid]
  element id l hlo hhi hid := ⟨l, by rw [h id hlo hhi, hid], Links.Shrinks.refl l⟩

theorem Shrinks.narrow {t t' : Tree} {lo hi lo' hi' : Nat} (h : Shrinks t t' lo hi)
    (hlo : lo ≤ lo') (hhi : hi' ≤ hi) : Shrinks t t' lo' hi' where
  leaf id h₁ h₂ := h.leaf id (by omega) (by omega)
  element id l h₁ h₂ := h.element id l (by omega) (by omega)

namespace Forest

variable {t t' : Tree} {p : Option NodeId} {lo mid hi : Nat} {ids : List NodeId}

/-- **Dropping children** from the end leaves a forest. -/
theorem shrink (h : Forest t p lo hi ids) (hs : Shrinks t t' lo hi) : Forest t' p lo hi ids := by
  induction h with
  | nil h => exact nil h
  | @leaf p lo hi id ids hlinks hlo h ih =>
      have := h.le
      exact leaf (hs.leaf id hlo (by omega) hlinks) hlo (ih (hs.narrow (by omega) le_rfl))
  | @element p lo mid₁ mid₂ hi id ids l hlinks hparent hlo hchildren hbranches hfurther h
      ih₁ ih₂ ih₃ =>
      have hle₁ := hchildren.le
      have hle₂ := hfurther.le
      have hle₃ := h.le
      obtain ⟨l', hlinks', hl⟩ := hs.element id l hlo (by omega) hlinks
      have hchildren' : Forest t' (some id) (id + 1) mid₁ l'.children :=
        (ih₁ (hs.narrow (by omega) (by omega))).truncate hl.children
      have hfurther' : Forest t' p mid₁ mid₂ l'.further := by
        rw [hl.further]
        exact ih₂ (hs.narrow (by omega) (by omega))
      refine element hlinks' (hl.parent.trans hparent) hlo hchildren' ?_ hfurther'
        (ih₃ (hs.narrow (by omega) le_rfl))
      intro b hb
      rw [hl.further] at hb
      obtain ⟨lb, hlb⟩ := hbranches b hb
      have hint := hfurther.mem_interval b hb
      obtain ⟨lb', hlb', -⟩ := hs.element b lb (by omega) (by omega) hlb
      exact ⟨lb', hlb'⟩

/-- A forest does not change with what lies outside of its interval. -/
theorem congr (h : Forest t p lo hi ids)
    (hlinks : ∀ id : Nat, lo ≤ id → id < hi → t'.links? id = t.links? id) :
    Forest t' p lo hi ids :=
  h.shrink (Shrinks.of_eq hlinks)

/-- **Adding a branch** to the conditional of the last node of a forest: the branch comes after
everything that is there already. -/
theorem addFurther {last id : Nat} {l : Links} (h : Forest t p lo mid (ids ++ [last]))
    (hlast : t.links? last = some (some l)) (hid : Forest t p mid hi [id])
    (helement : ∃ lb, t.links? id = some (some lb))
    (hlinks : ∀ k : Nat, t'.links? k =
      if k = last then some (some { l with further := l.further ++ [id] }) else t.links? k) :
    Forest t' p lo hi (ids ++ [last]) := by
  obtain ⟨m, hinit, htail⟩ := h.split
  cases htail with
  | leaf hleaf => rw [hlast] at hleaf; cases hleaf
  | @element _ _ mid₁ mid₂ _ _ _ l' hlinks' hparent hlo hchildren hbranches hfurther hnil =>
      obtain rfl : l = l' := by
        rw [hlast] at hlinks'
        simpa using hlinks'
      have hle₁ := hchildren.le
      have hle₂ := hfurther.le
      have hle₃ := hnil.le
      have hmem := hid.mem_interval id (by simp)
      -- everything but the last node itself keeps its links
      have hsame : ∀ k : Nat, k ≠ last → t'.links? k = t.links? k := fun k hk => by
        rw [hlinks k, if_neg hk]
      refine (hinit.congr fun k _ hk => hsame k (by omega)).append ?_
      have hnew : t'.links? last = some (some { l with further := l.further ++ [id] }) := by
        rw [hlinks last, if_pos rfl]
      have hchildren' : Forest t' (some last) (last + 1) mid₁ l.children :=
        hchildren.congr fun k hk _ => hsame k (by omega)
      have hfurther' : Forest t' p mid₁ hi (l.further ++ [id]) := by
        have hold : Forest t' p mid₁ mid₂ l.further :=
          hfurther.congr fun k hk _ => hsame k (by omega)
        have hadded : Forest t' p mid hi [id] := hid.congr fun k hk _ => hsame k (by omega)
        exact hold.append (hadded.widen hle₃ le_rfl)
      refine element hnew hparent hlo hchildren' ?_ hfurther' (nil le_rfl)
      intro b hb
      rcases List.mem_append.mp hb with hb | hb
      · have hint := hfurther.mem_interval b hb
        rw [hsame b (by omega)]
        exact hbranches b hb
      · rw [List.mem_singleton.mp hb, hsame id (by omega)]
        exact helement

/-- Every element of a forest has its parent. -/
theorem parent_eq (h : Forest t p lo hi ids) : ∀ (id : Nat) (l : Links), id ∈ ids →
    t.links? id = some (some l) → l.parent = p := by
  induction h with
  | nil => simp
  | leaf hlinks _ _ ih =>
      intro id l hid hl
      rcases List.mem_cons.mp hid with rfl | hid
      · rw [hlinks] at hl; cases hl
      · exact ih id l hid hl
  | element hlinks hparent _ _ _ _ _ _ _ ih =>
      intro id l hid hl
      rcases List.mem_cons.mp hid with rfl | hid
      · rw [hlinks] at hl
        cases hl
        exact hparent
      · exact ih id l hid hl

end Forest

end Tree

end Templating
