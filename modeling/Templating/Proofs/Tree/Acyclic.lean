import Mathlib.Data.Finset.Card
import Mathlib.Data.Finset.Range
import Mathlib.Logic.Relation
import Templating.Proofs.Tree.Inside

/-!
**Trees without circles.**

A tree that was put together by hand may lead to the same node from several places, and parents need
not come before what is inside them.  As long as no way through it runs in a circle, every way is
shorter than its table: a node leads to fewer nodes than whatever leads to it.

Main definitions:

* `Templating.Tree.Leads`, `Templating.Tree.Rises` — one step down and one step up;
* `Templating.Tree.Acyclic` — a tree whose links lead to nodes of its table and never in a circle;
* `Templating.height` — how many numbers can be reached.

Main results:

* `Templating.height_lt_height`, `Templating.height_lt` — the height falls with every step, and it
  is less than the size of the table;
* `Templating.Tree.acyclic_of_lt` — links that lead forward do not lead in a circle;
* `Templating.Tree.Acyclic.alike` — marks do not matter;
* `Templating.Tree.Acyclic.templateLoopFrom_eq` — **no way up is cut short**.
-/

set_option autoImplicit false

namespace Templating

/-! ### Heights -/

section Height

variable {r : Nat → Nat → Prop} {n a b : Nat}

open Classical in
/-- How many of the first `n` numbers can be reached from `a`, in one step or more. -/
noncomputable def height (r : Nat → Nat → Prop) (n a : Nat) : Nat :=
  ((Finset.range n).filter (Relation.TransGen r a)).card

/-- What is reached after a step was reached before it, and so was the place that the step led
to. -/
theorem height_lt_height (hstep : r a b) (hb : b < n) (hcircle : ¬Relation.TransGen r b b) :
    height r n b < height r n a := by
  classical
  refine Finset.card_lt_card ⟨fun k hk => ?_, fun hsub => ?_⟩
  · simp only [Finset.mem_filter] at hk ⊢
    exact ⟨hk.1, hk.2.head hstep⟩
  · have hmem : b ∈ (Finset.range n).filter (Relation.TransGen r a) :=
      Finset.mem_filter.mpr ⟨Finset.mem_range.mpr hb, .single hstep⟩
    exact hcircle (Finset.mem_filter.mp (hsub hmem)).2

theorem height_lt (ha : a < n) (hcircle : ¬Relation.TransGen r a a) : height r n a < n := by
  classical
  have hlt : height r n a < (Finset.range n).card := by
    refine Finset.card_lt_card ⟨Finset.filter_subset _ _, fun hsub => ?_⟩
    exact hcircle (Finset.mem_filter.mp (hsub (Finset.mem_range.mpr ha))).2
  simpa using hlt

end Height

namespace Tree

open Static (dependents)

variable {t t' : Tree} {id : NodeId}

/-! ### Steps through a tree -/

/-- One step down: an element leads to its children and to the further branches of its
conditional. -/
def Leads (t : Tree) (id c : NodeId) : Prop := ∃ e, t.element? id = some e ∧ c ∈ dependents e

/-- One step up: from an element to its parent. -/
def Rises (t : Tree) (id p : NodeId) : Prop := ∃ e, t.element? id = some e ∧ e.parent = some p

theorem inside_iff_transGen {a : NodeId} : t.Inside id a ↔ Relation.TransGen t.Rises id a := by
  constructor
  · intro h
    induction h with
    | parent he hparent => exact .single ⟨_, he, hparent⟩
    | step he hparent _ ih => exact .head ⟨_, he, hparent⟩ ih
  · intro h
    induction h using Relation.TransGen.head_induction_on with
    | single hstep =>
        obtain ⟨e, he, hparent⟩ := hstep
        exact .parent he hparent
    | head hstep _ ih =>
        obtain ⟨e, he, hparent⟩ := hstep
        exact .step he hparent ih

/-- A tree whose root and links lead to nodes of its table, without a circle on the way down or on
the way up. -/
structure Acyclic (t : Tree) : Prop where
  root : ∀ root : Nat, t.root = some root → root < t.size
  links : ∀ id c : Nat, t.Leads id c → c < t.size
  down : ∀ id, ¬Relation.TransGen t.Leads id id
  up : ∀ id, ¬t.Inside id id

/-- A tree whose links lead forward in its table, where parents come first. -/
theorem acyclic_of_lt (hroot : ∀ root : Nat, t.root = some root → root < t.size)
    (hlinks : ∀ id c : Nat, t.Leads id c → id < c ∧ c < t.size) (hup : t.ParentsFirst) :
    t.Acyclic := by
  refine ⟨hroot, fun id c hc => (hlinks id c hc).2, fun id hcircle => ?_, fun id hcircle =>
    Nat.lt_irrefl id (hup.lt_of_inside hcircle)⟩
  have hlt : ∀ a b : Nat, Relation.TransGen t.Leads a b → a < b := by
    intro a b h
    induction h with
    | single hstep => exact (hlinks _ _ hstep).1
    | tail _ hstep ih => exact Nat.lt_trans ih (hlinks _ _ hstep).1
  exact Nat.lt_irrefl id (hlt id id hcircle)

/-! ### Marks -/

theorem Leads.alike (h : t.Alike Node.unmarked t') {c : NodeId} (hstep : t.Leads id c) :
    t'.Leads id c := by
  obtain ⟨e, he, hc⟩ := hstep
  obtain ⟨e', he', hsame⟩ := h.element? Node.element?_unmarked he
  have hdependents : dependents e' = dependents e := (congrArg dependents hsame :)
  exact ⟨e', he', hdependents ▸ hc⟩

/-- Marks do not matter for where a tree leads. -/
theorem Acyclic.alike (halike : t.Alike Node.unmarked t') (hroot : t'.root = t.root)
    (h : t.Acyclic) : t'.Acyclic := by
  refine ⟨fun root hr => ?_, fun id c hstep => ?_, fun id hcircle => ?_, fun id hcircle => ?_⟩
  · rw [halike.size_eq]
    exact h.root root (hroot.symm.trans hr)
  · rw [halike.size_eq]
    exact h.links id c (hstep.alike halike.symm)
  · exact h.down id (hcircle.lift (fun k => k) fun _ _ hstep => Leads.alike halike.symm hstep)
  · exact h.up id (hcircle.alike halike.symm)

/-! ### The way up -/

theorem templateLoopFrom_of_none (fuel : Nat) (h : t.element? id = none) :
    t.templateLoopFrom fuel (some id) = false := by
  cases fuel with
  | zero => rfl
  | succ fuel => simp only [templateLoopFrom, h]

theorem templateLoopFrom_none (fuel : Nat) : t.templateLoopFrom fuel none = false := by
  cases fuel <;> rfl

theorem element?_eq_none_of_size_le {k : Nat} (h : t.size ≤ k) : t.element? k = none := by
  cases he : t.element? k with
  | none => rfl
  | some e => exact absurd (lt_size_of_element? he) (by omega)

/-- **No way up is cut short**: more steps than there are nodes above make no difference. -/
theorem Acyclic.templateLoopFrom_eq_of_height (h : t.Acyclic) (fuel fuel' id : Nat)
    (hfuel : height t.Rises t.size id < fuel) (hfuel' : height t.Rises t.size id < fuel') :
    t.templateLoopFrom fuel (some id) = t.templateLoopFrom fuel' (some id) := by
  induction fuel generalizing id fuel' with
  | zero => omega
  | succ f ih =>
      obtain ⟨f', rfl⟩ : ∃ f', fuel' = f' + 1 := ⟨fuel' - 1, by omega⟩
      cases he : t.element? id with
      | none => rw [templateLoopFrom_of_none _ he, templateLoopFrom_of_none _ he]
      | some e =>
          have hparent : t.templateLoopFrom f e.parent = t.templateLoopFrom f' e.parent := by
            cases hp : e.parent with
            | none => rw [templateLoopFrom_none, templateLoopFrom_none]
            | some p =>
                by_cases hlt : p < t.size
                · have hcircle : ¬Relation.TransGen t.Rises p p :=
                    fun hcircle => h.up p (inside_iff_transGen.mpr hcircle)
                  have hless := height_lt_height (n := t.size) ⟨e, he, hp⟩ hlt hcircle
                  exact ih f' p (by omega) (by omega)
                · have hnone := element?_eq_none_of_size_le (Nat.le_of_not_lt hlt)
                  rw [templateLoopFrom_of_none _ hnone, templateLoopFrom_of_none _ hnone]
          simp only [templateLoopFrom, he, hparent]

theorem Acyclic.templateLoopFrom_eq (h : t.Acyclic) {fuel : Nat} (hfuel : t.size ≤ fuel)
    (e : Element) : t.templateLoopFrom fuel e.parent = t.inTemplateLoop e := by
  unfold inTemplateLoop
  cases hp : e.parent with
  | none => rw [templateLoopFrom_none, templateLoopFrom_none]
  | some p =>
      by_cases hlt : p < t.size
      · have hheight := height_lt (r := t.Rises) hlt
          fun hcircle => h.up p (inside_iff_transGen.mpr hcircle)
        exact h.templateLoopFrom_eq_of_height fuel t.size p (by omega) hheight
      · have hnone := element?_eq_none_of_size_le (Nat.le_of_not_lt hlt)
        rw [templateLoopFrom_of_none _ hnone, templateLoopFrom_of_none _ hnone]

end Tree

end Templating
