import Templating.Proofs.Static.Passes

/-!
**What an element lies inside of.**

The way up from an element leads from parent to parent.  Parents come first in the table, so the
elements on the way up are ordered by their numbers, and of two of them the one with the greater
number lies inside the other one.

Main definitions:

* `Templating.Tree.Inside`, `Templating.Tree.Within` — one node lies inside another one;
* `Templating.Tree.Loops` — an element with a loop.

Main results:

* `Templating.Tree.ParentsFirst.inside_of_lt` — **the way up is a chain**;
* `Templating.Tree.ParentsFirst.isSome_nearestLoop?` — there is a nearest loop around an element
  when it lies inside some loop;
* `Templating.Tree.Forest.parent_eq_of_reaches` — the parents of what an element leads to;
* `Templating.Tree.Forest.reach_of_inside` — what a node that is met lies inside of is met.
-/

set_option autoImplicit false

namespace Templating.Tree

open Static (dependents)

/-- The node `id` lies inside the node `a`: the way up from `id` leads through `a`. -/
inductive Inside (t : Tree) : (id a : NodeId) → Prop
  | parent {id a : NodeId} {e : Element} (he : t.element? id = some e) (h : e.parent = some a) :
      Inside t id a
  | step {id p a : NodeId} {e : Element} (he : t.element? id = some e) (h : e.parent = some p)
      (hp : Inside t p a) : Inside t id a

/-- The node `a` is the node `id`, or `id` lies inside of it. -/
def Within (t : Tree) (id a : NodeId) : Prop := a = id ∨ t.Inside id a

/-- An element with a loop. -/
def Loops (t : Tree) (id : NodeId) : Prop := ∃ e, t.element? id = some e ∧ e.loop.isSome = true

variable {t t' : Tree} {id id' a b p : NodeId} {e e' : Element}

/-! ### The way up -/

theorem inside_iff (he : t.element? id = some e) :
    t.Inside id a ↔ ∃ p, e.parent = some p ∧ (a = p ∨ t.Inside p a) := by
  constructor
  · intro h
    cases h with
    | parent he' hparent =>
        obtain rfl : e = _ := by simpa [he] using he'
        exact ⟨a, hparent, .inl rfl⟩
    | step he' hparent hp =>
        obtain rfl : e = _ := by simpa [he] using he'
        exact ⟨_, hparent, .inr hp⟩
  · rintro ⟨p, hparent, rfl | hp⟩
    · exact .parent he hparent
    · exact .step he hparent hp

theorem inside_iff_of_parent (he : t.element? id = some e) (hparent : e.parent = some p) :
    t.Inside id a ↔ a = p ∨ t.Inside p a := by
  rw [inside_iff he, hparent]
  simp

theorem Inside.trans (h : t.Inside id a) (h' : t.Inside a b) : t.Inside id b := by
  induction h with
  | parent he hparent => exact .step he hparent h'
  | step he hparent _ ih => exact .step he hparent (ih h')

/-- Elements with the same parent lie inside of the same. -/
theorem inside_congr (he : t.element? id = some e) (he' : t.element? id' = some e')
    (hparent : e'.parent = e.parent) : t.Inside id' a ↔ t.Inside id a := by
  rw [inside_iff he, inside_iff he', hparent]

theorem loops_iff (he : t.element? id = some e) : t.Loops id ↔ e.loop.isSome = true := by
  simp [Loops, he]

theorem Inside.alike (h : t.Alike Node.unmarked t') (hid : t.Inside id a) : t'.Inside id a := by
  induction hid with
  | parent he hparent =>
      obtain ⟨e', he', hsame⟩ := h.element? Node.element?_unmarked he
      exact .parent he' ((congrArg Element.parent hsame :).trans hparent)
  | step he hparent _ ih =>
      obtain ⟨e', he', hsame⟩ := h.element? Node.element?_unmarked he
      exact .step he' ((congrArg Element.parent hsame :).trans hparent) ih

theorem Loops.alike (h : t.Alike Node.unmarked t') (hid : t.Loops id) : t'.Loops id := by
  obtain ⟨e, he, hloop⟩ := hid
  obtain ⟨e', he', hsame⟩ := h.element? Node.element?_unmarked he
  have hsame' : e'.loop = e.loop := (congrArg Element.loop hsame :)
  exact ⟨e', he', by rw [hsame', hloop]⟩

/-- Nothing is known of what is no element. -/
theorem nearestLoop?_of_none (h : t.element? id = none) : t.nearestLoop? (some id) = none := by
  unfold nearestLoop?
  cases t.size with
  | zero => rfl
  | succ n => simp only [loopFuel?, h]

/-- What is found on the way up is an element with a loop, and the way led through it. -/
theorem exists_of_loopFuel? {ep : Element} {fuel : Nat} (h : t.loopFuel? fuel (some p) = some ep) :
    ∃ a, t.Within p a ∧ t.element? a = some ep ∧ ep.loop.isSome = true := by
  induction fuel generalizing p with
  | zero => cases h
  | succ fuel ih =>
      simp only [loopFuel?] at h
      cases he : t.element? p with
      | none => simp [he] at h
      | some e =>
          simp only [he] at h
          split at h
          · rename_i hloop
            cases h
            exact ⟨p, .inl rfl, he, hloop⟩
          · cases hparent : e.parent with
            | none =>
                rw [hparent, loopFuel?_none] at h
                cases h
            | some q =>
                rw [hparent] at h
                obtain ⟨a, hwithin, hfound⟩ := ih h
                exact ⟨a, .inr ((inside_iff_of_parent he hparent).mpr hwithin), hfound⟩

/-- The nearest loop around an element is one that the element lies inside of. -/
theorem exists_of_nearestLoop? (he : t.element? id = some e)
    (h : t.nearestLoop? e.parent = some e') :
    ∃ a, t.Inside id a ∧ t.element? a = some e' ∧ e'.loop.isSome = true := by
  cases hparent : e.parent with
  | none =>
      rw [hparent, nearestLoop?, loopFuel?_none] at h
      cases h
  | some p =>
      rw [hparent] at h
      obtain ⟨a, hwithin, hfound⟩ := exists_of_loopFuel? h
      exact ⟨a, (inside_iff_of_parent he hparent).mpr hwithin, hfound⟩

namespace ParentsFirst

theorem lt_of_inside (h : t.ParentsFirst) {id a : Nat} (hid : t.Inside id a) : a < id := by
  induction hid with
  | parent he hparent => exact h _ _ he _ hparent
  | step he hparent _ ih => exact Nat.lt_trans ih (h _ _ he _ hparent)

/-- **The way up is a chain**: of two nodes on it, the later one lies inside the earlier one. -/
theorem inside_of_lt (h : t.ParentsFirst) {id a b : Nat} (ha : t.Inside id a) (hb : t.Inside id b)
    (hlt : a < b) : t.Inside b a := by
  induction hb with
  | parent he hparent =>
      rcases (inside_iff_of_parent he hparent).mp ha with rfl | ha
      · exact absurd hlt (Nat.lt_irrefl a)
      · exact ha
  | step he hparent hp ih =>
      rcases (inside_iff_of_parent he hparent).mp ha with rfl | ha
      · exact absurd (Nat.lt_trans hlt (h.lt_of_inside hp)) (Nat.lt_irrefl a)
      · exact ih ha hlt

/-- There is a nearest loop around an element when it lies inside some loop. -/
theorem isSome_nearestLoop? (h : t.ParentsFirst) : ∀ {id : Nat} {e : Element},
    t.element? id = some e →
    ((t.nearestLoop? e.parent).isSome = true ↔ ∃ a, t.Inside id a ∧ t.Loops a) := by
  intro id
  induction id using Nat.strongRecOn with
  | ind id ih =>
      intro e he
      cases hparent : e.parent with
      | none =>
          have hnone : t.nearestLoop? none = none := loopFuel?_none t t.size
          simp [hnone, inside_iff he, hparent]
      | some p =>
          cases hp : t.element? p with
          | none =>
              have hnone := nearestLoop?_of_none hp
              have hno : ∀ a, ¬(t.Inside id a ∧ t.Loops a) := by
                rintro a ⟨hid, hloop⟩
                rcases (inside_iff_of_parent he hparent).mp hid with rfl | hid
                · simp [Loops, hp] at hloop
                · cases hid with
                  | parent he' => simp [hp] at he'
                  | step he' => simp [hp] at he'
              simp [hnone, hno]
          | some ep =>
              have hup := ih p (h id e he p hparent) hp
              rw [h.nearestLoop?_some hp]
              simp only [inside_iff_of_parent he hparent]
              cases hloop : ep.loop.isSome with
              | true =>
                  simp only [if_true, Option.isSome_some, true_iff]
                  exact ⟨p, .inl rfl, ep, hp, hloop⟩
              | false =>
                  simp only [Bool.false_eq_true, if_false, hup]
                  constructor
                  · rintro ⟨a, hinside, hloops⟩
                    exact ⟨a, .inr hinside, hloops⟩
                  · rintro ⟨a, rfl | hinside, hloops⟩
                    · rw [loops_iff hp, hloop] at hloops
                      cases hloops
                    · exact ⟨a, hinside, hloops⟩

end ParentsFirst

/-! ### What is met -/

namespace Forest

variable {q : Option NodeId} {lo hi : Nat} {ids : List NodeId} {root : NodeId}

/-- **The parents of what an element leads to**: it is the parent of its children, and the further
branches of its conditional have the same parent as it has. -/
theorem parent_eq_of_reaches (h : Forest t q lo hi ids) : ∀ (k : NodeId) (e : Element),
    t.Reaches dependents ids k → t.element? k = some e →
    (∀ c ec, c ∈ e.children → t.element? c = some ec → ec.parent = some k) ∧
      ∀ b eb, b ∈ e.links.further → t.element? b = some eb → eb.parent = e.parent := by
  induction h with
  | nil => exact fun k e hk => absurd hk not_reaches_nil
  | leaf hlinks _ _ ih =>
      intro k e hk he
      rcases reaches_cons.mp hk with hk | hk
      · have hnone := element?_of_links? hlinks
        rw [reach_iff_of_leaf hnone] at hk
        rw [hk, hnone] at he
        cases he
      · exact ih k e hk he
  | @element q lo mid₁ mid₂ hi top ids l hlinks hparent _ hchildren _ hfurther _ ih₁ ih₂ ih₃ =>
      intro k e hk he
      obtain ⟨etop, hetop, rfl⟩ := links?_eq_some_some_iff.mp hlinks
      rw [reaches_cons, reach_iff_of_element hetop, dependents, reaches_append] at hk
      rcases hk with (rfl | hk | hk) | hk
      · obtain rfl : etop = e := by simpa [hetop] using he
        refine ⟨fun c ec hc hec => ?_, fun b eb hb heb => ?_⟩
        · exact hchildren.parent_eq c ec.links hc (links?_of_element? hec)
        · exact (hfurther.parent_eq b eb.links hb (links?_of_element? heb)).trans hparent.symm
      · exact ih₁ k e hk he
      · exact ih₂ k e hk he
      · exact ih₃ k e hk he

/-- The parent of an element that is met is met. -/
theorem reach_of_parent (h : Forest t none lo hi [root]) (hid : t.Reach dependents root id) :
    ∀ {e : Element} {p : NodeId}, t.element? id = some e → e.parent = some p →
      t.Reach dependents root p := by
  induction hid with
  | refl =>
      intro e p he hparent
      have hnone := h.parent_eq root e.links (by simp) (links?_of_element? he)
      cases hparent.symm.trans hnone
  | step hid he hc ih =>
      intro ec p hec hparent
      obtain ⟨hchild, hfurther⟩ := h.parent_eq_of_reaches _ _ (reaches_singleton.mpr hid) he
      rcases List.mem_append.mp hc with hc | hc
      · rw [hchild _ _ hc hec] at hparent
        exact Option.some.inj hparent ▸ hid
      · rw [hfurther _ _ hc hec] at hparent
        exact ih he hparent

/-- What a node that is met lies inside of is met. -/
theorem reach_of_inside (h : Forest t none lo hi [root]) (hid : t.Reach dependents root id)
    (ha : t.Inside id a) : t.Reach dependents root a := by
  induction ha with
  | parent he hparent => exact h.reach_of_parent hid he hparent
  | step he hparent _ ih => exact ih (h.reach_of_parent hid he hparent)

end Forest

end Templating.Tree
