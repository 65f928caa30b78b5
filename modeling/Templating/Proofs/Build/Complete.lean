import Templating.Proofs.Build.Branches
import Templating.Proofs.Build.Unreported

/-!
**Conditionals without reports.**

A branch that finds no conditional in front of it is reported, so without reports every branch is
part of a conditional.  Two cases escape the reports.  The root is attached to nothing, and is not
looked at when it is a branch; and a conditional goes on behind a branch without a condition, so
branches may follow that are never reached.

Main definitions:

* `Templating.Tree.seat?` — the parent of an element, and whether it is a branch;
* `Templating.Tree.Placed` — every finished element is a child or a branch, and a conditional goes
  on as long as there are branches;
* `Templating.Tree.ElseLast` — between a `v-else` and a later branch beside it a new conditional
  starts.

Main results:

* `Templating.Tree.Placed.joined` — attaching an element without a report puts it in its place;
* `Templating.Build.Builder.quietInvariant_placed` — **without reports every finished element is in
  its place**;
* `Templating.Build.branches_of_quiet_parse` — what can be said of the conditionals of a template
  without reports, and when each of them ends with its `v-else`.
-/

set_option autoImplicit false

namespace Templating

open Build Build.Builder

/-! ### Seats -/

/-- What is known of the place of an element when it is opened: its parent, and whether it is a
branch. -/
def Element.seat (e : Element) : Option NodeId × Bool := (e.parent, e.isBranch)

namespace Tree

/-- The parent of an element, and whether the element is a branch. -/
def seat? (t : Tree) (id : NodeId) : Option (Option NodeId × Bool) :=
  (t.element? id).map Element.seat

variable {t t' : Tree} {opened : List NodeId}

theorem seat?_of_element? {id : NodeId} {e : Element} (h : t.element? id = some e) :
    t.seat? id = some e.seat := by
  rw [seat?, h, Option.map_some]

theorem Alike.seat? (h : t.Alike Node.frame t') (id : NodeId) : t'.seat? id = t.seat? id := by
  cases he : t.element? id with
  | none =>
      cases he' : t'.element? id with
      | none => rw [Tree.seat?, Tree.seat?, he, he']
      | some e' =>
          obtain ⟨e, he₀, -⟩ := h.symm.element? Node.element?_frame he'
          rw [he] at he₀
          cases he₀
  | some e =>
      obtain ⟨e', he', hsame⟩ := h.element? Node.element?_frame he
      rw [seat?_of_element? he, seat?_of_element? he']
      exact congrArg some (congrArg Element.seat hsame :)

theorem seat?_push (t : Tree) (n : Node) (id : NodeId) :
    (t.push n).seat? id = if id = t.size then n.element?.map Element.seat else t.seat? id := by
  rw [seat?, element?_push]
  split <;> rfl

theorem lt_size_of_seat? {id : Nat} {s : Option NodeId × Bool} (h : t.seat? id = some s) :
    id < t.size := by
  obtain ⟨e, he, -⟩ := Option.map_eq_some_iff.mp h
  by_contra hge
  have hnone := links?_eq_none_iff.mpr (Nat.le_of_not_lt hge)
  rw [links?_of_element? he] at hnone
  cases hnone

/-! ### Elements in their places -/

/-- **Every finished element is in its place**: it is a child of its parent, or a branch, and
outside of the root there are only branches.  From the first element of a conditional to each of
its branches, all elements beside them are branches. -/
structure Placed (t : Tree) (opened : List NodeId) : Prop where
  child : ∀ {id p : NodeId}, t.seat? id = some (some p, false) → id ∉ opened →
    ∃ l, t.links? p = some (some l) ∧ id ∈ l.children
  branch : ∀ {id : Nat} {p : Option NodeId}, t.seat? id = some (p, true) → id ∉ opened → id ≠ 0 →
    ∃ k l, t.links? k = some (some l) ∧ id ∈ l.further
  outer : ∀ {id : Nat} {br : Bool}, t.seat? id = some (none, br) → id ∉ opened → id ≠ 0 → br = true
  between : ∀ {k id : Nat} {l : Links}, t.links? k = some (some l) → id ∈ l.further →
    t.seat? id = some (l.parent, true) ∧
      ∀ (m : Nat) (br : Bool), k < m → m < id → t.seat? m = some (l.parent, br) → br = true

/-- A change that leaves elements where they are, and drops or adds other children at most. -/
structure Retains (t t' : Tree) : Prop where
  seat : ∀ id, t'.seat? id = t.seat? id
  links : ∀ {k : NodeId} {l : Links}, t.links? k = some (some l) →
    ∃ l', t'.links? k = some (some l') ∧ l'.parent = l.parent ∧ l'.further = l.further ∧
      ∀ c ∈ l.children, t.seat? c ≠ none → c ∈ l'.children

theorem Placed.retain (h : t.Placed opened) (hr : Retains t t') : t'.Placed opened := by
  refine ⟨?_, ?_, ?_, ?_⟩
  · intro id p hseat hid
    rw [hr.seat] at hseat
    obtain ⟨l, hl, hmem⟩ := h.child hseat hid
    obtain ⟨l', hl', -, -, hchildren⟩ := hr.links hl
    exact ⟨l', hl', hchildren id hmem (by simp [hseat])⟩
  · intro id p hseat hid hne
    rw [hr.seat] at hseat
    obtain ⟨k, l, hl, hmem⟩ := h.branch hseat hid hne
    obtain ⟨l', hl', -, hfurther, -⟩ := hr.links hl
    exact ⟨k, l', hl', by rwa [hfurther]⟩
  · intro id br hseat hid hne
    rw [hr.seat] at hseat
    exact h.outer hseat hid hne
  · intro k id l' hl' hmem
    -- the element was there before, with the same branches
    obtain ⟨e', he', -⟩ := links?_eq_some_some_iff.mp hl'
    have hseat := hr.seat k
    rw [seat?_of_element? he'] at hseat
    obtain ⟨e, he, -⟩ := Option.map_eq_some_iff.mp hseat.symm
    obtain ⟨l'', hl'', hparent, hfurther, -⟩ := hr.links (links?_of_element? he)
    obtain rfl : l'' = l' := by simpa [hl'] using hl''.symm
    rw [hfurther] at hmem
    rw [hparent]
    obtain ⟨hbranch, hbetween⟩ := h.between (links?_of_element? he) hmem
    refine ⟨by rw [hr.seat, hbranch], ?_⟩
    intro m br hlt hlt' hm
    rw [hr.seat] at hm
    exact hbetween m br hlt hlt' hm

/-- A change of one element that keeps what is known when it is opened, its branches, and the
elements among its children. -/
theorem Retains.modifyElement {id : NodeId} {f : Element → Element}
    (hframe : ∀ e, t.element? id = some e → (f e).core.unclosed = e.core.unclosed)
    (hbranches : ∀ e, t.element? id = some e → (f e).branches = e.branches)
    (hchildren : ∀ e, t.element? id = some e → ∀ c ∈ e.children, t.seat? c ≠ none →
      c ∈ (f e).children) : Retains t (t.modifyElement id f) := by
  constructor
  · refine Alike.seat? (Alike.modifyElement t id ?_)
    intro e he
    simp only [Node.frame, hframe e he]
  · intro k l hl
    cases he : t.element? id with
    | none =>
        refine ⟨l, ?_, rfl, rfl, fun c hc _ => hc⟩
        rw [links?_modifyElement_of_none f he, hl]
    | some e =>
        rw [links?_modifyElement f he]
        by_cases hk : k = id
        · subst hk
          rw [links?_of_element? he] at hl
          obtain rfl := Option.some.inj (Option.some.inj hl)
          refine ⟨(f e).links, if_pos rfl, ?_, ?_, hchildren e he⟩
          · exact (congrArg Element.parent (hframe e he) :)
          · simp only [Element.links, hbranches e he]
        · exact ⟨l, by rw [if_neg hk, hl], rfl, rfl, fun c hc _ => hc⟩

/-- Dropping from the end keeps what is not to be dropped. -/
theorem mem_reverse_dropWhile {α : Type} {f : α → Bool} {l : List α} {a : α} (ha : a ∈ l)
    (hf : f a = false) : a ∈ (l.reverse.dropWhile f).reverse := by
  rw [List.mem_reverse]
  have hsplit : a ∈ l.reverse.takeWhile f ++ l.reverse.dropWhile f := by
    rw [List.takeWhile_append_dropWhile]
    exact List.mem_reverse.mpr ha
  rcases List.mem_append.mp hsplit with htake | hdrop
  · rw [List.mem_takeWhile_imp htake] at hf
    cases hf
  · exact hdrop

theorem retains_dropLeaves (t : Tree) (parent : NodeId) :
    Retains t (t.modifyElement parent (dropLeaves t)) := by
  refine Retains.modifyElement (fun _ _ => rfl) (fun _ _ => rfl) ?_
  intro e _ c hc hseat
  refine mem_reverse_dropWhile hc ?_
  rw [isLeaf, Option.isNone_eq_false_iff, Option.isSome_iff_ne_none]
  simpa [seat?] using hseat

/-- The elements among the children of an element stay when spaces are dropped. -/
theorem mem_children_trimmed {b : Builder} {e : Element} {c : NodeId} (hc : c ∈ e.children)
    (hseat : b.tree.seat? c ≠ none) : c ∈ (b.trimmed e).children := by
  unfold trimmed
  split
  · exact hc
  · refine mem_reverse_dropWhile hc ?_
    cases he : b.tree.element? c with
    | none => simp [seat?, he] at hseat
    | some e' => simp [isSpaceText, node?_of_element? he]

theorem retains_trimmed (b : Builder) (id : NodeId) :
    Retains b.tree (b.tree.modifyElement id b.trimmed) := by
  refine Retains.modifyElement ?_ ?_ ?_
  · exact fun e _ => congrArg Element.unclosed (core_trimmed b e)
  · exact fun e _ => branches_trimmed b e
  · exact fun e _ c hc hseat => mem_children_trimmed hc hseat

theorem retains_completed (src : Source) (b : Builder) {id : NodeId} {e : Element}
    (he : b.tree.element? id = some e) :
    Retains b.tree (b.tree.modifyElement id fun _ => b.completed src id e) := by
  have hchildren : (b.completed src id e).children = (b.trimmed e).children :=
    (congrArg Element.children (unclosed_completed src b id e) :)
  refine Retains.modifyElement ?_ ?_ ?_
  all_goals
    intro e' he'
    obtain rfl : e = e' := by simpa [he] using he'
  · exact frame_completed src b id e
  · exact branches_completed src b id e
  · intro c hc hseat
    rw [hchildren]
    exact mem_children_trimmed hc hseat

/-- A node that is added is no element, or it is open. -/
theorem Placed.push (h : t.Placed opened) (n : Node)
    (hn : ∀ l, n.links = some l → l.further = []) {opened' : List NodeId}
    (hsub : opened ⊆ opened') (hnew : n.element? = none ∨ t.size ∈ opened') :
    (t.push n).Placed opened' := by
  -- a finished element is one that was there
  have hseat : ∀ {id : Nat} {s : Option NodeId × Bool}, (t.push n).seat? id = some s →
      id ∉ opened' → t.seat? id = some s ∧ id ∉ opened := by
    intro id s hs hid
    rw [seat?_push] at hs
    split at hs
    · rename_i hid'
      rcases hnew with hnone | hmem
      · simp [hnone] at hs
      · exact absurd (hid' ▸ hmem) hid
    · exact ⟨hs, fun hmem => hid (hsub hmem)⟩
  have hlinks : ∀ {k : NodeId} {l : Links}, t.links? k = some (some l) →
      (t.push n).links? k = some (some l) := by
    intro k l hl
    obtain ⟨e, he, -⟩ := links?_eq_some_some_iff.mp hl
    have hlt := lt_size_of_seat? (seat?_of_element? he)
    rw [links?_push, if_neg (Nat.ne_of_lt hlt), hl]
  refine ⟨?_, ?_, ?_, ?_⟩
  · intro id p hs hid
    obtain ⟨hold, hid'⟩ := hseat hs hid
    obtain ⟨l, hl, hmem⟩ := h.child hold hid'
    exact ⟨l, hlinks hl, hmem⟩
  · intro id p hs hid hne
    obtain ⟨hold, hid'⟩ := hseat hs hid
    obtain ⟨k, l, hl, hmem⟩ := h.branch hold hid' hne
    exact ⟨k, l, hlinks hl, hmem⟩
  · intro id br hs hid hne
    obtain ⟨hold, hid'⟩ := hseat hs hid
    exact h.outer hold hid' hne
  · intro k id l hl hmem
    rw [links?_push] at hl
    split at hl
    · simp [hn l (Option.some.inj hl)] at hmem
    · obtain ⟨hbranch, hbetween⟩ := h.between hl hmem
      have hlt := lt_size_of_seat? hbranch
      refine ⟨by rw [seat?_push, if_neg (Nat.ne_of_lt hlt), hbranch], ?_⟩
      intro m br hkm hmid hm
      rw [seat?_push, if_neg (Nat.ne_of_lt (hmid.trans hlt))] at hm
      exact hbetween m br hkm hmid hm

/-- An element is finished when it is in its place. -/
theorem Placed.settle {id : Nat} (h : t.Placed (id :: opened))
    (hchild : ∀ p, t.seat? id = some (some p, false) →
      ∃ l, t.links? p = some (some l) ∧ id ∈ l.children)
    (hbranch : ∀ p, t.seat? id = some (p, true) → id ≠ 0 →
      ∃ k l, t.links? k = some (some l) ∧ id ∈ l.further)
    (houter : ∀ br, t.seat? id = some (none, br) → id ≠ 0 → br = true) : t.Placed opened := by
  have hclosed : ∀ {m : Nat}, m ∉ opened → m ≠ id → m ∉ id :: opened := by
    intro m hm hne hmem
    exact (List.mem_cons.mp hmem).elim hne hm
  refine ⟨?_, ?_, ?_, h.between⟩
  · intro m p hseat hm
    by_cases hne : m = id
    · subst hne
      exact hchild p hseat
    · exact h.child hseat (hclosed hm hne)
  · intro m p hseat hm hzero
    by_cases hne : m = id
    · subst hne
      exact hbranch p hseat hzero
    · exact h.branch hseat (hclosed hm hne) hzero
  · intro m br hseat hm hzero
    by_cases hne : m = id
    · subst hne
      exact houter br hseat hzero
    · exact h.outer hseat (hclosed hm hne) hzero

/-- A branch is added to a conditional beside it, with nothing but branches between them. -/
theorem Placed.addFurther {first id : Nat} {l : Links} (h : t.Placed opened)
    (hfirst : t.links? first = some (some l)) (hid : t.seat? id = some (l.parent, true))
    (hbetween : ∀ (m : Nat) (br : Bool), first < m → m < id → t.seat? m = some (l.parent, br) →
      br = true) (hseat : ∀ k, t'.seat? k = t.seat? k)
    (hnew : ∀ k, t'.links? k = if k = first then
      some (some { l with further := l.further ++ [id] }) else t.links? k) : t'.Placed opened := by
  have hlinks : ∀ {k : NodeId} {l₀ : Links}, t.links? k = some (some l₀) →
      ∃ l', t'.links? k = some (some l') ∧ l₀.children = l'.children ∧ l₀.further ⊆ l'.further := by
    intro k l₀ hl₀
    rw [hnew]
    by_cases hk : k = first
    · rw [hk, hfirst] at hl₀
      obtain rfl := Option.some.inj (Option.some.inj hl₀)
      exact ⟨_, if_pos hk, rfl, by simp⟩
    · exact ⟨l₀, by rw [if_neg hk, hl₀], rfl, List.Subset.refl _⟩
  refine ⟨?_, ?_, ?_, ?_⟩
  · intro m p hm hopened
    rw [hseat] at hm
    obtain ⟨l₀, hl₀, hmem⟩ := h.child hm hopened
    obtain ⟨l', hl', hchildren, -⟩ := hlinks hl₀
    exact ⟨l', hl', hchildren ▸ hmem⟩
  · intro m p hm hopened hzero
    rw [hseat] at hm
    obtain ⟨k, l₀, hl₀, hmem⟩ := h.branch hm hopened hzero
    obtain ⟨l', hl', -, hfurther⟩ := hlinks hl₀
    exact ⟨k, l', hl', hfurther hmem⟩
  · intro m br hm hopened hzero
    rw [hseat] at hm
    exact h.outer hm hopened hzero
  · intro k m l' hl' hmem
    simp only [hseat]
    rw [hnew] at hl'
    split at hl'
    · rename_i hk
      subst hk
      obtain rfl := Option.some.inj (Option.some.inj hl')
      rcases List.mem_append.mp hmem with hmem | hmem
      · have hold := h.between hfirst hmem
        exact hold
      · rw [List.mem_singleton.mp hmem]
        exact ⟨hid, hbetween⟩
    · exact h.between hl' hmem

/-- A finished branch is in its place when it is added to a conditional. -/
theorem Placed.withBranch {first id : Nat} {fe : Element} (h : t.Placed (id :: opened))
    (hfirst : t.element? first = some fe) (hchain : t.Chain first fe)
    (hcondition : fe.condition.isSome = true) (hid : t.seat? id = some (fe.parent, true))
    (hbetween : ∀ (m : Nat) (br : Bool), first < m → m < id → t.seat? m = some (fe.parent, br) →
      br = true) (condition : Option String) :
    (t.modifyElement first (Builder.withBranch ⟨condition, id⟩)).Placed opened := by
  have hnew : ∀ k, (t.modifyElement first (Builder.withBranch ⟨condition, id⟩)).links? k =
      if k = first then some (some { fe.links with further := fe.links.further ++ [id] })
      else t.links? k := by
    intro k
    rw [links?_modifyElement _ hfirst, links_withBranch _ _ (hchain.branches_ne_nil hcondition)]
  have hseat : ∀ k, (t.modifyElement first (Builder.withBranch ⟨condition, id⟩)).seat? k =
      t.seat? k := Alike.seat? (Alike.modifyElement t first fun _ _ => rfl)
  refine (h.addFurther (links?_of_element? hfirst) hid hbetween hseat hnew).settle ?_ ?_ ?_
  · intro p hp
    rw [hseat, hid] at hp
    cases (Prod.mk.inj (Option.some.inj hp)).2
  · intro p _ _
    exact ⟨first, _, by rw [hnew, if_pos rfl], by simp⟩
  · intro br hp _
    rw [hseat, hid] at hp
    exact (Prod.mk.inj (Option.some.inj hp)).2.symm

/-- Beside the innermost element, behind the last finished one that is no branch, there are only
branches. -/
theorem Placed.isBranch_of_lt {parent prev id : Nat} {rest : List NodeId} {pe : Element}
    {init : List NodeId} (h : t.Placed (id :: parent :: rest))
    (hstacked : Stacked t (parent :: rest) id) (hpe : t.element? parent = some pe)
    (hchildren : pe.children = init ++ [prev]) {m : Nat} {br : Bool} (hprev : prev < m)
    (hid : m < id) (hm : t.seat? m = some (some parent, br)) : br = true := by
  cases hstacked with
  | cons hlinks _ _ hforest houter =>
      rw [links?_of_element? hpe] at hlinks
      obtain rfl := Option.some.inj (Option.some.inj hlinks)
      have hforest' : Forest t (some parent) (parent + 1) id (init ++ [prev]) := hchildren ▸ hforest
      have hbehind := hforest'.mem_interval prev (by simp)
      cases br with
      | true => rfl
      | false =>
          -- an element that is no branch would be a child behind the last one
          have hclosed : m ∉ id :: parent :: rest := by
            intro hmem
            rcases List.mem_cons.mp hmem with rfl | hmem
            · omega
            · rcases List.mem_cons.mp hmem with rfl | hmem
              · omega
              · have := houter.mem_lt m hmem
                omega
          obtain ⟨l, hl, hmem⟩ := h.child hm hclosed
          rw [links?_of_element? hpe] at hl
          obtain rfl := Option.some.inj (Option.some.inj hl)
          have hmem' : m ∈ init ++ [prev] := hchildren ▸ hmem
          obtain ⟨mid, hfront, hlast⟩ := hforest'.split
          have := hlast.mem_interval prev (by simp)
          rcases List.mem_append.mp hmem' with hmem' | hmem'
          · have := hfront.mem_interval m hmem'
            omega
          · have := List.mem_singleton.mp hmem'
            omega

/-- An element that is no branch is in its place as a child. -/
theorem Placed.addChild {parent id : NodeId} {pe : Element} (h : t.Placed (id :: opened))
    (hpe : t.element? parent = some pe) (hseat : t.seat? id = some (some parent, false)) :
    (t.addChild parent id).Placed opened := by
  have hretains : Retains t (t.addChild parent id) := by
    refine Retains.modifyElement (fun _ _ => rfl) (fun _ _ => rfl) ?_
    intro pe _ c hc _
    exact List.mem_append_left _ hc
  refine (h.retain hretains).settle ?_ ?_ ?_
  · intro p hp
    rw [hretains.seat, hseat] at hp
    cases hp
    refine ⟨_, by rw [Tree.addChild, links?_modifyElement _ hpe, if_pos rfl], ?_⟩
    simp [Element.links]
  · intro p hp
    rw [hretains.seat, hseat] at hp
    cases hp
  · intro br hp
    rw [hretains.seat, hseat] at hp
    cases hp

/-- A branch is in its place when the last child of its parent is a conditional. -/
theorem Placed.afterLast {parent prev id : Nat} {rest : List NodeId} {pe first : Element}
    (h : t.Placed (id :: parent :: rest)) (hstacked : Stacked t (parent :: rest) id)
    (hpe : t.element? parent = some pe) (hprev : pe.children.getLast? = some prev)
    (hfirst : t.element? prev = some first) (hchain : t.Chain prev first)
    (hcondition : first.condition.isSome = true) (hseat : t.seat? id = some (some parent, true))
    (condition : Option String) :
    (t.modifyElement prev (Builder.withBranch ⟨condition, id⟩)).Placed (parent :: rest) := by
  obtain ⟨init, hinit⟩ := List.getLast?_eq_some_iff.mp hprev
  -- the conditional is the last child, and so has the same parent
  have hfirst' : first.parent = some parent := by
    cases hstacked with
    | cons hlinks _ _ hforest =>
        rw [links?_of_element? hpe] at hlinks
        obtain rfl := Option.some.inj (Option.some.inj hlinks)
        exact hforest.parent_eq prev first.links (List.mem_of_getLast? hprev)
          (links?_of_element? hfirst)
  refine h.withBranch hfirst hchain hcondition (hfirst' ▸ hseat) ?_ condition
  intro m br hlt hlt' hm
  rw [hfirst'] at hm
  exact h.isBranch_of_lt hstacked hpe hinit hlt hlt' hm

/-- **Attaching an element without a report** puts it in its place. -/
theorem Placed.joined {id : Nat} {e : Element} (h : t.Placed (id :: opened))
    (hstacked : Stacked t opened id) (hroot : t.root = some 0) (he : t.element? id = some e)
    (hparent : e.parent = opened.head?)
    (hchains : ∀ k ek, t.element? k = some ek → t.Chain k ek) (hj : Joined t opened id e t') :
    t'.Placed opened := by
  have hseat : t.seat? id = some (opened.head?, e.isBranch) := by
    rw [seat?_of_element? he, Element.seat, hparent]
  cases hj with
  | self hopened hself =>
      subst hopened
      obtain rfl : 0 = id := by simpa [hroot] using hself
      refine h.settle ?_ (fun _ _ hne => absurd rfl hne) (fun _ _ hne => absurd rfl hne)
      intro p hp
      rw [hseat] at hp
      cases hp
  | @child parent rest hopened _ hbranch =>
      subst hopened
      rw [show e.isBranch = false from hbranch] at hseat
      cases hstacked with
      | cons hlinks =>
          obtain ⟨pe, hpe, -⟩ := links?_eq_some_some_iff.mp hlinks
          exact h.addChild hpe hseat
  | @branch parent prev rest pe first hopened _ hbranch hpe hprev hfirst hcondition =>
      subst hopened
      rw [show e.isBranch = true from hbranch] at hseat
      have hretains := retains_dropLeaves t parent
      have hdropped := h.retain hretains
      have hstacked' := hstacked.shrink (shrinks_modifyElement t parent
        (fun e _ => shrinks_dropLeaves t e) 0 id)
      have hpe' : (t.modifyElement parent (dropLeaves t)).element? parent =
          some (dropLeaves t pe) := by
        rw [element?_modifyElement, if_pos rfl, hpe]
        rfl
      have hchains' : ∀ k ek, (t.modifyElement parent (dropLeaves t)).element? k = some ek →
          (t.modifyElement parent (dropLeaves t)).Chain k ek :=
        Chained.modifyElement (fun _ _ => ⟨rfl, rfl⟩) hchains
      rw [← hretains.seat] at hseat
      exact hdropped.afterLast hstacked' hpe' hprev hfirst (hchains' prev first hfirst) hcondition
        hseat _
  | @root root first hopened hroot' hne hfirst hcondition hbranch =>
      subst hopened
      rw [show e.isBranch = true from hbranch] at hseat
      obtain rfl : 0 = root := by simpa [hroot] using hroot'
      have hpos : 0 < id := Nat.pos_of_ne_zero fun hzero => hne hzero.symm
      have hfirst' : first.parent = none :=
        (hstacked.forest hpos).1.parent_eq 0 first.links (by simp) (links?_of_element? hfirst)
      refine h.withBranch hfirst (hchains 0 first hfirst) hcondition (hfirst' ▸ hseat) ?_ _
      intro m br hlt hlt' hm
      rw [hfirst'] at hm
      refine h.outer hm ?_ (Nat.ne_of_gt hlt)
      intro hmem
      exact absurd (List.mem_singleton.mp hmem) (Nat.ne_of_lt hlt')

end Tree

/-! ### Builders -/

namespace Build.Builder

theorem placed_append {src : Source} {b : Builder} {parent : NodeId} {n : Node}
    (hn : b.Admits src n) (h : b.tree.Placed b.opened) :
    (b.append parent n).tree.Placed b.opened := by
  have hleaf : n.element? = none ∧ n.links = none := by
    cases n with
    | element => exact hn.elim
    | expression => exact ⟨rfl, rfl⟩
    | text => exact ⟨rfl, rfl⟩
  have hpush : (b.tree.push n).Placed b.opened := by
    refine h.push n ?_ (List.Subset.refl _) (.inl hleaf.1)
    intro l hl
    rw [hleaf.2] at hl
    cases hl
  refine hpush.retain (Tree.Retains.modifyElement (fun _ _ => rfl) (fun _ _ => rfl) ?_)
  intro e _ c hc _
  exact List.mem_append_left _ hc

theorem placed_enter {b : Builder} (src : Source) (tag : String)
    (attributes : List Markup.Attribute) (start stop : Nat) (h : b.tree.Placed b.opened) :
    (b.enter src (b.created src tag attributes start stop)).tree.Placed
      (b.enter src (b.created src tag attributes start stop)).opened := by
  obtain ⟨_, _, _, _, _, _, _, branches, hcreated, -, hbranches⟩ :=
    unopened_created src b tag attributes start stop
  generalize b.created src tag attributes start stop = e at hcreated
  have hfurther : e.branches = branches := (congrArg Element.branches hcreated :)
  have hpush : (b.tree.push (.element e)).Placed (b.tree.size :: b.opened) := by
    refine h.push (.element e) ?_ (List.subset_cons_self _ _) (.inr List.mem_cons_self)
    intro l hl
    cases hl
    simp [Element.links, hfurther, hbranches]
  exact ⟨hpush.child, hpush.branch, hpush.outer, hpush.between⟩

/-- **Finishing an element without a report** puts it in its place. -/
theorem placed_finishElement {src : Source} {b : Builder} {id : NodeId} {rest : List NodeId}
    {e : Element} {t : Tree} (hb : b.Ordered) (hopened : b.opened = id :: rest)
    (he : b.tree.element? id = some e)
    (hfinished : Finished src { b with opened := rest } id e t
      ({ b with opened := rest }.finishElement src id))
    (hjoined : Joined
      (b.tree.modifyElement id fun _ => completed src { b with opened := rest } id e) rest id
      (completed src { b with opened := rest } id e) t) (hchained : b.Chained)
    (h : b.tree.Placed b.opened) :
    ({ b with opened := rest }.finishElement src id).tree.Placed
      ({ b with opened := rest }.finishElement src id).opened := by
  have hstacked := hb.stacked
  rw [hopened] at hstacked h
  have hroot := hb.root_eq hopened
  cases hstacked with
  | cons hlinks hparent _ _ houter =>
      rw [Tree.links?_of_element? he] at hlinks
      obtain rfl := Option.some.inj (Option.some.inj hlinks)
      have hs := Tree.shrinks_completed src { b with opened := rest } he
      have he' : (b.tree.modifyElement id fun _ =>
          completed src { b with opened := rest } id e).element? id =
          some (completed src { b with opened := rest } id e) := by
        rw [Tree.element?_modifyElement, if_pos rfl, he]
        rfl
      have hparent' : (completed src { b with opened := rest } id e).parent = rest.head? := by
        rw [← hparent]
        exact (congrArg Element.parent (frame_completed src { b with opened := rest } id e) :)
      have hcompleted := h.retain (Tree.retains_completed src { b with opened := rest } he)
      have hchained' : Chained { b with opened := rest } := hchained
      have hplaced := hcompleted.joined (houter.shrink (hs 0 id)) hroot he' hparent'
        (hchained'.completed src he) hjoined
      rw [hfinished.tree, hfinished.opened]
      exact hplaced.retain (Tree.retains_trimmed { b with opened := rest, tree := t } id)

/-- **Without reports every finished element is in its place.** -/
theorem quietInvariant_placed (src : Source) :
    QuietInvariant src fun b => b.Chained ∧ b.tree.Placed b.opened where
  init := by
    refine ⟨Chained.init, ?_⟩
    constructor <;> simp [Tree.seat?, Tree.links?, Tree.element?, Tree.node?]
  agrees hagrees h := by
    refine ⟨(invariant_chained src).agrees hagrees h.1, ?_⟩
    rw [hagrees.tree, hagrees.opened]
    exact h.2
  leaf _ _ hn h := ⟨h.1.leaf hn, placed_append hn h.2⟩
  enter tag attributes start stop _ h :=
    ⟨h.1.enter src tag attributes start stop, placed_enter src tag attributes start stop h.2⟩
  stop id stop h := by
    refine ⟨h.1.stop id stop, h.2.retain ?_⟩
    exact Tree.Retains.modifyElement (f := fun e => { e with stop := some stop }) (fun _ _ => rfl)
      (fun _ _ => rfl) fun _ _ _ hc _ => hc
  finish hb hopened he hfinished hjoined h :=
    ⟨h.1.finish src, placed_finishElement hb hopened he hfinished hjoined h.1 h.2⟩

end Build.Builder

/-! ### The ends of conditionals -/

/-- **A conditional ends with its `v-else`**: between an element with `v-else` and a later branch
beside it stands an element with a condition, at which a new conditional starts. -/
def Tree.ElseLast (t : Tree) : Prop :=
  ∀ (k k' : Nat) (e e' : Element), t.element? k = some e → t.element? k' = some e' → k < k' →
    e.parent = e'.parent → e.isBranch = true → e.elseCondition = none → e'.isBranch = true →
    ∃ (m : Nat) (em : Element), k < m ∧ m < k' ∧ t.element? m = some em ∧ em.parent = e.parent ∧
      em.condition.isSome = true

/-- In a chain that ascends, the branches that are not the last are those with a later one. -/
theorem mem_dropLast_iff {branches : List Branch} {b : Branch}
    (hsorted : (branches.map (·.block)).Pairwise (· < ·)) (hb : b ∈ branches) :
    b ∈ branches.dropLast ↔ ∃ b' ∈ branches, b.block < b'.block := by
  obtain ⟨init, last, rfl⟩ :=
    (List.eq_nil_or_concat' branches).resolve_left (List.ne_nil_of_mem hb)
  rw [List.dropLast_concat]
  rw [List.map_append, List.pairwise_append] at hsorted
  have hlast : ∀ c ∈ init, c.block < last.block := fun c hc =>
    hsorted.2.2 c.block (List.mem_map_of_mem hc) last.block (by simp)
  constructor
  · intro hmem
    exact ⟨last, by simp, hlast b hmem⟩
  · rintro ⟨b', hb', hlt⟩
    rcases List.mem_append.mp hb with hb | hb
    · exact hb
    · -- nothing comes behind the last branch
      obtain rfl := List.mem_singleton.mp hb
      rcases List.mem_append.mp hb' with hb' | hb'
      · exact absurd (hlast b' hb') (Nat.lt_asymm hlt)
      · obtain rfl := List.mem_singleton.mp hb'
        exact absurd hlt (Nat.lt_irrefl _)

namespace Tree

variable {t : Tree}

/-- An element with further branches has a condition, and is no branch. -/
theorem Chain.isBranch_eq_false {k : NodeId} {e : Element} (h : t.Chain k e)
    (hcondition : e.condition.isSome = true) : e.isBranch = false := by
  obtain ⟨helse, hisElse⟩ := h.exclusive hcondition
  simp [Element.isBranch, helse, hisElse]

theorem Chain.condition_of_further {k c : NodeId} {e : Element} (h : t.Chain k e)
    (hc : c ∈ e.links.further) : e.condition.isSome = true := by
  cases hcondition : e.condition with
  | none =>
      have hempty := h.branches_eq_nil hcondition
      simp [Element.links, hempty] at hc
  | some exp => rfl

/-- Two conditionals beside each other do not overlap. -/
theorem Placed.not_lt_of_further (h : t.Placed []) {k k' c : Nat} {e e' : Element}
    (hchain : t.Chain k' e') (he : t.element? k = some e) (he' : t.element? k' = some e')
    (hparent : e'.parent = e.parent) (hcondition : e'.condition.isSome = true)
    (hc : c ∈ e.links.further) (hlt : k < k') : c ≤ k' := by
  by_contra hgt
  obtain ⟨-, hbetween⟩ := h.between (links?_of_element? he) hc
  have hseat : t.seat? k' = some (e.parent, e'.isBranch) := by
    rw [seat?_of_element? he', Element.seat, hparent]
  have hbranch := hbetween k' e'.isBranch hlt (by omega) hseat
  rw [hchain.isBranch_eq_false hcondition] at hbranch
  cases hbranch

/-- Where a conditional ends with its `v-else`, no branch before has no condition. -/
theorem Placed.isSome_of_elseLast (h : t.Placed []) (hapart : t.Apart [])
    (hchains : ∀ id e, t.element? id = some e → t.Chain id e) (helse : t.ElseLast) {id : Nat}
    {e : Element} (he : t.element? id = some e) {b : Branch} (hb : b ∈ e.branches.dropLast) :
    b.condition.isSome = true := by
  have hchain := hchains id e he
  have hmem := List.dropLast_subset _ hb
  obtain ⟨b', hmem', hlt⟩ := (mem_dropLast_iff (hapart.pairwise_block he hchain) hmem).mp hb
  obtain ⟨first, further, hbranches⟩ := List.exists_cons_of_ne_nil (List.ne_nil_of_mem hmem)
  have hhead := hchain.head
  rw [hbranches] at hmem hmem' hhead
  obtain ⟨exp, -, hfirst⟩ := Option.map_eq_some_iff.mp hhead.symm
  rcases List.mem_cons.mp hmem with rfl | hmem
  · rw [← hfirst]
    rfl
  · by_contra hnone
    -- both are further branches, since the first one comes in front
    have hascending := hapart.ascending (links?_of_element? he)
    have hfurther : ∀ c ∈ further, c.block ∈ e.links.further := by
      intro c hc
      simpa [Element.links, hbranches] using ⟨c, hc, rfl⟩
    have hbehind : id < b.block := List.rel_of_pairwise_cons hascending (hfurther b hmem)
    have hmem' : b' ∈ further := by
      rcases List.mem_cons.mp hmem' with rfl | hmem'
      · rw [← hfirst] at hlt
        exact absurd hbehind (Nat.lt_asymm hlt)
      · exact hmem'
    obtain ⟨eb, heb, -, hexp, hbranch⟩ := hchain.further b (by simpa [hbranches] using hmem)
    obtain ⟨eb', heb', -, -, hbranch'⟩ := hchain.further b' (by simpa [hbranches] using hmem')
    obtain ⟨hseat, -⟩ := h.between (links?_of_element? he) (hfurther b hmem)
    obtain ⟨hseat', -⟩ := h.between (links?_of_element? he) (hfurther b' hmem')
    rw [seat?_of_element? heb] at hseat
    rw [seat?_of_element? heb'] at hseat'
    have hparent : eb.parent = e.parent := (Prod.mk.inj (Option.some.inj hseat)).1
    have hparent' : eb'.parent = e.parent := (Prod.mk.inj (Option.some.inj hseat')).1
    have hexp' : eb.elseCondition = none := by
      rw [← hexp]
      simpa using hnone
    obtain ⟨m, em, hkm, hmk, hem, hparentm, hcondition⟩ :=
      helse b.block b'.block eb eb' heb heb' hlt (hparent.trans hparent'.symm) hbranch hexp' hbranch'
    have hle := h.not_lt_of_further (hchains m em hem) he hem (hparentm.trans hparent) hcondition
      (hfurther b' hmem') (hbehind.trans hkm)
    exact absurd hmk (Nat.not_lt_of_ge hle)

/-- A branch other than the root belongs to a conditional that starts in front of it. -/
theorem Placed.exists_first (h : t.Placed []) (hapart : t.Apart [])
    (hchains : ∀ id e, t.element? id = some e → t.Chain id e) {k : Nat} {e : Element}
    (he : t.element? k = some e) (hbranch : e.isBranch = true) (hne : k ≠ 0) :
    ∃ (f : Nat) (ef : Element), t.element? f = some ef ∧ k ∈ ef.links.further ∧ f < k ∧
      ef.parent = e.parent ∧ ef.condition.isSome = true := by
  have hseat : t.seat? k = some (e.parent, true) := by
    rw [seat?_of_element? he, Element.seat, hbranch]
  obtain ⟨f, l, hl, hmem⟩ := h.branch hseat (by simp) hne
  obtain ⟨ef, hef, rfl⟩ := links?_eq_some_some_iff.mp hl
  have hsame := (h.between hl hmem).1
  rw [hseat] at hsame
  have hparent : ef.parent = e.parent := (Prod.mk.inj (Option.some.inj hsame)).1.symm
  exact ⟨f, ef, hef, hmem, List.rel_of_pairwise_cons (hapart.ascending hl) hmem, hparent,
    (hchains f ef hef).condition_of_further hmem⟩

/-- Where no branch but the last has no condition, nothing comes behind a `v-else` in its
conditional. -/
theorem Chain.not_lt_of_else {f k k' : Nat} {e ef : Element} (h : t.Chain f ef)
    (hascending : (ef.branches.map (·.block)).Pairwise (· < ·))
    (hlast : ∀ b ∈ ef.branches.dropLast, b.condition.isSome = true) (he : t.element? k = some e)
    (hnone : e.elseCondition = none) (hk : k ∈ ef.links.further) (hk' : k' ∈ ef.links.further) :
    ¬k < k' := by
  intro hlt
  obtain ⟨b, hb, rfl⟩ := List.mem_map.mp hk
  obtain ⟨b', hb', rfl⟩ := List.mem_map.mp hk'
  have hdrop : b ∈ ef.branches.dropLast := by
    rw [mem_dropLast_iff hascending (List.drop_subset 1 _ hb)]
    exact ⟨b', List.drop_subset 1 _ hb', hlt⟩
  obtain ⟨eb, heb, -, hexp, -⟩ := h.further b hb
  obtain rfl : e = eb := by simpa [he] using heb
  have hsome := hlast b hdrop
  rw [hexp, hnone] at hsome
  cases hsome

/-- Where no branch but the last has no condition, conditionals end with their `v-else`. -/
theorem Placed.elseLast (h : t.Placed []) (hapart : t.Apart [])
    (hchains : ∀ id e, t.element? id = some e → t.Chain id e)
    (hlast : ∀ id e, t.element? id = some e → ∀ b ∈ e.branches.dropLast,
      b.condition.isSome = true) : t.ElseLast := by
  intro k k' e e' he he' hlt hparent hbranch hnone hbranch'
  -- the later branch belongs to a conditional, which does not start at the earlier one
  obtain ⟨f', ef', hef', hmem', hbehind', hparent', hcondition'⟩ :=
    h.exists_first hapart hchains he' hbranch' (by omega)
  rw [← hparent] at hparent'
  rcases Nat.lt_trichotomy f' k with hf' | rfl | hf'
  · -- it cannot start in front of the earlier one either
    exfalso
    obtain ⟨f, ef, hef, hmem, hbehind, hparentf, hcondition⟩ :=
      h.exists_first hapart hchains he hbranch (by omega)
    rcases Nat.lt_trichotomy f f' with hff' | rfl | hff'
    · have hle := h.not_lt_of_further (hchains f' ef' hef') hef hef'
        (hparent'.trans hparentf.symm) hcondition' hmem hff'
      exact absurd hle (Nat.not_le_of_gt hf')
    · obtain rfl : ef = ef' := by simpa [hef] using hef'
      have hchain := hchains f ef hef
      exact hchain.not_lt_of_else (hapart.pairwise_block hef hchain) (hlast f ef hef) he hnone
        hmem hmem' hlt
    · have hle := h.not_lt_of_further (hchains f ef hef) hef' hef
        (hparentf.trans hparent'.symm) hcondition hmem' hff'
      exact absurd hle (Nat.not_le_of_gt (Nat.lt_trans hbehind hlt))
  · obtain rfl : e = ef' := by simpa [he] using hef'
    have hfalse := (hchains f' e he).isBranch_eq_false hcondition'
    rw [hbranch] at hfalse
    cases hfalse
  · exact ⟨f', ef', hf', hbehind', hef', hparent', hcondition'⟩

end Tree

namespace Build

theorem placed_of_parse {settings : Settings} {template : String} {parsed : Parsed}
    (h : parse settings template = .ok parsed) (hquiet : parsed.problems = []) :
    parsed.tree.Placed [] := by
  unfold parse at h
  split at h
  · cases h
  · rename_i delimiters _
    cases h
    have hbalanced : Markup.replay (Markup.tokens (Markup.events settings template)) [] = some [] :=
      Markup.replay_scan settings [] 0 template.toList
    have hplaced := ((quietInvariant_placed ⟨settings, template, delimiters⟩).run
      (Markup.events settings template) hquiet).2
    rwa [opened_run hbalanced] at hplaced

/-- **The conditionals of a template without reports.**  Every element with `v-else` or `v-else-if`
is a further branch of exactly one conditional, but for the root, which is a branch of none.  In
every conditional only the last branch may lack a condition, exactly when between an element with
`v-else` and a later branch beside it a new conditional starts. -/
theorem branches_of_quiet_parse {settings : Settings} {template : String} {parsed : Parsed}
    (h : parse settings template = .ok parsed) (hquiet : parsed.problems = []) :
    (∀ id e, parsed.tree.element? id = some e → e.isBranch = true → parsed.tree.root ≠ some id →
      ∃! k, ∃ ek, parsed.tree.element? k = some ek ∧ id ∈ (ek.branches.drop 1).map (·.block)) ∧
    (∀ id, parsed.tree.root = some id → ∀ k ek, parsed.tree.element? k = some ek →
      id ∉ (ek.branches.drop 1).map (·.block)) ∧
    ((∀ id e, parsed.tree.element? id = some e → ∀ b ∈ e.branches.dropLast,
      b.condition.isSome = true) ↔ parsed.tree.ElseLast) := by
  have hplaced := placed_of_parse h hquiet
  have hapart := apart_of_parse h
  have hchains : ∀ id e, parsed.tree.element? id = some e → parsed.tree.Chain id e :=
    fun id e he => chain_of_parse h he
  have hroot : parsed.tree.root = if parsed.tree.size = 0 then none else some 0 := by
    obtain ⟨b, hb, htree⟩ := Builder.Invariant.of_parse invariant_ordered h
    rw [← htree]
    exact hb.root
  refine ⟨?_, ?_, ?_⟩
  · intro id e he hbranch hne
    have hlt : (id : Nat) < parsed.tree.size :=
      Tree.lt_size_of_seat? (Tree.seat?_of_element? he)
    rw [hroot, if_neg (Nat.ne_of_gt (Nat.zero_lt_of_lt hlt))] at hne
    obtain ⟨k, ek, hek, hmem, -⟩ :=
      hplaced.exists_first hapart hchains he hbranch (fun hzero => hne (by rw [hzero]))
    refine ⟨k, ⟨ek, hek, hmem⟩, ?_⟩
    rintro k' ⟨ek', hek', hmem'⟩
    exact hapart.once (Tree.links?_of_element? hek') (Tree.links?_of_element? hek) hmem' hmem
  · intro id hid k ek hek hmem
    rw [hroot] at hid
    split at hid
    · cases hid
    · obtain rfl : 0 = id := Option.some.inj hid
      have hlt := List.rel_of_pairwise_cons (hapart.ascending (Tree.links?_of_element? hek)) hmem
      exact absurd hlt (Nat.not_lt_zero k)
  · constructor
    · intro hlast
      exact hplaced.elseLast hapart hchains hlast
    · intro helse id e he b hb
      exact hplaced.isSome_of_elseLast hapart hchains helse he hb

/-- Two conditionals beside each other, the first one with three branches. -/
theorem branches_of_quiet_parse_siblings :
    ∃ parsed e, parse Settings.web
        "<p><a v-if=\"x\"/> <a v-else-if=\"y\"/> <a v-else/> <b v-if=\"z\"/><b v-else/></p>" =
          .ok parsed ∧
      parsed.problems = [] ∧ parsed.tree.root = some 0 ∧ parsed.tree.element? 5 = some e ∧
      e.isBranch = true ∧
      (∃! k, ∃ ek, parsed.tree.element? k = some ek ∧ 5 ∈ (ek.branches.drop 1).map (·.block)) ∧
      ((∀ id e, parsed.tree.element? id = some e → ∀ b ∈ e.branches.dropLast,
        b.condition.isSome = true) ↔ parsed.tree.ElseLast) := by
  obtain ⟨parsed, hparsed⟩ := exists_parse Settings.web
    "<p><a v-if=\"x\"/> <a v-else-if=\"y\"/> <a v-else/> <b v-if=\"z\"/><b v-else/></p>"
    (by simp [Settings.web])
  have hcheck : (Except.ok parsed : Except CompileError Parsed).toOption.any (fun parsed =>
      parsed.problems.isEmpty && parsed.tree.root == some 0 &&
        (parsed.tree.element? 5).any (·.isBranch)) := by
    rw [← hparsed]
    decide +kernel
  obtain ⟨hcheck, helement⟩ := (Bool.and_eq_true _ _).mp hcheck
  obtain ⟨hquiet, hroot⟩ := (Bool.and_eq_true _ _).mp hcheck
  obtain ⟨e, he, hbranch⟩ := (Option.any_eq_true _ (parsed.tree.element? 5)).mp helement
  have hquiet : parsed.problems = [] := List.isEmpty_iff.mp hquiet
  have hroot : parsed.tree.root = some 0 := beq_iff_eq.mp hroot
  obtain ⟨honce, -, hlast⟩ := branches_of_quiet_parse hparsed hquiet
  exact ⟨parsed, e, hparsed, hquiet, hroot, he, hbranch,
    honce 5 e he hbranch (by simp [hroot]), hlast⟩

/-- **Branches that are lost without a report**: a root with `v-else` is in no conditional, and a
second `v-else` is a branch behind one without a condition. -/
theorem exists_lost_branches :
    (∃ parsed e, parse Settings.web "<div v-else></div>" = .ok parsed ∧ parsed.problems = [] ∧
      parsed.tree.element? 0 = some e ∧ e.isBranch = true ∧
      ∀ k ek, parsed.tree.element? k = some ek → 0 ∉ (ek.branches.drop 1).map (·.block)) ∧
    ∃ parsed e, parse Settings.web
        "<div><p v-if=\"a\">1</p><p v-else>2</p><p v-else>3</p></div>" = .ok parsed ∧
      parsed.problems = [] ∧ parsed.tree.element? 1 = some e ∧
      e.branches = [⟨some "a", 1⟩, ⟨none, 3⟩, ⟨none, 5⟩] := by
  constructor
  · obtain ⟨parsed, hparsed⟩ :=
      exists_parse Settings.web "<div v-else></div>" (by simp [Settings.web])
    have hcheck : (Except.ok parsed : Except CompileError Parsed).toOption.any (fun parsed =>
        parsed.problems.isEmpty && (parsed.tree.element? 0).any (·.isBranch)) := by
      rw [← hparsed]
      decide +kernel
    obtain ⟨hquiet, helement⟩ := (Bool.and_eq_true _ _).mp hcheck
    obtain ⟨e, he, hbranch⟩ := (Option.any_eq_true _ (parsed.tree.element? 0)).mp helement
    refine ⟨parsed, e, hparsed, List.isEmpty_iff.mp hquiet, he, hbranch, ?_⟩
    intro k ek hek hmem
    have hascending := (apart_of_parse hparsed).ascending (Tree.links?_of_element? hek)
    exact absurd (List.rel_of_pairwise_cons hascending hmem) (Nat.not_lt_zero k)
  · obtain ⟨parsed, hparsed⟩ := exists_parse Settings.web
      "<div><p v-if=\"a\">1</p><p v-else>2</p><p v-else>3</p></div>" (by simp [Settings.web])
    have hcheck : (Except.ok parsed : Except CompileError Parsed).toOption.any (fun parsed =>
        parsed.problems.isEmpty && (parsed.tree.element? 1).any
          (·.branches = [⟨some "a", 1⟩, ⟨none, 3⟩, ⟨none, 5⟩])) := by
      rw [← hparsed]
      decide +kernel
    obtain ⟨hquiet, helement⟩ := (Bool.and_eq_true _ _).mp hcheck
    obtain ⟨e, he, hbranches⟩ := (Option.any_eq_true _ (parsed.tree.element? 1)).mp helement
    exact ⟨parsed, e, hparsed, List.isEmpty_iff.mp hquiet, he, of_decide_eq_true hbranches⟩

end Build

end Templating
