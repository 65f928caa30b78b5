import Templating.Proofs.Render.Gathering
import Templating.Proofs.Tree.Inside

/-!
**The loops around generated code.**

Code that is generated for an element stands inside the callbacks of loops, and only there the
variables of these loops are known.  Code that is put into a function of its own leaves all
callbacks behind.  The scope of a piece of code should be the loops that the element lies inside of,
up to the last element on the way to it whose code is put into a function of its own.

Main definitions:

* `Templating.Render.Place`, `Templating.Render.Code.places` — the pieces of a code and the loops
  around them;
* `Templating.Tree.Lifts` — the elements whose code is put into a function of its own;
* `Templating.Tree.ScopeOf` — the loops on a way down that are left;
* `Templating.Render.Place.Exact` — **a piece of code has the scope of its element**;
* `Templating.Render.Produces` — what the generator adds.

Main results:

* `Templating.Tree.Around.own`, `Templating.Tree.OwnScope.nil` — the scope that an element starts
  with;
* `Templating.Tree.OwnScope.looped`, `Templating.Tree.OwnScope.unlooped` — its own loop;
* `Templating.Render.Produces.append`, `Templating.Render.Produces.lift` — putting codes together,
  and putting them aside.
-/

set_option autoImplicit false

namespace Templating

open Static (dependents)

/-! ### Pieces of code -/

namespace Render

/-- What a piece of code does for an element. -/
inductive Role where
  /-- It asks the condition of the element, `v-if` or `v-else-if`. -/
  | guard
  /-- It makes the element, with its data. -/
  | body
  /-- It is a text or a comment among the children of the element. -/
  | text
  deriving Repr, DecidableEq

/-- A piece of code: what it does for which element, and the loops around it, from the inside
out. -/
structure Place where
  role : Role
  origin : NodeId
  scope : List NodeId
  deriving Repr, DecidableEq

mutual

/-- The pieces of a code that stands among the children of `owner` and inside the loops of
`scope`.  A condition belongs to the element that it decides about.  A reference has no pieces: what
it refers to is a function of its own. -/
def Code.places (owner : Option NodeId) (scope : List NodeId) : Code → List Place
  | .absent | .nothing | .hoisted .. => []
  | .text .. | .comment .. => owner.toList.map fun id => ⟨.text, id, scope⟩
  | .keyed _ body _ _ => body.places owner scope
  | .loop id _ body => body.places owner (id :: scope)
  | .choice id _ yes no =>
      ⟨.guard, yes.origin?.getD id, scope⟩ :: (yes.places owner scope ++ no.places owner scope)
  | .fragment id children => ⟨.body, id, scope⟩ :: children.places (some id) scope
  | .slot id _ children _ => ⟨.body, id, scope⟩ :: children.places (some id) scope
  | .create id _ _ children => ⟨.body, id, scope⟩ :: children.places (some id) scope
  | .list items _ => Code.placesAll owner scope items
  | .alone item _ => item.places owner scope

/-- The pieces of several codes. -/
def Code.placesAll (owner : Option NodeId) (scope : List NodeId) : List Code → List Place
  | [] => []
  | c :: cs => c.places owner scope ++ Code.placesAll owner scope cs

end

/-- The pieces of the codes that were put aside.  Each of them is a function of its own, so there is
no loop around it. -/
def Generator.places (g : Generator) : List Place := g.hoisted.flatMap (Code.places none [])

/-- The pieces of all functions of a tree. -/
def Rendered.places (r : Rendered) : List Place :=
  (r.root.toList ++ r.hoisted).flatMap (Code.places none [])

end Render

/-! ### Scopes -/

namespace Tree

/-- An element whose code is put into a function of its own: it is rendered once and for all, or it
is rendered once and not known to stand in a loop. -/
def Lifts (t : Tree) (id : NodeId) : Prop :=
  ∃ e, t.element? id = some e ∧
    (e.staticRoot = some true ∨ e.once = true ∧ e.staticInFor ≠ some true)

/-- Of the loops among the nodes `R` of a way down, `scope` has those that are left: behind them no
code is put into a function of its own. -/
def ScopeOf (t : Tree) (R : NodeId → Prop) (scope : List NodeId) : Prop :=
  ∀ a : Nat, R a → t.Loops a → (a ∈ scope ↔ ∀ o : Nat, R o → t.Lifts o → o ≤ a)

/-- The scope that an element starts with, its own loop left out: it was put into a function of its
own already, if it has to be. -/
structure OwnScope (t : Tree) (id : Nat) (scope : List NodeId) : Prop where
  around : ∀ a : Nat, t.Inside id a → t.Loops a →
    (a ∈ scope ↔ ∀ o : Nat, t.Within id o → t.Lifts o → o ≤ a)
  lt : ∀ s : Nat, s ∈ scope → s < id

/-- The scope of the children of an element. -/
structure FullScope (t : Tree) (id : Nat) (scope : List NodeId) : Prop where
  within : t.ScopeOf (t.Within id) scope
  le : ∀ s : Nat, s ∈ scope → s ≤ id

/-- The scope that the code around an element gives to it. -/
structure Around (t : Tree) (id : Nat) (scope : List NodeId) : Prop where
  inside : t.ScopeOf (t.Inside id) scope
  le : ∀ s : Nat, s ∈ scope → s < id

variable {t : Tree} {id : Nat} {e : Element} {scope : List NodeId}

theorem lifts_iff (he : t.element? id = some e) : t.Lifts id ↔
    e.staticRoot = some true ∨ e.once = true ∧ e.staticInFor ≠ some true := by
  simp [Lifts, he]

/-- An element that stays where it is keeps the scope around it. -/
theorem Around.own (h : t.Around id scope) (hstays : ¬t.Lifts id) : t.OwnScope id scope where
  around a ha hloop := by
    rw [h.inside a ha hloop]
    constructor
    · rintro hall o (rfl | ho) hlifts
      · exact absurd hlifts hstays
      · exact hall o ho hlifts
    · intro hall o ho
      exact hall o (.inr ho)
  lt := h.le

/-- A function of its own has no loops around it. -/
theorem OwnScope.nil (hfirst : t.ParentsFirst) (hlifts : t.Lifts id) : t.OwnScope id [] where
  around a ha _ := by
    have hlt := hfirst.lt_of_inside ha
    simp only [List.not_mem_nil, false_iff]
    intro hall
    exact Nat.not_le_of_gt hlt (hall id (.inl rfl) hlifts)
  lt := by simp

/-- The callback of its own loop is around an element. -/
theorem OwnScope.looped (hfirst : t.ParentsFirst) (h : t.OwnScope id scope) :
    t.FullScope id (id :: scope) where
  within := by
    rintro a (rfl | ha) hloop
    · simp only [List.mem_cons, true_or, true_iff]
      rintro o (rfl | ho) -
      · exact Nat.le_refl o
      · exact Nat.le_of_lt (hfirst.lt_of_inside ho)
    · have hne : a ≠ id := Nat.ne_of_lt (hfirst.lt_of_inside ha)
      rw [List.mem_cons, or_iff_right hne]
      exact h.around a ha hloop
  le s hs := by
    rcases List.mem_cons.mp hs with rfl | hs
    · exact Nat.le_refl s
    · exact Nat.le_of_lt (h.lt s hs)

/-- An element without a loop adds nothing to its scope. -/
theorem OwnScope.unlooped (h : t.OwnScope id scope) (hno : ¬t.Loops id) :
    t.FullScope id scope where
  within := by
    rintro a (rfl | ha) hloop
    · exact absurd hloop hno
    · exact h.around a ha hloop
  le s hs := Nat.le_of_lt (h.lt s hs)

/-- The scope of the children gives the scope of the conditional, for an element that stays where it
is. -/
theorem FullScope.scopeOf_inside (h : t.FullScope id scope) (hstays : ¬t.Lifts id) :
    t.ScopeOf (t.Inside id) scope := by
  intro a ha hloop
  rw [h.within a (.inr ha) hloop]
  constructor
  · intro hall o ho
    exact hall o (.inr ho)
  · rintro hall o (rfl | ho) hlifts
    · exact absurd hlifts hstays
    · exact hall o ho hlifts

/-- The own loop of an element is in the scope of its children. -/
theorem FullScope.mem_self (hfirst : t.ParentsFirst) (h : t.FullScope id scope)
    (hloop : t.Loops id) : id ∈ scope := by
  rw [h.within id (.inl rfl) hloop]
  rintro o (rfl | ho) -
  · exact Nat.le_refl o
  · exact Nat.le_of_lt (hfirst.lt_of_inside ho)

end Tree

namespace Render

variable {t : Tree} {root : NodeId}

/-- **A piece of code has the scope of its element.**  The condition of an element is inside its own
loop when it is the first of its conditional and the element is not rendered once. -/
structure Place.Exact (t : Tree) (root : NodeId) (p : Place) : Prop where
  met : t.Reach dependents root p.origin
  guard : p.role = .guard → t.ScopeOf (t.Inside p.origin) p.scope ∧
    ∃ e, t.element? p.origin = some e ∧
      (e.condition.isSome = true ∨ e.elseCondition.isSome = true) ∧
      (e.loop.isSome = true → (p.origin ∈ p.scope ↔ e.once = false ∧ e.condition.isSome = true))
  own : p.role ≠ .guard → t.ScopeOf (t.Within p.origin) p.scope ∧
    ∃ e, t.element? p.origin = some e

/-! ### What has to be there -/

/-- The children of an element that are rendered, whatever the element is. -/
def shownChildren (e : Element) : List NodeId := if e.inlineTemplate then [] else e.children

/-- Where an element leads when it is rendered: to its children, unless they are an inline template,
and to the branches of its conditional up to the first without a condition. -/
def shown (e : Element) : List NodeId :=
  shownChildren e ++ if e.condition.isSome then renderedBlocks (e.branches.drop 1) else []

/-- The pieces that the code of a node has to have: a body for every element, and a guard when a
conditional starts at it. -/
def Wanted (t : Tree) (id : NodeId) (role : Role) (k : NodeId) : Prop :=
  t.Reach shown id k ∧ ∃ e, t.element? k = some e ∧
    (role = .body ∨ role = .guard ∧ e.condition.isSome = true)

/-- The pieces that an element has to have without its conditional. -/
def WantedOwn (t : Tree) (id : NodeId) (e : Element) (role : Role) (k : NodeId) : Prop :=
  k = id ∧ role = .body ∨ ∃ c ∈ shownChildren e, Wanted t c role k

theorem not_wanted_of_leaf {id k : NodeId} {role : Role} (h : t.element? id = none) :
    ¬Wanted t id role k := by
  rintro ⟨hreach, e, he, -⟩
  rw [Tree.reach_iff_of_leaf h] at hreach
  rw [hreach, h] at he
  cases he

theorem wanted_of_own {id k : NodeId} {e : Element} {role : Role} (he : t.element? id = some e)
    (h : WantedOwn t id e role k) : Wanted t id role k := by
  rcases h with ⟨rfl, hrole⟩ | ⟨c, hc, hreach, hk⟩
  · exact ⟨.refl, e, he, .inl hrole⟩
  · refine ⟨(Tree.reach_iff_of_element he).mpr (.inr ⟨c, ?_, hreach⟩), hk⟩
    exact List.mem_append_left _ hc

/-- The pieces of an element: its own, the question of its conditional, and the further branches. -/
theorem wanted_cases {id k : NodeId} {e : Element} {role : Role} (he : t.element? id = some e)
    (h : Wanted t id role k) : WantedOwn t id e role k ∨ e.condition.isSome = true ∧
      (k = id ∧ role = .guard ∨ ∃ c ∈ renderedBlocks (e.branches.drop 1), Wanted t c role k) := by
  obtain ⟨hreach, ek, hek, hrole⟩ := h
  rcases (Tree.reach_iff_of_element he).mp hreach with rfl | ⟨c, hc, hreach⟩
  · obtain rfl : e = ek := by simpa [he] using hek
    rcases hrole with hbody | ⟨hguard, hcondition⟩
    · exact .inl (.inl ⟨rfl, hbody⟩)
    · exact .inr ⟨hcondition, .inl ⟨rfl, hguard⟩⟩
  · rcases List.mem_append.mp hc with hc | hc
    · exact .inl (.inr ⟨c, hc, hreach, ek, hek, hrole⟩)
    · split at hc
      · rename_i hcondition
        exact .inr ⟨hcondition, .inr ⟨c, hc, hreach, ek, hek, hrole⟩⟩
      · cases hc

/-! ### What the generator adds -/

/-- The generator dealt with numbers below `n` only. -/
structure Generator.Behind (g : Generator) (n : Nat) : Prop where
  static : ∀ k ∈ g.staticDone, k < n
  once : ∀ k ∈ g.onceDone, k < n
  loop : ∀ k ∈ g.loopDone, k < n
  choice : ∀ k ∈ g.choiceDone, k < n

namespace Generator.Behind

variable {g : Generator} {n n' : Nat}

theorem mono (h : g.Behind n) (hle : n ≤ n') : g.Behind n' where
  static k hk := Nat.lt_of_lt_of_le (h.static k hk) hle
  once k hk := Nat.lt_of_lt_of_le (h.once k hk) hle
  loop k hk := Nat.lt_of_lt_of_le (h.loop k hk) hle
  choice k hk := Nat.lt_of_lt_of_le (h.choice k hk) hle

theorem not_mem (h : g.Behind n) :
    n ∉ g.staticDone ∧ n ∉ g.onceDone ∧ n ∉ g.loopDone ∧ n ∉ g.choiceDone :=
  ⟨fun hk => Nat.lt_irrefl n (h.static n hk), fun hk => Nat.lt_irrefl n (h.once n hk),
    fun hk => Nat.lt_irrefl n (h.loop n hk), fun hk => Nat.lt_irrefl n (h.choice n hk)⟩

end Generator.Behind

/-- **What the generator adds** on the way from `g` to `g'`, when it gives code with the pieces
`ps`: all new pieces have the scopes of their elements, nothing that was put aside is lost, only
elements below `n` are dealt with, and the pieces in `R` are there. -/
structure Produces (t : Tree) (root : NodeId) (R : Role → NodeId → Prop) (n : Nat) (g : Generator)
    (ps : List Place) (g' : Generator) : Prop where
  sound : ∀ p ∈ ps ++ g'.places, p ∈ g.places ∨ p.Exact t root
  kept : g.places ⊆ g'.places
  behind : g'.Behind n
  present : ∀ role k, R role k → ∃ scope, ⟨role, k, scope⟩ ∈ ps ++ g'.places

namespace Produces

variable {R R' : Role → NodeId → Prop} {n n' : Nat} {g g' g'' : Generator} {ps ps' : List Place}

theorem refl (hbehind : g.Behind n) (hR : ∀ role k, ¬R role k) : Produces t root R n g [] g where
  sound _ hp := .inl hp
  kept := List.Subset.refl _
  behind := hbehind
  present role k hk := absurd hk (hR role k)

theorem mono (h : Produces t root R n g ps g') (hn : n ≤ n')
    (hR : ∀ role k, R' role k → R role k) : Produces t root R' n' g ps g' where
  sound := h.sound
  kept := h.kept
  behind := h.behind.mono hn
  present role k hk := h.present role k (hR role k hk)

/-- Where the generator started from is seen with what was put aside. -/
theorem of_hoisted_eq (h : Produces t root R n g ps g') (hg : g''.hoisted = g.hoisted) :
    Produces t root R n g'' ps g' := by
  have hplaces : g''.places = g.places := by rw [Generator.places, hg, Generator.places]
  exact ⟨fun p hp => hplaces ▸ h.sound p hp, hplaces ▸ h.kept, h.behind, h.present⟩

/-- What the generator came to is seen with what was put aside and what was dealt with. -/
theorem congr (h : Produces t root R n g ps g') (hg : g''.hoisted = g'.hoisted)
    (hbehind : g''.Behind n) : Produces t root R n g ps g'' := by
  have hplaces : g''.places = g'.places := by rw [Generator.places, hg, Generator.places]
  refine ⟨?_, ?_, hbehind, ?_⟩
  · rw [hplaces]
    exact h.sound
  · rw [hplaces]
    exact h.kept
  · rw [hplaces]
    exact h.present

/-- A piece in front of the others. -/
theorem cons {p : Place} (h : Produces t root R n g ps g') (hp : p.Exact t root)
    (hR : ∀ role k, R' role k → role = p.role ∧ k = p.origin ∨ R role k) :
    Produces t root R' n g (p :: ps) g' where
  sound q hq := by
    rcases List.mem_cons.mp hq with rfl | hq
    · exact .inr hp
    · exact h.sound q hq
  kept := h.kept
  behind := h.behind
  present role k hk := by
    rcases hR role k hk with ⟨rfl, rfl⟩ | hk
    · exact ⟨p.scope, by simp⟩
    · obtain ⟨scope, hmem⟩ := h.present role k hk
      exact ⟨scope, List.mem_cons_of_mem p hmem⟩

/-- **Code and then further code.** -/
theorem append (h : Produces t root R n g ps g') (h' : Produces t root R' n' g' ps' g'') :
    Produces t root (fun role k => R role k ∨ R' role k) n' g (ps ++ ps') g'' where
  sound p hp := by
    have hfirst : p ∈ ps ++ g'.places → p ∈ g.places ∨ p.Exact t root := h.sound p
    rw [List.append_assoc] at hp
    rcases List.mem_append.mp hp with hp | hp
    · exact hfirst (List.mem_append_left _ hp)
    · rcases h'.sound p hp with hp | hp
      · exact hfirst (List.mem_append_right _ hp)
      · exact .inr hp
  kept := List.Subset.trans h.kept h'.kept
  behind := h'.behind
  present role k hk := by
    rcases hk with hk | hk
    · obtain ⟨scope, hmem⟩ := h.present role k hk
      refine ⟨scope, ?_⟩
      rcases List.mem_append.mp hmem with hmem | hmem
      · exact List.mem_append_left _ (List.mem_append_left _ hmem)
      · exact List.mem_append_right _ (h'.kept hmem)
    · obtain ⟨scope, hmem⟩ := h'.present role k hk
      refine ⟨scope, ?_⟩
      rw [List.append_assoc]
      exact List.mem_append_right _ hmem

/-- **Code that is put aside** is a function of its own. -/
theorem lift {body : Code} (h : Produces t root R n g (body.places none []) g')
    (hg : g''.hoisted = g'.hoisted ++ [body]) (hbehind : g''.Behind n) :
    Produces t root R n g [] g'' := by
  have hplaces : g''.places = g'.places ++ body.places none [] := by
    rw [Generator.places, hg, List.flatMap_append, Generator.places]
    simp
  have hmem : ∀ p, p ∈ body.places none [] ++ g'.places ↔ p ∈ [] ++ g''.places := by
    intro p
    rw [hplaces, List.nil_append, List.mem_append, List.mem_append, or_comm]
  refine ⟨fun p hp => h.sound p ((hmem p).mpr hp), ?_, hbehind, ?_⟩
  · rw [hplaces]
    exact List.Subset.trans h.kept (List.subset_append_left _ _)
  · intro role k hk
    obtain ⟨scope, hp⟩ := h.present role k hk
    exact ⟨scope, (hmem _).mp hp⟩

end Produces

end Render

end Templating
