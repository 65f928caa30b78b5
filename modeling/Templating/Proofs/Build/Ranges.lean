import Templating.Proofs.Build.Order
import Templating.Proofs.Build.Sites
import Templating.Proofs.Markup.Pacing

/-!
**Ranges in the source.**

The ranges of a tree are nested like its elements: what is inside an element stands between its
start and its end, and the children of an element stand one behind another.  The second part has an
exception.  An element that a start tag closes under the rules of HTML ends where that start tag
ends, and so it runs over the beginning of the element that comes next.

While the tree is built, the children of an open element stand before the byte that is read next,
but for those that the start tag to come has just closed.

Main definitions:

* `Templating.Site.Overruns` — the exception;
* `Templating.Site.Before` — one node stands before another one, the exception included;
* `Templating.Laminar` — **ranges that are nested like the elements**;
* `Templating.Build.Builder.Ranged` — the ranges while a tree is built;
* `Templating.Markup.Opens` — where the start tags of a template are.

Main results:

* `Templating.Build.Builder.Ranged.adopt`, `Templating.Build.Builder.Ranged.rebase` — what an element
  that gets a child keeps, and what a change keeps that gives no element a child;
* `Templating.Build.Builder.Ranged.leaf`, `Templating.Build.Builder.Ranged.enter`,
  `Templating.Build.Builder.Ranged.close`, `Templating.Build.Builder.Ranged.displace` — what the
  events do;
* `Templating.Build.Builder.Ranged.foldl` — events that go forward keep the ranges in order;
* `Templating.Build.exists_parse_laminar` — **the ranges of a template**.
-/

set_option autoImplicit false

namespace Templating

open Markup (Coming Nests Paced)

/-! ### Sites side by side -/

/-- An element ends with the start tag of the next one, which may not stand inside it under the
rules of HTML.  `opens` says where the start tags are. -/
structure Site.Overruns (settings : Settings) (opens : String → Nat → Nat → Prop) (a b : Site) :
    Prop where
  html : settings.expectHtml = true
  tags : ∃ outer inner, a.tag = some outer ∧ b.tag = some inner ∧
    ¬Nests settings.tags outer inner ∧ opens inner b.start a.stop
  lt : b.start < a.stop
  le : a.stop ≤ b.stop

/-- A node stands before another one, or runs over its start tag. -/
def Site.Before (settings : Settings) (opens : String → Nat → Nat → Prop) (a b : Site) : Prop :=
  a.stop ≤ b.start ∨ a.Overruns settings opens b

/-- An element that the start tag to come has closed. -/
structure Site.Late (settings : Settings) (c : Coming) (a : Site) : Prop where
  html : settings.expectHtml = true
  tag : ∃ name, a.tag = some name ∧ ¬Nests settings.tags name c.name
  stop : a.stop = c.stop

section Sites

variable {settings : Settings} {opens : String → Nat → Nat → Prop} {a b : Site}

theorem Site.Before.later (h : a.Before settings opens b) {stop : Nat} (hle : b.stop ≤ stop) :
    a.Before settings opens { b with stop } := by
  rcases h with hle' | h
  · exact .inl hle'
  · exact .inr ⟨h.html, h.tags, h.lt, h.le.trans hle⟩

/-- What the start tag has closed runs over it. -/
theorem Site.Late.before {c : Coming} (h : a.Late settings c) (hc : c.start < c.stop)
    (hopens : opens c.name c.start c.stop) :
    a.Before settings opens ⟨some c.name, c.start, c.stop⟩ := by
  obtain ⟨name, htag, hnests⟩ := h.tag
  have hstop := h.stop
  exact .inr ⟨h.html, ⟨name, c.name, htag, rfl, hnests, hstop ▸ hopens⟩, hstop ▸ hc, hstop.le⟩

end Sites

/-- The start tags among some events stand where `opens` says. -/
def Markup.StartTags (opens : String → Nat → Nat → Prop) (es : List Markup.Event) : Prop :=
  ∀ name attributes unary start stop,
    Markup.Event.token (.startTag name attributes unary start stop) ∈ es → opens name start stop

theorem Markup.StartTags.tail {opens : String → Nat → Nat → Prop} {event : Markup.Event}
    {es : List Markup.Event} (h : Markup.StartTags opens (event :: es)) :
    Markup.StartTags opens es :=
  fun name attributes unary start stop hmem =>
    h name attributes unary start stop (List.mem_cons_of_mem event hmem)

/-- **Ranges that are nested like the elements of a tree.** -/
structure Laminar (settings : Settings) (opens : String → Nat → Nat → Prop) (t : Tree) : Prop where
  /-- Every element starts before it ends. -/
  element : ∀ id e, t.element? id = some e →
    ∃ start stop, e.start = some start ∧ e.stop = some stop ∧ start ≤ stop
  /-- A child stands inside its parent. -/
  child : ∀ id e c, t.element? id = some e → c ∈ e.children → ∃ a a', t.site? id = some a ∧
    t.site? c = some a' ∧ a.start ≤ a'.start ∧ a'.start ≤ a'.stop ∧ a'.stop ≤ a.stop
  /-- The children of an element stand one behind another. -/
  siblings : ∀ id e, t.element? id = some e → e.children.Pairwise fun c c' =>
    ∃ a a', t.site? c = some a ∧ t.site? c' = some a' ∧ a.Before settings opens a'

namespace Tree

/-- The element `p` may get something that stands at `a` as its last child. -/
structure Awaits (settings : Settings) (opens : String → Nat → Nat → Prop) (t : Tree) (p : NodeId)
    (a : Site) : Prop where
  start : ∀ ap, t.site? p = some ap → ap.start ≤ a.start
  before : ∀ e c ac, t.element? p = some e → c ∈ e.children → t.site? c = some ac →
    ac.Before settings opens a

/-- A change that leaves the children of all elements as they are, and where they are. -/
structure SameChildren (t t' : Tree) : Prop where
  element : ∀ id e', t'.element? id = some e' →
    e'.children = [] ∨ ∃ e, t.element? id = some e ∧ e.children = e'.children
  site : ∀ id e c, t.element? id = some e → c ∈ e.children → t'.site? c = t.site? c

namespace SameChildren

variable {settings : Settings} {opens : String → Nat → Nat → Prop} {t t' : Tree}

/-- A child was there before, in the same place. -/
theorem exists_child (h : t.SameChildren t') {id c : NodeId} {e' : Element}
    (he' : t'.element? id = some e') (hc : c ∈ e'.children) :
    ∃ e, t.element? id = some e ∧ c ∈ e.children ∧ t'.site? c = t.site? c := by
  rcases h.element id e' he' with hnil | ⟨e, he, hsame⟩
  · rw [hnil] at hc
    cases hc
  · rw [← hsame] at hc
    exact ⟨e, he, hc, h.site id e c he hc⟩

theorem awaits (h : t.SameChildren t') {p : NodeId} {a : Site} (hp : t'.site? p = t.site? p)
    (hawaits : t.Awaits settings opens p a) : t'.Awaits settings opens p a := by
  refine ⟨fun ap hap => hawaits.start ap (hp ▸ hap), fun e' c ac he' hc hac => ?_⟩
  obtain ⟨e, he, hc, hsite⟩ := h.exists_child he' hc
  exact hawaits.before e c ac he hc (hsite ▸ hac)

end SameChildren

end Tree

namespace Build.Builder

/-- **The ranges while a tree is built.**  `stack` has the tags of the open elements, innermost
first, `now` is the byte that is read next, and a start tag may be coming. -/
structure Ranged (settings : Settings) (opens : String → Nat → Nat → Prop) (b : Builder)
    (stack : List String) (now : Nat) (coming : Option Coming) : Prop where
  tags : b.opened.map (fun k => (b.tree.site? k).bind Site.tag) = stack.map some
  sorted : b.opened.Pairwise fun x p : Nat => p < x
  placed : ∀ k : Nat, k < b.tree.size → ∃ a, b.tree.site? k = some a ∧ a.start ≤ a.stop
  /-- A child is there, and is no longer open. -/
  known : ∀ (id c : Nat) (e : Element), b.tree.element? id = some e → c ∈ e.children →
    c < b.tree.size ∧ c ∉ b.opened
  /-- A child stands inside its parent, whose end is not known while it is open. -/
  child : ∀ id c e a ac, b.tree.element? id = some e → c ∈ e.children → b.tree.site? id = some a →
    b.tree.site? c = some ac → a.start ≤ ac.start ∧ (id ∉ b.opened → ac.stop ≤ a.stop)
  siblings : ∀ id e, b.tree.element? id = some e → e.children.Pairwise fun c c' => ∀ a a',
    b.tree.site? c = some a → b.tree.site? c' = some a' → a.Before settings opens a'
  begun : ∀ id a, id ∈ b.opened → b.tree.site? id = some a → a.stop ≤ now
  /-- The children of open elements were read, or they end with the start tag to come. -/
  past : ∀ id c e a, id ∈ b.opened → b.tree.element? id = some e → c ∈ e.children →
    b.tree.site? c = some a → a.stop ≤ now ∨ ∃ next, coming = some next ∧ a.Late settings next
  /-- An open element comes behind the children of the one around it. -/
  around : ∀ before x p after a, b.opened = before ++ x :: p :: after → b.tree.site? x = some a →
    b.tree.Awaits settings opens p a
  ahead : ∀ next, coming = some next → now ≤ next.start ∧ next.start < next.stop

namespace Ranged

variable {settings : Settings} {opens : String → Nat → Nat → Prop} {src : Source} {b b' : Builder}
  {stack : List String} {now : Nat} {coming : Option Coming}

theorem init : Ranged settings opens {} [] 0 none := by
  refine ⟨rfl, .nil, ?_, ?_, ?_, ?_, ?_, ?_, ?_, ?_⟩ <;>
    simp [Tree.size, Tree.element?, Tree.node?]

/-- Only the tree and the open elements matter. -/
theorem congr (hb : Ranged settings opens b stack now coming) (htree : b'.tree = b.tree)
    (hopened : b'.opened = b.opened) : Ranged settings opens b' stack now coming := by
  cases b
  cases b'
  cases htree
  cases hopened
  exact { hb with }

/-- Reading goes forward. -/
theorem mono (hb : Ranged settings opens b stack now none) {next : Nat} (hle : now ≤ next) :
    Ranged settings opens b stack next none := by
  refine { hb with begun := fun id a hid ha => (hb.begun id a hid ha).trans hle,
                   past := fun id c e a hid he hc ha => .inl ?_,
                   ahead := by simp }
  rcases hb.past id c e a hid he hc ha with hpast | ⟨_, hnone, -⟩
  · exact hpast.trans hle
  · cases hnone

/-- A start tag is coming. -/
theorem announce (hb : Ranged settings opens b stack now none) (c : Coming)
    (hstart : now ≤ c.start) (hstop : c.start < c.stop) :
    Ranged settings opens b stack now (some c) := by
  refine { hb with past := fun id k e a hid he hk ha => .inl ?_, ahead := ?_ }
  · rcases hb.past id k e a hid he hk ha with hpast | ⟨_, hnone, -⟩
    · exact hpast
    · cases hnone
  · rintro next hnext
    cases hnext
    exact ⟨hstart, hstop⟩

/-- An open element is there. -/
theorem opened_lt (hb : Ranged settings opens b stack now coming) {id : Nat}
    (hid : id ∈ b.opened) : id < b.tree.size := by
  have hmem : (b.tree.site? id).bind Site.tag ∈ stack.map some := by
    rw [← hb.tags]
    exact List.mem_map_of_mem hid
  obtain ⟨name, -, hname⟩ := List.mem_map.mp hmem
  obtain ⟨a, ha, -⟩ := Option.bind_eq_some_iff.mp hname.symm
  exact Tree.lt_size_of_site? ha

/-- The innermost open element, with its tag. -/
theorem exists_innermost {name : String} (hb : Ranged settings opens b (name :: stack) now coming) :
    ∃ id rest a, b.opened = id :: rest ∧ b.tree.site? id = some a ∧ a.tag = some name := by
  have htags := hb.tags
  cases hopened : b.opened with
  | nil =>
      rw [hopened] at htags
      cases htags
  | cons id rest =>
      rw [hopened, List.map_cons, List.map_cons] at htags
      obtain ⟨a, ha, htag⟩ := Option.bind_eq_some_iff.mp (List.cons.inj htags).1
      exact ⟨id, rest, a, rfl, ha, htag⟩

/-- The innermost open element is behind the others. -/
theorem lt_of_mem_tail (hb : Ranged settings opens b stack now coming) {id k : Nat}
    {rest : List NodeId} (hopened : b.opened = id :: rest) (hk : k ∈ rest) : k < id := by
  have hsorted := hb.sorted
  rw [hopened] at hsorted
  exact (List.pairwise_cons.mp hsorted).1 k hk

/-- The innermost open element is open once. -/
theorem head?_ne_of_mem_tail (hb : Ranged settings opens b stack now coming) {p : NodeId}
    (hp : p ∈ b.opened.tail) : b.opened.head? ≠ some p := by
  intro hhead
  cases hopened : b.opened with
  | nil => simp [hopened] at hp
  | cons id rest =>
      rw [hopened] at hp hhead
      cases hhead
      exact Nat.lt_irrefl p (hb.lt_of_mem_tail hopened hp)

/-! ### Gaining a child -/

/-- **The innermost open element gets a child** that stands behind the others, or it does not. -/
theorem adopt (hb : Ranged settings opens b stack now coming) {c : Nat} {a : Site}
    (hopened : b'.opened = b.opened) (hadopts : b.tree.Adopts b'.tree b.opened.head? c)
    (hclosed : c ∉ b.opened) (hsite : b.tree.site? c = some a)
    (hawaits : ∀ p, b.opened.head? = some p → b.tree.Awaits settings opens p a)
    (hpast : a.stop ≤ now ∨ ∃ next, coming = some next ∧ a.Late settings next) :
    Ranged settings opens b' stack now coming := by
  -- what is known of the children before holds of them and of the new one
  have hchildren : ∀ id e', b'.tree.element? id = some e' → ∃ e, b.tree.element? id = some e ∧
      ∀ k ∈ e'.children, k ∈ e.children ∨ k = c ∧ b.opened.head? = some id := by
    intro id e' he'
    obtain ⟨e, he, hsub | ⟨hhead, hsub⟩⟩ := hadopts.children id e' he'
    · exact ⟨e, he, fun k hk => .inl (hsub.subset hk)⟩
    · refine ⟨e, he, fun k hk => ?_⟩
      rcases List.mem_append.mp (hsub.subset hk) with hk | hk
      · exact .inl hk
      · exact .inr ⟨List.mem_singleton.mp hk, hhead⟩
  constructor
  case tags =>
    rw [hopened]
    simpa only [hadopts.site] using hb.tags
  case sorted =>
    rw [hopened]
    exact hb.sorted
  case placed =>
    intro k hk
    rw [hadopts.site]
    exact hb.placed k (hadopts.size ▸ hk)
  case known =>
    intro id k e' he' hk
    rw [hopened, hadopts.size]
    obtain ⟨e, he, hmem⟩ := hchildren id e' he'
    rcases hmem k hk with hk | ⟨rfl, -⟩
    · exact hb.known id k e he hk
    · exact ⟨Tree.lt_size_of_site? hsite, hclosed⟩
  case child =>
    intro id k e' ai ak he' hk hai hak
    rw [hadopts.site] at hai hak
    rw [hopened]
    obtain ⟨e, he, hmem⟩ := hchildren id e' he'
    rcases hmem k hk with hk | ⟨rfl, hhead⟩
    · exact hb.child id k e ai ak he hk hai hak
    · cases hsite.symm.trans hak
      exact ⟨(hawaits id hhead).start ai hai,
        fun hnot => absurd (List.mem_of_mem_head? hhead) hnot⟩
  case siblings =>
    intro id e' he'
    simp only [hadopts.site]
    obtain ⟨e, he, hsub | ⟨hhead, hsub⟩⟩ := hadopts.children id e' he'
    · exact (hb.siblings id e he).sublist hsub
    · refine List.Pairwise.sublist hsub (List.pairwise_append.mpr
        ⟨hb.siblings id e he, List.pairwise_singleton _ _, ?_⟩)
      intro k hk k' hk' ak ak' hak hak'
      rw [List.mem_singleton] at hk'
      subst hk'
      cases hsite.symm.trans hak'
      exact (hawaits id hhead).before e k ak he hk hak
  case begun =>
    intro id ai hid hai
    rw [hopened] at hid
    rw [hadopts.site] at hai
    exact hb.begun id ai hid hai
  case past =>
    intro id k e' ak hid he' hk hak
    rw [hopened] at hid
    rw [hadopts.site] at hak
    obtain ⟨e, he, hmem⟩ := hchildren id e' he'
    rcases hmem k hk with hk | ⟨rfl, -⟩
    · exact hb.past id k e ak hid he hk hak
    · cases hsite.symm.trans hak
      exact hpast
  case around =>
    intro before x p after ax hsplit hax
    rw [hopened] at hsplit
    rw [hadopts.site] at hax
    have haround := hb.around before x p after ax hsplit hax
    refine ⟨fun ap hap => haround.start ap (hadopts.site p ▸ hap), fun e' k ak he' hk hak => ?_⟩
    rw [hadopts.site] at hak
    obtain ⟨e, he, hmem⟩ := hchildren p e' he'
    rcases hmem k hk with hk | ⟨-, hhead⟩
    · exact haround.before e k ak he hk hak
    · -- the element that gets the child is the innermost one
      have htail : p ∈ b.opened.tail := by
        rw [hsplit]
        cases before <;> simp
      exact absurd hhead (hb.head?_ne_of_mem_tail htail)
  case ahead => exact hb.ahead

/-! ### Changes that keep the children -/

/-- A change that leaves the children of all elements and the open elements as they are, but for the
innermost ones of these, which may be open no longer. -/
theorem rebase (hb : Ranged settings opens b stack now coming) (n : Nat)
    (hopened : b'.opened = b.opened.drop n) (hsame : b.tree.SameChildren b'.tree)
    (hsize : b.tree.size ≤ b'.tree.size)
    (hsite : ∀ k ∈ b'.opened, b'.tree.site? k = b.tree.site? k)
    (hplaced : ∀ k : Nat, k < b'.tree.size → ∃ a, b'.tree.site? k = some a ∧ a.start ≤ a.stop)
    (hchild : ∀ id c e a ac, b.tree.element? id = some e → c ∈ e.children →
      b'.tree.site? id = some a → b.tree.site? c = some ac →
      a.start ≤ ac.start ∧ (id ∉ b'.opened → ac.stop ≤ a.stop)) :
    Ranged settings opens b' (stack.drop n) now coming := by
  have hmem : ∀ k ∈ b'.opened, k ∈ b.opened := fun k hk => List.mem_of_mem_drop (hopened ▸ hk)
  constructor
  case tags =>
    rw [List.map_drop, ← hb.tags, ← List.map_drop, ← hopened]
    exact List.map_congr_left fun k hk => by rw [hsite k hk]
  case sorted =>
    rw [hopened]
    exact hb.sorted.sublist (List.drop_sublist n b.opened)
  case placed => exact hplaced
  case known =>
    intro id c e' he' hc
    obtain ⟨e, he, hc, -⟩ := hsame.exists_child he' hc
    obtain ⟨hlt, hnot⟩ := hb.known id c e he hc
    exact ⟨hlt.trans_le hsize, fun hopen => hnot (hmem c hopen)⟩
  case child =>
    intro id c e' a ac he' hc ha hac
    obtain ⟨e, he, hc, hkept⟩ := hsame.exists_child he' hc
    exact hchild id c e a ac he hc ha (hkept ▸ hac)
  case siblings =>
    intro id e' he'
    rcases hsame.element id e' he' with hnil | ⟨e, he, hchildren⟩
    · rw [hnil]
      exact .nil
    · rw [← hchildren]
      refine (hb.siblings id e he).imp_of_mem fun hc hc' hbefore a a' ha ha' => ?_
      rw [hsame.site id e _ he hc] at ha
      rw [hsame.site id e _ he hc'] at ha'
      exact hbefore a a' ha ha'
  case begun => exact fun id a hid ha => hb.begun id a (hmem id hid) (hsite id hid ▸ ha)
  case past =>
    intro id c e' a hid he' hc ha
    obtain ⟨e, he, hc, hkept⟩ := hsame.exists_child he' hc
    exact hb.past id c e a (hmem id hid) he hc (hkept ▸ ha)
  case around =>
    intro before x p after a hsplit ha
    have hx : x ∈ b'.opened := by simp [hsplit]
    have hp : p ∈ b'.opened := by simp [hsplit]
    refine hsame.awaits (hsite p hp) ?_
    refine hb.around (b.opened.take n ++ before) x p after a ?_ (hsite x hx ▸ ha)
    rw [List.append_assoc, ← hsplit, hopened, List.take_append_drop]
  case ahead => exact hb.ahead

/-! ### New nodes -/

/-- A node is added that is the child of no element yet. -/
theorem push (hb : Ranged settings opens b stack now coming) {t : Tree} {n : Node} {a : Site}
    (hnodes : t.nodes = (b.tree.push n).nodes) (hn : ∀ e, n.element? = some e → e.children = [])
    (hsite : n.site? = some a) (hle : a.start ≤ a.stop) :
    Ranged settings opens { b with tree := t } stack now coming ∧
      b.tree.SameChildren t ∧ t.site? b.tree.size = some a := by
  have hnode : ∀ k : Nat, t.node? k = if k = b.tree.size then some n else b.tree.node? k := by
    intro k
    rw [← Tree.node?_push, Tree.node?, Tree.node?, hnodes]
  have hnew : t.site? b.tree.size = some a := by
    rw [Tree.site?, hnode, if_pos rfl]
    exact hsite
  have hold : ∀ k < b.tree.size, t.site? k = b.tree.site? k := by
    intro k hk
    rw [Tree.site?, hnode, if_neg (Nat.ne_of_lt hk)]
    rfl
  have hsize : t.size = b.tree.size + 1 := by
    rw [Tree.size, hnodes]
    exact Tree.size_push _ _
  have hsame : b.tree.SameChildren t := by
    refine ⟨fun id e he => ?_, fun id e c he hc => hold c (hb.known id c e he hc).1⟩
    rw [Tree.element?, hnode] at he
    split at he
    · exact .inl (hn e he)
    · exact .inr ⟨e, he, rfl⟩
  have hle' : b.tree.size ≤ t.size := by omega
  refine ⟨hb.rebase 0 rfl hsame hle' (fun k hk => hold k (hb.opened_lt hk)) ?_ ?_, hsame, hnew⟩
  · intro k hk
    rcases Nat.lt_succ_iff_lt_or_eq.mp (hsize ▸ hk) with hk | rfl
    · exact hold k hk ▸ hb.placed k hk
    · exact ⟨a, hnew, hle⟩
  · intro id c e ai ac he hc hai hac
    rw [hold id (Tree.lt_size_of_element? he)] at hai
    exact hb.child id c e ai ac he hc hai hac

/-- An open element starts before what comes next. -/
theorem start_le (hb : Ranged settings opens b stack now coming) {p : NodeId} (hp : p ∈ b.opened)
    {a : Site} (ha : b.tree.site? p = some a) : a.start ≤ now := by
  obtain ⟨a', ha', hle⟩ := hb.placed p (hb.opened_lt hp)
  cases ha.symm.trans ha'
  exact hle.trans (hb.begun p a hp ha)

/-- What comes next stands behind the children of an open element. -/
theorem awaits (hb : Ranged settings opens b stack now none) {p : NodeId} (hp : p ∈ b.opened)
    {a : Site} (hle : now ≤ a.start) : b.tree.Awaits settings opens p a := by
  refine ⟨fun ap hap => (hb.start_le hp hap).trans hle, fun e c ac he hc hac => .inl ?_⟩
  rcases hb.past p c e ac hp he hc hac with hpast | ⟨_, hnone, -⟩
  · exact hpast.trans hle
  · cases hnone

/-- **A leaf** goes behind what the innermost open element has. -/
theorem leaf (hb : Ranged settings opens b stack now none) {parent : NodeId} {rest : List NodeId}
    {n : Node} {start stop : Nat} (hranges : src.settings.sourceRanges = true)
    (hopened : b.opened = parent :: rest) (hn : b.Admits src n)
    (hplace : place n = recorded src start stop) (hstart : now ≤ start) (hstop : start ≤ stop) :
    Ranged settings opens (b.append parent n) stack stop none := by
  have hsite := site?_of_place hranges hn hplace
  have hleaf : ∀ e, n.element? = some e → e.children = [] := by
    intro e he
    cases n with
    | element => exact hn.elim
    | expression => cases he
    | text => cases he
  obtain ⟨hpushed, -, hnew⟩ := hb.push (t := b.tree.push n) rfl hleaf hsite hstop
  refine (hpushed.mono (hstart.trans hstop)).adopt (c := b.tree.size)
    (a := ⟨none, start, stop⟩) rfl ?_ ?_ hnew ?_ (.inl le_rfl)
  · have hadopts := Tree.Adopts.addChild (b.tree.push n) parent b.tree.size
    rw [hopened]
    exact hadopts
  · exact fun hmem => Nat.lt_irrefl _ (hb.opened_lt hmem)
  · intro p hp
    exact hpushed.awaits (List.mem_of_mem_head? hp) hstart

/-- Text or a comment adds a leaf, or nothing. -/
theorem leaf? (hb : Ranged settings opens b stack now none) {start stop : Nat}
    (hranges : src.settings.sourceRanges = true) (hstart : now ≤ start) (hstop : start ≤ stop)
    (h : b.Agrees b' ∨ ∃ parent rest n, b.opened = parent :: rest ∧ b.Admits src n ∧
      place n = recorded src start stop ∧ b' = b.append parent n) :
    Ranged settings opens b' stack stop none := by
  rcases h with hagrees | ⟨parent, rest, n, hopened, hn, hplace, rfl⟩
  · exact (hb.mono (hstart.trans hstop)).congr hagrees.tree hagrees.opened
  · exact hb.leaf hranges hopened hn hplace hstart hstop

/-- **The start tag that was coming** opens an element. -/
theorem enter {c : Coming} (hb : Ranged settings opens b stack now (some c)) {e : Element}
    (hopens : opens c.name c.start c.stop) (hsite : e.site? = some ⟨some c.name, c.start, c.stop⟩)
    (hchildren : e.children = []) :
    Ranged settings opens (b.enter src e) (c.name :: stack) c.stop none := by
  obtain ⟨hnow, hlt⟩ := hb.ahead c rfl
  have hnil : ∀ e', (Node.element e).element? = some e' → e'.children = [] := by
    rintro e' he'
    cases he'
    exact hchildren
  obtain ⟨hpushed, hsame, hnew⟩ := hb.push (n := .element e)
    (t := { b.tree.push (.element e) with root := b.tree.root.or (some b.tree.size) })
    rfl hnil hsite hlt.le
  have hread : ∀ a : Site, (a.stop ≤ now ∨ ∃ next, some c = some next ∧ a.Late settings next) →
      a.stop ≤ c.stop := by
    rintro a (hle | ⟨next, hnext, hlate⟩)
    · exact hle.trans (hnow.trans hlt.le)
    · cases hnext
      exact hlate.stop.le
  constructor
  case tags =>
    have htags := hpushed.tags
    rw [Builder.enter, List.map_cons, List.map_cons, hnew, ← htags]
    rfl
  case sorted => exact List.pairwise_cons.mpr ⟨fun k hk => hb.opened_lt hk, hb.sorted⟩
  case placed => exact hpushed.placed
  case known =>
    intro id k e' he' hk
    obtain ⟨hsize, hnot⟩ := hpushed.known id k e' he' hk
    obtain ⟨e₀, he₀, hk, -⟩ := hsame.exists_child he' hk
    have hne := Nat.ne_of_lt (hb.known id k e₀ he₀ hk).1
    exact ⟨hsize, List.not_mem_cons_of_ne_of_not_mem hne hnot⟩
  case child =>
    intro id k e' a ak he' hk ha hak
    obtain ⟨hstart, hstop⟩ := hpushed.child id k e' a ak he' hk ha hak
    exact ⟨hstart, fun hnot => hstop fun hmem => hnot (List.mem_cons_of_mem _ hmem)⟩
  case siblings => exact hpushed.siblings
  case begun =>
    intro id a hid ha
    rcases List.mem_cons.mp hid with rfl | hid
    · cases hnew.symm.trans ha
      exact le_rfl
    · exact hread a (.inl (hpushed.begun id a hid ha))
  case past =>
    intro id k e' a hid he' hk ha
    rcases List.mem_cons.mp hid with rfl | hid
    · -- the new element has no children
      obtain ⟨e₀, he₀, -, -⟩ := hsame.exists_child he' hk
      exact absurd (Tree.lt_size_of_element? he₀) (Nat.lt_irrefl _)
    · exact .inl (hread a (hpushed.past id k e' a hid he' hk ha))
  case around =>
    intro before x p after a hsplit ha
    cases before with
    | nil =>
        obtain ⟨rfl, hopened⟩ := List.cons.inj hsplit
        cases hnew.symm.trans ha
        have hp : p ∈ b.opened := by simp [hopened]
        refine ⟨fun ap hap => (hpushed.start_le hp hap).trans hnow, fun e' k ak he' hk hak => ?_⟩
        -- the children were read, but for those that this start tag has closed
        rcases hpushed.past p k e' ak hp he' hk hak with hpast | ⟨next, hnext, hlate⟩
        · exact .inl (hpast.trans hnow)
        · cases hnext
          exact hlate.before hlt hopens
    | cons y before =>
        exact hpushed.around before x p after a (List.cons.inj hsplit).2 ha
  case ahead => simp

/-! ### Closing elements -/

end Ranged

/-- The element `id` ends at `stop` and is no longer open. -/
def leave (b : Builder) (id : NodeId) (rest : List NodeId) (stop : Nat) : Builder :=
  { b with
    tree := b.tree.modifyElement id fun e => { e with stop := some stop }
    opened := rest }

/-- An end tag, when places are recorded. -/
theorem closeInnermost_eq_leave {src : Source} {b : Builder} {id : NodeId} {rest : List NodeId}
    (hranges : src.settings.sourceRanges = true) (hopened : b.opened = id :: rest) (stop : Nat) :
    b.closeInnermost src stop = (b.leave id rest stop).finishElement src id := by
  simp only [closeInnermost, hopened, if_pos hranges]
  rfl

namespace Ranged

variable {settings : Settings} {opens : String → Nat → Nat → Prop} {src : Source} {b b' : Builder}
  {stack : List String} {now : Nat} {coming : Option Coming} {name : String} {id : NodeId}
  {rest : List NodeId} {stop : Nat}

/-- **The innermost open element ends** behind everything inside it, and behind the children of the
element around it. -/
theorem leave (hb : Ranged settings opens b (name :: stack) now coming)
    (hopened : b.opened = id :: rest) (hnow : now ≤ stop)
    (hlate : ∀ next a, coming = some next → Site.Late settings next a → a.stop ≤ stop) :
    Ranged settings opens (b.leave id rest stop) stack now coming ∧
      ∃ a, (b.leave id rest stop).tree.site? id = some a ∧ a.stop = stop ∧ a.tag = some name ∧
        ∀ p, rest.head? = some p → (b.leave id rest stop).tree.Awaits settings opens p a := by
  have hid : id ∈ b.opened := by simp [hopened]
  have hne : ∀ k ∈ rest, id ≠ k := fun k hk => Nat.ne_of_gt (hb.lt_of_mem_tail hopened hk)
  obtain ⟨id', rest', a, hopened', ha, htag⟩ := hb.exists_innermost
  cases hopened.symm.trans hopened'
  obtain ⟨e, he⟩ := Tree.exists_element_of_site? ha htag
  have hbegun := hb.begun id a hid ha
  have hnew : (b.leave id rest stop).tree.site? id = some { a with stop } :=
    Tree.site?_modifyElement_stop he ha stop
  have hold : ∀ k, id ≠ k → (b.leave id rest stop).tree.site? k = b.tree.site? k :=
    fun k hk => Tree.site?_modifyElement_of_ne _ hk
  have hsame : b.tree.SameChildren (b.leave id rest stop).tree := by
    refine ⟨fun k e' he' => ?_, fun k e₀ c he₀ hc => hold c ?_⟩
    · obtain ⟨e₀, he₀, rfl⟩ := Tree.exists_of_element?_modifyElement he'
      refine .inr ⟨e₀, he₀, ?_⟩
      split <;> rfl
    · -- nothing that is open is a child yet
      rintro rfl
      exact (hb.known k id e₀ he₀ hc).2 hid
  have hsize : (b.leave id rest stop).tree.size = b.tree.size := by simp [Builder.leave]
  refine ⟨hb.rebase 1 (by rw [hopened]; rfl) hsame hsize.ge (fun k hk => hold k (hne k hk)) ?_ ?_,
    { a with stop }, hnew, rfl, htag, ?_⟩
  · intro k hk
    obtain ⟨ak, hak, hle⟩ := hb.placed k (hsize ▸ hk)
    by_cases hik : id = k
    · subst hik
      cases ha.symm.trans hak
      exact ⟨_, hnew, hle.trans (hbegun.trans hnow)⟩
    · exact ⟨ak, (hold k hik).trans hak, hle⟩
  · intro k c e₀ ak ac he₀ hc hak hac
    by_cases hik : id = k
    · subst hik
      cases hnew.symm.trans hak
      refine ⟨(hb.child id c e₀ a ac he₀ hc ha hac).1, fun _ => ?_⟩
      rcases hb.past id c e₀ ac hid he₀ hc hac with hpast | ⟨next, hnext, hac⟩
      · exact hpast.trans hnow
      · exact hlate next ac hnext hac
    · rw [hold k hik] at hak
      obtain ⟨hstart, hstop⟩ := hb.child k c e₀ ak ac he₀ hc hak hac
      refine ⟨hstart, fun hnot => hstop ?_⟩
      rw [hopened]
      exact List.not_mem_cons_of_ne_of_not_mem (Ne.symm hik) hnot
  · intro p hp
    obtain ⟨after, rfl⟩ := List.head?_eq_some_iff.mp hp
    refine hsame.awaits (hold p (hne p List.mem_cons_self)) ?_
    have haround := hb.around [] id p after a hopened ha
    exact ⟨haround.start, fun e' c ac he' hc hac =>
      (haround.before e' c ac he' hc hac).later (hbegun.trans hnow)⟩

/-- An element that has ended is finished. -/
theorem finish (hb : Ranged settings opens b stack now coming) {a : Site}
    (hclosed : id ∉ b.opened) (hsite : b.tree.site? id = some a) (htag : a.tag = some name)
    (hawaits : ∀ p, b.opened.head? = some p → b.tree.Awaits settings opens p a)
    (hpast : a.stop ≤ now ∨ ∃ next, coming = some next ∧ a.Late settings next) :
    Ranged settings opens (b.finishElement src id) stack now coming := by
  obtain ⟨e, he⟩ := Tree.exists_element_of_site? hsite htag
  obtain ⟨t, hfinished⟩ := finished_finishElement src b he
  exact hb.adopt hfinished.opened (hfinished.adopts he) hclosed hsite hawaits hpast

/-- **An end tag** ends the innermost open element. -/
theorem close (hb : Ranged settings opens b (name :: stack) now none)
    (hopened : b.opened = id :: rest) (hstop : now ≤ stop) :
    Ranged settings opens ((b.leave id rest stop).finishElement src id) stack stop none := by
  obtain ⟨hleft, a, hsite, hend, htag, hawaits⟩ := hb.leave hopened hstop (by simp)
  refine (hleft.mono hstop).finish ?_ hsite htag hawaits (.inl hend.le)
  exact fun hmem => Nat.lt_irrefl _ (hb.lt_of_mem_tail hopened hmem)

/-- **A start tag ends an element** that it may not stand in. -/
theorem displace {c : Coming} (hb : Ranged settings opens b (name :: stack) now (some c))
    (hopened : b.opened = id :: rest) (hhtml : settings.expectHtml = true)
    (hnests : ¬Nests settings.tags name c.name) :
    Ranged settings opens ((b.leave id rest c.stop).finishElement src id) stack now (some c) := by
  obtain ⟨hnow, hlt⟩ := hb.ahead c rfl
  have hlate : ∀ next a, some c = some next → Site.Late settings next a → a.stop ≤ c.stop := by
    rintro next a hnext hlate
    cases hnext
    exact hlate.stop.le
  obtain ⟨hleft, a, hsite, hend, htag, hawaits⟩ := hb.leave hopened (hnow.trans hlt.le) hlate
  refine hleft.finish ?_ hsite htag hawaits (.inr ⟨c, rfl, hhtml, ⟨name, htag, hnests⟩, hend⟩)
  exact fun hmem => Nat.lt_irrefl _ (hb.lt_of_mem_tail hopened hmem)

/-! ### Events -/

/-- A start tag opens an element, which ends at once when there is no end tag for it. -/
theorem openElement {c : Coming} (hb : Ranged settings opens b stack now (some c))
    (hranges : src.settings.sourceRanges = true) (hopens : opens c.name c.start c.stop)
    (attributes : List Markup.Attribute) (unary : Bool) :
    Ranged settings opens (b.openElement src c.name attributes unary c.start c.stop)
      (if unary then stack else c.name :: stack) c.stop none := by
  have hagrees := agrees_openElement src b c.name attributes c.start c.stop
  have hsite := site?_created hranges b c.name attributes c.start c.stop
  obtain ⟨_, _, _, _, _, _, _, _, hcreated, -, -⟩ :=
    unopened_created src b c.name attributes c.start c.stop
  generalize b.created src c.name attributes c.start c.stop = e at hagrees hsite hcreated
  have hchildren : e.children = [] := (congrArg Element.children hcreated :)
  have hentered : Ranged settings opens (b.openElement src c.name attributes false c.start c.stop)
      (c.name :: stack) c.stop none :=
    (hb.enter hopens hsite hchildren).congr hagrees.tree hagrees.opened
  cases unary with
  | false => exact hentered
  | true =>
      -- the new element has its end already
      have hleave : (b.openElement src c.name attributes false c.start c.stop).leave b.tree.size
          b.opened c.stop =
          { b.openElement src c.name attributes false c.start c.stop with opened := b.opened } := by
        have hstop : e.stop = some c.stop := (Element.site?_eq_some_iff.mp hsite).2.2
        rw [Builder.leave, Tree.modifyElement_congr (g := fun e => e), Tree.modifyElement_self]
        intro e' he'
        rw [hagrees.tree, element?_enter, if_pos rfl] at he'
        cases he'
        rw [← hstop]
      rw [openElement_unary, ← hleave]
      exact hentered.close hagrees.opened le_rfl

/-- **Events that go forward keep the ranges in order.** -/
theorem foldl (src : Source) {es : List Markup.Event}
    (hranges : src.settings.sourceRanges = true)
    (hpaced : Paced settings coming stack now es) (hopens : Markup.StartTags opens es)
    (hb : Ranged settings opens b stack now coming) :
    ∃ last, Ranged settings opens (es.foldl (step src) b) [] last none := by
  induction hpaced generalizing b with
  | done now => exact ⟨now, hb⟩
  | problem d h ih => exact ih hopens.tail (hb.congr rfl rfl)
  | skip hle h ih => exact ih hopens (hb.mono hle)
  | text s hstart hstop h ih =>
      exact ih hopens.tail (hb.leaf? hranges hstart hstop (addText_placed src b s _ _))
  | comment s hstart hstop h ih =>
      exact ih hopens.tail (hb.leaf? hranges hstart hstop (addComment_placed src b s _ _))
  | doctype s h ih => exact ih hopens.tail hb
  | close name hstop h ih =>
      obtain ⟨id, rest, a, hopened, -, -⟩ := hb.exists_innermost
      refine ih hopens.tail ?_
      rw [step, addToken, closeInnermost_eq_leave hranges hopened]
      exact hb.close hopened hstop
  | announce c hstart hstop h ih => exact ih hopens (hb.announce c hstart hstop)
  | displace hhtml hnests h ih =>
      obtain ⟨id, rest, a, hopened, -, -⟩ := hb.exists_innermost
      refine ih hopens.tail ?_
      rw [step, addToken, closeInnermost_eq_leave hranges hopened]
      exact hb.displace hopened hhtml hnests
  | arrive attributes unary h ih =>
      have hopen := hopens _ _ _ _ _ List.mem_cons_self
      exact ih hopens.tail (hb.openElement hranges hopen attributes unary)

/-- Once everything is closed, the ranges are nested like the elements. -/
theorem laminar (hb : Ranged settings opens b [] now coming) : Laminar settings opens b.tree := by
  have hopened : b.opened = [] := List.map_eq_nil_iff.mp hb.tags
  refine ⟨?_, ?_, ?_⟩
  · intro id e he
    obtain ⟨a, ha, hle⟩ := hb.placed id (Tree.lt_size_of_element? he)
    rw [Tree.site?_of_element? he, Element.site?_eq_some_iff] at ha
    exact ⟨a.start, a.stop, ha.2.1, ha.2.2, hle⟩
  · intro id e c he hc
    obtain ⟨a, ha, -⟩ := hb.placed id (Tree.lt_size_of_element? he)
    obtain ⟨ac, hac, hle⟩ := hb.placed c (hb.known id c e he hc).1
    obtain ⟨hstart, hstop⟩ := hb.child id c e a ac he hc ha hac
    exact ⟨a, ac, ha, hac, hstart, hle, hstop (by simp [hopened])⟩
  · intro id e he
    refine (hb.siblings id e he).imp_of_mem fun hc hc' hbefore => ?_
    obtain ⟨a, ha, -⟩ := hb.placed _ (hb.known id _ e he hc).1
    obtain ⟨a', ha', -⟩ := hb.placed _ (hb.known id _ e he hc').1
    exact ⟨a, a', ha, ha', hbefore a a' ha ha'⟩

end Ranged

end Build.Builder

/-! ### Templates -/

/-- A template has a start tag at the given place. -/
def Markup.Opens (settings : Settings) (template name : String) (start stop : Nat) : Prop :=
  ∃ attributes unary,
    Event.token (.startTag name attributes unary start stop) ∈ events settings template

namespace Build

/-- **The ranges of a template.**  Every template has a tree, whose ranges are nested like its
elements.  What runs over its next sibling was closed by the start tag of that sibling, under the
rules of HTML, and ends where the start tag does. -/
theorem exists_parse_laminar (settings : Settings) (template : String)
    (hdelimiters : ∀ opening closing, settings.customDelimiters = some (opening, closing) →
      opening ≠ "" ∧ closing ≠ "")
    (hranges : settings.sourceRanges = true) :
    ∃ parsed, parse settings template = .ok parsed ∧
      Laminar settings (Markup.Opens settings template) parsed.tree := by
  obtain ⟨parsed, hparsed⟩ := exists_parse settings template hdelimiters
  refine ⟨parsed, hparsed, ?_⟩
  unfold parse at hparsed
  split at hparsed
  · cases hparsed
  · rename_i delimiters hdelimiters
    cases hparsed
    have hopens : Markup.StartTags (Markup.Opens settings template)
        (Markup.events settings template) :=
      fun _ attributes unary _ _ hmem => ⟨attributes, unary, hmem⟩
    obtain ⟨last, hlast⟩ := Builder.Ranged.foldl ⟨settings, template, delimiters⟩ hranges
      (Markup.paced_events settings template) hopens Builder.Ranged.init
    exact hlast.laminar

/-- A paragraph that the next one closes. -/
theorem exists_parse_laminar_paragraphs :
    ∃ parsed, parse { Settings.web with sourceRanges := true } "<div><p>a<p>b</div>" = .ok parsed ∧
      Laminar { Settings.web with sourceRanges := true }
        (Markup.Opens { Settings.web with sourceRanges := true } "<div><p>a<p>b</div>")
        parsed.tree :=
  exists_parse_laminar _ _ (by simp [Settings.web]) rfl

/-- A paragraph without an end tag ends behind the beginning of the next one. -/
theorem exists_overrunning_paragraphs :
    ∃ parsed, parse { Settings.web with sourceRanges := true } "<div><p>a<p>b</div>" = .ok parsed ∧
      (parsed.tree.element? 0).map (·.children) = some [1, 3] ∧
      (parsed.tree.element? 1).bind (·.stop) = some 12 ∧
      (parsed.tree.element? 3).bind (·.start) = some 9 := by
  obtain ⟨parsed, hparsed⟩ := exists_parse { Settings.web with sourceRanges := true }
    "<div><p>a<p>b</div>" (by simp [Settings.web])
  have hcheck : (Except.ok parsed : Except CompileError Parsed).toOption.map (fun parsed =>
      ((parsed.tree.element? 0).map (·.children), (parsed.tree.element? 1).bind (·.stop),
        (parsed.tree.element? 3).bind (·.start))) = some (some [1, 3], some 12, some 9) := by
    rw [← hparsed]
    decide +kernel
  have hfound := Option.some.inj hcheck
  exact ⟨parsed, hparsed, congrArg Prod.fst hfound, congrArg (·.2.1) hfound,
    congrArg (·.2.2) hfound⟩

end Build

end Templating
