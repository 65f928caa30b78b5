import Templating.Proofs.Static.Hoisting
import Templating.Proofs.Static.Passes

/-!
**What the marks say, exactly.**

After both passes every node that is reached without looking into a component says whether it is
steady, and no other node says anything.  Every element that is reached without looking into what is
rendered once and for all says whether it is rendered so itself, and what lies below such an element
says nothing.

Main definitions:

* `Templating.Tree.Fresh` — a tree as it is built, before the passes;
* `Templating.Static.unhoisted` — where an element leads that is not rendered once and for all;
* `Templating.Static.ExactlyMarked` — what the marks on a tree say.

Main results:

* `Templating.Build.fresh_of_parse` — the tree of a template is fresh;
* `Templating.Static.exists_applied_mark` — both passes as two changes of the tree;
* `Templating.Static.alike_mark`, `Templating.Static.staticRoot_mark_below` — marking changes marks
  only, and no mark of the second pass lies below another one;
* `Templating.Static.exactlyMarked_mark` — **what the marks on the tree of a template say**.
-/

set_option autoImplicit false

namespace Templating

open Build Build.Builder

theorem Node.isStatic_eq_none {n : Node} (h : n.unmarked = n) : n.isStatic = none := by
  rw [← h]
  cases n <;> rfl

/-! ### Trees as they are built -/

/-- A tree as it is built: a forest in document order from its root on, without marks. -/
structure Tree.Fresh (t : Tree) : Prop where
  forest : ∀ root, t.root = some root → t.Forest none 0 t.size [root]
  parentsFirst : t.ParentsFirst
  unmarked : ∀ id n, t.node? id = some n → n.unmarked = n

namespace Build

theorem Builder.Ordered.forest {b : Builder} (h : b.Ordered) {root : NodeId}
    (hroot : b.tree.root = some root) : b.tree.Forest none 0 b.tree.size [root] := by
  rw [h.root] at hroot
  split at hroot
  · cases hroot
  · cases hroot
    exact (h.stacked.forest (by omega)).1

/-- No element is marked while the tree is built. -/
theorem Builder.invariant_unmarked (src : Source) :
    Invariant src fun b => ∀ id e, b.tree.element? id = some e → e.unmarked = e := by
  have hfields : ∀ e : Element, e.unmarked = e ↔
      e.isStatic = none ∧ e.staticRoot = none ∧ e.staticInFor = none := by
    rintro ⟨⟩
    simp [Element.unmarked, eq_comm]
  have hcongr : ∀ e e' : Element, e'.isStatic = e.isStatic → e'.staticRoot = e.staticRoot →
      e'.staticInFor = e.staticInFor → e.unmarked = e → e'.unmarked = e' := by
    intro e e' hstatic hroot hfor h
    rw [hfields] at h ⊢
    rwa [hstatic, hroot, hfor]
  refine Invariant.of_element ?_ ?_ ?_
  · intro e e' h
    exact hcongr e e' (congrArg Element.isStatic h :) (congrArg Element.staticRoot h :)
      (congrArg Element.staticInFor h :)
  · intro b tag attributes start stop
    obtain ⟨_, _, _, _, _, _, _, _, h, -, -⟩ := unopened_created src b tag attributes start stop
    generalize b.created src tag attributes start stop = e at h
    have hstatic : e.isStatic = none := (congrArg Element.isStatic h :)
    have hroot : e.staticRoot = none := (congrArg Element.staticRoot h :)
    have hfor : e.staticInFor = none := (congrArg Element.staticInFor h :)
    exact (hfields e).mpr ⟨hstatic, hroot, hfor⟩
  · intro inFor e
    have h := unclosed_readDirectives src.delimiters inFor e
    generalize (readDirectives src.delimiters inFor e).1 = e' at h
    exact hcongr e e' (congrArg Element.isStatic h :) (congrArg Element.staticRoot h :)
      (congrArg Element.staticInFor h :)

/-- No leaf is marked while the tree is built. -/
theorem Builder.Admits.unmarked {src : Source} {b : Builder} {n : Node} (h : b.Admits src n) :
    n.unmarked = n := by
  cases n with
  | element => exact h.elim
  | expression n =>
      cases n
      simp_all [Admits, Node.unmarked]
  | text n =>
      cases n
      simp_all [Admits, Node.unmarked]

/-- **The tree of a template is fresh.** -/
theorem fresh_of_parse {settings : Settings} {template : String} {parsed : Parsed}
    (h : parse settings template = .ok parsed) : parsed.tree.Fresh := by
  obtain ⟨b, ⟨⟨⟨hordered, hsealed⟩, helements⟩, hleaves⟩, htree⟩ :=
    Invariant.of_parse (fun src => ((invariant_sealed src).and (invariant_unmarked src)).and
      (Invariant.of_leaf (P := fun n => n.unmarked = n) fun _ _ => Admits.unmarked)) h
  rw [← htree]
  refine ⟨fun root => hordered.forest, hsealed.parent_lt, fun id n hn => ?_⟩
  cases n with
  | element e => exact congrArg Node.element (helements id e (Tree.element?_of_node? hn))
  | expression => exact hleaves id _ hn rfl
  | text => exact hleaves id _ hn rfl

end Build

namespace Static

variable {settings : Settings} {t t₁ : Tree} {root : NodeId}

/-! ### Both passes -/

/-- **Both passes**, one after the other, as two changes of the tree. -/
theorem exists_applied_mark (settings : Settings) (h : t.Fresh) (hroot : t.root = some root) :
    ∃ (v : NodeId → Bool) (t₁ : Tree), (∀ k, v k = true ↔ Steady settings t k) ∧
      Tree.Applied (fun k => Node.setStatic (v k)) (t.Reach (explored settings) root) t t₁ ∧
      Tree.Applied (fun _ => noted t₁) (t₁.Reach (pursued t₁) root) t₁ (mark settings t) := by
  classical
  have hforest := h.forest root hroot
  have hv : ∀ k, (decide (Steady settings t k)) = true ↔ Steady settings t k := by simp
  obtain ⟨hfirst, -⟩ :=
    applied_markNodes hv hforest (t.size + 1) t true (by omega) (Tree.Alike.refl t)
  replace hfirst := hfirst.congr fun k => Tree.reaches_singleton
  refine ⟨_, (markNodes settings (t.size + 1) t root).1, hv, hfirst, ?_⟩
  -- marks change no links, so the second pass goes through the same forest
  have halike : t.Alike Node.unmarked (markNodes settings (t.size + 1) t root).1 :=
    hfirst.alike fun _ n => Node.unmarked_setStatic _ n
  have hforest₁ := hforest.congr fun k _ _ => halike.links? Node.links_unmarked k
  have hsecond := applied_markRoots (h.parentsFirst.alike halike) hforest₁ (t.size + 1) _
    (by omega) (Tree.Alike.refl _)
  simpa [mark, hroot, Tree.nearestLoop?, Tree.loopFuel?_none] using
    hsecond.congr fun k => Tree.reaches_singleton

/-! ### What the marks say -/

/-- Where an element leads that is not rendered once and for all. -/
def unhoisted (e : Element) : List NodeId :=
  if e.staticRoot = some true then [] else dependents e

/-- **What the marks say**: the tree `t'` is the tree `t` after both passes from `root` on. -/
structure ExactlyMarked (settings : Settings) (t t' : Tree) (root : NodeId) : Prop where
  /-- What is reached without looking into a component says whether it is steady. -/
  steady : ∀ id, t.Reach (explored settings) root id →
    ∃ n v, t'.node? id = some n ∧ n.isStatic = some v ∧ (v = true ↔ Steady settings t id)
  /-- No other node says anything. -/
  unexplored : ∀ id n, ¬t.Reach (explored settings) root id → t'.node? id = some n →
    n.isStatic = none
  /-- What is reached without looking into what is rendered once and for all says whether it is
  rendered so: when it never changes, and is neither empty nor a single text. -/
  staticRoot : ∀ id e, t'.Reach unhoisted root id → t'.element? id = some e →
    ∃ v, e.staticRoot = some v ∧ (v = true ↔ e.isStatic = some true ∧ e.children ≠ [] ∧
      ∀ c n, e.children = [c] → t'.node? c ≠ some (.text n))
  /-- What lies below an element that is rendered once and for all says nothing about that. -/
  below : ∀ id e c k e', t'.Reach dependents root id → t'.element? id = some e →
    e.staticRoot = some true → c ∈ dependents e → t'.Reach dependents c k →
    t'.element? k = some e' → e'.staticRoot = none

theorem isStatic_noted (t : Tree) (n : Node) : (noted t n).isStatic = n.isStatic := by
  cases n <;> rfl

theorem isRoot_iff (t : Tree) (e : Element) :
    isRoot t e = true ↔ e.isStatic = some true ∧ e.children ≠ [] ∧
      ∀ c n, e.children = [c] → t.node? c ≠ some (.text n) := by
  have hsingle : isSingleText t e = false ↔
      ∀ c n, e.children = [c] → t.node? c ≠ some (.text n) := by
    unfold isSingleText
    constructor
    · intro h c n hc hn
      simp [hc, hn] at h
    · intro h
      split
      · rename_i c hc
        split
        · rename_i n hn
          exact absurd hn (h c n hc)
        · rfl
      · rfl
  simp [isRoot, ← hsingle, and_assoc]

/-- Nothing below an element that is rendered once and for all is met by the second pass. -/
theorem not_reach_pursued {lo hi : Nat} (hforest : t₁.Forest none lo hi [root]) {id c k : NodeId}
    {e : Element} (hid : t₁.Reach dependents root id) (he : t₁.element? id = some e)
    (hroot : isRoot t₁ e = true) (hc : c ∈ dependents e) (hk : t₁.Reach dependents c k) :
    ¬t₁.Reach (pursued t₁) root k := by
  have hless : ∀ e, pursued t₁ e ⊆ dependents e := by
    intro e
    unfold pursued
    split
    · exact List.nil_subset _
    · exact List.Subset.refl _
  -- whoever meets a node that an element leads to has met the element and went on from it
  have hback : ∀ (id c : NodeId) (e : Element), t₁.Reach dependents root id →
      t₁.element? id = some e → c ∈ dependents e → t₁.Reach (pursued t₁) root c →
      t₁.Reach (pursued t₁) root id ∧ c ∈ pursued t₁ e := by
    intro id c e hid he hc hreach
    have hid' : t₁.Reaches dependents [root] id := Tree.reaches_singleton.mpr hid
    cases hreach with
    | refl => exact absurd (by simp) (hforest.not_mem_of_mem_dependents id e _ hid' he hc)
    | @step id₁ _ e₁ hreach he₁ hc₁ =>
        obtain rfl : id = id₁ := hforest.eq_of_mem_dependents id id₁ e e₁ c hid'
          (Tree.reaches_singleton.mpr (hreach.mono hless)) he he₁ hc (hless e₁ hc₁)
        obtain rfl : e = e₁ := by simpa [he] using he₁
        exact ⟨hreach, hc₁⟩
  have hbelow : ∀ k, t₁.Reach dependents c k → t₁.Reach dependents root k :=
    fun k hk => (hid.step he hc).trans hk
  induction hk with
  | refl =>
      intro hreach
      have hmem := (hback id c e hid he hc hreach).2
      rw [pursued, if_pos hroot] at hmem
      cases hmem
  | step hk he' hc' ih =>
      intro hreach
      exact ih (hback _ _ _ (hbelow _ hk) he' hc' hreach).1

/-! ### The marks on the tree of a template -/

section Marked

variable {t' : Tree}
  (hsecond : Tree.Applied (fun _ => noted t₁) (t₁.Reach (pursued t₁) root) t₁ t')

include hsecond

/-- The second pass says nothing new about what never changes. -/
theorem exists_isStatic_eq {id : NodeId} {n₁ : Node} (hn₁ : t₁.node? id = some n₁) :
    ∃ n, t'.node? id = some n ∧ n.isStatic = n₁.isStatic := by
  by_cases hreach : t₁.Reach (pursued t₁) root id
  · refine ⟨noted t₁ n₁, ?_, isStatic_noted t₁ n₁⟩
    rw [hsecond.changed id hreach, hn₁]
    rfl
  · exact ⟨n₁, by rw [hsecond.same id hreach, hn₁], rfl⟩

/-- What the second pass met, seen from afterwards. -/
theorem exists_noted {id : NodeId} {e : Element} (hid : t'.Reach unhoisted root id)
    (he : t'.element? id = some e) : t₁.Reach (pursued t₁) root id ∧
      ∃ e₁, t₁.element? id = some e₁ ∧ Node.element e = noted t₁ (.element e₁) := by
  have hchanged : ∀ {id : NodeId} {e : Element}, t₁.Reach (pursued t₁) root id →
      t'.element? id = some e →
      ∃ e₁, t₁.element? id = some e₁ ∧ Node.element e = noted t₁ (.element e₁) := by
    intro id e hreach he
    have hn := hsecond.changed id hreach
    rw [Tree.node?_of_element? he] at hn
    obtain ⟨n₁, hn₁, hnoted⟩ := Option.map_eq_some_iff.mp hn.symm
    cases n₁ with
    | element e₁ => exact ⟨e₁, Tree.element?_of_node? hn₁, hnoted.symm⟩
    | expression => cases hnoted
    | text => cases hnoted
  suffices hreach : t₁.Reach (pursued t₁) root id from ⟨hreach, hchanged hreach he⟩
  clear he
  induction hid with
  | refl => exact .refl
  | step _ he hc ih =>
      obtain ⟨e₁, he₁, hnoted⟩ := hchanged ih he
      refine .step ih he₁ ?_
      cases hnoted
      simpa [unhoisted, pursued, noteRoot, dependents] using hc

/-- What the second pass says of the elements that it met. -/
theorem exists_staticRoot_iff {id : NodeId} {e : Element} (hid : t'.Reach unhoisted root id)
    (he : t'.element? id = some e) :
    ∃ v, e.staticRoot = some v ∧ (v = true ↔ e.isStatic = some true ∧ e.children ≠ [] ∧
      ∀ c n, e.children = [c] → t'.node? c ≠ some (.text n)) := by
  obtain ⟨-, e₁, -, hnoted⟩ := exists_noted hsecond hid he
  have halike : t₁.Alike Node.unrooted t' := hsecond.alike fun _ => unrooted_noted t₁
  refine ⟨isRoot t₁ e₁, by cases hnoted; rfl, ?_⟩
  have hsame : e.unrooted = e₁.unrooted := by cases hnoted; rfl
  rw [← isRoot_iff, isRoot_congr halike hsame]

/-- An element with the mark was met, and it was found to be rendered once and for all. -/
theorem exists_isRoot (hnone : ∀ id e, t₁.element? id = some e → e.staticRoot = none)
    {id : NodeId} {e : Element} (he : t'.element? id = some e) (hroot : e.staticRoot = some true) :
    ∃ e₁, t₁.element? id = some e₁ ∧ e₁.unrooted = e.unrooted ∧ isRoot t₁ e₁ = true := by
  have halike : t₁.Alike Node.unrooted t' := hsecond.alike fun _ => unrooted_noted t₁
  obtain ⟨e₁, he₁, hsame⟩ := halike.symm.element? Node.element?_unrooted he
  refine ⟨e₁, he₁, hsame, ?_⟩
  have hmet : t₁.Reach (pursued t₁) root id := by
    by_contra hnot
    have hn := hsecond.same id hnot
    rw [Tree.node?_of_element? he] at hn
    rw [hnone id e (Tree.element?_of_node? hn.symm)] at hroot
    cases hroot
  have hn := hsecond.changed id hmet
  rw [Tree.node?_of_element? he, Tree.node?_of_element? he₁, Option.map_some] at hn
  cases hn
  simpa [noteRoot] using hroot

/-- What lies below an element that is rendered once and for all has no mark of the second pass. -/
theorem staticRoot_eq_none {lo hi : Nat} (hforest : t₁.Forest none lo hi [root])
    (hnone : ∀ id e, t₁.element? id = some e → e.staticRoot = none) {id c k : NodeId}
    {e e' : Element} (hid : t'.Reach dependents root id) (he : t'.element? id = some e)
    (hroot : e.staticRoot = some true) (hc : c ∈ dependents e) (hk : t'.Reach dependents c k)
    (he' : t'.element? k = some e') : e'.staticRoot = none := by
  have halike : t₁.Alike Node.unmarked t' := hsecond.alike fun _ => unmarked_noted t₁
  obtain ⟨e₁, he₁, hsame, hisRoot⟩ := exists_isRoot hsecond hnone he hroot
  have hc₁ : c ∈ dependents e₁ := by
    have hdependents : dependents e₁ = dependents e := (congrArg dependents hsame :)
    rwa [hdependents]
  have hnot := not_reach_pursued hforest (hid.alike halike) he₁ hisRoot hc₁ (hk.alike halike)
  have hn := hsecond.same k hnot
  rw [Tree.node?_of_element? he'] at hn
  exact hnone k e' (Tree.element?_of_node? hn.symm)

end Marked

/-- What the first pass says of the nodes that it met. -/
theorem exists_isStatic_of_explored (h : t.Fresh) (hroot : t.root = some root) {v : NodeId → Bool}
    (hfirst : Tree.Applied (fun k => Node.setStatic (v k)) (t.Reach (explored settings) root) t t₁)
    {id : NodeId} (hid : t.Reach (explored settings) root id) :
    ∃ n, t₁.node? id = some n ∧ n.isStatic = some (v id) := by
  have hless : ∀ e, explored settings e ⊆ dependents e := by
    intro e
    unfold explored
    split
    · exact List.nil_subset _
    · exact List.Subset.refl _
  obtain ⟨n, hn⟩ := (h.forest root hroot).exists_of_reaches id
    (Tree.reaches_singleton.mpr (hid.mono hless))
  refine ⟨n.setStatic (v id), ?_, Node.isStatic_setStatic (v id) n⟩
  rw [hfirst.changed id hid, hn]
  rfl

/-- The first pass leaves the marks of the second alone. -/
theorem unrooted_of_first {R : NodeId → Prop} {v : NodeId → Bool} (h : t.Fresh)
    (hfirst : Tree.Applied (fun k => Node.setStatic (v k)) R t t₁) (id : NodeId) (e : Element)
    (he : t₁.element? id = some e) : e.staticRoot = none ∧ e.staticInFor = none := by
  have halike : t.Alike (Node.setStatic false) t₁ :=
    hfirst.alike fun _ n => setStatic_setStatic _ _ n
  have hview : ∀ n : Node, (n.setStatic false).element? =
      n.element?.map fun e => { e with isStatic := some false } := by
    intro n
    cases n <;> rfl
  obtain ⟨e₀, he₀, hsame⟩ := halike.symm.element? hview he
  have hroot : e₀.staticRoot = e.staticRoot := (congrArg Element.staticRoot hsame :)
  have hinFor : e₀.staticInFor = e.staticInFor := (congrArg Element.staticInFor hsame :)
  have hunmarked : e₀.unmarked = e₀ :=
    Node.element.inj (h.unmarked id (.element e₀) (Tree.node?_of_element? he₀))
  exact ⟨hroot.symm.trans (congrArg Element.staticRoot hunmarked).symm,
    hinFor.symm.trans (congrArg Element.staticInFor hunmarked).symm⟩

theorem staticRoot_eq_none_of_first {R : NodeId → Prop} {v : NodeId → Bool} (h : t.Fresh)
    (hfirst : Tree.Applied (fun k => Node.setStatic (v k)) R t t₁) (id : NodeId) (e : Element)
    (he : t₁.element? id = some e) : e.staticRoot = none :=
  (unrooted_of_first h hfirst id e he).1

/-- Marking changes marks only. -/
theorem alike_mark (settings : Settings) (h : t.Fresh) :
    (mark settings t).root = t.root ∧ t.Alike Node.unmarked (mark settings t) := by
  cases hroot : t.root with
  | none =>
      have hmark : mark settings t = t := by simp [mark, hroot]
      rw [hmark]
      exact ⟨hroot, Tree.Alike.refl t⟩
  | some root =>
      obtain ⟨v, t₁, -, hfirst, hsecond⟩ := exists_applied_mark settings h hroot
      have halike : t₁.Alike Node.unmarked (mark settings t) :=
        hsecond.alike fun _ => unmarked_noted t₁
      exact ⟨(hsecond.root.trans hfirst.root).trans hroot,
        (hfirst.alike fun _ n => Node.unmarked_setStatic _ n).trans halike⟩

/-- No mark of the second pass lies below an element that is rendered once and for all. -/
theorem staticRoot_mark_below (settings : Settings) (h : t.Fresh) (hroot : t.root = some root)
    {id c k : NodeId} {e e' : Element} (hid : (mark settings t).Reach dependents root id)
    (he : (mark settings t).element? id = some e) (hstatic : e.staticRoot = some true)
    (hc : c ∈ dependents e) (hk : (mark settings t).Reach dependents c k)
    (he' : (mark settings t).element? k = some e') : e'.staticRoot = none := by
  obtain ⟨v, t₁, -, hfirst, hsecond⟩ := exists_applied_mark settings h hroot
  have halike : t.Alike Node.unmarked t₁ := hfirst.alike fun _ n => Node.unmarked_setStatic _ n
  have hforest : t₁.Forest none 0 t.size [root] :=
    (h.forest root hroot).congr fun k _ _ => halike.links? Node.links_unmarked k
  exact staticRoot_eq_none hsecond hforest (staticRoot_eq_none_of_first h hfirst) hid he hstatic
    hc hk he'

/-- **What the marks on the tree of a template say.** -/
theorem exactlyMarked_mark {template : String} {parsed : Parsed}
    (hparse : parse settings template = .ok parsed) (hroot : parsed.tree.root = some root) :
    ExactlyMarked settings parsed.tree (mark settings parsed.tree) root := by
  have hfresh := fresh_of_parse hparse
  generalize parsed.tree = t at hroot hfresh
  obtain ⟨v, t₁, hv, hfirst, hsecond⟩ := exists_applied_mark settings hfresh hroot
  constructor
  · intro id hid
    obtain ⟨n₁, hn₁, hstatic₁⟩ := exists_isStatic_of_explored hfresh hroot hfirst hid
    obtain ⟨n, hn, hstatic⟩ := exists_isStatic_eq hsecond hn₁
    exact ⟨n, v id, hn, hstatic.trans hstatic₁, hv id⟩
  · intro id n hid hn
    have halike : t₁.Alike Node.unrooted (mark settings t) :=
      hsecond.alike fun _ => unrooted_noted t₁
    obtain ⟨n₁, hn₁, -⟩ := halike.symm.node? hn
    obtain ⟨n', hn', hstatic⟩ := exists_isStatic_eq hsecond hn₁
    obtain rfl : n = n' := by simpa [hn] using hn'
    rw [hfirst.same id hid] at hn₁
    exact hstatic.trans (Node.isStatic_eq_none (hfresh.unmarked id n₁ hn₁))
  · intro id e hid he
    exact exists_staticRoot_iff hsecond hid he
  · intro id e c k e' hid he hstatic hc hk he'
    exact staticRoot_mark_below settings hfresh hroot hid he hstatic hc hk he'

/-- A component with an element inside it, and an element that is rendered once and for all. -/
theorem exactlyMarked_mark_component :
    ∃ parsed, parse Settings.web
        "<div><my-box><p>a<b>c</b></p></my-box><ul><li>x</li><li>y</li></ul></div>" = .ok parsed ∧
      ExactlyMarked Settings.web parsed.tree (mark Settings.web parsed.tree) 0 := by
  refine (exists_parse Settings.web _ (by simp [Settings.web])).imp
    fun parsed hparsed => ⟨hparsed, ?_⟩
  have hroot : (Except.ok parsed : Except CompileError Parsed).toOption.bind (·.tree.root) =
      some 0 := by
    rw [← hparsed]
    decide +kernel
  exact exactlyMarked_mark hparsed hroot

end Static

end Templating
