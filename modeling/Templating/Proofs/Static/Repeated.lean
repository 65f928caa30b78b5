import Templating.Proofs.Tree.Acyclic
import Templating.Static.Gap

/-!
**Marking a tree again.**

Both passes write marks into the table while they go through it, and where a node can be reached in
several ways it is written several times.  What a pass writes, and where, does not depend on what
was written before; the last mark on a node is the one that stays.  So a pass that is run twice
leaves what it leaves the first time, whatever marks were there before it.

When no way through the tree runs in a circle, the passes go as far as the tree does: they meet no
gap, and the bound on their steps is never reached.

Main definitions:

* `Templating.Tree.Writes` — a pass that writes the same marks whatever was marked before;
* `Templating.Static.RunsThrough` — marking is cut short neither by a gap nor by a bound.

Main results:

* `Templating.Tree.Writes.twice` — **a pass that is run twice** writes nothing new;
* `Templating.Static.writes_markNodes`, `Templating.Static.writes_markRoots` — both passes are such;
* `Templating.Static.mark_idem` — marking a tree again changes nothing;
* `Templating.Static.runsThrough_of_acyclic` — what marking meets in a tree without circles;
* `Templating.Static.mark_mark` — **marking changes marks only, and once is enough**.
-/

set_option autoImplicit false

namespace Templating

/-! ### Passes that write -/

namespace Tree

/-- A pass that writes something into the nodes of a tree.  What it writes, and where, is the same
for all trees that look like `t₀`. -/
def Writes {α : Type} (write : α → Node → Node) (view : Node → Node) (t₀ : Tree)
    (pass : Tree → Tree) : Prop :=
  ∃ (marks : NodeId → α) (R : NodeId → Prop), ∀ t, t₀.Alike view t →
    Applied (fun k => write (marks k)) R t (pass t)

variable {α : Type} {write : α → Node → Node} {view : Node → Node} {t₀ t t' t'' : Tree}
  {pass pass' : Tree → Tree}

/-- Of two marks on a node the second one stays. -/
theorem Applied.override (hwrite : ∀ x y n, write x (write y n) = write x n)
    {marks marks' : NodeId → α} {R R' : NodeId → Prop} [DecidablePred R']
    (h : Applied (fun k => write (marks k)) R t t')
    (h' : Applied (fun k => write (marks' k)) R' t' t'') :
    Applied (fun k => write (if R' k then marks' k else marks k)) (fun k => R k ∨ R' k) t t'' := by
  refine ⟨h'.root.trans h.root, fun k hk => ?_, fun k hk => ?_⟩
  · by_cases hR' : R' k
    · rw [h'.changed k hR', if_pos hR']
      by_cases hR : R k
      · rw [h.changed k hR, Option.map_map]
        congr 1
        funext n
        exact hwrite _ _ n
      · rw [h.same k hR]
    · rw [h'.same k hR', if_neg hR', h.changed k (hk.resolve_right hR')]
  · rw [not_or] at hk
    rw [h'.same k hk.2, h.same k hk.1]

/-- The same marks a second time. -/
theorem Applied.again (hwrite : ∀ x y n, write x (write y n) = write x n) {marks : NodeId → α}
    {R : NodeId → Prop} (h : Applied (fun k => write (marks k)) R t t')
    (h' : Applied (fun k => write (marks k)) R t' t'') : t'' = t' := by
  refine ext_node? (fun k => ?_) h'.root
  by_cases hR : R k
  · rw [h'.changed k hR, h.changed k hR, Option.map_map]
    congr 1
    funext n
    exact hwrite _ _ n
  · exact h'.same k hR

namespace Writes

theorem skip [Inhabited α] : Writes write view t₀ fun t => t :=
  ⟨fun _ => default, fun _ => False, fun _ _ => Applied.refl fun _ => id⟩

theorem congr (h : Writes write view t₀ pass) (hpass : ∀ t, t₀.Alike view t → pass' t = pass t) :
    Writes write view t₀ pass' := by
  obtain ⟨marks, R, happlied⟩ := h
  refine ⟨marks, R, fun t ht => ?_⟩
  rw [hpass t ht]
  exact happlied t ht

/-- A single mark. -/
theorem single (id : NodeId) (x : α) : Writes write view t₀ fun t => t.modifyNode id (write x) :=
  ⟨fun _ => x, fun k => k = id, fun _ _ => Applied.modifyNode fun _ _ => rfl⟩

theorem alike (hview : ∀ x n, view (write x n) = view n) (h : Writes write view t₀ pass)
    (ht : t₀.Alike view t) : t₀.Alike view (pass t) := by
  obtain ⟨marks, R, happlied⟩ := h
  exact ht.trans ((happlied t ht).alike fun _ => hview _)

/-- One pass after another. -/
theorem comp (hwrite : ∀ x y n, write x (write y n) = write x n)
    (hview : ∀ x n, view (write x n) = view n) (h : Writes write view t₀ pass)
    (h' : Writes write view t₀ pass') : Writes write view t₀ fun t => pass' (pass t) := by
  classical
  have halike : ∀ t, t₀.Alike view t → t₀.Alike view (pass t) := fun t ht => h.alike hview ht
  obtain ⟨marks, R, happlied⟩ := h
  obtain ⟨marks', R', happlied'⟩ := h'
  exact ⟨_, _, fun t ht => (happlied t ht).override hwrite (happlied' (pass t) (halike t ht))⟩

/-- **A pass that is run twice** leaves what it leaves the first time. -/
theorem twice (hwrite : ∀ x y n, write x (write y n) = write x n)
    (hview : ∀ x n, view (write x n) = view n) (h : Writes write view t₀ pass)
    (ht : t₀.Alike view t) : pass (pass t) = pass t := by
  have halike := h.alike hview ht
  obtain ⟨marks, R, happlied⟩ := h
  exact (happlied t ht).again hwrite (happlied (pass t) halike)

end Writes

end Tree

/-! ### Marked nodes -/

namespace Node

theorem setStatic_of_isStatic {n : Node} {v : Bool} (h : n.isStatic = some v) :
    n.setStatic v = n := by
  cases n with
  | element e =>
      cases e
      cases h
      rfl
  | expression n =>
      cases n
      cases h
      rfl
  | text n =>
      cases n
      cases h
      rfl

theorem isStatic_unrooted (n : Node) : n.unrooted.isStatic = n.isStatic := by
  cases n <;> rfl

end Node

namespace Static

variable {settings : Settings} {t₀ t : Tree}

/-! ### The first pass -/

/-- Where the first pass leads from a node. -/
def exploredFrom (settings : Settings) (n : Node) : List NodeId :=
  (n.element?.map (explored settings)).getD []

theorem exploredFrom_congr {n n' : Node} (h : n'.unmarked = n.unmarked) :
    exploredFrom settings n' = exploredFrom settings n := by
  have hunmarked : ∀ n : Node, exploredFrom settings n.unmarked = exploredFrom settings n := by
    intro n
    cases n <;> rfl
  rw [← hunmarked n', h, hunmarked]

theorem isStaticNode_congr (h : t₀.Alike Node.unmarked t) {n n' : Node}
    (hsame : n'.unmarked = n.unmarked) :
    isStaticNode settings t n' = isStaticNode settings t₀ n := by
  cases n <;> cases n' <;> simp only [Node.unmarked, reduceCtorEq, Node.element.injEq] at hsame
  · exact isStaticElement_congr h hsame
  · rfl
  · rfl

theorem markNodes_of_node {fuel : Nat} {id : NodeId} {n : Node} (h : t.node? id = some n) :
    markNodes settings (fuel + 1) t id =
      let below := (exploredFrom settings n).foldl (markNext settings fuel)
        (t, isStaticNode settings t n)
      (below.1.modifyNode id (Node.setStatic below.2), below.2) := by
  cases n with
  | element e => exact markNodes_of_element h
  | expression n => exact markNodes_of_leaf h rfl
  | text n => exact markNodes_of_leaf h rfl

theorem markNodes_of_none {fuel : Nat} {id : NodeId} (h : t.node? id = none) :
    markNodes settings fuel t id = (t, false) := by
  cases fuel with
  | zero => rfl
  | succ fuel => simp only [markNodes, h]

/-- **The first pass** writes the same verdicts whatever was marked before, and returns the same. -/
theorem writes_markNodes (fuel : Nat) (id : NodeId) :
    Tree.Writes Node.setStatic Node.unmarked t₀ (fun t => (markNodes settings fuel t id).1) ∧
      ∃ v, ∀ t, t₀.Alike Node.unmarked t → (markNodes settings fuel t id).2 = v := by
  have hwrite : ∀ v w n, Node.setStatic v (Node.setStatic w n) = Node.setStatic v n :=
    fun v w n => setStatic_setStatic w v n
  induction fuel generalizing id with
  | zero => exact ⟨.skip, false, fun _ _ => rfl⟩
  | succ fuel ih =>
      -- several nodes, one after another
      have hall : ∀ (ids : List NodeId) (acc : Bool),
          Tree.Writes Node.setStatic Node.unmarked t₀
              (fun t => (ids.foldl (markNext settings fuel) (t, acc)).1) ∧
            ∃ v, ∀ t, t₀.Alike Node.unmarked t →
              (ids.foldl (markNext settings fuel) (t, acc)).2 = v := by
        intro ids
        induction ids with
        | nil => exact fun acc => ⟨.skip, acc, fun _ _ => rfl⟩
        | cons first ids ih' =>
            intro acc
            obtain ⟨hfirst, v, hv⟩ := ih first
            obtain ⟨hrest, w, hw⟩ := ih' (acc && v)
            have hcons : ∀ t, t₀.Alike Node.unmarked t →
                (first :: ids).foldl (markNext settings fuel) (t, acc) =
                  ids.foldl (markNext settings fuel)
                    ((markNodes settings fuel t first).1, acc && v) := by
              intro t ht
              rw [List.foldl_cons, markNext, hv t ht]
            refine ⟨(hfirst.comp hwrite Node.unmarked_setStatic hrest).congr
              fun t ht => by rw [hcons t ht], w, fun t ht => ?_⟩
            rw [hcons t ht]
            exact hw _ (hfirst.alike Node.unmarked_setStatic ht)
      cases hn₀ : t₀.node? id with
      | none =>
          have hnone : ∀ t, t₀.Alike Node.unmarked t →
              markNodes settings (fuel + 1) t id = (t, false) := by
            intro t ht
            have hn := ht id
            rw [hn₀, Option.map_none, Option.map_eq_none_iff] at hn
            exact markNodes_of_none hn
          exact ⟨Tree.Writes.skip.congr fun t ht => by rw [hnone t ht], false,
            fun t ht => by rw [hnone t ht]⟩
      | some n₀ =>
          obtain ⟨hbelow, v, hv⟩ := hall (exploredFrom settings n₀) (isStaticNode settings t₀ n₀)
          -- the verdict on all that the node leads to is written down last
          have hnode : ∀ t, t₀.Alike Node.unmarked t → markNodes settings (fuel + 1) t id =
              (((exploredFrom settings n₀).foldl (markNext settings fuel)
                (t, isStaticNode settings t₀ n₀)).1.modifyNode id (Node.setStatic v), v) := by
            intro t ht
            obtain ⟨n, hn, hsame⟩ := ht.node? hn₀
            rw [markNodes_of_node hn, exploredFrom_congr hsame, isStaticNode_congr ht hsame]
            simp only [hv t ht]
          exact ⟨(hbelow.comp hwrite Node.unmarked_setStatic (.single id v)).congr
            fun t ht => by rw [hnode t ht], v, fun t ht => by rw [hnode t ht]⟩

/-! ### The second pass -/

/-- Note of a node whether it is rendered once and for all, and whether it stands in a loop. -/
def noteNode (noted : Bool × Bool) : Node → Node
  | .element e => .element (noteRoot noted.1 noted.2 e)
  | n => n

theorem noteNode_noteNode (x y : Bool × Bool) (n : Node) :
    noteNode x (noteNode y n) = noteNode x n := by
  cases n with
  | element e =>
      simp only [noteNode, noteRoot]
      split <;> rfl
  | expression => rfl
  | text => rfl

theorem unrooted_noteNode (x : Bool × Bool) (n : Node) : (noteNode x n).unrooted = n.unrooted := by
  cases n <;> rfl

/-- **The second pass** notes the same whatever was noted before. -/
theorem writes_markRoots (fuel : Nat) (id : NodeId) (inFor : Bool) :
    Tree.Writes noteNode Node.unrooted t₀ fun t => markRoots fuel t id inFor := by
  induction fuel generalizing id inFor with
  | zero => exact .skip
  | succ fuel ih =>
      have hall : ∀ next : List (NodeId × Bool), Tree.Writes noteNode Node.unrooted t₀
          fun t => next.foldl (fun t p => markRoots fuel t p.1 p.2) t := by
        intro next
        induction next with
        | nil => exact .skip
        | cons p next ih' => exact (ih p.1 p.2).comp noteNode_noteNode unrooted_noteNode ih'
      cases he₀ : t₀.element? id with
      | none =>
          refine Tree.Writes.skip.congr fun t ht => ?_
          have hnone : t.element? id = none := by
            cases he : t.element? id with
            | none => rfl
            | some e =>
                obtain ⟨e₀, hsome, -⟩ := ht.symm.element? Node.element?_unrooted he
                rw [he₀] at hsome
                cases hsome
          simp only [markRoots, hnone]
      | some e₀ =>
          have hnote : Tree.Writes noteNode Node.unrooted t₀
              fun t => t.modifyElement id (noteRoot (isRoot t₀ e₀) inFor) :=
            (Tree.Writes.single id (isRoot t₀ e₀, inFor)).congr fun t _ => rfl
          have helement : ∀ t, t₀.Alike Node.unrooted t → ∃ e, t.element? id = some e ∧
              isRoot t e = isRoot t₀ e₀ ∧ followers e inFor = followers e₀ inFor := by
            intro t ht
            obtain ⟨e, he, hsame⟩ := ht.element? Node.element?_unrooted he₀
            exact ⟨e, he, isRoot_congr ht hsame, (congrArg (followers · inFor) hsame :)⟩
          by_cases hroot : isRoot t₀ e₀ = true
          · refine hnote.congr fun t ht => ?_
            obtain ⟨e, he, hsame, -⟩ := helement t ht
            simp only [markRoots, he, hsame, hroot, if_true]
          · refine (hnote.comp noteNode_noteNode unrooted_noteNode
              (hall (followers e₀ inFor))).congr fun t ht => ?_
            obtain ⟨e, he, hsame, hfollowers⟩ := helement t ht
            simp only [markRoots, he, hsame, hfollowers, if_neg hroot]

/-! ### Both passes -/

/-- What the first pass has written stays there while the second pass notes what it finds. -/
theorem markNodes_of_marked {marks : NodeId → Bool} {R : NodeId → Prop} {t₁ t₂ t₃ : Tree}
    (h : Tree.Applied (fun k => Node.setStatic (marks k)) R t t₁)
    (halike : t₁.Alike Node.unrooted t₂)
    (h' : Tree.Applied (fun k => Node.setStatic (marks k)) R t₂ t₃) : t₃ = t₂ := by
  refine Tree.ext_node? (fun k => ?_) h'.root
  by_cases hR : R k
  · rw [h'.changed k hR]
    cases hn₂ : t₂.node? k with
    | none => rfl
    | some n₂ =>
        obtain ⟨n₁, hn₁, hsame⟩ := halike.symm.node? hn₂
        rw [h.changed k hR] at hn₁
        obtain ⟨n, -, rfl⟩ := Option.map_eq_some_iff.mp hn₁
        have hstatic : n₂.isStatic = some (marks k) := by
          rw [← Node.isStatic_unrooted, ← hsame, Node.isStatic_unrooted, Node.isStatic_setStatic]
        rw [Option.map_some, Node.setStatic_of_isStatic hstatic]
  · exact h'.same k hR

theorem unmarked_unrooted (n : Node) : n.unrooted.unmarked = n.unmarked := by
  cases n <;> rfl

/-- Marking changes marks only, and marking again changes nothing.  This holds of every tree, with
the bound on the steps of the passes. -/
theorem mark_idem (settings : Settings) (t : Tree) :
    mark settings (mark settings t) = mark settings t ∧ (mark settings t).root = t.root ∧
      t.Alike Node.unmarked (mark settings t) := by
  cases hroot : t.root with
  | none =>
      have hmark : mark settings t = t := by simp only [mark, hroot]
      rw [hmark, hmark]
      exact ⟨rfl, hroot, Tree.Alike.refl t⟩
  | some root =>
      obtain ⟨marks, R, hfirst⟩ := (@writes_markNodes settings t (t.size + 1) root).1
      have hsecond := @writes_markRoots (markNodes settings (t.size + 1) t root).1
        (t.size + 1) root false
      have hmark : mark settings t = markRoots (t.size + 1)
          (markNodes settings (t.size + 1) t root).1 root false := by
        simp only [mark, hroot]
      have hunrooted := hsecond.alike unrooted_noteNode (Tree.Alike.refl _)
      have htwice := hsecond.twice noteNode_noteNode unrooted_noteNode (Tree.Alike.refl _)
      rw [← hmark] at hunrooted htwice
      have hfirst₁ := hfirst t (Tree.Alike.refl t)
      have halike : t.Alike Node.unmarked (mark settings t) :=
        (hfirst₁.alike fun _ => Node.unmarked_setStatic _).trans
          (hunrooted.coarsen unmarked_unrooted)
      have hroot' : (mark settings t).root = some root := by
        obtain ⟨_, _, happlied⟩ := hsecond
        rw [hmark, (happlied _ (Tree.Alike.refl _)).root, hfirst₁.root, hroot]
      refine ⟨?_, hroot', halike⟩
      have hagain : (markNodes settings (t.size + 1) (mark settings t) root).1 =
          mark settings t := markNodes_of_marked hfirst₁ hunrooted (hfirst _ halike)
      conv_lhs => rw [mark, hroot']
      simp only [halike.size_eq, hagain]
      exact htwice

/-! ### Trees without circles -/

/-- Marking a tree is cut short neither by a gap nor by the bound on its steps. -/
structure RunsThrough (settings : Settings) (t : Tree) : Prop where
  gapless : isMarkable settings t = true
  /-- The way up from an element may be followed further. -/
  up : ∀ (fuel : Nat) (e : Element), t.size ≤ fuel →
    t.templateLoopFrom fuel e.parent = t.inTemplateLoop e
  /-- Both passes may go further. -/
  down : ∀ (fuel : Nat) (root : NodeId), t.size < fuel → t.root = some root →
    markRoots fuel (markNodes settings fuel t root).1 root false = mark settings t

theorem nodesPresent_of_lt (h : t.Acyclic) (fuel id : Nat) (hid : id < t.size) :
    nodesPresent settings t fuel id = true := by
  induction fuel generalizing id with
  | zero => rfl
  | succ fuel ih =>
      cases hn : t.node? id with
      | none => simp [Tree.node?, Tree.size] at hn hid; omega
      | some n =>
          cases n with
          | element e =>
              simp only [nodesPresent, hn, Bool.or_eq_true, List.all_eq_true]
              exact .inr fun c hc => ih c (h.links id c ⟨e, Tree.element?_of_node? hn, hc⟩)
          | expression => simp only [nodesPresent, hn]
          | text => simp only [nodesPresent, hn]

theorem mem_dependents_of_mem_followers {e : Element} {inFor : Bool} {next : NodeId × Bool}
    (h : next ∈ followers e inFor) : next.1 ∈ dependents e := by
  simp only [followers, List.mem_append, List.mem_map] at h
  rw [dependents, List.mem_append]
  rcases h with ⟨c, hc, rfl⟩ | ⟨branch, hbranch, rfl⟩
  · exact .inl hc
  · exact .inr (List.mem_map_of_mem hbranch)

theorem rootsPresent_of_acyclic (h : t.Acyclic) (fuel id : Nat) :
    rootsPresent t fuel id = true := by
  induction fuel generalizing id with
  | zero => rfl
  | succ fuel ih =>
      cases he : t.element? id with
      | none => simp only [rootsPresent, he]
      | some e =>
          have hgap : hasLoneGap t e = false := by
            unfold hasLoneGap
            split
            · rename_i c hc
              have hlt := h.links id c ⟨e, he, by simp [dependents, hc]⟩
              simp [Tree.node?, Tree.size] at hlt ⊢
              omega
            · rfl
          simp only [rootsPresent, he, hgap, Bool.not_false, Bool.true_and, Bool.or_eq_true,
            List.all_eq_true]
          exact .inr fun next _ => ih next.1

/-- From a node on, a way down is shorter the fewer nodes the node leads to. -/
theorem height_lt_of_mem (h : t₀.Acyclic) (ht : t₀.Alike Node.unmarked t) {id c : Nat} {e : Element}
    (he : t.element? id = some e) (hc : c ∈ dependents e) :
    height t₀.Leads t₀.size c < height t₀.Leads t₀.size id := by
  have hleads : t₀.Leads id c := Tree.Leads.alike ht.symm ⟨e, he, hc⟩
  exact height_lt_height hleads (h.links id c hleads) (h.down c)

theorem mem_dependents_of_mem_exploredFrom {n : Node} {c : NodeId}
    (hc : c ∈ exploredFrom settings n) : ∃ e, n = .element e ∧ c ∈ dependents e := by
  cases n with
  | element e =>
      have hmem : c ∈ explored settings e := hc
      unfold explored at hmem
      split at hmem
      · cases hmem
      · exact ⟨e, rfl, hmem⟩
  | expression => cases hc
  | text => cases hc

/-- The first pass needs no more steps than there are nodes on its way. -/
theorem markNodes_fuel (h : t₀.Acyclic) (fuel fuel' id : Nat) {t : Tree}
    (ht : t₀.Alike Node.unmarked t) (hfuel : height t₀.Leads t₀.size id < fuel)
    (hfuel' : height t₀.Leads t₀.size id < fuel') :
    markNodes settings fuel t id = markNodes settings fuel' t id := by
  induction fuel generalizing id fuel' t with
  | zero => omega
  | succ f ih =>
      obtain ⟨f', rfl⟩ : ∃ f', fuel' = f' + 1 := ⟨fuel' - 1, by omega⟩
      cases hn : t.node? id with
      | none => rw [markNodes_of_none hn, markNodes_of_none hn]
      | some n =>
          have hbelow : (exploredFrom settings n).foldl (markNext settings f)
                (t, isStaticNode settings t n) =
              (exploredFrom settings n).foldl (markNext settings f')
                (t, isStaticNode settings t n) := by
            refine (List.foldl_rel (r := fun p p' => p = p' ∧ t₀.Alike Node.unmarked p.1)
              ⟨rfl, ht⟩ ?_).1
            rintro c hc p _ ⟨rfl, hp⟩
            obtain ⟨e, rfl, hmem⟩ := mem_dependents_of_mem_exploredFrom hc
            have hlt := height_lt_of_mem h ht (Tree.element?_of_node? hn) hmem
            refine ⟨?_, (writes_markNodes f c).1.alike Node.unmarked_setStatic hp⟩
            rw [markNext, markNext, ih f' c hp (by omega) (by omega)]
          rw [markNodes_of_node hn, markNodes_of_node hn, hbelow]

/-- The second pass needs no more steps than there are nodes on its way. -/
theorem markRoots_fuel (h : t₀.Acyclic) (fuel fuel' id : Nat) (inFor : Bool) {t : Tree}
    (ht : t₀.Alike Node.unmarked t) (hfuel : height t₀.Leads t₀.size id < fuel)
    (hfuel' : height t₀.Leads t₀.size id < fuel') :
    markRoots fuel t id inFor = markRoots fuel' t id inFor := by
  induction fuel generalizing id fuel' inFor t with
  | zero => omega
  | succ f ih =>
      obtain ⟨f', rfl⟩ : ∃ f', fuel' = f' + 1 := ⟨fuel' - 1, by omega⟩
      cases he : t.element? id with
      | none => simp only [markRoots, he]
      | some e =>
          have hnoted : t₀.Alike Node.unmarked (t.modifyElement id (noteRoot (isRoot t e) inFor)) :=
            ht.trans (Tree.Alike.modifyElement t id fun _ _ => rfl)
          have hbelow : (followers e inFor).foldl (fun t next => markRoots f t next.1 next.2)
                (t.modifyElement id (noteRoot (isRoot t e) inFor)) =
              (followers e inFor).foldl (fun t next => markRoots f' t next.1 next.2)
                (t.modifyElement id (noteRoot (isRoot t e) inFor)) := by
            refine (List.foldl_rel (r := fun t t' => t = t' ∧ t₀.Alike Node.unmarked t)
              ⟨rfl, hnoted⟩ ?_).1
            rintro next hnext t' _ ⟨rfl, ht'⟩
            have hlt := height_lt_of_mem h ht he (mem_dependents_of_mem_followers hnext)
            refine ⟨ih f' next.1 next.2 ht' (by omega) (by omega), ht'.trans ?_⟩
            exact ((writes_markRoots f next.1 next.2).alike unrooted_noteNode
              (Tree.Alike.refl t')).coarsen unmarked_unrooted
          simp only [markRoots, he, hbelow]

/-- **What marking meets in a tree without circles**: no gap, and no bound. -/
theorem runsThrough_of_acyclic (settings : Settings) (h : t.Acyclic) : RunsThrough settings t := by
  have hfirst : ∀ fuel root, t.Alike Node.unmarked (markNodes settings fuel t root).1 :=
    fun fuel root =>
      (writes_markNodes fuel root).1.alike Node.unmarked_setStatic (Tree.Alike.refl t)
  refine ⟨?_, fun fuel e hfuel => h.templateLoopFrom_eq hfuel e, fun fuel root hfuel hroot => ?_⟩
  · cases hroot : t.root with
    | none => simp only [isMarkable, hroot]
    | some root =>
        have hkept : (markNodes settings (t.size + 1) t root).1.root = t.root := by
          obtain ⟨_, _, happlied⟩ := (@writes_markNodes settings t (t.size + 1) root).1
          exact (happlied t (Tree.Alike.refl t)).root
        simp only [isMarkable, hroot, nodesPresent_of_lt h _ _ (h.root root hroot), Bool.true_and]
        exact rootsPresent_of_acyclic (h.alike (hfirst _ _) hkept) _ _
  · have hheight := height_lt (h.root root hroot) (h.down root)
    rw [markNodes_fuel h fuel (t.size + 1) root (Tree.Alike.refl t) (by omega) (by omega),
      markRoots_fuel h fuel (t.size + 1) root false (hfirst _ _) (by omega) (by omega)]
    simp only [mark, hroot]

/-- **Marking changes marks only, and once is enough.**  A tree without circles may be marked with
any settings and whatever marks it has: both times marking runs through the whole tree, and the
second time it changes nothing. -/
theorem mark_mark (settings : Settings) (h : t.Acyclic) :
    RunsThrough settings t ∧ RunsThrough settings (mark settings t) ∧
      mark settings (mark settings t) = mark settings t ∧ (mark settings t).root = t.root ∧
      t.Alike Node.unmarked (mark settings t) := by
  obtain ⟨hidem, hroot, halike⟩ := mark_idem settings t
  exact ⟨runsThrough_of_acyclic settings h, runsThrough_of_acyclic settings (h.alike halike hroot),
    hidem, hroot, halike⟩

/-- A tree that was put together by hand.  One of its elements is reached inside a loop and outside
of it, and has marks of its own. -/
def sharedElement : Tree where
  nodes := #[
    .element { tag := "div", children := [1, 2] },
    .element {
      tag := "ul", parent := some 0, children := [2], loop := some ⟨"xs", "x", none, none⟩ },
    .element {
      tag := "li", parent := some 1, children := [3], isStatic := some false,
      staticInFor := some true },
    .text { text := "a", isStatic := some false }]
  root := some 0

theorem mark_mark_sharedElement :
    sharedElement.Acyclic ∧ RunsThrough Settings.web sharedElement ∧
      mark Settings.web (mark Settings.web sharedElement) = mark Settings.web sharedElement ∧
      sharedElement.Alike Node.unmarked (mark Settings.web sharedElement) ∧
      ((mark Settings.web sharedElement).element? 2).map (·.staticInFor) = some (some false) := by
  have hcheck : ∀ id ∈ List.range 4, ∀ e ∈ sharedElement.element? id,
      (∀ c ∈ dependents e, id < c ∧ c < 4) ∧ ∀ p ∈ e.parent, p < id := by decide
  have hmem : ∀ (id : Nat) (e : Element), sharedElement.element? id = some e → id ∈ List.range 4 :=
    fun id e he => List.mem_range.mpr (Tree.lt_size_of_element? he)
  have hacyclic : sharedElement.Acyclic := by
    refine Tree.acyclic_of_lt (fun root hroot => ?_) ?_ fun id e he p hp => ?_
    · cases hroot
      decide
    · rintro id c ⟨e, he, hc⟩
      exact (hcheck id (hmem id e he) e he).1 c hc
    · exact (hcheck id (hmem id e he) e he).2 p hp
  obtain ⟨hruns, -, hidem, -, halike⟩ := mark_mark Settings.web hacyclic
  exact ⟨hacyclic, hruns, hidem, halike, by decide +kernel⟩

end Static

end Templating
