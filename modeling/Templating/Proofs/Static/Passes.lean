import Templating.Proofs.Static.Steady
import Templating.Proofs.Tree.Reach

/-!
**What the two passes do.**

Both passes change nodes in place while they go through the tree.  Since the tree is a forest in
document order, each pass amounts to one change of every node that it meets and of no other: the
first pass writes down whether the node is steady, the second whether it is rendered once and for
all and whether it stands in a loop.

Main definitions:

* `Templating.Tree.Applied` — a tree with some of its nodes changed;
* `Templating.Static.explored`, `Templating.Static.pursued` — where the two passes lead;
* `Templating.Static.noted` — what the second pass makes of a node.

Main results:

* `Templating.Tree.ParentsFirst.nearestLoop?_some` — the nearest loop, one step further up;
* `Templating.Static.applied_markNodes` — **the first pass** changes every node that it meets once;
* `Templating.Static.applied_markRoots` — so does **the second pass**.
-/

set_option autoImplicit false

namespace Templating

/-! ### Changing some nodes of a tree -/

/-- The tree `t'` is the tree `t` with every node changed by `f` whose number satisfies `R`. -/
structure Tree.Applied (f : NodeId → Node → Node) (R : NodeId → Prop) (t t' : Tree) : Prop where
  root : t'.root = t.root
  changed : ∀ k, R k → t'.node? k = (t.node? k).map (f k)
  same : ∀ k, ¬R k → t'.node? k = t.node? k

namespace Tree.Applied

variable {f : NodeId → Node → Node} {R R' : NodeId → Prop} {t t' t'' : Tree}

theorem refl (h : ∀ k, ¬R k) : Applied f R t t :=
  ⟨rfl, fun k hk => absurd hk (h k), fun _ _ => rfl⟩

theorem congr (h : Applied f R t t') (hR : ∀ k, R k ↔ R' k) : Applied f R' t t' :=
  ⟨h.root, fun k hk => h.changed k ((hR k).mpr hk),
    fun k hk => h.same k fun h' => hk ((hR k).mp h')⟩

/-- A change of a single node. -/
theorem modifyNode {id : NodeId} {g : Node → Node}
    (hg : ∀ n, t.node? id = some n → g n = f id n) : Applied f (· = id) t (t.modifyNode id g) := by
  refine ⟨rfl, ?_, ?_⟩
  · rintro k rfl
    rw [node?_modifyNode, if_pos rfl]
    cases hn : t.node? k with
    | none => rfl
    | some n => simp [hg n hn]
  · intro k hk
    rw [node?_modifyNode, if_neg (fun h => hk h.symm)]

/-- Changes one after another; a node may be changed twice when the second time makes no
difference. -/
theorem trans (hf : ∀ k n, f k (f k n) = f k n) (h : Applied f R t t') (h' : Applied f R' t' t'') :
    Applied f (fun k => R k ∨ R' k) t t'' := by
  refine ⟨h'.root.trans h.root, ?_, ?_⟩
  · intro k hk
    by_cases hR' : R' k
    · rw [h'.changed k hR']
      by_cases hR : R k
      · rw [h.changed k hR, Option.map_map]
        congr 1
        funext n
        exact hf k n
      · rw [h.same k hR]
    · rw [h'.same k hR', h.changed k (hk.resolve_right hR')]
  · intro k hk
    rw [not_or] at hk
    rw [h'.same k hk.2, h.same k hk.1]

/-- Changes that cannot be seen. -/
theorem alike {view : Node → Node} (hf : ∀ k n, view (f k n) = view n) (h : Applied f R t t') :
    Alike view t t' := by
  intro k
  by_cases hR : R k
  · rw [h.changed k hR, Option.map_map]
    congr 1
    funext n
    exact hf k n
  · rw [h.same k hR]

end Tree.Applied

/-! ### Links -/

theorem Tree.Alike.links? {view : Node → Node} (hview : ∀ n, (view n).links = n.links)
    {t t' : Tree} (h : t.Alike view t') (k : NodeId) : t'.links? k = t.links? k := by
  have hk := congrArg (Option.map Node.links) (h k)
  simpa [Tree.links?, Function.comp_def, hview] using hk

theorem Node.links_unmarked (n : Node) : n.unmarked.links = n.links := by
  cases n <;> rfl

/-- Marks change no way through a tree. -/
theorem Tree.Reach.alike {t t' : Tree} (halike : t.Alike Node.unmarked t') {root id : NodeId}
    (h : t'.Reach Static.dependents root id) : t.Reach Static.dependents root id := by
  refine h.congr fun k e he => ?_
  obtain ⟨e₀, he₀, hsame⟩ := halike.symm.element? Node.element?_unmarked he
  exact ⟨e₀, he₀, (congrArg Static.dependents hsame :)⟩

/-! ### Nodes before the second pass -/

/-- An element without what the second pass records. -/
def Element.unrooted (e : Element) : Element := { e with staticRoot := none, staticInFor := none }

/-- A node without what the second pass records. -/
def Node.unrooted : Node → Node
  | .element e => .element e.unrooted
  | n => n

theorem Node.element?_unrooted (n : Node) :
    n.unrooted.element? = n.element?.map Element.unrooted := by
  cases n <;> rfl

/-! ### Loops around a node -/

/-- Parents come before what is inside them. -/
def Tree.ParentsFirst (t : Tree) : Prop :=
  ∀ (id : Nat) (e : Element), t.element? id = some e → ∀ parent : Nat, e.parent = some parent →
    parent < id

theorem Tree.ParentsFirst.alike {t t' : Tree} (halike : t.Alike Node.unmarked t')
    (h : t.ParentsFirst) : t'.ParentsFirst := by
  intro id e he parent hparent
  obtain ⟨e₀, he₀, hsame⟩ := halike.symm.element? Node.element?_unmarked he
  have hparent₀ : e₀.parent = e.parent := (congrArg Element.parent hsame :)
  exact h id e₀ he₀ parent (hparent₀.trans hparent)

theorem Tree.loopFuel?_none (t : Tree) (fuel : Nat) : t.loopFuel? fuel none = none := by
  cases fuel <;> rfl

/-- The way up from a node is no longer than its number. -/
theorem Tree.ParentsFirst.loopFuel?_eq {t : Tree} (h : t.ParentsFirst) (id : Nat) :
    ∀ fuel fuel' : Nat, id < fuel → id < fuel' →
      t.loopFuel? fuel (some id) = t.loopFuel? fuel' (some id) := by
  induction id using Nat.strongRecOn with
  | ind id ih =>
      intro fuel fuel' hfuel hfuel'
      obtain ⟨f, rfl⟩ : ∃ f, fuel = f + 1 := ⟨fuel - 1, by omega⟩
      obtain ⟨f', rfl⟩ : ∃ f', fuel' = f' + 1 := ⟨fuel' - 1, by omega⟩
      simp only [Tree.loopFuel?]
      cases he : t.element? id with
      | none => rfl
      | some e =>
          cases hparent : e.parent with
          | none => simp only [hparent, Tree.loopFuel?_none]
          | some parent =>
              have hlt := h id e he parent hparent
              simp only [hparent, ih parent hlt f f' (by omega) (by omega)]

/-- The nearest loop, one step further up. -/
theorem Tree.ParentsFirst.nearestLoop?_some {t : Tree} (h : t.ParentsFirst) {id : Nat}
    {e : Element} (he : t.element? id = some e) :
    t.nearestLoop? (some id) = if e.loop.isSome then some e else t.nearestLoop? e.parent := by
  have hlt : id < t.size := by
    have hsome : t.links? id ≠ none := by simp [Tree.links?_of_element? he]
    rwa [ne_eq, Tree.links?_eq_none_iff, not_le] at hsome
  obtain ⟨f, hf⟩ : ∃ f, t.size = f + 1 := ⟨t.size - 1, by omega⟩
  simp only [Tree.nearestLoop?, hf]
  rw [Tree.loopFuel?, he]
  dsimp only
  cases hparent : e.parent with
  | none => simp only [Tree.loopFuel?_none]
  | some parent =>
      have hparent_lt := h id e he parent hparent
      rw [h.loopFuel?_eq parent f (f + 1) (by omega) (by omega)]

namespace Static

variable {settings : Settings} {t₀ t : Tree}

/-! ### The first pass -/

/-- Where the first pass leads: nowhere from a component. -/
def explored (settings : Settings) (e : Element) : List NodeId :=
  if ownsContent settings e then [] else dependents e

/-- Marking one of several nodes, and remembering whether all of them never change. -/
def markNext (settings : Settings) (fuel : Nat) (p : Tree × Bool) (id : NodeId) : Tree × Bool :=
  ((markNodes settings fuel p.1 id).1, p.2 && (markNodes settings fuel p.1 id).2)

theorem steady_iff_of_element {id : NodeId} {e : Element} (he : t.element? id = some e) :
    Steady settings t id ↔
      isStaticElement settings t e = true ∧ ∀ c ∈ explored settings e, Steady settings t c := by
  constructor
  · intro h
    cases h with
    | text hn =>
        rw [Tree.node?_of_element? he] at hn
        cases hn
    | element he' own below =>
        obtain rfl : e = _ := by simpa [he] using he'
        refine ⟨own, fun c hc => ?_⟩
        unfold explored at hc
        split at hc
        · cases hc
        · rename_i howns
          exact below (by simpa using howns) c hc
  · rintro ⟨own, below⟩
    refine .element he own fun howns c hc => below c ?_
    rwa [explored, if_neg (by simp [howns])]

theorem not_steady_of_expression {id : NodeId} {n : ExpressionNode}
    (h : t.node? id = some (.expression n)) : ¬Steady settings t id := by
  intro hsteady
  cases hsteady with
  | text hn =>
      rw [h] at hn
      cases hn
  | element he =>
      rw [Tree.node?_of_element? he] at h
      cases h

theorem markNodes_of_element {fuel : Nat} {id : NodeId} {e : Element}
    (h : t.node? id = some (.element e)) :
    markNodes settings (fuel + 1) t id =
      let below := (explored settings e).foldl (markNext settings fuel)
        (t, isStaticElement settings t e)
      (below.1.modifyNode id (Node.setStatic below.2), below.2) := by
  simp only [markNodes, h, explored, isStaticNode]
  split
  · rfl
  · rfl

theorem markNodes_of_leaf {fuel : Nat} {id : NodeId} {n : Node} (h : t.node? id = some n)
    (hleaf : n.element? = none) :
    markNodes settings (fuel + 1) t id =
      (t.modifyNode id (Node.setStatic (isStaticNode settings t n)),
        isStaticNode settings t n) := by
  cases n with
  | element e => cases hleaf
  | expression n => simp only [markNodes, h]
  | text n => simp only [markNodes, h]

theorem setStatic_setStatic (v w : Bool) (n : Node) :
    (n.setStatic v).setStatic w = n.setStatic w := by
  cases n <;> rfl

/-- **The first pass** over a forest writes down of every node that it meets whether it is steady,
and says whether all the nodes of the forest are. -/
theorem applied_markNodes {v : NodeId → Bool} (hv : ∀ k, v k = true ↔ Steady settings t₀ k)
    {p : Option NodeId} {lo hi : Nat} {ids : List NodeId} (h : t₀.Forest p lo hi ids) :
    ∀ (fuel : Nat) (t : Tree) (acc : Bool), hi ≤ lo + fuel → t₀.Alike Node.unmarked t →
      Tree.Applied (fun k => Node.setStatic (v k)) (t₀.Reaches (explored settings) ids) t
          (ids.foldl (markNext settings fuel) (t, acc)).1 ∧
        (ids.foldl (markNext settings fuel) (t, acc)).2 = (acc && ids.all v) := by
  have hidem : ∀ k n, Node.setStatic (v k) (Node.setStatic (v k) n) = Node.setStatic (v k) n :=
    fun k n => setStatic_setStatic _ _ n
  have hunmarked : ∀ k n, (Node.setStatic (v k) n).unmarked = n.unmarked :=
    fun k n => Node.unmarked_setStatic _ n
  -- one node after another: what is known of the first is still known after the others
  have hcons : ∀ (id : NodeId) (ids : List NodeId) (fuel : Nat) (t : Tree) (acc : Bool),
      t₀.Alike Node.unmarked t →
      Tree.Applied (fun k => Node.setStatic (v k)) (t₀.Reach (explored settings) id) t
          (markNodes settings fuel t id).1 ∧ (markNodes settings fuel t id).2 = v id →
      (∀ (t : Tree) (acc : Bool), t₀.Alike Node.unmarked t →
        Tree.Applied (fun k => Node.setStatic (v k)) (t₀.Reaches (explored settings) ids) t
            (ids.foldl (markNext settings fuel) (t, acc)).1 ∧
          (ids.foldl (markNext settings fuel) (t, acc)).2 = (acc && ids.all v)) →
      Tree.Applied (fun k => Node.setStatic (v k)) (t₀.Reaches (explored settings) (id :: ids)) t
          ((id :: ids).foldl (markNext settings fuel) (t, acc)).1 ∧
        ((id :: ids).foldl (markNext settings fuel) (t, acc)).2 = (acc && (id :: ids).all v) := by
    intro id ids fuel t acc halike ⟨hfirst, hvalue⟩ hrest
    obtain ⟨hothers, hall⟩ := hrest (markNodes settings fuel t id).1
      (acc && (markNodes settings fuel t id).2) (halike.trans (hfirst.alike hunmarked))
    refine ⟨(hfirst.trans hidem hothers).congr fun k => Tree.reaches_cons.symm, ?_⟩
    rw [List.foldl_cons, List.all_cons, ← Bool.and_assoc, ← hvalue]
    exact hall
  induction h with
  | nil =>
      intro fuel t acc _ _
      exact ⟨Tree.Applied.refl fun k => Tree.not_reaches_nil, by simp⟩
  | @leaf p lo hi id ids hlinks hlo h ih =>
      intro fuel t acc hfuel halike
      have hle := h.le
      refine hcons id ids fuel t acc halike ?_ fun t acc ht => ih fuel t acc (by omega) ht
      obtain ⟨f, rfl⟩ : ∃ f, fuel = f + 1 := ⟨fuel - 1, by omega⟩
      have hnone := Tree.element?_of_links? hlinks
      obtain ⟨n₀, hn₀, hleaf₀⟩ : ∃ n₀, t₀.node? id = some n₀ ∧ n₀.element? = none := by
        obtain ⟨n₀, hn₀, -⟩ := Option.map_eq_some_iff.mp hlinks
        exact ⟨n₀, hn₀, by simpa [Tree.element?, hn₀] using hnone⟩
      obtain ⟨n, hn, hsame⟩ := halike.node? hn₀
      have hvalue : isStaticNode settings t n = v id ∧ n.element? = none := by
        cases n₀ with
        | element => cases hleaf₀
        | expression =>
            cases n with
            | element => cases hsame
            | text => cases hsame
            | expression =>
                refine ⟨?_, rfl⟩
                have hnot : ¬v id = true := fun htrue =>
                  not_steady_of_expression hn₀ ((hv id).mp htrue)
                simpa [isStaticNode] using hnot
        | text =>
            cases n with
            | element => cases hsame
            | expression => cases hsame
            | text => exact ⟨((hv id).mpr (.text hn₀)).symm, rfl⟩
      rw [markNodes_of_leaf hn hvalue.2, hvalue.1]
      refine ⟨(Tree.Applied.modifyNode fun _ _ => rfl).congr fun k => ?_, rfl⟩
      rw [Tree.reach_iff_of_leaf hnone]
  | @element p lo mid₁ mid₂ hi id ids l hlinks _ hlo hchildren _ hfurther h ih₁ ih₂ ih₃ =>
      intro fuel t acc hfuel halike
      have hle₁ := hchildren.le
      have hle₂ := hfurther.le
      have hle₃ := h.le
      refine hcons id ids fuel t acc halike ?_ fun t acc ht => ih₃ fuel t acc (by omega) ht
      obtain ⟨f, rfl⟩ : ∃ f, fuel = f + 1 := ⟨fuel - 1, by omega⟩
      obtain ⟨e₀, he₀, rfl⟩ := Tree.links?_eq_some_some_iff.mp hlinks
      obtain ⟨e, he, hsame⟩ := halike.element? Node.element?_unmarked he₀
      have hexplored : explored settings e = explored settings e₀ :=
        (congrArg (explored settings) hsame :)
      have hown : isStaticElement settings t e = isStaticElement settings t₀ e₀ :=
        isStaticElement_congr halike hsame
      -- what the element leads to is marked first
      have hbelow : Tree.Applied (fun k => Node.setStatic (v k))
            (t₀.Reaches (explored settings) (explored settings e₀)) t
            ((explored settings e₀).foldl (markNext settings f)
              (t, isStaticElement settings t₀ e₀)).1 ∧
          ((explored settings e₀).foldl (markNext settings f)
            (t, isStaticElement settings t₀ e₀)).2 =
              (isStaticElement settings t₀ e₀ && (explored settings e₀).all v) := by
        unfold explored
        split
        · exact ⟨Tree.Applied.refl fun k => Tree.not_reaches_nil, by simp⟩
        · rw [dependents, List.foldl_append, List.all_append, ← Bool.and_assoc]
          obtain ⟨hinside, hvalue⟩ := ih₁ f t (isStaticElement settings t₀ e₀) (by omega) halike
          obtain ⟨hbeside, hvalue'⟩ := ih₂ f (e₀.children.foldl (markNext settings f)
              (t, isStaticElement settings t₀ e₀)).1
            (e₀.children.foldl (markNext settings f) (t, isStaticElement settings t₀ e₀)).2
            (by omega) (halike.trans (hinside.alike hunmarked))
          refine ⟨(hinside.trans hidem hbeside).congr fun k => Tree.reaches_append.symm, ?_⟩
          have hinner : (e₀.children.foldl (markNext settings f)
              (t, isStaticElement settings t₀ e₀)).2 =
              (isStaticElement settings t₀ e₀ && e₀.children.all v) := hvalue
          rw [← hinner]
          exact hvalue'
      have hverdict : (isStaticElement settings t₀ e₀ && (explored settings e₀).all v) = v id := by
        rw [Bool.eq_iff_iff, hv id, steady_iff_of_element he₀, Bool.and_eq_true, List.all_eq_true]
        simp only [hv]
      rw [markNodes_of_element (Tree.node?_of_element? he), hexplored, hown]
      dsimp only
      rw [hbelow.2, hverdict]
      refine ⟨?_, rfl⟩
      refine (hbelow.1.trans hidem (Tree.Applied.modifyNode fun _ _ => rfl)).congr fun k => ?_
      rw [Tree.reach_iff_of_element he₀, or_comm]

/-! ### The second pass -/

/-- Where the second pass leads: nowhere from an element that is rendered once and for all. -/
def pursued (t : Tree) (e : Element) : List NodeId :=
  if isRoot t e then [] else dependents e

/-- What the second pass makes of a node. -/
def noted (t : Tree) : Node → Node
  | .element e => .element (noteRoot (isRoot t e) (t.nearestLoop? e.parent).isSome e)
  | n => n

theorem isSingleText_congr {t t' : Tree} (h : t.Alike Node.unrooted t') {e e' : Element}
    (hsame : e'.unrooted = e.unrooted) : isSingleText t' e' = isSingleText t e := by
  have hchildren : e'.children = e.children := (congrArg Element.children hsame :)
  unfold isSingleText
  rw [hchildren]
  split
  · rename_i child _
    cases hn : t.node? child with
    | none =>
        have hn' := h child
        rw [hn, Option.map_none, Option.map_eq_none_iff] at hn'
        rw [hn']
    | some n =>
        obtain ⟨n', hn', hview⟩ := h.node? hn
        rw [hn']
        cases n <;> cases n' <;> simp_all [Node.unrooted]
  · rfl

/-- Whether an element is rendered once and for all is known before the second pass. -/
theorem isRoot_congr {t t' : Tree} (h : t.Alike Node.unrooted t') {e e' : Element}
    (hsame : e'.unrooted = e.unrooted) : isRoot t' e' = isRoot t e := by
  have hstatic : e'.isStatic = e.isStatic := (congrArg Element.isStatic hsame :)
  have hchildren : e'.children = e.children := (congrArg Element.children hsame :)
  rw [isRoot, isRoot, hstatic, hchildren, isSingleText_congr h hsame]

theorem unrooted_noted (t : Tree) (n : Node) : (noted t n).unrooted = n.unrooted := by
  cases n <;> rfl

theorem unmarked_noted (t : Tree) (n : Node) : (noted t n).unmarked = n.unmarked := by
  cases n <;> rfl

theorem noted_noted (t : Tree) (n : Node) : noted t (noted t n) = noted t n := by
  cases n with
  | element e =>
      have hroot : isRoot t (noteRoot (isRoot t e) (t.nearestLoop? e.parent).isSome e) =
          isRoot t e := rfl
      simp only [noted, hroot]
      simp only [noteRoot]
      split <;> simp_all
  | expression => rfl
  | text => rfl

theorem markRoots_of_element {fuel : Nat} {id : NodeId} {e : Element}
    (he : t.element? id = some e) (inFor : Bool) :
    markRoots (fuel + 1) t id inFor =
      let t' := t.modifyElement id (noteRoot (isRoot t e) inFor)
      if isRoot t e then t'
      else
        (e.branches.drop 1).foldl (fun t branch => markRoots fuel t branch.block inFor)
          (e.children.foldl (fun t child => markRoots fuel t child (inFor || e.loop.isSome))
            t') := by
  simp only [markRoots, he, followers, List.foldl_append, List.foldl_map]

/-- **The second pass** over a forest notes of every element that it meets whether it is rendered
once and for all, and whether it stands in a loop. -/
theorem applied_markRoots {t₁ : Tree} (hup : t₁.ParentsFirst) {p : Option NodeId} {lo hi : Nat}
    {ids : List NodeId} (h : t₁.Forest p lo hi ids) : ∀ (fuel : Nat) (t : Tree), hi ≤ lo + fuel →
      t₁.Alike Node.unrooted t →
      Tree.Applied (fun _ => noted t₁) (t₁.Reaches (pursued t₁) ids) t
        (ids.foldl (fun t id => markRoots fuel t id (t₁.nearestLoop? p).isSome) t) := by
  have hidem : ∀ (k : NodeId) (n : Node), noted t₁ (noted t₁ n) = noted t₁ n :=
    fun _ => noted_noted t₁
  have hunrooted : ∀ (k : NodeId) (n : Node), (noted t₁ n).unrooted = n.unrooted :=
    fun _ => unrooted_noted t₁
  induction h with
  | nil => exact fun fuel t _ _ => Tree.Applied.refl fun k => Tree.not_reaches_nil
  | @leaf p lo hi id ids hlinks hlo h ih =>
      intro fuel t hfuel halike
      have hle := h.le
      obtain ⟨f, rfl⟩ : ∃ f, fuel = f + 1 := ⟨fuel - 1, by omega⟩
      have hnone := Tree.element?_of_links? hlinks
      -- a leaf is met, but there is nothing to note
      have hskip : markRoots (f + 1) t id (t₁.nearestLoop? p).isSome = t := by
        have hnone' : t.element? id = none := by
          cases he : t.element? id with
          | none => rfl
          | some e =>
              obtain ⟨e₁, he₁, -⟩ := halike.symm.element? Node.element?_unrooted he
              rw [hnone] at he₁
              cases he₁
        simp only [markRoots, hnone']
      have hleaf : Tree.Applied (fun _ => noted t₁) (t₁.Reach (pursued t₁) id) t
          (markRoots (f + 1) t id (t₁.nearestLoop? p).isSome) := by
        rw [hskip]
        refine ⟨rfl, fun k hk => ?_, fun _ _ => rfl⟩
        rw [Tree.reach_iff_of_leaf hnone] at hk
        obtain ⟨n₁, hn₁, hlinks₁⟩ := Option.map_eq_some_iff.mp hlinks
        obtain ⟨n, hn, hview⟩ := halike.node? hn₁
        rw [hk, hn]
        cases n with
        | element => cases n₁ <;> simp_all [Node.unrooted, Node.links]
        | expression => rfl
        | text => rfl
      have hrest := ih (f + 1) _ (by omega) (halike.trans (hleaf.alike hunrooted))
      exact (hleaf.trans hidem hrest).congr fun k => Tree.reaches_cons.symm
  | @element p lo mid₁ mid₂ hi id ids l hlinks hparent hlo hchildren _ hfurther h ih₁ ih₂ ih₃ =>
      intro fuel t hfuel halike
      have hle₁ := hchildren.le
      have hle₂ := hfurther.le
      have hle₃ := h.le
      obtain ⟨f, rfl⟩ : ∃ f, fuel = f + 1 := ⟨fuel - 1, by omega⟩
      obtain ⟨e₁, he₁, rfl⟩ := Tree.links?_eq_some_some_iff.mp hlinks
      obtain ⟨e, he, hsame⟩ := halike.element? Node.element?_unrooted he₁
      have hroot : isRoot t e = isRoot t₁ e₁ := isRoot_congr halike hsame
      have hfor : ((t₁.nearestLoop? p).isSome || e.loop.isSome) =
          (t₁.nearestLoop? (some id)).isSome := by
        have hloop : e.loop = e₁.loop := (congrArg Element.loop hsame :)
        rw [hloop, hup.nearestLoop?_some he₁, show e₁.parent = p from hparent]
        split <;> simp_all
      have hnoted : Tree.Applied (fun _ => noted t₁) (· = id) t
          (t.modifyElement id (noteRoot (isRoot t e) (t₁.nearestLoop? p).isSome)) := by
        refine Tree.Applied.modifyNode fun n hn => ?_
        obtain rfl : Node.element e = n := by
          rw [Tree.node?_of_element? he] at hn
          exact Option.some.inj hn
        have hparent' : e.parent = p := (congrArg Element.parent hsame :).trans hparent
        have hroot' : isRoot t e = isRoot t₁ e := isRoot_congr halike rfl
        simp only [noted, hparent', hroot']
      have hsingle : Tree.Applied (fun _ => noted t₁) (t₁.Reach (pursued t₁) id) t
          (markRoots (f + 1) t id (t₁.nearestLoop? p).isSome) := by
        have hreach : ∀ k, t₁.Reach (pursued t₁) id k ↔
            k = id ∨ t₁.Reaches (pursued t₁) (pursued t₁ e₁) k :=
          fun k => Tree.reach_iff_of_element he₁
        have halike' := halike.trans (hnoted.alike hunrooted)
        rw [markRoots_of_element he]
        dsimp only
        rw [hroot] at hnoted halike' ⊢
        split
        · rename_i hisRoot
          refine hnoted.congr fun k => ?_
          rw [hreach, pursued, if_pos hisRoot]
          simp [Tree.not_reaches_nil]
        · -- the children stand in the loop of the element, its further branches do not
          rename_i hisRoot
          have hchildren' : e.children = e₁.children := (congrArg Element.children hsame :)
          have hbranches' : e.branches = e₁.branches := (congrArg Element.branches hsame :)
          rw [hfor, hchildren', hbranches']
          have hinside := ih₁ f _ (by omega) halike'
          have hbeside := ih₂ f _ (by omega) (halike'.trans (hinside.alike hunrooted))
          rw [Element.links, List.foldl_map] at hbeside
          refine ((hnoted.trans hidem hinside).trans hidem hbeside).congr fun k => ?_
          rw [hreach, pursued, if_neg hisRoot, dependents, Tree.reaches_append, or_assoc]
          rfl
      have hrest := ih₃ (f + 1) _ (by omega) (halike.trans (hsingle.alike hunrooted))
      exact (hsingle.trans hidem hrest).congr fun k => Tree.reaches_cons.symm

end Static

end Templating
