import Templating.Compile
import Templating.Proofs.Render.Callbacks
import Templating.Proofs.Render.Collecting
import Templating.Proofs.Render.Hoisted
import Templating.Proofs.Tree.DocumentOrder

/-!
**Counted elements and generated functions.**

The elements that are rendered once and for all are met twice: a walk through the tree counts them,
and the generator gives each of them a function.  The walk goes where the links of an element lead;
the generator leaves out the children of a component with an inline template, and the branches
behind one without a condition.  Marked elements that lie there are counted, and have no function.

Main definitions:

* `Templating.Visit.staticRoot?`, `Templating.Tree.countedRoots` — the elements that are counted;
* `Templating.Render.hidden` — where an element leads and no code comes from;
* `Templating.Render.IsLost` — a marked element without a function;
* `Templating.Render.Counts` — **counted elements are those with a function and the lost ones**.

Main results:

* `Templating.Tree.Forest.listsMarks_walk` — the walk meets all marked elements, by increasing
  number;
* `Templating.Render.OnceFree.reach_iff` — what is reached is rendered or hidden, and never both;
* `Templating.Render.exists_compile_counts` — the counts of a template;
* `Templating.Render.exists_lost_roots` — elements that are counted and have no function.
-/

set_option autoImplicit false

namespace Templating

open Static (dependents)

/-! ### Counting -/

/-- The element that a step enters, when it is rendered once and for all. -/
def Visit.staticRoot? : Visit → Option NodeId
  | enter id e => if e.staticRoot = some true then some id else none
  | _ => none

namespace Tree

/-- The elements that are counted, in the order of the walk. -/
def countedRoots (t : Tree) : List NodeId :=
  (t.walk fun e => e.staticRoot != some true).filterMap Visit.staticRoot?

theorem staticRootCount_eq (t : Tree) : t.staticRootCount = t.countedRoots.length := by
  unfold staticRootCount countedRoots
  induction t.walk fun e => e.staticRoot != some true with
  | nil => rfl
  | cons v vs ih =>
      rw [List.countP_cons, List.filterMap_cons, ih]
      cases v with
      | enter id e =>
          by_cases h : e.staticRoot = some true
          · simp [Visit.entersStaticRoot, Visit.staticRoot?, h]
          · simp [Visit.entersStaticRoot, Visit.staticRoot?, h]
      | _ => rfl

/-- No mark lies below another one. -/
def MarksApart (t : Tree) (ids : List NodeId) : Prop :=
  ∀ id e k, t.Reaches dependents ids id → t.element? id = some e → e.staticRoot = some true →
    t.Reaches dependents (dependents e) k → t.marks k = none

theorem MarksApart.mono {t : Tree} {ids ids' : List NodeId} (h : t.MarksApart ids)
    (hids : ∀ k, t.Reaches dependents ids' k → t.Reaches dependents ids k) : t.MarksApart ids' :=
  fun id e k hid => h id e k (hids id hid)

/-- An element, marked or not, as a list of its own. -/
theorem listsMarks_self {t : Tree} {id : NodeId} {e : Element} (he : t.element? id = some e) :
    t.ListsMarks (· = id) (if e.staticRoot = some true then [id] else []) := by
  split
  · rename_i hroot
    exact .single (by simp [marks, he, hroot]) rfl fun k hk hne => absurd hk hne
  · rename_i hroot
    refine .nil ?_
    rintro k rfl
    simp [marks, he, hroot]

/-- **The walk meets all marked elements of a forest**, by increasing number, although it does not
look into them. -/
theorem Forest.listsMarks_walk {t : Tree} {p : Option NodeId} {lo hi : Nat} {ids : List NodeId}
    (h : Forest t p lo hi ids) : ∀ fuel, hi ≤ lo + fuel → t.MarksApart ids →
    t.ListsMarks (t.Reaches dependents ids)
      ((ids.flatMap (t.walkFuel (fun e => e.staticRoot != some true) fuel)).filterMap
        Visit.staticRoot?) := by
  induction h with
  | nil =>
      intro fuel _ _
      exact .nil fun k hk => absurd hk not_reaches_nil
  | @leaf p lo hi id ids hlinks hlo h ih =>
      intro fuel hfuel hapart
      have hle := h.le
      obtain ⟨f, rfl⟩ : ∃ f, fuel = f + 1 := ⟨fuel - 1, by omega⟩
      have hnone := element?_of_links? hlinks
      have hothers := ih (f + 1) (by omega)
        (hapart.mono fun k hk => reaches_cons.mpr (.inr hk))
      -- the only step at a leaf enters nothing
      have hleaf : (t.walkFuel (fun e => e.staticRoot != some true) (f + 1) id).filterMap
          Visit.staticRoot? = [] := by
        simp only [walkFuel]
        cases hn : t.node? id with
        | none => rfl
        | some n =>
            cases n with
            | element e => simp [links?, hn, Node.links] at hlinks
            | text n => rfl
            | expression n => rfl
      rw [List.flatMap_cons, List.filterMap_append, hleaf, List.nil_append]
      refine ⟨hothers.ordered, fun r => ?_⟩
      rw [hothers.member, reaches_cons, reach_iff_of_leaf hnone]
      constructor
      · rintro ⟨hr, hmark⟩
        exact ⟨.inr hr, hmark⟩
      · rintro ⟨rfl | hr, hmark⟩
        · simp [marks, hnone] at hmark
        · exact ⟨hr, hmark⟩
  | @element p lo mid₁ mid₂ hi id ids l hlinks _ hlo hchildren _ hfurther h ih₁ ih₂ ih₃ =>
      intro fuel hfuel hapart
      have hle₁ := hchildren.le
      have hle₂ := hfurther.le
      have hle₃ := h.le
      obtain ⟨f, rfl⟩ : ∃ f, fuel = f + 1 := ⟨fuel - 1, by omega⟩
      obtain ⟨e, he, rfl⟩ := links?_eq_some_some_iff.mp hlinks
      have hreach : ∀ k, t.Reaches dependents (id :: ids) k ↔
          k = id ∨ t.Reaches dependents e.links.children k ∨
            t.Reaches dependents e.links.further k ∨ t.Reaches dependents ids k := by
        intro k
        rw [reaches_cons, reach_iff_of_element he, dependents, reaches_append, or_assoc, or_assoc]
        rfl
      have hinside : t.ListsMarks (t.Reaches dependents e.links.children)
          ((if e.staticRoot != some true then e.children.flatMap (t.walkFuel
            (fun e => e.staticRoot != some true) f) else []).filterMap Visit.staticRoot?) := by
        by_cases hroot : e.staticRoot = some true
        · rw [if_neg (by simp [hroot])]
          refine .nil fun k hk => ?_
          exact hapart id e k ((hreach id).mpr (.inl rfl)) he hroot
            (reaches_append.mpr (.inl hk))
        · rw [if_pos (by simpa using hroot)]
          exact ih₁ f (by omega) (hapart.mono fun k hk => (hreach k).mpr (.inr (.inl hk)))
      have hbeside := ih₂ f (by omega)
        (hapart.mono fun k hk => (hreach k).mpr (.inr (.inr (.inl hk))))
      have hafter := ih₃ (f + 1) (by omega)
        (hapart.mono fun k hk => (hreach k).mpr (.inr (.inr (.inr hk))))
      have hall := (listsMarks_self he).append (hinside.append (hbeside.append hafter ?_) ?_) ?_
      · rw [List.flatMap_cons, walkFuel_of_element _ f he]
        simp only [List.cons_append, List.filterMap_append, List.filterMap_cons, Visit.staticRoot?,
          List.append_assoc]
        have hsame := hall.congr hreach
        split
        · rename_i hnone
          split at hnone
          · cases hnone
          · rename_i hroot
            simpa [hroot] using hsame
        · rename_i r hr
          split at hr
          · rename_i hroot
            cases hr
            simpa [hroot] using hsame
          · cases hr
      · intro k k' hk hk'
        have := hfurther.reaches_interval k hk
        have := h.reaches_interval k' hk'
        omega
      · intro k k' hk hk'
        have := hchildren.reaches_interval k hk
        rcases hk' with hk' | hk'
        · have := hfurther.reaches_interval k' hk'
          omega
        · have := h.reaches_interval k' hk'
          omega
      · rintro k k' rfl hk'
        rcases hk' with hk' | hk' | hk'
        · have := hchildren.reaches_interval k' hk'
          omega
        · have := hfurther.reaches_interval k' hk'
          omega
        · have := h.reaches_interval k' hk'
          omega

end Tree

namespace Render

/-! ### Where no code comes from -/

/-- The children of a component with an inline template. -/
def hiddenChildren (e : Element) : List NodeId :=
  if e.inlineTemplate ∧ e.tag ≠ "template" ∧ e.tag ≠ "slot" then e.children else []

/-- The elements of the branches behind one without a condition. -/
def hiddenBlocks : List Branch → List NodeId
  | [] => []
  | b :: rest => if b.condition.isNone then rest.map (·.block) else hiddenBlocks rest

/-- Where an element leads and no code comes from. -/
def hidden (e : Element) : List NodeId := hiddenChildren e ++ hiddenBlocks (e.branches.drop 1)

theorem renderedChildren_append_hiddenChildren (e : Element) :
    renderedChildren e ++ hiddenChildren e = e.children := by
  unfold renderedChildren hiddenChildren
  split
  · rfl
  · exact List.append_nil _

theorem renderedBlocks_append_hiddenBlocks (branches : List Branch) :
    renderedBlocks branches ++ hiddenBlocks branches = branches.map (·.block) := by
  induction branches with
  | nil => rfl
  | cons b rest ih =>
      unfold renderedBlocks hiddenBlocks
      split
      · rfl
      · rw [List.cons_append, ih, List.map_cons]

/-- Everything that an element leads to is rendered or hidden. -/
theorem rendered_append_hidden {t : Tree} {id : NodeId} {e : Element} (hchain : t.Chain id e) :
    (rendered e ++ hidden e).Perm (dependents e) := by
  have hbranches : (if e.condition.isSome then renderedBlocks (e.branches.drop 1) else []) ++
      hiddenBlocks (e.branches.drop 1) = (e.branches.drop 1).map (·.block) := by
    split
    · exact renderedBlocks_append_hiddenBlocks _
    · rename_i hcondition
      rw [hchain.branches_eq_nil (by simpa using hcondition)]
      rfl
  have hdependents : dependents e = renderedChildren e ++ (hiddenChildren e ++
      ((if e.condition.isSome then renderedBlocks (e.branches.drop 1) else []) ++
        hiddenBlocks (e.branches.drop 1))) := by
    rw [hbranches, ← List.append_assoc, renderedChildren_append_hiddenChildren]
    rfl
  rw [hdependents, rendered, hidden, List.append_assoc]
  refine List.Perm.append_left _ ?_
  rw [← List.append_assoc, ← List.append_assoc]
  exact List.Perm.append_right _ List.perm_append_comm

/-- **A marked element without a function**: it lies where no code comes from. -/
def IsLost (t : Tree) (r : NodeId) : Prop :=
  (∃ top ∈ t.root, ∃ id e, t.Reach rendered top id ∧ t.element? id = some e ∧
    t.Reaches dependents (hidden e) r) ∧
    ∃ e, t.element? r = some e ∧ e.staticRoot = some true

section Hidden

variable {t : Tree} {root : NodeId} (ht : OnceFree t root)

include ht

/-- Nothing is rendered and hidden at once. -/
theorem OnceFree.not_mem_hidden {id c : NodeId} {e : Element} (hid : t.Reach dependents root id)
    (he : t.element? id = some e) (hc : c ∈ rendered e) : c ∉ hidden e := by
  have hpair := (ht.forest.pairwise_dependents (Tree.reaches_singleton.mpr hid) he).2
  have hnodup : (dependents e).Nodup := by
    refine hpair.imp fun {a b} hprecedes hsame => ?_
    subst hsame
    exact Nat.lt_irrefl a (hprecedes a a .refl .refl)
  have hboth := (rendered_append_hidden (ht.chained id e he)).nodup_iff.mpr hnodup
  exact fun hc' => List.disjoint_of_nodup_append hboth hc hc'

/-- What lies below a hidden node is not rendered. -/
theorem OnceFree.not_reaches_hidden {r : NodeId} (hr : t.Reach rendered root r) :
    ∀ id e, t.Reach rendered root id → t.element? id = some e →
      ¬t.Reaches dependents (hidden e) r := by
  have hsubset : ∀ {id e}, t.element? id = some e → hidden e ⊆ dependents e := fun he c hc =>
    (rendered_append_hidden (ht.chained _ _ he)).subset (List.mem_append_right _ hc)
  have hbelow : ∀ {id e c k}, t.Reach rendered root id → t.element? id = some e →
      c ∈ hidden e → t.Reach dependents c k → t.Reaches dependents [root] k :=
    fun hid he hc hk => Tree.reaches_singleton.mpr
      (((reach_of_rendered hid).step he (hsubset he hc)).trans hk)
  -- by induction on the way to `r`: only one step leads there
  induction hr with
  | refl =>
      rintro id e hid he ⟨c, hc, hreach⟩
      have hnot := ht.forest.not_mem_of_mem_dependents
      cases hreach with
      | refl =>
          exact hnot id e root (Tree.reaches_singleton.mpr (reach_of_rendered hid)) he
            (hsubset he hc) (List.mem_singleton.mpr rfl)
      | step hk hek hmem =>
          exact hnot _ _ root (hbelow hid he hc hk) hek hmem (List.mem_singleton.mpr rfl)
  | @step b r eb hb heb hr ih =>
      rintro id e hid he ⟨c, hc, hreach⟩
      have hreach' := Tree.reaches_singleton.mpr (reach_of_rendered hb)
      have hsame := ht.forest.eq_of_mem_dependents
      have hrb : r ∈ dependents eb := (rendered_sublist eb).subset hr
      cases hreach with
      | refl =>
          obtain rfl := hsame id b e eb r (Tree.reaches_singleton.mpr (reach_of_rendered hid))
            hreach' he heb (hsubset he hc) hrb
          obtain rfl : e = eb := Option.some.inj (he.symm.trans heb)
          exact ht.not_mem_hidden (reach_of_rendered hid) he hr hc
      | @step k _ ek hk hek hmem =>
          obtain rfl := hsame k b ek eb r (hbelow hid he hc hk) hreach' hek heb hmem hrb
          exact ih id e hid he ⟨c, hc, hk⟩

/-- **What is reached is rendered or hidden.** -/
theorem OnceFree.reach_iff {r : NodeId} :
    t.Reach dependents root r ↔ t.Reach rendered root r ∨
      ∃ id e, t.Reach rendered root id ∧ t.element? id = some e ∧
        t.Reaches dependents (hidden e) r := by
  constructor
  · intro hr
    induction hr with
    | refl => exact .inl .refl
    | @step k r ek _ hek hmem ih =>
        rcases ih with hk | ⟨id, e, hid, he, c, hc, hk⟩
        · have hsplit := (rendered_append_hidden (ht.chained k ek hek)).mem_iff.mpr hmem
          rcases List.mem_append.mp hsplit with hrendered | hhidden
          · exact .inl (hk.step hek hrendered)
          · exact .inr ⟨k, ek, hk, hek, r, hhidden, .refl⟩
        · exact .inr ⟨id, e, hid, he, c, hc, hk.step hek hmem⟩
  · rintro (hr | ⟨id, e, hid, he, c, hc, hr⟩)
    · exact reach_of_rendered hr
    · have hmem := (rendered_append_hidden (ht.chained id e he)).subset
        (List.mem_append_right _ hc)
      exact ((reach_of_rendered hid).step he hmem).trans hr

end Hidden

/-! ### Both together -/

/-- **Counted elements are those with a function and the lost ones.** -/
structure Counts (compiled : Compiled) (hoisted lost : List NodeId) : Prop where
  ordered : hoisted.Pairwise (· < ·)
  member : ∀ r, r ∈ hoisted ↔ IsHoisted compiled.tree r
  /-- Every one of these elements has a function, which renders it. -/
  functions : ∃ codes : List Code, codes.map Code.origin? = hoisted.map some ∧
    compiled.staticRenderFns = codes.map fun c => functionBody c.render
  lost_ordered : lost.Pairwise (· < ·)
  lost_member : ∀ r, r ∈ lost ↔ IsLost compiled.tree r
  count : compiled.tree.staticRootCount = hoisted.length + lost.length

theorem Counts.length_eq {compiled : Compiled} {hoisted lost : List NodeId}
    (h : Counts compiled hoisted lost) : compiled.staticRenderFns.length = hoisted.length := by
  obtain ⟨codes, horigin, hfunctions⟩ := h.functions
  have hlength := congrArg List.length horigin
  rw [List.length_map, List.length_map] at hlength
  rw [hfunctions, List.length_map, hlength]

/-- The two counts agree exactly when nothing is lost. -/
theorem Counts.eq_iff {compiled : Compiled} {hoisted lost : List NodeId}
    (h : Counts compiled hoisted lost) :
    compiled.tree.staticRootCount = compiled.staticRenderFns.length ↔
      ∀ r, ¬IsLost compiled.tree r := by
  have hcount := h.count
  rw [h.length_eq, hcount]
  constructor
  · intro hsame r hr
    have hnil : lost = [] := List.length_eq_zero_iff.mp (by omega)
    have hmem := (h.lost_member r).mpr hr
    rw [hnil] at hmem
    cases hmem
  · intro hnone
    have hnil : lost = [] :=
      List.eq_nil_iff_forall_not_mem.mpr fun r hr => hnone r ((h.lost_member r).mp hr)
    rw [hnil]
    rfl

section Trees

variable {settings : Settings} {t : Tree} {root : NodeId}

theorem isLost_iff (hroot : t.root = some root) (r : NodeId) :
    IsLost t r ↔ (∃ id e, t.Reach rendered root id ∧ t.element? id = some e ∧
      t.Reaches dependents (hidden e) r) ∧ (t.marks r).isSome = true := by
  have htop : (∃ top ∈ t.root, ∃ id e, t.Reach rendered top id ∧ t.element? id = some e ∧
      t.Reaches dependents (hidden e) r) ↔ ∃ id e, t.Reach rendered root id ∧
        t.element? id = some e ∧ t.Reaches dependents (hidden e) r := by
    simp [hroot]
  unfold IsLost
  rw [htop]
  refine and_congr_right fun _ => ⟨?_, fun h => (marks_eq_of_isSome h).2⟩
  rintro ⟨e, he, hstatic⟩
  simp [Tree.marks, he, hstatic]

/-- The functions of a tree in which no element is rendered once. -/
theorem OnceFree.exists_hoisted (settings : Settings) (ht : OnceFree t root)
    (hroot : t.root = some root) :
    ∃ roots, t.ListsMarks (t.Reach rendered root) roots ∧
      (generate settings t).hoisted.map Code.origin? = roots.map some := by
  have hready : ({} : Generator).Ready t (t.Reach dependents root) :=
    ⟨fun _ _ => ⟨List.not_mem_nil, List.not_mem_nil, List.not_mem_nil⟩, fun h => Bool.noConfusion h⟩
  obtain ⟨roots, hcollects⟩ := exists_collects_run settings ht t.size root (fuelFor t) .refl
    (by omega) (by unfold fuelFor; omega) {} hready
  obtain ⟨codes, heq, horigin⟩ := hcollects.hoisted
  refine ⟨roots, hcollects.lists, ?_⟩
  simp only [generate, hroot, heq]
  exact horigin

/-- The elements that are counted in a tree. -/
theorem OnceFree.listsMarks_countedRoots (ht : OnceFree t root) (hroot : t.root = some root) :
    t.ListsMarks (t.Reach dependents root) t.countedRoots := by
  have hwalk := ht.forest.listsMarks_walk (t.size + 1) (by omega)
    fun id e k hid => ht.apart id e k (Tree.reaches_singleton.mp hid)
  have hcounted : t.countedRoots = ([root].flatMap (t.walkFuel
      (fun e => e.staticRoot != some true) (t.size + 1))).filterMap Visit.staticRoot? := by
    simp [Tree.countedRoots, Tree.walk, Tree.walkFrom, hroot]
  rw [hcounted]
  exact hwalk.congr fun k => Tree.reaches_singleton.symm

/-- **The counts of a tree** in which no element is rendered once. -/
theorem OnceFree.exists_counts {compiled : Compiled} (ht : OnceFree compiled.tree root)
    (hroot : compiled.tree.root = some root)
    (hfunctions : compiled.staticRenderFns = (generate settings compiled.tree).staticRenderFns) :
    ∃ hoisted lost, Counts compiled hoisted lost := by
  obtain ⟨hoisted, hlists, horigin⟩ := ht.exists_hoisted settings hroot
  have hcounted := ht.listsMarks_countedRoots hroot
  have hnodup : compiled.tree.countedRoots.Nodup := hcounted.ordered.imp fun h => Nat.ne_of_lt h
  have hperm : (compiled.tree.countedRoots.filter (· ∈ hoisted)).Perm hoisted := by
    refine (List.perm_ext_iff_of_nodup (hnodup.filter _)
      (hlists.ordered.imp fun h => Nat.ne_of_lt h)).mpr fun r => ?_
    rw [List.mem_filter, decide_eq_true_iff]
    refine ⟨fun h => h.2, fun h => ⟨?_, h⟩⟩
    obtain ⟨hr, hmark⟩ := (hlists.member r).mp h
    exact (hcounted.member r).mpr ⟨reach_of_rendered hr, hmark⟩
  refine ⟨hoisted, compiled.tree.countedRoots.filter fun r => !decide (r ∈ hoisted), ?_⟩
  constructor
  case ordered => exact hlists.ordered
  case member =>
    intro r
    rw [isHoisted_iff hroot, hlists.member]
  case functions => exact ⟨_, horigin, hfunctions⟩
  case lost_ordered => exact hcounted.ordered.filter _
  case lost_member =>
    intro r
    rw [isLost_iff hroot, List.mem_filter, hcounted.member, ht.reach_iff, Bool.not_eq_true',
      decide_eq_false_iff_not, hlists.member]
    constructor
    · rintro ⟨⟨hr | hr, hmark⟩, hnot⟩
      · exact absurd ⟨hr, hmark⟩ hnot
      · exact ⟨hr, hmark⟩
    · rintro ⟨⟨id, e, hid, he, hr⟩, hmark⟩
      refine ⟨⟨.inr ⟨id, e, hid, he, hr⟩, hmark⟩, fun h => ?_⟩
      exact ht.not_reaches_hidden h.1 id e hid he hr
  case count =>
    rw [Tree.staticRootCount_eq, ← hperm.length_eq]
    exact List.length_eq_length_filter_add _

end Trees

/-! ### Templates -/

/-- The tree of a template in which no element is rendered once. -/
theorem onceFree_of_compileTree {settings : Settings} {template : String} {parsed : Build.Parsed}
    {root : NodeId} (h : compileTree settings template = .ok parsed)
    (honce : ∀ id e, parsed.tree.element? id = some e → e.once = false)
    (hroot : parsed.tree.root = some root) : OnceFree parsed.tree root := by
  unfold compileTree at h
  split at h
  · cases h
  · rename_i plain hparse
    cases h
    split
    · rename_i hoptimize
      rw [if_pos hoptimize] at honce hroot
      have hfresh := Build.fresh_of_parse hparse
      obtain ⟨hsame, halike⟩ := Static.alike_mark settings hfresh
      have hroot' : plain.tree.root = some root := hsame.symm.trans hroot
      refine (onceFree_of_parse hparse (fun id e he => ?_) hroot').mark settings hfresh hroot'
      obtain ⟨e', he', hmarks⟩ := halike.element? Node.element?_unmarked he
      have hsame : e'.once = e.once := (congrArg Element.once hmarks :)
      exact hsame.symm.trans (honce id e' he')
    · rename_i hoptimize
      rw [if_neg hoptimize] at honce hroot
      exact onceFree_of_parse hparse honce hroot

theorem exists_compile (settings : Settings) (template : String)
    (hdelimiters : ∀ opening closing, settings.customDelimiters = some (opening, closing) →
      opening ≠ "" ∧ closing ≠ "") :
    ∃ parsed, compileTree settings template = .ok parsed ∧
      compile settings template = .ok {
        tree := parsed.tree
        render := (generate settings parsed.tree).render
        staticRenderFns := (generate settings parsed.tree).staticRenderFns
        problems := parsed.problems } := by
  obtain ⟨parsed, hparsed⟩ := exists_compileTree settings template hdelimiters
  exact ⟨parsed, hparsed, by simp only [compile, hparsed]⟩

/-- **The counts of a template.**  When no element is rendered once, the elements that are counted
are those with a function and those that are lost, so that the two counts agree exactly when nothing
is lost. -/
theorem exists_compile_counts (settings : Settings) (template : String)
    (hdelimiters : ∀ opening closing, settings.customDelimiters = some (opening, closing) →
      opening ≠ "" ∧ closing ≠ "") :
    ∃ compiled, compile settings template = .ok compiled ∧
      ((∀ id e, compiled.tree.element? id = some e → e.once = false) →
        (∃ hoisted lost, Counts compiled hoisted lost) ∧
        (compiled.tree.staticRootCount = compiled.staticRenderFns.length ↔
          ∀ r, ¬IsLost compiled.tree r)) := by
  obtain ⟨parsed, hparsed, hcompiled⟩ := exists_compile settings template hdelimiters
  refine ⟨_, hcompiled, fun honce => ?_⟩
  have hcounts : ∃ hoisted lost, Counts {
      tree := parsed.tree
      render := (generate settings parsed.tree).render
      staticRenderFns := (generate settings parsed.tree).staticRenderFns
      problems := parsed.problems } hoisted lost := by
    cases hroot : parsed.tree.root with
    | some root =>
        exact (onceFree_of_compileTree hparsed honce hroot).exists_counts hroot rfl
    | none =>
        refine ⟨[], [], .nil, fun r => ?_, ⟨[], rfl, ?_⟩, .nil, fun r => ?_, ?_⟩
        · simp [IsHoisted, hroot]
        · simp [generate, hroot, Rendered.staticRenderFns]
        · simp [IsLost, hroot]
        · simp [Tree.staticRootCount, Tree.walk, hroot]
  obtain ⟨hoisted, lost, hcounts⟩ := hcounts
  exact ⟨⟨hoisted, lost, hcounts⟩, hcounts.eq_iff⟩

/-- A compiled template that passes a check. -/
theorem exists_compile_of_check {settings : Settings} {template : String} {p : Compiled → Bool}
    (h : (compile settings template).toOption.any p = true) :
    ∃ compiled, compile settings template = .ok compiled ∧ p compiled = true := by
  cases hcompile : compile settings template with
  | error e => simp [hcompile, Except.toOption] at h
  | ok compiled =>
      rw [hcompile] at h
      exact ⟨compiled, rfl, h⟩

/-- An element inside an inline template is lost, and one that is rendered as it stands is not. -/
theorem exists_compile_counts_inline :
    ∃ compiled, compile Settings.web
        "<div><c inline-template><p><b>a</b></p></c><p v-pre><i v-if=x>y</i></p></div>" =
          .ok compiled ∧
      (∀ id e, compiled.tree.element? id = some e → e.once = false) ∧
      ∃ hoisted lost, hoisted.length = 1 ∧ lost.length = 1 ∧ Counts compiled hoisted lost := by
  obtain ⟨compiled, hcompiled, hcounts⟩ := exists_compile_counts Settings.web
    "<div><c inline-template><p><b>a</b></p></c><p v-pre><i v-if=x>y</i></p></div>"
    (by rintro _ _ ⟨⟩)
  have hcheck : (Except.ok compiled : Except CompileError Compiled).toOption.any (fun compiled =>
      (compiled.tree.nodes.all fun n => n.element?.all fun e => !e.once) &&
        (compiled.tree.staticRootCount == 2 && compiled.staticRenderFns.length == 1)) := by
    rw [← hcompiled]
    decide +kernel
  obtain ⟨hall, hnumbers⟩ := (Bool.and_eq_true _ _).mp hcheck
  obtain ⟨hcount, hlength⟩ := (Bool.and_eq_true _ _).mp hnumbers
  have honce : ∀ id e, compiled.tree.element? id = some e → e.once = false := by
    intro id e he
    simpa using forall_element_of_all hall id e he
  obtain ⟨⟨hoisted, lost, hboth⟩, -⟩ := hcounts honce
  have hhoisted : hoisted.length = 1 := hboth.length_eq.symm.trans (beq_iff_eq.mp hlength)
  have hsum := hboth.count.symm.trans (beq_iff_eq.mp hcount)
  exact ⟨compiled, hcompiled, honce, hoisted, lost, hhoisted, by omega, hboth⟩

/-- A template with an element that is counted and has no function, by a check. -/
theorem exists_compile_lost {settings : Settings} {template : String}
    (h : (compile settings template).toOption.any (fun compiled =>
      (compiled.tree.nodes.all fun n => n.element?.all fun e => !e.once) &&
        (compiled.tree.staticRootCount == 1 && compiled.staticRenderFns.isEmpty)) = true) :
    ∃ compiled, compile settings template = .ok compiled ∧
      (∀ id e, compiled.tree.element? id = some e → e.once = false) ∧
      compiled.tree.staticRootCount = 1 ∧ compiled.staticRenderFns = [] := by
  obtain ⟨compiled, hcompiled, hcheck⟩ := exists_compile_of_check h
  obtain ⟨hall, hnumbers⟩ := (Bool.and_eq_true _ _).mp hcheck
  obtain ⟨hcount, hempty⟩ := (Bool.and_eq_true _ _).mp hnumbers
  refine ⟨compiled, hcompiled, fun id e he => ?_, beq_iff_eq.mp hcount,
    List.isEmpty_iff.mp hempty⟩
  simpa using forall_element_of_all hall id e he

/-- **Elements that are counted and have no function**: inside an inline template, and in a branch
behind one without a condition. -/
theorem exists_lost_roots :
    (∃ compiled, compile Settings.web "<div><c inline-template><p><b>a</b></p></c></div>" =
        .ok compiled ∧
      (∀ id e, compiled.tree.element? id = some e → e.once = false) ∧
      compiled.tree.staticRootCount = 1 ∧ compiled.staticRenderFns = []) ∧
    ∃ compiled, compile Settings.web
        "<div><p v-if=a></p><p v-else></p><p v-else><span><b>x</b></span></p></div>" =
          .ok compiled ∧
      (∀ id e, compiled.tree.element? id = some e → e.once = false) ∧
      compiled.tree.staticRootCount = 1 ∧ compiled.staticRenderFns = [] :=
  ⟨exists_compile_lost (by decide +kernel), exists_compile_lost (by decide +kernel)⟩

end Render

end Templating
