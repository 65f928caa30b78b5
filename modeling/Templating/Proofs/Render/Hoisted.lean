import Templating.Proofs.Render.Gathering
import Templating.Proofs.Static.Exact

/-!
**What is rendered once and for all is rendered as before.**

The code of a marked tree differs from that of the tree without marks in one way: the codes of the
elements that are rendered once and for all stand by themselves, numbered in document order, and in
their places there are references to them.  Following the references gives the code of the tree
without marks.

Main definitions:

* `Templating.Render.codeAt` — the code of a node by itself;
* `Templating.Render.IsHoisted` — the elements that are rendered once and for all;
* `Templating.Render.Rendered.expand` — following the references;
* `Templating.Render.Hoists` — **one tree is rendered like another one, with some elements rendered
  once and for all**.

Main results:

* `Templating.Render.generate_eq_lift` — the code of a regular tree is what lifting leaves of the
  plain code;
* `Templating.Render.exists_gathers_codeAt`, `Templating.Render.exists_hoists_of_alike` — the codes
  that are put aside, and all of the code;
* `Templating.Render.regular_of_parse`, `Templating.Render.Regular.mark` — the tree of a template is
  regular, with and without marks;
* `Templating.Render.exists_hoists_mark` — **marks change how a template is rendered, not what**.
-/

set_option autoImplicit false

namespace Templating.Render

open Static (dependents mark)

/-! ### The code of a marked tree -/

/-- The code of a node by itself. -/
def codeAt (settings : Settings) (t : Tree) (id : NodeId) : Code :=
  (run settings t (fuelFor t) (.element id) {}).1

/-- The elements that are rendered once and for all, of all that is rendered. -/
def IsHoisted (t : Tree) (r : NodeId) : Prop :=
  (∃ top ∈ t.root, t.Reach rendered top r) ∧
    ∃ e, t.element? r = some e ∧ e.staticRoot = some true

/-- Whether an element is known to stand in a loop. -/
def isInFor (t : Tree) (id : NodeId) : Bool :=
  (t.element? id).any (·.staticInFor == some true)

/-- The code of a tree with the codes that references stand for in their places. -/
def Rendered.expand (r : Rendered) : Rendered :=
  ⟨r.root.map (Code.substitute (Code.referred? r.hoisted)), []⟩

/-- **The tree `t'` is rendered like the tree `t`, with `roots` rendered once and for all**: these
are all elements of this kind that are rendered, by increasing number; each has a function of its
own that returns the code it has in `t`; the code of `t'` is that of `t` with references in the
places of these codes, which say the number of the function and whether the element stands in a
loop; and following the references gives the code of `t`. -/
structure Hoists (settings : Settings) (t t' : Tree) (roots : List NodeId) : Prop where
  ordered : roots.Pairwise (· < ·)
  member : ∀ r, r ∈ roots ↔ IsHoisted t' r
  functions : (generate settings t').staticRenderFns =
    roots.map fun r => functionBody (codeAt settings t r).render
  root : (generate settings t').root =
    (generate settings t).root.map (Code.substitute (Code.referTo roots (isInFor t')))
  reference : ∀ (i : Nat) (r : NodeId), roots[i]? = some r →
    (Code.referTo roots (isInFor t') (codeAt settings t r)).map Code.render =
      some ("_m(" ++ toString i ++ (if isInFor t' r then ",true" else "") ++ ")")
  expanded : (generate settings t').expand = generate settings t

/-! ### Regular trees -/

section Regular

variable (settings : Settings) {t : Tree} {root : NodeId}

theorem Generator.fresh_init (R : NodeId → Prop) : ({} : Generator).Fresh R :=
  ⟨rfl, fun _ _ => ⟨List.not_mem_nil, List.not_mem_nil, List.not_mem_nil⟩⟩

/-- **The code of a regular tree** is its plain code, with the codes of the marked elements lifted
out of it. -/
theorem generate_eq_lift (ht : Regular t root) (hroot : t.root = some root) :
    generate settings t = ⟨some ((plainFuel settings t t.size root).lift t.marks []).1,
      ((plainFuel settings t t.size root).lift t.marks []).2⟩ := by
  have hanswers := answers_run settings ht t.size root (fuelFor t) t.size .refl (by omega)
    (by unfold fuelFor; omega) (by omega) t.marks {} (Generator.fresh_init _) fun _ _ => rfl
  simp only [generate, hroot, hanswers.code, hanswers.hoisted]

/-- Without marks, the code of a node by itself is its plain code. -/
theorem codeAt_eq_plainFuel (ht : Regular t root) (hunmarked : ∀ k, t.marks k = none)
    {id depth : Nat} (hid : t.Reach dependents root id) (hdepth : t.size ≤ depth) :
    codeAt settings t id = plainFuel settings t depth id := by
  have hanswers := answers_run settings ht t.size id (fuelFor t) depth hid (by omega)
    (by unfold fuelFor; omega) (by omega) (fun _ => none) {} (Generator.fresh_init _)
    fun k _ => (hunmarked k).symm
  refine hanswers.code.trans ?_
  rw [Code.lift_unmarked]

theorem origin?_codeAt (ht : Regular t root) (hunmarked : ∀ k, t.marks k = none) {id : NodeId}
    {e : Element} (hid : t.Reach dependents root id) (he : t.element? id = some e) :
    (codeAt settings t id).origin? = some id := by
  rw [codeAt_eq_plainFuel settings ht hunmarked hid (Nat.le_succ t.size)]
  exact origin?_plainFuel he t.size

theorem marks_eq_of_isSome {id : NodeId} (h : (t.marks id).isSome = true) :
    t.marks id = some (isInFor t id) ∧ ∃ e, t.element? id = some e ∧ e.staticRoot = some true := by
  unfold Tree.marks isInFor at *
  cases he : t.element? id with
  | none => simp [he] at h
  | some e =>
      by_cases hstatic : e.staticRoot = some true
      · simp [hstatic]
      · simp [he, hstatic] at h

theorem isHoisted_iff (hroot : t.root = some root) (r : NodeId) :
    IsHoisted t r ↔ t.Reach rendered root r ∧ (t.marks r).isSome = true := by
  have htop : (∃ top ∈ t.root, t.Reach rendered top r) ↔ t.Reach rendered root r := by
    simp [hroot]
  unfold IsHoisted
  rw [htop]
  refine and_congr_right fun _ => ⟨?_, fun h => (marks_eq_of_isSome h).2⟩
  rintro ⟨e, he, hstatic⟩
  simp [Tree.marks, he, hstatic]

end Regular

/-! ### A tree with and without marks -/

section Marks

variable {settings : Settings} {t t' : Tree} {root : NodeId}

/-- What is put aside of a marked tree are codes of the tree without marks. -/
theorem exists_gathers_codeAt (ht : Regular t root) (hunmarked : ∀ k, t.marks k = none)
    (ht' : Regular t' root) (halike : t.Alike Node.unmarked t') :
    ∃ roots, Gathers t'.marks (codeAt settings t) (t'.Reach rendered root) roots fun lifted =>
      ((plainFuel settings t t.size root).lift t'.marks lifted).2 := by
  have hcode : ∀ id, t'.Reach dependents root id → ∀ depth, t.size ≤ depth →
      plainFuel settings t depth id = codeAt settings t id := fun id hid depth hdepth =>
    (codeAt_eq_plainFuel settings ht hunmarked (hid.alike halike) hdepth).symm
  have hgathers : GathersAt t' t'.marks (plainFuel settings t' t'.size) root := by
    refine exists_gathers ht' (fun id hid => ?_) t'.size root .refl (by omega)
    rw [plainFuel_alike halike, plainFuel_alike halike, halike.size_eq,
      hcode id hid _ (by omega), hcode id hid _ le_rfl]
  rw [plainFuel_alike halike, halike.size_eq] at hgathers
  obtain ⟨roots, hgathers⟩ := hgathers
  refine ⟨roots, hgathers.ordered, hgathers.member, fun lifted => ?_⟩
  have hroots : roots.map (plainFuel settings t t.size) = roots.map (codeAt settings t) :=
    List.map_congr_left fun r hr =>
      hcode r (reach_of_rendered ((hgathers.member r).mp hr).1) _ le_rfl
  rw [hgathers.lifted, hroots]

/-- A tree is rendered like another one when its code is what is left after lifting. -/
theorem hoists_of_gathers {c : Code} {roots : List NodeId} (hc : c.Plain)
    (hgathers : Gathers t'.marks (codeAt settings t) (t'.Reach rendered root) roots fun lifted =>
      (c.lift t'.marks lifted).2)
    (horigin : ∀ r ∈ roots, (codeAt settings t r).origin? = some r)
    (hgenerate : generate settings t = ⟨some c, []⟩)
    (hgenerate' : generate settings t' = ⟨some (c.lift t'.marks []).1, (c.lift t'.marks []).2⟩)
    (hroot' : t'.root = some root) : Hoists settings t t' roots := by
  have hlifted : (c.lift t'.marks []).2 = roots.map (codeAt settings t) := hgathers.lifted []
  have hmarks : ∀ r ∈ roots, t'.marks r = some (isInFor t' r) := fun r hr =>
    (marks_eq_of_isSome ((hgathers.member r).mp hr).2).1
  have hnodup : roots.Nodup := hgathers.ordered.imp fun h => Nat.ne_of_lt h
  have hsubstitute : (c.lift t'.marks []).1 = c.substitute (Code.referTo roots (isInFor t')) := by
    refine Code.lift_eq_substitute hnodup hmarks c [] ?_
    have horigins : (roots.map (codeAt settings t)).map Code.origin? = roots.map some := by
      rw [List.map_map]
      exact List.map_congr_left horigin
    rw [hlifted, horigins]
  constructor
  case ordered => exact hgathers.ordered
  case member =>
    intro r
    rw [isHoisted_iff hroot', hgathers.member]
  case functions =>
    rw [hgenerate', Rendered.staticRenderFns, hlifted, List.map_map]
    rfl
  case root =>
    rw [hgenerate', hgenerate, hsubstitute]
    rfl
  case reference =>
    intro i r hr
    obtain ⟨hlt, hget⟩ := List.getElem?_eq_some_iff.mp hr
    have hmem : r ∈ roots := List.mem_of_getElem? hr
    have hindex : roots.idxOf r = i := by
      rw [← hget]
      exact hnodup.idxOf_getElem i hlt
    have hrefer : Code.referTo roots (isInFor t') (codeAt settings t r) =
        some (.hoisted r i (isInFor t' r)) := by
      simp [Code.referTo, horigin r hmem, hmem, hindex]
    rw [hrefer]
    rfl
  case expanded =>
    rw [hgenerate', hgenerate, Rendered.expand, Option.map_some,
      Code.substitute_referred_lift hc [] List.prefix_rfl]

/-- Marks change how a tree is rendered, not what. -/
theorem exists_hoists_of_alike (ht : Regular t root) (hunmarked : ∀ k, t.marks k = none)
    (ht' : Regular t' root) (halike : t.Alike Node.unmarked t') (hroot : t.root = some root)
    (hroot' : t'.root = some root) : ∃ roots, Hoists settings t t' roots := by
  obtain ⟨roots, hgathers⟩ : ∃ roots, Gathers t'.marks (codeAt settings t)
      (t'.Reach rendered root) roots fun lifted =>
        ((plainFuel settings t t.size root).lift t'.marks lifted).2 :=
    exists_gathers_codeAt ht hunmarked ht' halike
  have hgenerate : generate settings t = ⟨some (plainFuel settings t t.size root), []⟩ := by
    rw [generate_eq_lift settings ht hroot, funext hunmarked, Code.lift_unmarked]
  have hgenerate' := generate_eq_lift settings ht' hroot'
  rw [plainFuel_alike halike, halike.size_eq] at hgenerate'
  refine ⟨roots, hoists_of_gathers (plain_plainFuel t.size root) hgathers (fun r hr => ?_)
    hgenerate hgenerate' hroot'⟩
  -- a marked node is an element, with and without marks
  obtain ⟨hreach, hsome⟩ := (hgathers.member r).mp hr
  obtain ⟨-, e', he', -⟩ := marks_eq_of_isSome hsome
  obtain ⟨e, he, -⟩ := halike.symm.element? Node.element?_unmarked he'
  exact origin?_codeAt settings ht hunmarked ((reach_of_rendered hreach).alike halike) he

end Marks

/-! ### The tree of a template -/

section Template

variable {settings : Settings} {t : Tree} {root : NodeId}

theorem marks_eq_none (h : t.Fresh) (k : NodeId) : t.marks k = none := by
  unfold Tree.marks
  cases he : t.element? k with
  | none => rfl
  | some e =>
      have hunmarked : e.unmarked = e := by
        simpa [Node.unmarked] using h.unmarked k _ (Tree.node?_of_element? he)
      have hstatic : e.staticRoot = none := (congrArg Element.staticRoot hunmarked).symm
      simp [hstatic]

theorem onceFree_of_parse {template : String} {parsed : Build.Parsed}
    (hparse : Build.parse settings template = .ok parsed)
    (honce : ∀ id e, parsed.tree.element? id = some e → e.once = false)
    (hroot : parsed.tree.root = some root) : OnceFree parsed.tree root := by
  have hfresh := Build.fresh_of_parse hparse
  refine ⟨hfresh.forest root hroot, fun id e he => Build.chain_of_parse hparse he, honce, ?_⟩
  intro id e k _ _ _ _
  exact marks_eq_none hfresh k

/-- Marking keeps a tree free of elements that are rendered once. -/
theorem OnceFree.mark (settings : Settings) (hfresh : t.Fresh) (hroot : t.root = some root)
    (ht : OnceFree t root) : OnceFree (Static.mark settings t) root := by
  have halike := (Static.alike_mark settings hfresh).2
  constructor
  case forest =>
    rw [halike.size_eq]
    exact ht.forest.congr fun k _ _ => halike.links? Node.links_unmarked k
  case chained =>
    intro id e' he'
    obtain ⟨e, he, hsame⟩ := halike.symm.element? Node.element?_unmarked he'
    exact (ht.chained id e he).of_unmarked halike hsame.symm
  case once =>
    intro id e' he'
    obtain ⟨e, he, hsame⟩ := halike.symm.element? Node.element?_unmarked he'
    have honce : e.once = e'.once := (congrArg Element.once hsame :)
    exact honce.symm.trans (ht.once id e he)
  case apart =>
    rintro id e k hid he hstatic ⟨c, hc, hk⟩
    unfold Tree.marks
    cases hek : (Static.mark settings t).element? k with
    | none => rfl
    | some ek =>
        have hnone :=
          Static.staticRoot_mark_below settings hfresh hroot hid he hstatic hc hk hek
        simp [hnone]

/-- The tree of a template is regular when no element is rendered once or as it stands. -/
theorem regular_of_parse {template : String} {parsed : Build.Parsed}
    (hparse : Build.parse settings template = .ok parsed)
    (hplain : ∀ id e, parsed.tree.element? id = some e → e.once = false ∧ e.pre = false)
    (hroot : parsed.tree.root = some root) : Regular parsed.tree root := by
  have h := onceFree_of_parse hparse (fun id e he => (hplain id e he).1) hroot
  exact ⟨h, fun id e he => (hplain id e he).2⟩

/-- Marking keeps a tree regular. -/
theorem Regular.mark (settings : Settings) (hfresh : t.Fresh) (hroot : t.root = some root)
    (ht : Regular t root) : Regular (Static.mark settings t) root := by
  have h := ht.toOnceFree.mark settings hfresh hroot
  refine ⟨h, fun id e' he' => ?_⟩
  have halike := (Static.alike_mark settings hfresh).2
  obtain ⟨e, he, hsame⟩ := halike.symm.element? Node.element?_unmarked he'
  have hpre : e.pre = e'.pre := (congrArg Element.pre hsame :)
  exact hpre.symm.trans (ht.pre id e he)

/-- **Marks change how a template is rendered, not what**, when no element is rendered once or as it
stands. -/
theorem exists_hoists_mark {template : String} {parsed : Build.Parsed}
    (hparse : Build.parse settings template = .ok parsed)
    (hplain : ∀ id e, parsed.tree.element? id = some e → e.once = false ∧ e.pre = false) :
    ∃ roots, Hoists settings parsed.tree (mark settings parsed.tree) roots := by
  have hfresh := Build.fresh_of_parse hparse
  obtain ⟨hsame, halike⟩ := Static.alike_mark settings hfresh
  cases hroot : parsed.tree.root with
  | none =>
      rw [hroot] at hsame
      refine ⟨[], .nil, fun r => ?_, ?_, ?_, fun i r hr => ?_, ?_⟩
      · simp [IsHoisted, hsame]
      · simp [generate, hsame, Rendered.staticRenderFns]
      · simp [generate, hsame, hroot]
      · simp at hr
      · simp [generate, hsame, hroot, Rendered.expand]
  | some root =>
      have ht := regular_of_parse hparse hplain hroot
      exact exists_hoists_of_alike ht (marks_eq_none hfresh) (ht.mark settings hfresh hroot) halike
        hroot (hsame.trans hroot)

/-- What holds of all elements in the table. -/
theorem forall_element_of_all {p : Element → Bool}
    (h : (t.nodes.all fun n => n.element?.all p) = true) (id : NodeId) (e : Element)
    (he : t.element? id = some e) : p e = true := by
  have hnode : t.nodes[id]? = some (.element e) := Tree.node?_of_element? he
  simpa [Node.element?] using Array.all_eq_true_iff_forall_mem.mp h _ (Array.mem_of_getElem? hnode)

/-- A conditional with an element that is rendered once and for all in both branches, and a loop
with another one. -/
theorem exists_hoists_mark_branches :
    ∃ parsed, Build.parse Settings.web
      "<p><a v-if=x><b><i/></b></a><a v-else><u><i/></u></a><s v-for='y in z'><b><i/></b></s></p>" =
        .ok parsed ∧
      (∀ id e, parsed.tree.element? id = some e → e.once = false ∧ e.pre = false) ∧
      ∃ roots, roots.length = 3 ∧
        Hoists Settings.web parsed.tree (mark Settings.web parsed.tree) roots := by
  refine (Build.exists_parse Settings.web _ (by rintro _ _ ⟨⟩)).imp
    fun parsed hparsed => ⟨hparsed, ?_⟩
  have hcheck : (Except.ok parsed : Except CompileError Build.Parsed).toOption.any (fun parsed =>
      parsed.tree.nodes.all (fun n => n.element?.all fun e => !e.once && !e.pre) &&
        (generate Settings.web (mark Settings.web parsed.tree)).staticRenderFns.length == 3) := by
    rw [← hparsed]
    decide +kernel
  obtain ⟨hall, hlength⟩ := (Bool.and_eq_true _ _).mp hcheck
  have hplain : ∀ id e, parsed.tree.element? id = some e → e.once = false ∧ e.pre = false := by
    intro id e he
    simpa using forall_element_of_all hall id e he
  obtain ⟨roots, hroots⟩ := exists_hoists_mark hparsed hplain
  have hsame : (generate Settings.web (mark Settings.web parsed.tree)).staticRenderFns.length =
      roots.length := by rw [hroots.functions, List.length_map]
  exact ⟨hplain, roots, hsame.symm.trans (beq_iff_eq.mp hlength), hroots⟩

end Template

end Templating.Render
