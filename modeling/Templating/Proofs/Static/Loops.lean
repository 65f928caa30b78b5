import Templating.Proofs.Build.Branches
import Templating.Proofs.Static.Exact
import Templating.Proofs.Tree.Inside

/-!
**Marks and loops.**

What is rendered once and for all holds no loop, and neither does anything inside it.  An element
that is rendered once is told whether it stands in a loop, unless it lies inside an element that is
rendered once and for all, where the second pass does not look.

Main definitions:

* `Templating.Static.Kept` — a node that never changes, as the first pass found out or because it
  stands inside `v-pre`;
* `Templating.Static.LoopMarks` — **what the marks on a tree say about loops**;
* `Templating.Static.LoopFlags` — which elements say whether they stand in a loop.

Main results:

* `Templating.Static.kept_of_staticRoot`, `Templating.Static.kept_of_within` — what lies inside an
  element that is rendered once and for all is kept;
* `Templating.Static.reach_unhoisted_or` — where the second pass looked;
* `Templating.Static.loopMarks_mark` — the marks on the tree of a template;
* `Templating.Static.loopFlags_mark` — **what is handed down agrees with the way up**.
-/

set_option autoImplicit false

namespace Templating.Static

open Build Build.Builder

/-- **What the marks on a tree say about loops.** -/
structure LoopMarks (t : Tree) (root : NodeId) : Prop where
  /-- An element that is rendered once and for all has no condition. -/
  unconditional : ∀ id e, t.element? id = some e → e.staticRoot = some true → e.condition = none
  /-- What lies inside such an element, itself included, has no loop.  It is marked as never
  changing, unless it stands inside `v-pre`. -/
  within : ∀ id e o eo, t.Reach dependents root id → t.element? id = some e → t.Within id o →
    t.element? o = some eo → eo.staticRoot = some true →
    e.loop = none ∧ (e.isStatic = some true ∨ t.Verbatim id)
  /-- An element that is rendered once says whether it stands in a loop, unless it lies inside an
  element that is rendered once and for all. -/
  once : ∀ id e, t.Reach dependents root id → t.element? id = some e → e.once = true →
    (∃ o eo, t.Inside id o ∧ t.element? o = some eo ∧ eo.staticRoot = some true) ∨
      (e.staticInFor = some true ↔ ∃ a, t.Inside id a ∧ t.Loops a)

/-- **What elements say about the loops around them**, where the second pass looked. -/
structure LoopFlags (t : Tree) (root : NodeId) : Prop where
  /-- An element that never changes or is rendered once says whether it stands in a loop. -/
  told : ∀ id e, t.Reach unhoisted root id → t.element? id = some e →
    e.isStatic = some true ∨ e.once = true →
    ∃ inFor, e.staticInFor = some inFor ∧ (inFor = true ↔ ∃ a, t.Inside id a ∧ t.Loops a)
  /-- No other element says anything. -/
  untold : ∀ id e, t.Reach unhoisted root id → t.element? id = some e →
    ¬(e.isStatic = some true ∨ e.once = true) → e.staticInFor = none
  /-- From an element that says that it stands in a loop, the way up finds one. -/
  found : ∀ id e, t.Reach unhoisted root id → t.element? id = some e → e.staticInFor = some true →
    ∃ a ea, t.nearestLoop? e.parent = some ea ∧ t.Inside id a ∧ t.element? a = some ea ∧
      ea.loop.isSome = true

/-! ### What never changes -/

/-- A node that never changes: the first pass looked at it and it is steady, or it stands inside
`v-pre`. -/
def Kept (settings : Settings) (t : Tree) (root id : NodeId) : Prop :=
  t.Reach (explored settings) root id ∧ Steady settings t id ∨ t.Verbatim id

section Kept

variable {settings : Settings} {b : Builder} {root id : NodeId} {e : Element}

/-- What never changes has no condition and no loop. -/
theorem Kept.plain (hb : b.Sealed) (h : Kept settings b.tree root id)
    (he : b.tree.element? id = some e) : e.condition = none ∧ e.loop = none := by
  have hinside : b.tree.Verbatim id → e.condition = none ∧ e.loop = none := fun hverbatim =>
    ⟨(hb.literal id e he hverbatim).condition, (hb.literal id e he hverbatim).loop⟩
  rcases h with ⟨-, hsteady⟩ | hverbatim
  · cases hsteady with
    | text hn =>
        rw [Tree.node?_of_element? he] at hn
        cases hn
    | element he' own =>
        obtain rfl : e = _ := by simpa [he] using he'
        cases hpre : e.pre with
        | true => exact hinside (.pre he hpre)
        | false =>
            simp only [isStaticElement, hpre, Bool.false_or, Bool.and_eq_true,
              Option.isNone_iff_eq_none] at own
            exact ⟨own.1.1.1.1.1.2, own.1.1.1.1.2⟩
  · exact hinside hverbatim

/-- The children of what never changes never change. -/
theorem Kept.child (h : Kept settings b.tree root id) (he : b.tree.element? id = some e)
    {c : NodeId} {ec : Element} (hc : c ∈ e.children) (hec : b.tree.element? c = some ec)
    (hparent : ec.parent = some id) : Kept settings b.tree root c := by
  rcases h with ⟨hexplored, hsteady⟩ | hverbatim
  · cases hsteady with
    | text hn =>
        rw [Tree.node?_of_element? he] at hn
        cases hn
    | element he' own below =>
        obtain rfl : e = _ := by simpa [he] using he'
        cases hpre : e.pre with
        | true => exact .inr (.inside hec hparent (.pre he hpre))
        | false =>
            -- the first pass goes on from here, since the element is no component
            have howns := ownsContent_eq_false hpre own
            have hmem : c ∈ dependents e := List.mem_append_left _ hc
            refine .inl ⟨hexplored.step he ?_, below howns c hmem⟩
            rw [explored, howns]
            exact hmem
  · exact .inr (.inside hec hparent hverbatim)

/-- **What lies inside something that never changes never changes.** -/
theorem kept_of_within (hb : b.Sealed) {lo hi : Nat} (hforest : b.tree.Forest none lo hi [root])
    (hchain : ∀ id e, b.tree.element? id = some e → b.tree.Chain id e)
    (hid : b.tree.Reach dependents root id) : ∀ {e : Element} {o : NodeId},
    b.tree.element? id = some e → b.tree.Within id o → Kept settings b.tree root o →
    Kept settings b.tree root id := by
  induction hid with
  | refl =>
      rintro e o he (rfl | hinside) hkept
      · exact hkept
      · obtain ⟨p, hparent, -⟩ := (Tree.inside_iff he).mp hinside
        have hnone := hforest.parent_eq root e.links (by simp) (Tree.links?_of_element? he)
        cases hparent.symm.trans hnone
  | @step y x ey hy hey hx ih =>
      rintro e o he (rfl | hinside) hkept
      · exact hkept
      · obtain ⟨hchild, hbeside⟩ :=
          hforest.parent_eq_of_reaches y ey (Tree.reaches_singleton.mpr hy) hey
        rcases List.mem_append.mp hx with hx | hx
        · have hparent := hchild x e hx he
          exact (ih hey ((Tree.inside_iff_of_parent he hparent).mp hinside) hkept).child hey hx he
            hparent
        · -- a conditional would start at something that never changes
          have hy' := ih hey (.inr ((Tree.inside_congr hey he (hbeside x e hx he)).mp hinside))
            hkept
          have hnil := (hchain y ey hey).branches_eq_nil (hy'.plain hb hey).1
          rw [hnil] at hx
          cases hx

end Kept

/-! ### The tree of a template -/

section Marked

variable {settings : Settings} {t t₁ t' : Tree} {root : NodeId}

/-- An element that is rendered once and for all was looked at by the first pass, and found to be
steady. -/
theorem kept_of_staticRoot (hfresh : t.Fresh) (hroot : t.root = some root) {v : NodeId → Bool}
    (hv : ∀ k, v k = true ↔ Steady settings t k)
    (hfirst : Tree.Applied (fun k => Node.setStatic (v k)) (t.Reach (explored settings) root) t t₁)
    (hsecond : Tree.Applied (fun _ => noted t₁) (t₁.Reach (pursued t₁) root) t₁ t')
    {id : NodeId} {e : Element} (he : t'.element? id = some e)
    (hstatic : e.staticRoot = some true) : Kept settings t root id := by
  obtain ⟨e₁, he₁, -, hisRoot⟩ :=
    exists_isRoot hsecond (staticRoot_eq_none_of_first hfresh hfirst) he hstatic
  have hmark : e₁.isStatic = some true := ((isRoot_iff t₁ e₁).mp hisRoot).1
  have hexplored : t.Reach (explored settings) root id := by
    by_contra hnot
    have hn := hfirst.same id hnot
    rw [Tree.node?_of_element? he₁] at hn
    have hnone : e₁.isStatic = none := Node.isStatic_eq_none (hfresh.unmarked id _ hn.symm)
    cases hnone.symm.trans hmark
  obtain ⟨n₁, hn₁, hstatic₁⟩ := exists_isStatic_of_explored hfresh hroot hfirst hexplored
  obtain rfl : Node.element e₁ = n₁ := by simpa [Tree.node?_of_element? he₁] using hn₁
  exact .inl ⟨hexplored, (hv id).mp (Option.some.inj (hstatic₁.symm.trans hmark))⟩

/-- What is kept is marked as never changing, or stands inside `v-pre`. -/
theorem Kept.isStatic_or (hfresh : t.Fresh) (hroot : t.root = some root) {v : NodeId → Bool}
    (hv : ∀ k, v k = true ↔ Steady settings t k)
    (hfirst : Tree.Applied (fun k => Node.setStatic (v k)) (t.Reach (explored settings) root) t t₁)
    (hsecond : Tree.Applied (fun _ => noted t₁) (t₁.Reach (pursued t₁) root) t₁ t')
    {id : NodeId} {e : Element} (h : Kept settings t root id) (he : t'.element? id = some e) :
    e.isStatic = some true ∨ t.Verbatim id := by
  rcases h with ⟨hexplored, hsteady⟩ | hverbatim
  · obtain ⟨n₁, hn₁, hstatic₁⟩ := exists_isStatic_of_explored hfresh hroot hfirst hexplored
    obtain ⟨n, hn, hstatic⟩ := exists_isStatic_eq hsecond hn₁
    obtain rfl : Node.element e = n := by simpa [Tree.node?_of_element? he] using hn
    rw [(hv id).mpr hsteady] at hstatic₁
    exact .inl (hstatic.trans hstatic₁)
  · exact .inr hverbatim

/-- **Where the second pass looked**: everywhere but inside of what is rendered once and for all. -/
theorem reach_unhoisted_or {lo hi : Nat} (hforest : t'.Forest none lo hi [root])
    (hnil : ∀ id e, t'.element? id = some e → e.staticRoot = some true → e.links.further = [])
    {id : NodeId} (hid : t'.Reach dependents root id) : ∀ {e : Element}, t'.element? id = some e →
    t'.Reach unhoisted root id ∨
      ∃ o eo, t'.Inside id o ∧ t'.element? o = some eo ∧ eo.staticRoot = some true := by
  induction hid with
  | refl => exact fun _ => .inl .refl
  | @step y x ey hy hey hx ih =>
      intro e he
      obtain ⟨hchild, hbeside⟩ :=
        hforest.parent_eq_of_reaches y ey (Tree.reaches_singleton.mpr hy) hey
      rcases ih hey with hreach | ⟨o, eo, hinside, heo, hroot⟩
      · by_cases hroot : ey.staticRoot = some true
        · rcases List.mem_append.mp hx with hx | hx
          · exact .inr ⟨y, ey, .parent he (hchild x e hx he), hey, hroot⟩
          · have hx : x ∈ ey.links.further := hx
            rw [hnil y ey hey hroot] at hx
            cases hx
        · exact .inl (hreach.step hey (by rwa [unhoisted, if_neg hroot]))
      · refine .inr ⟨o, eo, ?_, heo, hroot⟩
        rcases List.mem_append.mp hx with hx | hx
        · exact .step he (hchild x e hx he) hinside
        · exact (Tree.inside_congr hey he (hbeside x e hx he)).mpr hinside

/-- Where the second pass looked, an element that never changes or is rendered once says whether
there is a loop on the way up.  What the others said before is kept. -/
theorem exists_staticInFor_eq
    (hsecond : Tree.Applied (fun _ => noted t₁) (t₁.Reach (pursued t₁) root) t₁ t')
    {id : NodeId} {e : Element} (hid : t'.Reach unhoisted root id)
    (he : t'.element? id = some e) : ∃ e₁, t₁.element? id = some e₁ ∧
      e.staticInFor = if e.isStatic = some true ∨ e.once = true then
        some (t₁.nearestLoop? e₁.parent).isSome else e₁.staticInFor := by
  obtain ⟨-, e₁, he₁, hnoted⟩ := exists_noted hsecond hid he
  refine ⟨e₁, he₁, ?_⟩
  cases hnoted
  simp [noteRoot]

/-- Where the second pass looked, an element that never changes or is rendered once says whether it
stands in a loop. -/
theorem exists_staticInFor_iff (hup : t₁.ParentsFirst)
    (hsecond : Tree.Applied (fun _ => noted t₁) (t₁.Reach (pursued t₁) root) t₁ t')
    {id : NodeId} {e : Element} (hid : t'.Reach unhoisted root id) (he : t'.element? id = some e)
    (htold : e.isStatic = some true ∨ e.once = true) :
    ∃ inFor, e.staticInFor = some inFor ∧ (inFor = true ↔ ∃ a, t'.Inside id a ∧ t'.Loops a) := by
  have halike : t₁.Alike Node.unmarked t' := hsecond.alike fun _ => unmarked_noted t₁
  obtain ⟨e₁, he₁, hinFor⟩ := exists_staticInFor_eq hsecond hid he
  rw [if_pos htold] at hinFor
  refine ⟨_, hinFor, ?_⟩
  rw [hup.isSome_nearestLoop? he₁]
  constructor
  · rintro ⟨a, hinside, hloop⟩
    exact ⟨a, hinside.alike halike, hloop.alike halike⟩
  · rintro ⟨a, hinside, hloop⟩
    exact ⟨a, hinside.alike halike.symm, hloop.alike halike.symm⟩

end Marked

/-- **The marks on the tree of a template** say which elements stand in loops. -/
theorem loopMarks_mark {settings : Settings} {template : String} {parsed : Parsed} {root : NodeId}
    (hparse : parse settings template = .ok parsed) (hroot : parsed.tree.root = some root) :
    LoopMarks (mark settings parsed.tree) root := by
  have hfresh := fresh_of_parse hparse
  have hchain : ∀ id e, parsed.tree.element? id = some e → parsed.tree.Chain id e :=
    fun id e he => chain_of_parse hparse he
  obtain ⟨b, ⟨-, hb⟩, htree⟩ := Invariant.of_parse invariant_sealed hparse
  rw [← htree] at hfresh hchain hroot ⊢
  obtain ⟨v, t₁, hv, hfirst, hsecond⟩ := exists_applied_mark settings hfresh hroot
  have halike := (alike_mark settings hfresh).2
  have hforest := hfresh.forest root hroot
  have hkept : ∀ o eo, (mark settings b.tree).element? o = some eo → eo.staticRoot = some true →
      Kept settings b.tree root o := fun o eo heo hstatic =>
    kept_of_staticRoot hfresh hroot hv hfirst hsecond heo hstatic
  have hplain : ∀ id e, (mark settings b.tree).element? id = some e →
      Kept settings b.tree root id → e.condition = none ∧ e.loop = none := by
    intro id e he hid
    obtain ⟨e₀, he₀, hsame⟩ := halike.symm.element? Node.element?_unmarked he
    have hcondition : e₀.condition = e.condition := (congrArg Element.condition hsame :)
    have hloop : e₀.loop = e.loop := (congrArg Element.loop hsame :)
    rw [← hcondition, ← hloop]
    exact hid.plain hb he₀
  constructor
  case unconditional =>
    intro id e he hstatic
    exact (hplain id e he (hkept id e he hstatic)).1
  case within =>
    intro id e o eo hid he hwithin heo hstatic
    obtain ⟨e₀, he₀, -⟩ := halike.symm.element? Node.element?_unmarked he
    have hwithin₀ : b.tree.Within id o := hwithin.imp_right fun h => h.alike halike.symm
    have hid₀ := kept_of_within hb hforest hchain (hid.alike halike) he₀ hwithin₀
      (hkept o eo heo hstatic)
    refine ⟨(hplain id e he hid₀).2, ?_⟩
    refine (hid₀.isStatic_or hfresh hroot hv hfirst hsecond he).imp_right fun hverbatim => ?_
    refine hverbatim.congr fun k e he => ?_
    obtain ⟨e', he', hsame⟩ := halike.element? Node.element?_unmarked he
    exact ⟨e', he', (congrArg Element.parent hsame :), (congrArg Element.pre hsame :)⟩
  case once =>
    intro id e hid he honce
    have hforest' : (mark settings b.tree).Forest none 0 b.tree.size [root] :=
      hforest.congr fun k _ _ => halike.links? Node.links_unmarked k
    have hnil : ∀ id e, (mark settings b.tree).element? id = some e →
        e.staticRoot = some true → e.links.further = [] := by
      intro id e he hstatic
      obtain ⟨e₀, he₀, hsame⟩ := halike.symm.element? Node.element?_unmarked he
      have hbranches : e₀.branches = e.branches := (congrArg Element.branches hsame :)
      have hnone := (hchain id e₀ he₀).branches_eq_nil ((hkept id e he hstatic).plain hb he₀).1
      rw [Element.links, ← hbranches, hnone]
      rfl
    have hup : t₁.ParentsFirst :=
      hfresh.parentsFirst.alike (hfirst.alike fun _ n => Node.unmarked_setStatic _ n)
    rcases reach_unhoisted_or hforest' hnil hid he with hunhoisted | hinside
    · obtain ⟨inFor, hinFor, hloop⟩ :=
        exists_staticInFor_iff hup hsecond hunhoisted he (.inr honce)
      rw [hinFor, Option.some.injEq]
      exact .inr hloop
    · exact .inl hinside

/-- **What is handed down agrees with the way up.**  The second pass hands down whether there is a
loop around an element; the way up from the element tells the same.  The settings that a tree is
marked with need not be those that it was read with. -/
theorem loopFlags_mark {settings : Settings} {template : String} {parsed : Parsed} {root : NodeId}
    (hparse : parse settings template = .ok parsed) (hroot : parsed.tree.root = some root)
    (marking : Settings) : LoopFlags (mark marking parsed.tree) root := by
  have hfresh := fresh_of_parse hparse
  obtain ⟨v, t₁, -, hfirst, hsecond⟩ := exists_applied_mark marking hfresh hroot
  have hup : t₁.ParentsFirst :=
    hfresh.parentsFirst.alike (hfirst.alike fun _ n => Node.unmarked_setStatic _ n)
  have htold : ∀ id e, (mark marking parsed.tree).Reach unhoisted root id →
      (mark marking parsed.tree).element? id = some e → e.isStatic = some true ∨ e.once = true →
      ∃ inFor, e.staticInFor = some inFor ∧
        (inFor = true ↔ ∃ a, (mark marking parsed.tree).Inside id a ∧
          (mark marking parsed.tree).Loops a) :=
    fun id e hid he => exists_staticInFor_iff hup hsecond hid he
  have huntold : ∀ id e, (mark marking parsed.tree).Reach unhoisted root id →
      (mark marking parsed.tree).element? id = some e →
      ¬(e.isStatic = some true ∨ e.once = true) → e.staticInFor = none := by
    intro id e hid he hnot
    obtain ⟨e₁, he₁, hinFor⟩ := exists_staticInFor_eq hsecond hid he
    rw [if_neg hnot] at hinFor
    exact hinFor.trans (unrooted_of_first hfresh hfirst id e₁ he₁).2
  refine ⟨htold, huntold, fun id e hid he hinFor => ?_⟩
  by_cases hsays : e.isStatic = some true ∨ e.once = true
  · obtain ⟨inFor, hsome, hloop⟩ := htold id e hid he hsays
    obtain rfl : inFor = true := Option.some.inj (hsome.symm.trans hinFor)
    have hup' : (mark marking parsed.tree).ParentsFirst :=
      hfresh.parentsFirst.alike (alike_mark marking hfresh).2
    obtain ⟨ea, hea⟩ := Option.isSome_iff_exists.mp
      ((hup'.isSome_nearestLoop? he).mpr (hloop.mp rfl))
    obtain ⟨a, hinside, hfound⟩ := Tree.exists_of_nearestLoop? he hea
    exact ⟨a, ea, hea, hinside, hfound⟩
  · rw [huntold id e hid he hsays] at hinFor
    cases hinFor

/-- Inside a loop, an element that is rendered once and one that is bound; outside of it, one that
never changes. -/
theorem loopFlags_mark_list :
    ∃ parsed, parse Settings.web
        "<ul><li v-for='x in xs' :key='x'><b v-once>c</b><i :id='x'>a</i></li><i>b</i></ul>" =
          .ok parsed ∧
      LoopFlags (mark Settings.web parsed.tree) 0 ∧
      ((mark Settings.web parsed.tree).element? 2).map (·.staticInFor) = some (some true) := by
  refine (exists_parse Settings.web _ (by simp [Settings.web])).imp
    fun parsed hparsed => ⟨hparsed, ?_, ?_⟩
  · have hroot : (Except.ok parsed : Except CompileError Parsed).toOption.bind (·.tree.root) =
        some 0 := by
      rw [← hparsed]
      decide +kernel
    exact loopFlags_mark hparsed hroot Settings.web
  · have hflag : (Except.ok parsed : Except CompileError Parsed).toOption.bind (fun p =>
        ((mark Settings.web p.tree).element? 2).map (·.staticInFor)) = some (some true) := by
      rw [← hparsed]
      decide +kernel
    exact hflag

end Templating.Static
