import Templating.Proofs.Build.Growing
import Templating.Proofs.Build.Quiet
import Templating.Proofs.Render.Callbacks

/-!
**Tags with side effects.**

An element with a tag that has side effects is forbidden: it is added to the table, but it is not
made a child of its parent or a further branch of a conditional beside it.  The first element of a
template is the root, forbidden or not, and nobody asks either when an element outside of the root
is made a further branch of it.  These two are the only ways into the tree and into the code.

Main definitions:

* `Templating.Tree.Permits` — a node that is not forbidden;
* `Templating.Tree.Excludes` — forbidden elements are neither children nor, but at the root, further
  branches;
* `Templating.Tree.AtTop` — the root and the branches of its conditional;
* `Templating.Render.ForbiddenAtTop` — **forbidden elements stand at the top only**, in the tree and
  in its code.

Main results:

* `Templating.Build.Builder.invariant_excludes` — **every event excludes forbidden elements**;
* `Templating.Build.Builder.invariant_flagged` — an element is forbidden because of its tag;
* `Templating.Tree.Excludes.atTop` — what is met from the root is not forbidden or at the top.
-/

set_option autoImplicit false

namespace Templating

open Build Build.Builder

/-! ### Nodes that are not forbidden -/

/-- Whether a node is not a forbidden element. -/
def Node.permitted (n : Node) : Bool := n.element?.all (!·.forbidden)

theorem Node.permitted_frame (n : Node) : n.frame.permitted = n.permitted := by
  cases n <;> rfl

theorem Node.permitted_unmarked (n : Node) : n.unmarked.permitted = n.permitted := by
  cases n <;> rfl

/-- There is a node with a number, and it is not a forbidden element. -/
def Tree.Permits (t : Tree) (id : NodeId) : Prop := ∃ n, t.node? id = some n ∧ n.permitted = true

/-- Where an element leads: its children, and the branches of its conditional. -/
def Element.linked (e : Element) : List NodeId := e.children ++ e.branches.map (·.block)

/-- The root, or a branch of the conditional that starts there. -/
def Tree.AtTop (t : Tree) (id : NodeId) : Prop :=
  ∃ root, t.root = some root ∧
    (id = root ∨ ∃ e, t.element? root = some e ∧ id ∈ e.branches.map (·.block))

/-- **Forbidden elements are left out**: they are no children, and further branches only of the
conditional at the root. -/
structure Tree.Excludes (t : Tree) : Prop where
  child : ∀ id e, t.element? id = some e → ∀ c ∈ e.children, t.Permits c
  further : ∀ id e, t.element? id = some e → t.root ≠ some id →
    ∀ branch ∈ e.branches.drop 1, t.Permits branch.block

namespace Tree

variable {t t' : Tree} {id root : NodeId} {e : Element}

theorem Permits.forbidden_eq (h : t.Permits id) (he : t.element? id = some e) :
    e.forbidden = false := by
  obtain ⟨n, hn, hpermitted⟩ := h
  rw [node?_of_element? he] at hn
  cases hn
  simpa [Node.permitted, Node.element?] using hpermitted

theorem permits_of_element? (he : t.element? id = some e) (h : e.forbidden = false) :
    t.Permits id :=
  ⟨.element e, node?_of_element? he, by simp [Node.permitted, Node.element?, h]⟩

theorem Grows.permits (h : t.Grows t') (hid : t.Permits id) : t'.Permits id := by
  obtain ⟨n, hn, hpermitted⟩ := hid
  have hmap := h id (lt_size_of_node? hn)
  rw [hn, Option.map_some, Option.map_eq_some_iff] at hmap
  obtain ⟨n', hn', hsame⟩ := hmap
  refine ⟨n', hn', ?_⟩
  rw [← n'.permitted_frame, hsame, n.permitted_frame, hpermitted]

/-- A tree that grows leaves forbidden elements out when the elements that are new have no links, and
every link of the others is an old one or leads to a node that is permitted. -/
theorem Excludes.grow (h : t.Excludes) (hgrows : t.Grows t')
    (hroot : ∀ id, t.root = some id → t'.root = some id)
    (hlinks : ∀ id e', t'.element? id = some e' →
      e'.children = [] ∧ e'.branches.drop 1 = [] ∨ ∃ e, t.element? id = some e ∧
        (∀ c ∈ e'.children, c ∈ e.children ∨ t'.Permits c) ∧
        ∀ branch ∈ e'.branches.drop 1,
          branch ∈ e.branches.drop 1 ∨ t'.Permits branch.block ∨ t'.root = some id) :
    t'.Excludes := by
  constructor
  · intro id e' he' c hc
    rcases hlinks id e' he' with ⟨hnone, -⟩ | ⟨e, he, hchildren, -⟩
    · simp [hnone] at hc
    · rcases hchildren c hc with hc | hc
      · exact hgrows.permits (h.child id e he c hc)
      · exact hc
  · intro id e' he' hne branch hbranch
    rcases hlinks id e' he' with ⟨-, hnone⟩ | ⟨e, he, -, hfurther⟩
    · simp [hnone] at hbranch
    · rcases hfurther branch hbranch with hbranch | hbranch | hsome
      · exact hgrows.permits (h.further id e he (fun hsome => hne (hroot id hsome)) branch hbranch)
      · exact hbranch
      · exact absurd hsome hne

/-- Marks do not make an element forbidden, or take it from the tree. -/
theorem Excludes.alike (h : t.Excludes) (halike : t.Alike Node.unmarked t')
    (hroot : t'.root = t.root) : t'.Excludes := by
  have hpermits : ∀ k, t.Permits k → t'.Permits k := by
    rintro k ⟨n, hn, hpermitted⟩
    obtain ⟨n', hn', hsame⟩ := halike.node? hn
    exact ⟨n', hn', by rw [← n'.permitted_unmarked, hsame, n.permitted_unmarked, hpermitted]⟩
  constructor
  · intro id e' he' c hc
    obtain ⟨e, he, hsame⟩ := halike.symm.element? Node.element?_unmarked he'
    have hchildren : e.children = e'.children := (congrArg Element.children hsame :)
    exact hpermits c (h.child id e he c (hchildren ▸ hc))
  · intro id e' he' hne branch hbranch
    obtain ⟨e, he, hsame⟩ := halike.symm.element? Node.element?_unmarked he'
    have hbranches : e.branches = e'.branches := (congrArg Element.branches hsame :)
    exact hpermits _ (h.further id e he (hroot ▸ hne) branch (hbranches ▸ hbranch))

/-- What is met from the root is not forbidden, or it is at the top. -/
theorem Excludes.atTop (h : t.Excludes) (hchain : ∀ id e, t.element? id = some e → t.Chain id e)
    (hroot : t.root = some root) (hid : t.Reach Element.linked root id) :
    t.Permits id ∨ t.AtTop id := by
  induction hid with
  | refl => exact .inr ⟨root, hroot, .inl rfl⟩
  | @step id c e _ he hc ih =>
      rcases List.mem_append.mp hc with hc | hc
      · exact .inl (h.child id e he c hc)
      · -- a conditional starts at its own element, and the further branches follow
        by_cases hid : t.root = some id
        · exact .inr ⟨id, hid, .inr ⟨e, he, hc⟩⟩
        · obtain ⟨branch, hbranch, rfl⟩ := List.mem_map.mp hc
          cases hbranches : e.branches with
          | nil => simp [hbranches] at hbranch
          | cons first further =>
              rw [hbranches] at hbranch
              rcases List.mem_cons.mp hbranch with rfl | hbranch
              · have hhead := (hchain id e he).head
                rw [hbranches] at hhead
                obtain ⟨exp, -, rfl⟩ := Option.map_eq_some_iff.mp hhead.symm
                exact ih
              · exact .inl (h.further id e he hid branch (by simpa [hbranches] using hbranch))

end Tree

/-! ### Building a tree -/

namespace Build.Builder

variable {src : Source} {b b' : Builder}

theorem excludes_append {parent : NodeId} {n : Node} (hn : b.Admits src n) (hb : b.tree.Excludes) :
    (b.append parent n).tree.Excludes := by
  have hnew : (b.append parent n).tree.Permits b.tree.size := by
    have hpush : (b.tree.push n).Permits b.tree.size := by
      refine ⟨n, by rw [Tree.node?_push, if_pos rfl], ?_⟩
      cases n with
      | element => exact hn.elim
      | expression => rfl
      | text => rfl
    exact (Tree.Grows.of_alike
      ((b.sameCore_append parent n).coarsen Node.frame_core)).permits hpush
  refine hb.grow (b.grows_append parent n) (fun id hid => hid) ?_
  intro id e' he'
  obtain ⟨e, he, -⟩ := exists_element_of_append hn he'
  obtain ⟨e₀, he₀, rfl⟩ := Tree.exists_of_element?_modifyElement he'
  obtain rfl : e = e₀ := by
    rw [Tree.element?_push, if_neg (Nat.ne_of_lt (Tree.lt_size_of_element? he)), he] at he₀
    exact Option.some.inj he₀
  refine .inr ⟨e, he, ?_, ?_⟩
  · intro c hc
    split at hc
    · rcases List.mem_append.mp hc with hc | hc
      · exact .inl hc
      · exact .inr (List.mem_singleton.mp hc ▸ hnew)
    · exact .inl hc
  · intro branch hbranch
    split at hbranch
    · exact .inl hbranch
    · exact .inl hbranch

theorem excludes_enter (tag : String) (attributes : List Markup.Attribute) (start stop : Nat)
    (hb : b.tree.Excludes) :
    (b.enter src (b.created src tag attributes start stop)).tree.Excludes := by
  refine hb.grow (grows_enter src b _) ?_ ?_
  · intro id hid
    change b.tree.root.or (some b.tree.size) = some id
    rw [hid]
    rfl
  · intro id e' he'
    rw [element?_enter] at he'
    split at he'
    · cases he'
      obtain ⟨_, _, _, _, _, _, _, branches, hcreated, -, hfirst⟩ :=
        unopened_created src b tag attributes start stop
      generalize b.created src tag attributes start stop = e at hcreated
      have hchildren : e.children = [] := (congrArg Element.children hcreated :)
      have hbranches : e.branches = branches := (congrArg Element.branches hcreated :)
      exact .inl ⟨hchildren, by rw [hbranches, hfirst]⟩
    · exact .inr ⟨e', he', fun c hc => .inl hc, fun branch hbranch => .inl hbranch⟩

/-- Attaching an element makes it a further branch at most, and a forbidden one only at the root. -/
theorem Attached.branches {t t' : Tree} {opened : List NodeId} {id : NodeId} {e : Element}
    (h : Attached t opened id e t') {k : NodeId} {e' : Element} (he' : t'.element? k = some e') :
    ∃ e₀, t.element? k = some e₀ ∧ ∀ branch ∈ e'.branches.drop 1, branch ∈ e₀.branches.drop 1 ∨
      branch.block = id ∧ (e.forbidden = false ∨ t.root = some k) := by
  have hadded : ∀ (e₀ : Element) (new : Branch), ∀ branch ∈ (withBranch new e₀).branches.drop 1,
      branch ∈ e₀.branches.drop 1 ∨ branch = new := by
    intro e₀ new branch hbranch
    cases hbranches : e₀.branches with
    | nil => simp [withBranch, hbranches] at hbranch
    | cons first further => simpa [withBranch, hbranches] using hbranch
  have hsame : ∀ {parent : NodeId} {f : Element → Element} {e₁ : Element},
      (t.modifyElement parent f).element? k = some e₁ → (∀ e, (f e).branches = e.branches) →
        ∃ e₀, t.element? k = some e₀ ∧ e₁.branches = e₀.branches := by
    intro parent f e₁ he₁ hf
    obtain ⟨e₀, he₀, rfl⟩ := Tree.exists_of_element?_modifyElement he₁
    refine ⟨e₀, he₀, ?_⟩
    split
    · exact hf e₀
    · rfl
  cases h with
  | nothing => exact ⟨e', he', fun branch hbranch => .inl hbranch⟩
  | child =>
      obtain ⟨e₀, he₀, hbranches⟩ := hsame he' fun _ => rfl
      exact ⟨e₀, he₀, fun branch hbranch => .inl (hbranches ▸ hbranch)⟩
  | orphan =>
      obtain ⟨e₀, he₀, hbranches⟩ := hsame he' fun _ => rfl
      exact ⟨e₀, he₀, fun branch hbranch => .inl (hbranches ▸ hbranch)⟩
  | branch _ hforbidden =>
      obtain ⟨e₁, he₁, rfl⟩ := Tree.exists_of_element?_modifyElement he'
      obtain ⟨e₀, he₀, hbranches⟩ := hsame he₁ fun _ => rfl
      refine ⟨e₀, he₀, fun branch hbranch => ?_⟩
      rw [← hbranches]
      split at hbranch
      · rcases hadded e₁ _ branch hbranch with hbranch | rfl
        · exact .inl hbranch
        · exact .inr ⟨rfl, .inl hforbidden⟩
      · exact .inl hbranch
  | root _ hroot =>
      obtain ⟨e₀, he₀, rfl⟩ := Tree.exists_of_element?_modifyElement he'
      refine ⟨e₀, he₀, fun branch hbranch => ?_⟩
      split at hbranch
      · rename_i hk
        rcases hadded e₀ _ branch hbranch with hbranch | rfl
        · exact .inl hbranch
        · exact .inr ⟨rfl, .inr (hk ▸ hroot)⟩
      · exact .inl hbranch

/-- Finishing an element makes it a further branch at most, and a forbidden one only at the root. -/
theorem Finished.branches {id : NodeId} {e : Element} {t : Tree} (h : Finished src b id e t b')
    (he : b.tree.element? id = some e) {k : NodeId} {e' : Element}
    (he' : b'.tree.element? k = some e') :
    ∃ e₀, b.tree.element? k = some e₀ ∧ ∀ branch ∈ e'.branches.drop 1,
      branch ∈ e₀.branches.drop 1 ∨
        branch.block = id ∧ (e.forbidden = false ∨ b.tree.root = some k) := by
  rw [h.tree] at he'
  obtain ⟨e₂, he₂, rfl⟩ := Tree.exists_of_element?_modifyElement he'
  obtain ⟨e₁, he₁, hbranches⟩ := h.attached.branches he₂
  obtain ⟨e₀, he₀, rfl⟩ := Tree.exists_of_element?_modifyElement he₁
  have htrimmed : (if id = k then { b with tree := t }.trimmed e₂ else e₂).branches =
      e₂.branches := by
    split
    · exact branches_trimmed _ e₂
    · rfl
  have hcompleted : (if id = k then b.completed src id e else e₀).branches = e₀.branches := by
    split
    · rename_i hk
      subst hk
      obtain rfl : e = e₀ := by simpa [he] using he₀
      exact branches_completed src b id e
    · rfl
  rw [hcompleted, forbidden_completed] at hbranches
  refine ⟨e₀, he₀, fun branch hbranch => hbranches branch ?_⟩
  rwa [htrimmed] at hbranch

theorem excludes_finishElement {id : NodeId} {rest : List NodeId} (hb : b.tree.Excludes) :
    ({ b with opened := rest }.finishElement src id).tree.Excludes := by
  cases hid : b.tree.element? id with
  | none =>
      rw [(agrees_finishElement_of_none src { b with opened := rest } hid).tree]
      exact hb
  | some e =>
      obtain ⟨t, hfinished⟩ := finished_finishElement src { b with opened := rest } hid
      have hgrows := Tree.Grows.of_alike (hfinished.alike hid)
      have hroot : ({ b with opened := rest }.finishElement src id).tree.root = b.tree.root := by
        rw [hfinished.tree, Tree.root_modifyElement, hfinished.attached.root_eq,
          Tree.root_modifyElement]
      have hpermits : e.forbidden = false →
          ({ b with opened := rest }.finishElement src id).tree.Permits id :=
        fun h => hgrows.permits (Tree.permits_of_element? hid h)
      refine hb.grow hgrows (fun k hk => hroot.trans hk) fun k e' he' => ?_
      obtain ⟨e₀, he₀, hchildren⟩ := hfinished.children hid he'
      obtain ⟨e₁, he₁, hbranches⟩ := hfinished.branches hid he'
      obtain rfl : e₀ = e₁ := Option.some.inj (he₀.symm.trans he₁)
      refine .inr ⟨e₀, he₀, ?_, ?_⟩
      · intro c hc
        rcases hchildren c hc with hc | ⟨rfl, -, hforbidden⟩
        · exact .inl hc
        · exact .inr (hpermits hforbidden)
      · intro branch hbranch
        rcases hbranches branch hbranch with hbranch | ⟨rfl, hforbidden | hsome⟩
        · exact .inl hbranch
        · exact .inr (.inl (hpermits hforbidden))
        · exact .inr (.inr (hroot.trans hsome))

/-- **Every event excludes forbidden elements.** -/
theorem invariant_excludes (src : Source) : Invariant src fun b => b.tree.Excludes where
  init := ⟨by simp [Tree.element?, Tree.node?], by simp [Tree.element?, Tree.node?]⟩
  agrees h hb := by rwa [h.tree]
  leaf _ hn hb := excludes_append hn hb
  enter tag attributes start stop hb := excludes_enter tag attributes start stop hb
  stop := by
    intro b id stop hb
    refine hb.grow
      (.of_alike ((b.sameCore_stop id stop).coarsen Node.frame_core)) (fun k hk => hk) ?_
    intro k e' he'
    obtain ⟨e, he, rfl⟩ := Tree.exists_of_element?_modifyElement he'
    refine .inr ⟨e, he, fun c hc => .inl ?_, fun branch hbranch => .inl ?_⟩
    · split at hc
      · exact hc
      · exact hc
    · split at hbranch
      · exact hbranch
      · exact hbranch
  finish _ hb := excludes_finishElement hb

theorem isForbidden_congr {e e' : Element} (htag : e'.tag = e.tag)
    (hattributes : e'.attributes = e.attributes) : isForbidden e' = isForbidden e := by
  simp only [isForbidden, htag, hattributes]

/-- **An element is forbidden because of its tag** and its type. -/
theorem invariant_flagged (src : Source) : Invariant src fun b =>
    ∀ id e, b.tree.element? id = some e → e.forbidden = isForbidden e := by
  refine Invariant.of_element ?_ ?_ ?_
  · intro e e' hsame h
    have hforbidden : e'.forbidden = e.forbidden := (congrArg Element.forbidden hsame :)
    rw [hforbidden, h]
    exact (isForbidden_congr (congrArg Element.tag hsame :)
      (congrArg Element.attributes hsame :)).symm
  · intro b tag attributes start stop
    have hnew : (newElement src b.opened.head? tag attributes start stop).1.forbidden =
        isForbidden (Element.new tag attributes b.opened.head?) := by
      simp only [newElement]
      split <;> rfl
    have htag := tag_created src b tag attributes start stop
    obtain ⟨_, _, _, _, _, _, _, _, hcreated, -⟩ := unopened_created src b tag attributes start stop
    rw [forbidden_created, hnew]
    generalize b.created src tag attributes start stop = e at htag hcreated
    exact (isForbidden_congr htag (congrArg Element.attributes hcreated :)).symm
  · intro inFor e h
    have hunclosed := unclosed_readDirectives src.delimiters inFor e
    generalize (readDirectives src.delimiters inFor e).1 = e' at hunclosed
    have hforbidden : e'.forbidden = e.forbidden := (congrArg Element.forbidden hunclosed :)
    rw [hforbidden, h]
    exact (isForbidden_congr (congrArg Element.tag hunclosed :)
      (congrArg Element.attributes hunclosed :)).symm

end Build.Builder

/-! ### The tree and the code of a template -/

namespace Render

/-- **Forbidden elements stand at the top only**, in a tree and in its code. -/
structure ForbiddenAtTop (settings : Settings) (t : Tree) : Prop where
  /-- Styles are forbidden, and scripts that hold program text. -/
  flag : ∀ id e, t.element? id = some e → e.forbidden = isForbidden e
  /-- What is met through children and branches is not forbidden, but at the top. -/
  tree : ∀ root, t.root = some root → ∀ id e, t.Reach Element.linked root id →
    t.element? id = some e → e.forbidden = true → t.AtTop id
  /-- All code belongs to elements that are not forbidden, but at the top. -/
  code : ∀ p ∈ (generate settings t).places, ∃ e, t.element? p.origin = some e ∧
    (e.forbidden = true → t.AtTop p.origin)

theorem forbiddenAtTop_of_excludes {settings : Settings} {t : Tree}
    (hflag : ∀ id e, t.element? id = some e → e.forbidden = isForbidden e)
    (hexcludes : t.Excludes) (ht : ∀ root, t.root = some root → Laid t root) :
    ForbiddenAtTop settings t := by
  have htree : ∀ root, t.root = some root → ∀ id e, t.Reach Element.linked root id →
      t.element? id = some e → e.forbidden = true → t.AtTop id := by
    intro root hroot id e hid he hforbidden
    rcases hexcludes.atTop (ht root hroot).chained hroot hid with hpermits | htop
    · rw [hpermits.forbidden_eq he] at hforbidden
      cases hforbidden
    · exact htop
  refine ⟨hflag, htree, fun p hp => ?_⟩
  cases hroot : t.root with
  | none => simp [generate, hroot, Rendered.places] at hp
  | some root =>
      have hexact : p.Exact t root := (ht root hroot).places.1 p hp
      obtain ⟨e, he, -⟩ := hexact.exists_element
      refine ⟨e, he, htree root hroot p.origin e (hexact.met.mono fun e => ?_) he⟩
      exact List.append_subset.mpr ⟨List.subset_append_left _ _,
        List.subset_append_of_subset_right _ (List.map_subset _ (List.drop_subset 1 _))⟩

/-- **A forbidden element is in the tree of a template only as its root or as a branch of the
conditional there**, and so it is in its code, with marks and without. -/
theorem exists_parse_forbiddenAtTop (settings : Settings) (template : String)
    (h : ∀ opening closing, settings.customDelimiters = some (opening, closing) →
      opening ≠ "" ∧ closing ≠ "") :
    ∃ parsed, parse settings template = .ok parsed ∧ ForbiddenAtTop settings parsed.tree ∧
      ForbiddenAtTop settings (Static.mark settings parsed.tree) := by
  obtain ⟨parsed, hparsed⟩ := exists_parse settings template h
  obtain ⟨b, ⟨hflag, hexcludes⟩, htree⟩ := Invariant.of_parse
    (fun src => (invariant_flagged src).and (invariant_excludes src)) hparsed
  rw [htree] at hflag hexcludes
  obtain ⟨hsame, halike⟩ := Static.alike_mark settings (fresh_of_parse hparsed)
  refine ⟨parsed, hparsed,
    forbiddenAtTop_of_excludes hflag hexcludes fun root => laid_of_parse hparsed,
    forbiddenAtTop_of_excludes ?_ (hexcludes.alike halike hsame) fun root hroot =>
      laid_mark hparsed (hsame.symm.trans hroot)⟩
  intro id e' he'
  obtain ⟨e, he, hunmarked⟩ := halike.symm.element? Node.element?_unmarked he'
  have hforbidden : e.forbidden = e'.forbidden := (congrArg Element.forbidden hunmarked :)
  rw [← hforbidden, hflag id e he]
  exact isForbidden_congr (congrArg Element.tag hunmarked :)
    (congrArg Element.attributes hunmarked :)

/-- A style that starts a conditional, and a script that would be a further branch. -/
theorem exists_parse_forbiddenAtTop_inside :
    ∃ parsed e style script, parse { Settings.web with customDelimiters := some ("[[", "]]") }
        "<div><style v-if=\"a\"></style><p v-if=\"b\"></p><script v-else></script></div>" =
          .ok parsed ∧
      parsed.tree.element? 0 = some e ∧ e.linked = [2] ∧
      parsed.tree.element? 1 = some style ∧ style.forbidden = true ∧
      parsed.tree.element? 3 = some script ∧ script.forbidden = true ∧
      ForbiddenAtTop { Settings.web with customDelimiters := some ("[[", "]]") } parsed.tree := by
  obtain ⟨parsed, hparsed, htop, -⟩ := exists_parse_forbiddenAtTop
    { Settings.web with customDelimiters := some ("[[", "]]") }
    "<div><style v-if=\"a\"></style><p v-if=\"b\"></p><script v-else></script></div>" (by simp)
  have hcheck : (Except.ok parsed : Except CompileError Parsed).toOption.any (fun parsed =>
      (parsed.tree.element? 0).any (·.linked = [2]) &&
        ((parsed.tree.element? 1).any (·.forbidden) &&
          (parsed.tree.element? 3).any (·.forbidden))) := by
    rw [← hparsed]
    decide +kernel
  obtain ⟨hroot, hrest⟩ := (Bool.and_eq_true _ _).mp hcheck
  obtain ⟨hstyle, hscript⟩ := (Bool.and_eq_true _ _).mp hrest
  obtain ⟨e, he, hlinked⟩ := (Option.any_eq_true _ (parsed.tree.element? 0)).mp hroot
  obtain ⟨style, hstyle, hforbidden⟩ := (Option.any_eq_true _ (parsed.tree.element? 1)).mp hstyle
  obtain ⟨script, hscript, hforbidden'⟩ :=
    (Option.any_eq_true _ (parsed.tree.element? 3)).mp hscript
  exact ⟨parsed, e, style, script, hparsed, he, of_decide_eq_true hlinked, hstyle, hforbidden,
    hscript, hforbidden', htop⟩

/-- A style that is the root, and one that is a further branch of the root: both are in the code. -/
theorem exists_rendered_styles :
    (∃ c e, compile Settings.web "<style></style>" = .ok c ∧ c.tree.root = some 0 ∧
      c.tree.element? 0 = some e ∧ e.forbidden = true ∧
      c.render = "with(this)\x7breturn _c('style')\x7d") ∧
    ∃ c e eb, compile Settings.web "<div v-if=\"a\"></div><style v-else></style>" = .ok c ∧
      c.tree.root = some 0 ∧ c.tree.element? 0 = some e ∧
      e.branches = [⟨some "a", 0⟩, ⟨none, 1⟩] ∧
      c.tree.element? 1 = some eb ∧ eb.forbidden = true ∧
      c.render = "with(this)\x7breturn (a)?_c('div'):_c('style')\x7d" := by
  constructor
  · have hcheck : (compile Settings.web "<style></style>").toOption.any (fun c =>
        c.tree.root == some 0 && ((c.tree.element? 0).any (·.forbidden) &&
          c.render == "with(this)\x7breturn _c('style')\x7d")) = true := by
      decide +kernel
    cases hc : compile Settings.web "<style></style>" with
    | error e =>
        rw [hc] at hcheck
        cases hcheck
    | ok c =>
        rw [hc] at hcheck
        obtain ⟨hroot, hcheck⟩ := (Bool.and_eq_true _ _).mp hcheck
        obtain ⟨hstyle, hrender⟩ := (Bool.and_eq_true _ _).mp hcheck
        obtain ⟨e, he, hforbidden⟩ := (Option.any_eq_true _ _).mp hstyle
        exact ⟨c, e, rfl, beq_iff_eq.mp hroot, he, hforbidden, beq_iff_eq.mp hrender⟩
  · have hcheck : (compile Settings.web "<div v-if=\"a\"></div><style v-else></style>").toOption.any
        (fun c => c.tree.root == some 0 &&
          ((c.tree.element? 0).any (·.branches = [⟨some "a", 0⟩, ⟨none, 1⟩]) &&
            ((c.tree.element? 1).any (·.forbidden) &&
              c.render == "with(this)\x7breturn (a)?_c('div'):_c('style')\x7d"))) = true := by
      decide +kernel
    cases hc : compile Settings.web "<div v-if=\"a\"></div><style v-else></style>" with
    | error e =>
        rw [hc] at hcheck
        cases hcheck
    | ok c =>
        rw [hc] at hcheck
        obtain ⟨hroot, hcheck⟩ := (Bool.and_eq_true _ _).mp hcheck
        obtain ⟨hfirst, hcheck⟩ := (Bool.and_eq_true _ _).mp hcheck
        obtain ⟨hstyle, hrender⟩ := (Bool.and_eq_true _ _).mp hcheck
        obtain ⟨e, he, hbranches⟩ := (Option.any_eq_true _ _).mp hfirst
        obtain ⟨eb, heb, hforbidden⟩ := (Option.any_eq_true _ _).mp hstyle
        exact ⟨c, e, eb, rfl, beq_iff_eq.mp hroot, he, of_decide_eq_true hbranches, heb,
          hforbidden, beq_iff_eq.mp hrender⟩

end Render

end Templating
