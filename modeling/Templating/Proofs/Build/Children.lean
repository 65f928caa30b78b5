import Templating.Proofs.Build.Growing

/-!
**Children as a tree is built.**

An event changes the children of open elements only.  A leaf is added behind the others, and so is
an element when it is closed, unless it is forbidden or a branch; a branch takes the leaves in front
of it away instead.  An element that is closed loses the spaces at its end, unless blanks are kept.
So where they are kept, an element loses nothing but leaves behind the last element in it, and those
to a branch only.  Once it is closed it does not change any more.

Main definitions:

* `Templating.Build.Builder.Changes` — what an event can do to the children of an element;
* `Templating.Tree.KeepsContent` — elements lose nothing but leaves that a branch takes away.

Main results:

* `Templating.Build.Builder.children?_openElement`,
  `Templating.Build.Builder.children?_closeInnermost` — **what tags do to children**, exactly;
* `Templating.Build.Builder.exists_changes_step` — what an event does to children;
* `Templating.Build.Builder.keepsContent_foldl` — **while blanks are kept, content is kept**;
* `Templating.Build.Builder.children?_foldl` — **an element that is closed keeps its children**.
-/

set_option autoImplicit false

namespace Templating

open Build Build.Builder

/-! ### Elements among children -/

namespace Tree

variable {t t' t'' : Tree} {ids ids' : List NodeId}

theorem isLeaf_of_alike (h : t.Alike Node.frame t') (k : NodeId) : isLeaf t' k = isLeaf t k := by
  unfold isLeaf
  cases he : t.element? k with
  | some e =>
      obtain ⟨e', he', -⟩ := h.element? Node.element?_frame he
      rw [he']
      rfl
  | none =>
      cases he' : t'.element? k with
      | none => rfl
      | some e' =>
          obtain ⟨e, hsome, -⟩ := h.symm.element? Node.element?_frame he'
          rw [he] at hsome
          cases hsome

theorem upToElement_concat (t : Tree) (ids : List NodeId) (c : NodeId) :
    t.upToElement (ids ++ [c]) = if isLeaf t c then t.upToElement ids else ids ++ [c] :=
  List.rdropWhile_concat _ ids c

theorem upToElement_congr (h : ∀ c ∈ ids, isLeaf t' c = isLeaf t c) :
    t'.upToElement ids = t.upToElement ids := by
  induction ids using List.reverseRecOn with
  | nil => rfl
  | append_singleton ids c ih =>
      rw [upToElement_concat, upToElement_concat, h c (by simp),
        ih fun c hc => h c (List.mem_append_left _ hc)]

/-- Nodes that end with an element are not cut when others follow. -/
theorem prefix_upToElement_of_grows (hgrows : t.Grows t') (h : t.upToElement ids <+: ids') :
    t.upToElement ids <+: t'.upToElement ids' := by
  obtain ⟨rest, rfl⟩ := h
  -- what is behind the element goes one by one
  induction rest using List.reverseRecOn with
  | nil =>
      have hself : t'.upToElement (t.upToElement ids) = t.upToElement ids := by
        refine List.rdropWhile_eq_self_iff.mpr fun hne hleaf => ?_
        have hlast := List.rdropWhile_last_not (isLeaf t) ids hne
        rw [isLeaf, Option.isNone_iff_eq_none] at hlast
        obtain ⟨e, he⟩ := Option.ne_none_iff_exists'.mp hlast
        obtain ⟨e', he', -⟩ := hgrows.element? he
        rw [isLeaf, Option.isNone_iff_eq_none] at hleaf
        exact absurd (he'.symm.trans hleaf) (Option.some_ne_none e')
      rw [List.append_nil, hself]
  | append_singleton rest c ih =>
      rw [← List.append_assoc, upToElement_concat]
      split
      · exact ih
      · exact (List.prefix_append _ rest).trans (List.prefix_append _ [c])

/-- **Elements lose nothing but leaves that a branch takes away.** -/
structure KeepsContent (t t' : Tree) : Prop where
  /-- All nodes stay: leaves as they are, and elements as far as they are known when opened. -/
  grows : t.Grows t'
  /-- Children up to the last element stay in front; all of them do, unless one of the elements
  inside is a branch. -/
  children : ∀ k ids, t.children? k = some ids → ∃ ids', t'.children? k = some ids' ∧
    t.upToElement ids <+: ids' ∧
      ((∀ id e, t'.element? id = some e → e.parent = some k → e.isBranch = false) → ids <+: ids')

namespace KeepsContent

theorem refl (t : Tree) : t.KeepsContent t where
  grows := .refl t
  children _ ids hids := ⟨ids, hids, t.prefix_upToElement ids, fun _ => List.prefix_rfl⟩

theorem trans (h : t.KeepsContent t') (h' : t'.KeepsContent t'') : t.KeepsContent t'' where
  grows := h.grows.trans h'.grows
  children k ids hids := by
    obtain ⟨ids', hids', hcut, hall⟩ := h.children k ids hids
    obtain ⟨ids'', hids'', hcut', hall'⟩ := h'.children k ids' hids'
    refine ⟨ids'', hids'', (prefix_upToElement_of_grows h.grows hcut).trans hcut', fun hnone => ?_⟩
    refine (hall fun id e he hparent => ?_).trans (hall' hnone)
    obtain ⟨e', he', hsame⟩ := h'.grows.element? he
    have hbranch : e'.isBranch = e.isBranch := (congrArg Element.isBranch hsame :)
    rw [← hbranch]
    exact hnone id e' he' ((congrArg Element.parent hsame :).trans hparent)

end KeepsContent

end Tree

/-! ### What tags do -/

namespace Build.Builder

variable {src : Source} {b b' : Builder} {id k : NodeId} {rest ids ids' : List NodeId} {e : Element}

theorem received_congr {t t' : Tree} {e' : Element}
    (hleaf : ∀ c ∈ ids, isLeaf t' c = isLeaf t c)
    (hsame : e'.core.unclosed = e.core.unclosed) :
    received t' id e' ids = received t id e ids := by
  have hforbidden : e'.forbidden = e.forbidden := (congrArg Element.forbidden hsame :)
  have hbranch : e'.isBranch = e.isBranch := (congrArg Element.isBranch hsame :)
  unfold received
  rw [hforbidden, hbranch, Tree.upToElement_congr hleaf]

theorem trimmed_of_inPre (hpre : b.inPre = true) (e : Element) : b.trimmed e = e := by
  simp [trimmed, hpre]

/-- **What finishing an element does to children**: those of its parent are changed, and all others
stay, but for its own when blanks are dropped. -/
theorem Finished.children?_eq {t : Tree} (h : Finished src b id e t b')
    (he : b.tree.element? id = some e) (hk : id ≠ k ∨ b.inPre = true) :
    b'.tree.children? k = (b.tree.children? k).map fun ids =>
      if b.opened.head? = some k then received b.tree id e ids else ids := by
  have hpre : id = k → b.inPre = true := fun hid => hk.resolve_left fun hne => hne hid
  have hcompleted : (b.tree.modifyElement id fun _ => b.completed src id e).children? k =
      b.tree.children? k := by
    refine Tree.children?_modifyElement_of_eq fun hid e₀ he₀ => ?_
    obtain rfl : e = e₀ := by simpa [← hid, he] using he₀
    have hchildren : (b.completed src id e).children = (b.trimmed e).children :=
      (congrArg Element.children (unclosed_completed src b id e) :)
    rw [hchildren, trimmed_of_inPre (hpre hid)]
  have hlast : b'.tree.children? k = t.children? k := by
    rw [h.tree]
    refine Tree.children?_modifyElement_of_eq fun hid e₀ _ => ?_
    rw [trimmed_of_inPre (b := { b with tree := t }) (hpre hid)]
  have hreceived : ∀ ids, received (b.tree.modifyElement id fun _ => b.completed src id e) id
      (b.completed src id e) ids = received b.tree id e ids := fun ids =>
    received_congr (fun c _ => Tree.isLeaf_of_alike (alike_completed src b he) c)
      (frame_completed src b id e)
  simp only [hlast, h.attached.children?_eq k, hcompleted, hreceived]

/-- An element that is finished loses some at its end, at most. -/
theorem Finished.exists_shortened {t : Tree} (h : Finished src b id e t b')
    (he : b.tree.element? id = some e) (hhead : b.opened.head? ≠ some id) :
    ∃ ids, b'.tree.children? id = some ids ∧ ids <+: e.children := by
  have hcompleted : (b.tree.modifyElement id fun _ => b.completed src id e).element? id =
      some (b.completed src id e) := by
    rw [Tree.element?_modifyElement, if_pos rfl, he]
    rfl
  obtain ⟨e₁, he₁, -⟩ := h.attached.sameCore.element? Node.element?_core hcompleted
  have hattached := h.attached.children?_eq id
  rw [Tree.children?_of_element? he₁, Tree.children?_of_element? hcompleted, Option.map_some,
    if_neg hhead] at hattached
  have hchildren : (b.completed src id e).children = (b.trimmed e).children :=
    (congrArg Element.children (unclosed_completed src b id e) :)
  refine ⟨({ b with tree := t }.trimmed e₁).children, ?_, ?_⟩
  · rw [h.tree, Tree.children?, Tree.element?_modifyElement, if_pos rfl, he₁]
    rfl
  · refine (prefix_trimmed _ e₁).trans ?_
    rw [Option.some.inj hattached, hchildren]
    exact b.prefix_trimmed e

/-- An end tag finishes the innermost element, after its end was recorded. -/
theorem exists_closeInnermost_eq (src : Source) (hopened : b.opened = id :: rest)
    (he : b.tree.element? id = some e) (stop : Nat) :
    ∃ t e', t.element? id = some e' ∧ e'.core = e.core ∧ b.tree.SameCore t ∧
      (∀ k, t.children? k = b.tree.children? k) ∧
      b.closeInnermost src stop = { b with tree := t, opened := rest }.finishElement src id := by
  simp only [closeInnermost, hopened]
  split
  · refine ⟨_, { e with stop := some stop }, ?_, rfl, b.sameCore_stop id stop, fun k => ?_, rfl⟩
    · rw [Tree.element?_modifyElement, if_pos rfl, he]
      rfl
    · exact Tree.children?_modifyElement_of_eq fun _ _ _ => rfl
  · exact ⟨b.tree, e, he, rfl, .refl b.tree, fun _ => rfl, rfl⟩

/-- **What an end tag does to children**: those of the parent are changed, and all others stay, but
for those of the element itself when blanks are dropped. -/
theorem children?_closeInnermost (src : Source) (hopened : b.opened = id :: rest)
    (he : b.tree.element? id = some e) (stop : Nat) (hk : id ≠ k ∨ b.inPre = true) :
    (b.closeInnermost src stop).tree.children? k = (b.tree.children? k).map fun ids =>
      if rest.head? = some k then received b.tree id e ids else ids := by
  obtain ⟨t, e', he', hsame, hcore, hchildren, heq⟩ := exists_closeInnermost_eq src hopened he stop
  obtain ⟨t', hfinished⟩ := finished_finishElement src { b with tree := t, opened := rest } he'
  have hreceived : ∀ ids, received t id e' ids = received b.tree id e ids := fun ids =>
    received_congr (fun c _ => Tree.isLeaf_of_alike (hcore.coarsen Node.frame_core) c)
      (congrArg Element.unclosed hsame)
  rw [heq, hfinished.children?_eq he' hk]
  simp only [hchildren, hreceived]

theorem exists_shortened_closeInnermost (src : Source) (ho : b.Ordered)
    (hopened : b.opened = id :: rest) (he : b.tree.element? id = some e) (stop : Nat) :
    ∃ ids, (b.closeInnermost src stop).tree.children? id = some ids ∧ ids <+: e.children := by
  obtain ⟨-, -, -, hrest⟩ := ho.exists_innermost hopened
  have hhead : rest.head? ≠ some id := fun hhead =>
    Nat.lt_irrefl id (hrest id (List.mem_of_mem_head? hhead))
  obtain ⟨t, e', he', -, -, hchildren, heq⟩ := exists_closeInnermost_eq src hopened he stop
  obtain ⟨t', hfinished⟩ := finished_finishElement src { b with tree := t, opened := rest } he'
  have hsame := hchildren id
  rw [Tree.children?_of_element? he', Tree.children?_of_element? he] at hsame
  rw [heq, ← Option.some.inj hsame]
  exact hfinished.exists_shortened he' hhead

theorem alike_closeInnermost (src : Source) (ho : b.Ordered) (hopened : b.opened = id :: rest)
    (stop : Nat) : b.tree.Alike Node.frame (b.closeInnermost src stop).tree ∧
      (b.closeInnermost src stop).opened = rest := by
  obtain ⟨e, he, -⟩ := ho.exists_innermost hopened
  obtain ⟨t, e', he', -, hcore, -, heq⟩ := exists_closeInnermost_eq src hopened he stop
  obtain ⟨t', hfinished⟩ := finished_finishElement src { b with tree := t, opened := rest } he'
  rw [heq]
  exact ⟨(hcore.coarsen Node.frame_core).trans (hfinished.alike he'), hfinished.opened⟩

section Open

variable (src) (b) (tag : String) (attributes : List Markup.Attribute) (start stop : Nat)

theorem children_created : (b.created src tag attributes start stop).children = [] := by
  obtain ⟨_, _, _, _, _, _, _, _, hcreated, -, -⟩ :=
    unopened_created src b tag attributes start stop
  generalize b.created src tag attributes start stop = e at hcreated
  exact (congrArg Element.children hcreated :)

theorem parent_created : (b.created src tag attributes start stop).parent = b.opened.head? := by
  obtain ⟨_, _, _, _, _, _, _, _, hcreated, -, -⟩ :=
    unopened_created src b tag attributes start stop
  generalize b.created src tag attributes start stop = e at hcreated
  exact (congrArg Element.parent hcreated :)

/-- What a start tag does to a tree: it grows by an element. -/
theorem grows_openElement (unary : Bool) :
    b.tree.Grows (b.openElement src tag attributes unary start stop).tree ∧
      (∃ e, (b.openElement src tag attributes unary start stop).tree.element? b.tree.size = some e ∧
        e.core.unclosed = (b.created src tag attributes start stop).core.unclosed) ∧
      (b.openElement src tag attributes unary start stop).opened =
        if unary then b.opened else b.tree.size :: b.opened := by
  have hagrees := agrees_openElement src b tag attributes start stop
  have hgrows := grows_enter src b (b.created src tag attributes start stop)
  have hnew := element?_enter src b (b.created src tag attributes start stop) b.tree.size
  rw [if_pos rfl, ← hagrees.tree] at hnew
  rw [← hagrees.tree] at hgrows
  cases unary with
  | false => exact ⟨hgrows, ⟨_, hnew, rfl⟩, hagrees.opened⟩
  | true =>
      obtain ⟨t, hfinished⟩ := finished_finishElement src
        { b.openElement src tag attributes false start stop with opened := b.opened } hnew
      have halike := hfinished.alike hnew
      rw [openElement_unary]
      exact ⟨hgrows.alike halike, halike.element? Node.element?_frame hnew, hfinished.opened⟩

variable {b}

/-- **What a start tag does to children**: nothing, unless the element is closed at once. -/
theorem children?_openElement (ho : b.Ordered) (hs : b.Sealed) (unary : Bool)
    (hk : b.tree.size ≠ k ∨ b.inPre = true) :
    (b.openElement src tag attributes unary start stop).tree.children? k =
      if k = b.tree.size then some []
      else (b.tree.children? k).map fun ids =>
        if unary = true ∧ b.opened.head? = some k then
          received b.tree b.tree.size (b.created src tag attributes start stop) ids
        else ids := by
  have hagrees := agrees_openElement src b tag attributes start stop
  have helement : ∀ k, (b.openElement src tag attributes false start stop).tree.element? k =
      if k = b.tree.size then some (b.created src tag attributes start stop)
      else b.tree.element? k := by
    intro k
    rw [hagrees.tree, element?_enter]
  have hopen : ∀ k, (b.openElement src tag attributes false start stop).tree.children? k =
      if k = b.tree.size then some [] else b.tree.children? k := by
    intro k
    rw [Tree.children?, helement]
    split
    · rw [Option.map_some, children_created]
    · rfl
  cases unary with
  | false => simp [hopen]
  | true =>
      have hnew := (helement b.tree.size).trans (if_pos rfl)
      obtain ⟨t, hfinished⟩ := finished_finishElement src
        { b.openElement src tag attributes false start stop with opened := b.opened } hnew
      have hpre : (b.openElement src tag attributes false start stop).inPre =
          (b.inPre || src.settings.tags.isPre (b.created src tag attributes start stop).tag) :=
        hagrees.inPre
      rw [openElement_unary, hfinished.children?_eq hnew (hk.imp_right fun h => by simp [hpre, h])]
      simp only [hopen, true_and]
      by_cases hsize : k = b.tree.size
      · have hhead : b.opened.head? ≠ some k := fun hhead =>
          Nat.ne_of_lt (ho.stacked.mem_lt k (List.mem_of_mem_head? hhead)) hsize
        simp only [if_pos hsize, if_neg hhead, Option.map_some]
      · -- children are nodes in use, so the new element is none of them
        simp only [if_neg hsize]
        cases hids : b.tree.element? k with
        | none => simp [Tree.children?, hids]
        | some ek =>
            have hleaf : ∀ c ∈ ek.children, isLeaf (b.openElement src tag attributes false start
                stop).tree c = isLeaf b.tree c := by
              intro c hc
              obtain ⟨n, hn, -⟩ := hs.child k ek hids c hc
              rw [isLeaf, helement, if_neg (Nat.ne_of_lt (Tree.lt_size_of_node? hn))]
              rfl
            rw [Tree.children?_of_element? hids, Option.map_some, Option.map_some,
              received_congr hleaf rfl]

end Open

/-- **What a leaf does to children**: its parent gets it as its last child. -/
theorem children?_append {parent : NodeId} {n : Node} (hn : b.Admits src n) (k : NodeId) :
    (b.append parent n).tree.children? k = (b.tree.children? k).map fun ids =>
      if parent = k then ids ++ [b.tree.size] else ids := by
  have hpush : (b.tree.push n).children? k = b.tree.children? k := by
    rw [Tree.children?, Tree.children?, Tree.element?_push]
    split
    · rename_i hk
      have hnone : b.tree.element? k = none := by
        rw [Option.eq_none_iff_forall_ne_some]
        intro e he
        exact Nat.lt_irrefl _ (hk ▸ Tree.lt_size_of_element? he)
      cases n with
      | element => exact hn.elim
      | expression | text => rw [hnone]; rfl
    · rfl
  rw [← hpush]
  exact Tree.children?_modifyElement (g := (· ++ [b.tree.size])) (fun _ => rfl) k

/-! ### Events -/

/-- **What an event can do** to the children `ids` of the element `k`. -/
inductive Changes (b b' : Builder) (k : NodeId) (ids : List NodeId) : List NodeId → Prop
  | same : Changes b b' k ids ids
  | added (id : NodeId) (hk : k ∈ b.opened) : Changes b b' k ids (ids ++ [id])
  | cut {id : NodeId} {e : Element} (hk : k ∈ b.opened) (he : b'.tree.element? id = some e)
      (hparent : e.parent = some k) (hbranch : e.isBranch = true) :
      Changes b b' k ids (b.tree.upToElement ids)
  | trimmed {ids' : List NodeId} (hk : k ∈ b.opened) (hpre : b.inPre = false)
      (hids : ids' <+: ids) : Changes b b' k ids ids'

/-- An element is received in one of these ways. -/
theorem changes_received {e' : Element} (hk : k ∈ b.opened)
    (he' : b'.tree.element? id = some e') (hsame : e'.core.unclosed = e.core.unclosed)
    (hparent : e.parent = some k) : Changes b b' k ids (received b.tree id e ids) := by
  unfold received
  split
  · exact .same
  · split
    · rename_i hbranch
      exact .cut hk he' ((congrArg Element.parent hsame :).trans hparent)
        ((congrArg Element.isBranch hsame :).trans hbranch)
    · exact .added id hk

/-- **What an event does to children.** -/
theorem exists_changes_step (src : Source) (ho : b.Ordered) (hs : b.Sealed) (event : Markup.Event)
    (hids : b.tree.children? k = some ids) :
    ∃ ids', (b.step src event).tree.children? k = some ids' ∧
      Changes b (b.step src event) k ids ids' := by
  obtain ⟨ek, hek, -⟩ := Option.map_eq_some_iff.mp hids
  have hsize : b.tree.size ≠ k := Ne.symm (Nat.ne_of_lt (Tree.lt_size_of_element? hek))
  rcases step_cases src b event with hagrees | ⟨parent, rest, n, hopened, hn, heq⟩ |
    ⟨tag, attributes, unary, start, stop, heq⟩ | ⟨id, rest, stop, hopened, heq⟩
  · exact ⟨ids, by rw [hagrees.tree, hids], .same⟩
  · rw [heq]
    refine ⟨_, by rw [children?_append hn, hids, Option.map_some], ?_⟩
    split
    · rename_i hk
      exact .added _ (by rw [hopened, hk]; exact List.mem_cons_self)
    · exact .same
  · obtain ⟨-, ⟨e', he', hsame⟩, -⟩ := grows_openElement src b tag attributes start stop unary
    have hchildren := children?_openElement src tag attributes start stop ho hs unary (.inl hsize)
    rw [if_neg (Ne.symm hsize), hids, Option.map_some] at hchildren
    rw [heq]
    refine ⟨_, hchildren, ?_⟩
    split
    · rename_i hhead
      exact changes_received (List.mem_of_mem_head? hhead.2) he' hsame
        ((parent_created src b tag attributes start stop).trans hhead.2)
    · exact .same
  · obtain ⟨e, he, hparent, -⟩ := ho.exists_innermost hopened
    rw [heq]
    by_cases hk : id ≠ k ∨ b.inPre = true
    · have hchildren := children?_closeInnermost src hopened he stop hk
      rw [hids, Option.map_some] at hchildren
      refine ⟨_, hchildren, ?_⟩
      split
      · rename_i hhead
        have halike := (alike_closeInnermost src ho hopened stop).1
        obtain ⟨e', he', hsame⟩ := halike.element? Node.element?_frame he
        refine changes_received ?_ he' hsame (hparent.trans hhead)
        rw [hopened]
        exact List.mem_cons_of_mem id (List.mem_of_mem_head? hhead)
      · exact .same
    · -- blanks are dropped at the end of the element itself
      obtain ⟨hid, hpre⟩ := not_or.mp hk
      obtain rfl : id = k := Classical.not_not.mp hid
      obtain ⟨ids', hids', hshort⟩ := exists_shortened_closeInnermost src ho hopened he stop
      rw [Tree.children?_of_element? he] at hids
      refine ⟨ids', hids', .trimmed ?_ (by simpa using hpre) ?_⟩
      · rw [hopened]
        exact List.mem_cons_self
      · rw [← Option.some.inj hids]
        exact hshort

/-- An event lets the tree grow, and opens no element but a new one. -/
theorem grows_step (src : Source) (ho : b.Ordered) (event : Markup.Event) :
    b.tree.Grows (b.step src event).tree ∧
      ∀ k ∈ (b.step src event).opened, k ∈ b.opened ∨ k = b.tree.size := by
  rcases step_cases src b event with hagrees | ⟨parent, rest, n, -, -, heq⟩ |
    ⟨tag, attributes, unary, start, stop, heq⟩ | ⟨id, rest, stop, hopened, heq⟩
  · exact ⟨hagrees.tree ▸ .refl b.tree, fun k hk => .inl (hagrees.opened ▸ hk)⟩
  · rw [heq]
    exact ⟨b.grows_append parent n, fun k hk => .inl hk⟩
  · obtain ⟨hgrows, -, hopened⟩ := grows_openElement src b tag attributes start stop unary
    rw [heq, hopened]
    refine ⟨hgrows, fun k hk => ?_⟩
    split at hk
    · exact .inl hk
    · exact (List.mem_cons.mp hk).symm
  · obtain ⟨halike, hrest⟩ := alike_closeInnermost src ho hopened stop
    rw [heq, hrest, hopened]
    exact ⟨.of_alike halike, fun k hk => .inl (List.mem_cons_of_mem id hk)⟩

/-! ### Runs -/

/-- While blanks are kept an event takes nothing away, but leaves for a branch. -/
theorem keepsContent_step (src : Source) (ho : b.Ordered) (hs : b.Sealed) (hpre : b.inPre = true)
    (event : Markup.Event) : b.tree.KeepsContent (b.step src event).tree where
  grows := (grows_step src ho event).1
  children k ids hids := by
    obtain ⟨ids', hids', hchanges⟩ := exists_changes_step src ho hs event hids
    have hcut := b.tree.prefix_upToElement ids
    refine ⟨ids', hids', ?_⟩
    cases hchanges with
    | same => exact ⟨hcut, fun _ => List.prefix_rfl⟩
    | added id =>
        exact ⟨hcut.trans (List.prefix_append ids [id]), fun _ => List.prefix_append ids [id]⟩
    | cut _ he hparent hbranch =>
        refine ⟨List.prefix_rfl, fun hnone => ?_⟩
        rw [hnone _ _ he hparent] at hbranch
        cases hbranch
    | trimmed _ hnot =>
        rw [hpre] at hnot
        cases hnot

/-- **While blanks are kept, content is kept.** -/
theorem keepsContent_foldl (src : Source) (hb : b.Ordered ∧ b.Sealed) (events : List Markup.Event)
    (hpre : ∀ seen, seen <+: events → seen ≠ events →
      (seen.foldl (step src) b).inPre = true) :
    b.tree.KeepsContent (events.foldl (step src) b).tree := by
  induction events generalizing b with
  | nil => exact .refl b.tree
  | cons event events ih =>
      have hstart : b.inPre = true := hpre [] (List.nil_prefix) (by simp)
      refine (keepsContent_step src hb.1 hb.2 hstart event).trans ?_
      refine ih ((invariant_sealed src).step hb event) fun seen hseen hne => ?_
      exact hpre (event :: seen) (List.cons_prefix_cons.mpr ⟨rfl, hseen⟩) (by simpa using hne)

/-- **An element that is closed keeps its children**, whatever comes. -/
theorem children?_foldl (src : Source) (hb : b.Ordered ∧ b.Sealed) (hk : k ∉ b.opened)
    (hids : b.tree.children? k = some ids) (events : List Markup.Event) :
    (events.foldl (step src) b).tree.children? k = some ids := by
  induction events generalizing b with
  | nil => exact hids
  | cons event events ih =>
      obtain ⟨ids', hids', hchanges⟩ := exists_changes_step src hb.1 hb.2 event hids
      have hclosed : k ∉ (b.step src event).opened := by
        intro hmem
        obtain ⟨e, he, -⟩ := Option.map_eq_some_iff.mp hids
        rcases (grows_step src hb.1 event).2 k hmem with hopened | hsize
        · exact hk hopened
        · exact Nat.ne_of_lt (Tree.lt_size_of_element? he) hsize
      cases hchanges with
      | same => exact ih ((invariant_sealed src).step hb event) hclosed hids'
      | added _ hopened => exact absurd hopened hk
      | cut hopened => exact absurd hopened hk
      | trimmed hopened => exact absurd hopened hk

end Build.Builder

end Templating
