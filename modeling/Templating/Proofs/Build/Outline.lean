import Templating.Proofs.Build.Chains
import Templating.Proofs.Build.Quiet
import Templating.Proofs.Markup.Balance
import Templating.Proofs.Tree.Content

/-!
**Nothing is lost without a report.**

The outline of a template is what its tokens show, one after another: the name of every start tag,
and every text that does not consist of spaces.  While a tree is built without a report, what is
said so far is the outline of the tokens so far, although elements are attached to parents and to
earlier conditionals, and although spaces are dropped in several places.

Main definitions:

* `Templating.Build.shown`, `Templating.Build.outline` — what a token and what a list of tokens
  show;
* `Templating.Build.Builder.Outlined` — what is said so far, without reports.

Main results:

* `Templating.Tree.Stacked.said_joined`, `Templating.Build.Builder.Finished.said_eq` — attaching and
  finishing an element leave what is said;
* `Templating.Build.Builder.Outlined.addToken` — **a token says what it shows**;
* `Templating.Build.Builder.Outlined.foldl` — the events of a template say its outline;
* `Templating.Build.exists_parse_walk_eq_outline` — a template without reports is shown in full.
-/

set_option autoImplicit false

namespace Templating

open Build Build.Builder

/-! ### What tokens show -/

namespace Build

/-- What a text shows in an element with the given tag: references stand for their characters,
unless the element holds program text. -/
def textItem? (tag : Option String) (text : String) : Option Item :=
  Item.ofText?
    (if tag.any keepsReferences then text else String.ofList (Entity.decodeContent text.toList))

/-- What a token shows inside of the given elements, innermost first. -/
def shown (stack : List String) : Markup.Token → List Item
  | .startTag name _ _ _ _ => [.tag name]
  | .endTag .. => []
  | .text text _ _ => (textItem? stack.head? text).toList
  | .comment .. => []
  | .doctype .. => []

/-- What tokens show one after another. -/
def outline : (stack : List String) → List Markup.Token → List Item
  | _, [] => []
  | stack, t :: ts => shown stack t ++ outline ((t.replay stack).getD []) ts

theorem ofText?_eq_none_iff (s : String) :
    Item.ofText? s = none ↔ Text.isBlank s.toList = true := by
  rw [← Text.trim_eq_nil_iff, Item.ofText?]
  split
  · rename_i h
    simp [h]
  · rename_i h
    simp [h]

/-- A text of spaces shows nothing, whatever it is in. -/
theorem textItem?_of_isBlank (tag : Option String) {text : String}
    (h : Text.isBlank text.toList = true) : textItem? tag text = none := by
  have hplain : ¬ text.toList.contains '&' = true := by
    rw [List.contains_iff_mem]
    intro hmem
    have hspace := List.all_eq_true.mp h '&' hmem
    revert hspace
    decide
  have hdecode : String.ofList (Entity.decodeContent text.toList) = text := by
    rw [Entity.decodeContent, if_neg hplain, String.ofList_toList]
  rw [textItem?, hdecode, ite_self]
  exact (ofText?_eq_none_iff text).mpr h

/-- **What is left of a text** shows the same as the text. -/
theorem ofText?_normalizeText {src : Source} (hsrc : src.settings.whitespace = .preserve)
    (inPre : Bool) (tag : String) (first : Bool) (text : String) :
    Item.ofText? (normalizeText src inPre tag first text) = textItem? (some tag) text := by
  have hcollapse : ¬ (!inPre && decide (src.settings.whitespace = .condense)) = true := by
    simp [hsrc]
  unfold normalizeText
  dsimp only
  rw [if_neg hcollapse]
  split
  · simp only [textItem?, Option.any_some]
  · rename_i h
    have hblank : Text.isBlank text.toList = true := by
      cases hb : Text.isBlank text.toList <;> simp [hb] at h ⊢
    rw [textItem?_of_isBlank _ hblank, ofText?_eq_none_iff, hsrc]
    split
    · decide
    · dsimp only
      split <;> decide

end Build

/-! ### What is dropped -/

namespace Build.Builder

/-- What is dropped at the end of a list is the end of the list. -/
theorem reverse_dropWhile_append {α : Type} (f : α → Bool) (l : List α) :
    l = (l.reverse.dropWhile f).reverse ++ (l.reverse.takeWhile f).reverse := by
  rw [← List.reverse_append, List.takeWhile_append_dropWhile, List.reverse_reverse]

theorem isHidden_of_isSpaceText {t : Tree} {id : NodeId} (h : isSpaceText t id = true) :
    t.IsHidden id := by
  unfold isSpaceText at h
  split at h
  · rename_i n hn
    refine ⟨_, hn, rfl, ?_⟩
    have htext : n.text = " " := by simpa using h
    simp only [Node.item?, htext]
    split <;> rfl
  · cases h

/-- A leaf before a branch that is dropped without a report shows nothing. -/
theorem isHidden_of_droppedText {t : Tree} {id : NodeId} {n : Node} (hn : t.node? id = some n)
    (hleaf : isLeaf t id = true) (h : droppedText t id = []) : t.IsHidden id := by
  have hnone : n.element? = none := by simpa [isLeaf, Tree.element?, hn] using hleaf
  have htext : n.text?.getD "" = " " := by
    simp only [droppedText, hn] at h
    by_contra hne
    simp [hne] at h
  refine ⟨n, hn, hnone, ?_⟩
  cases n with
  | element => cases hnone
  | expression n =>
      have htext : n.text = " " := htext
      simp only [Node.item?, htext]
      rfl
  | text n =>
      have htext : n.text = " " := htext
      simp only [Node.item?, htext]
      split <;> rfl

theorem hidden_trimmed (b : Builder) (e : Element) :
    (b.trimmed e).tag = e.tag ∧ (b.trimmed e).links.further = e.links.further ∧
      ∃ dropped, e.children = (b.trimmed e).children ++ dropped ∧
        ∀ c ∈ dropped, b.tree.IsHidden c := by
  unfold trimmed
  split
  · exact ⟨rfl, rfl, [], by simp, by simp⟩
  · refine ⟨rfl, rfl, _, reverse_dropWhile_append _ _, ?_⟩
    intro c hc
    exact isHidden_of_isSpaceText (List.mem_takeWhile_imp (List.mem_reverse.mp hc))

theorem fades_trimmed (b : Builder) (id : NodeId) (lo hi : Nat) :
    b.tree.Fades (b.tree.modifyElement id b.trimmed) lo hi :=
  Tree.Fades.modifyElement fun e _ => b.hidden_trimmed e

theorem fades_completed (src : Source) (b : Builder) {id : NodeId} {e : Element}
    (he : b.tree.element? id = some e) (lo hi : Nat) :
    b.tree.Fades (b.tree.modifyElement id fun _ => b.completed src id e) lo hi := by
  refine Tree.Fades.modifyElement fun e' he' => ?_
  obtain rfl : e = e' := by simpa [he] using he'
  have hunclosed := unclosed_completed src b id e
  have htag : (b.completed src id e).tag = (b.trimmed e).tag := (congrArg Element.tag hunclosed :)
  have hfurther : (b.completed src id e).links.further = (b.trimmed e).links.further :=
    (congrArg (fun e : Element => e.links.further) hunclosed :)
  have hchildren : (b.completed src id e).children = (b.trimmed e).children :=
    (congrArg Element.children hunclosed :)
  rw [htag, hfurther, hchildren]
  exact b.hidden_trimmed e

end Build.Builder

/-! ### Attaching an element -/

namespace Tree

/-- **Attaching a finished element** leaves what is said, since it comes last. -/
theorem Stacked.said_joined {t t' : Tree} {opened : List NodeId} {id : Nat} {e : Element}
    (h : Stacked t opened id) (hid : Forest t opened.head? id t.size [id])
    (he : t.element? id = some e) (hroot : t.root = some 0)
    (hbranches : ∀ k e, t.element? k = some e → e.condition.isSome = true → e.branches ≠ [])
    (hjoined : Joined t opened id e t') :
    t'.said opened t.size = t.said opened id ++ t.content [id] := by
  have hlt := (hid.mem_interval id (by simp)).2
  cases hjoined with
  | self hopened hroot' =>
      obtain rfl : id = 0 := by
        rw [hroot] at hroot'
        simpa using hroot'.symm
      subst hopened
      simp only [said, if_neg (Nat.ne_of_gt hlt), if_true, List.nil_append]
  | child hopened _ _ =>
      subst hopened
      exact h.said_addChild hid le_rfl
  | @branch parent prev rest pe first hopened _ _ hparent hprev hfirst hcondition hdropped =>
      subst hopened
      have hs := shrinks_modifyElement t parent fun e _ => shrinks_dropLeaves t e
      have hsize := t.size_modifyElement parent (dropLeaves t)
      -- first the leaves at the end of the parent are dropped, which show nothing
      have hfades : ∀ lo hi, Fades t (t.modifyElement parent (dropLeaves t)) lo hi := by
        intro lo hi
        refine Fades.modifyElement fun e' he' => ?_
        obtain rfl : pe = e' := by simpa [hparent] using he'
        refine ⟨rfl, rfl, _, reverse_dropWhile_append _ _, fun c hc => ?_⟩
        have hc := List.mem_reverse.mp hc
        have hchild : c ∈ pe.children := List.mem_reverse.mp (List.takeWhile_subset _ hc)
        cases h with
        | @cons _ _ _ l hlinks _ _ hforest _ =>
            rw [links?_of_element? hparent] at hlinks
            cases hlinks
            have hmem := hforest.mem_interval c hchild
            obtain ⟨n, hn⟩ : ∃ n, t.node? c = some n := by
              refine Option.ne_none_iff_exists'.mp fun hnone => ?_
              have hle : t.size ≤ c := by simpa [node?, size] using hnone
              omega
            exact isHidden_of_droppedText hn (List.mem_takeWhile_imp hc) (hdropped c hc)
      have hparent' : (t.modifyElement parent (dropLeaves t)).element? parent =
          some (dropLeaves t pe) := by
        rw [element?_modifyElement, if_pos rfl, hparent]
        rfl
      have hne : first.branches ≠ [] := by
        obtain ⟨e₀, he₀, rfl⟩ := exists_of_element?_modifyElement hfirst
        split at hcondition
        · rename_i hk
          rw [if_pos hk]
          exact hbranches prev e₀ he₀ hcondition
        · rename_i hk
          rw [if_neg hk]
          exact hbranches prev e₀ he₀ hcondition
      obtain ⟨eid, heid⟩ : ∃ eid,
          (t.modifyElement parent (dropLeaves t)).element? id = some eid := by
        rw [element?_modifyElement, he]
        split
        · exact ⟨_, rfl⟩
        · exact ⟨_, rfl⟩
      obtain ⟨init, hinit⟩ := List.getLast?_eq_some_iff.mp hprev
      -- then the last child gets the branch
      have hsaid := (h.shrink (hs 0 id)).said_withBranch (hid.shrink (hs id t.size))
        (by omega) hparent' hinit hfirst hne heid e.elseCondition
      rw [hsaid, h.said_fades (hfades 0 id) (by omega) (by omega),
        hid.content_fades (hfades id t.size) le_rfl (by omega)]
  | @root root first hopened hroot' hne hfirst hcondition _ =>
      subst hopened
      obtain rfl : root = 0 := by
        rw [hroot] at hroot'
        simpa using hroot'.symm
      have hpos : 0 < id := Nat.pos_of_ne_zero fun h => hne h.symm
      cases h with
      | nil h =>
          have hforest : Forest t none 0 id ([] ++ [0]) := (h hpos).1
          have hcontent := hforest.content_withBranch hfirst (hbranches 0 first hfirst hcondition)
            hid he le_rfl e.elseCondition
          simp only [said, if_neg (Nat.ne_of_gt hpos), if_neg (show t.size ≠ 0 by omega)]
          exact hcontent

end Tree

/-! ### What is said so far -/

/-- The tag of an element, and whether it is forbidden. -/
def Tree.label? (t : Tree) (id : NodeId) : Option (String × Bool) :=
  (t.element? id).map fun e => (e.tag, e.forbidden)

/-- Labels are known when an element is opened. -/
theorem Tree.Alike.label? {t t' : Tree} (h : t.Alike Node.frame t') (id : NodeId) :
    t'.label? id = t.label? id := by
  have hview : ∀ t : Tree, t.label? id = ((t.node? id).map Node.frame).bind fun n =>
      n.element?.map fun e => (e.tag, e.forbidden) := by
    intro t
    simp only [Tree.label?, Tree.element?]
    cases t.node? id with
    | none => rfl
    | some n => cases n <;> rfl
  rw [hview, hview, h id]

theorem Tree.label?_push (t : Tree) (n : Node) {id : Nat} (h : id < t.size) :
    (t.push n).label? id = t.label? id := by
  rw [Tree.label?, Tree.element?_push, if_neg (Nat.ne_of_lt h)]
  rfl

namespace Build.Builder

/-- The labels of the open elements, innermost first. -/
def labels (b : Builder) : List (Option (String × Bool)) := b.opened.map b.tree.label?

/-- **What is said so far**, with the tags of the open elements, as long as nothing is reported. -/
structure Outlined (b : Builder) (stack : List String) (items : List Item) : Prop where
  ordered : b.Ordered
  chained : b.Chained
  quiet : b.Quiet
  labels : b.labels = stack.map fun name => some (name, false)
  said : b.tree.said b.opened b.tree.size = items

/-- **Finishing the innermost element** leaves what is said. -/
theorem Finished.said_eq {src : Source} {b b' : Builder} {id : NodeId} {e : Element} {t : Tree}
    (h : Finished src b id e t b') (hstacked : b.tree.Stacked (id :: b.opened) b.tree.size)
    (hroot : b.tree.root = some 0) (he : b.tree.element? id = some e) (hchained : b.Chained)
    (hjoined : Joined (b.tree.modifyElement id fun _ => b.completed src id e) b.opened id
      (b.completed src id e) t) :
    b'.tree.said b'.opened b'.tree.size = b.tree.said (id :: b.opened) b.tree.size := by
  have hhead := hstacked.forest_head
  have hs := Tree.shrinks_completed src b he
  have hfades := fades_completed src b he
  have hbranches := fun k e' he' => (hchained.completed src he k e' he').branches_ne_nil
  have hcompleted : (b.tree.modifyElement id fun _ => b.completed src id e).element? id =
      some (b.completed src id e) := by
    rw [Tree.element?_modifyElement, if_pos rfl, he]
    rfl
  have hsize : t.size = b.tree.size := by
    rw [h.attached.size_eq]
    simp
  cases hstacked with
  | @cons _ _ _ l _ _ _ hchildren hrest =>
      have hle := hchildren.le
      -- completing the element drops spaces, which say nothing
      have hhead' := hhead.shrink (hs id b.tree.size)
      have hrest' := hrest.shrink (hs 0 id)
      have hsaid := hrest'.said_joined (by simpa using hhead') hcompleted (by simpa using hroot)
        hbranches hjoined
      rw [Tree.size_modifyElement, hrest.said_fades (hfades 0 id) (by omega) (by simp; omega),
        hhead.content_fades (hfades id b.tree.size) le_rfl (by simp)] at hsaid
      -- so does trimming it once more after it was attached
      have hattached : t.Stacked b.opened b.tree.size :=
        hrest'.attached hhead' hcompleted hroot h.attached
      have htrim := hattached.said_fades (fades_trimmed { b with tree := t } id 0 b.tree.size)
        (by omega) (by simp; omega)
      rw [h.opened, h.tree, Tree.size_modifyElement, hsize]
      exact htrim.trans hsaid

namespace Outlined

variable {src : Source} {b : Builder} {stack : List String} {items : List Item}

theorem init : Outlined {} [] [] where
  ordered := Ordered.init
  chained := Chained.init
  quiet := ⟨rfl, rfl⟩
  labels := rfl
  said := rfl

/-- The innermost open element, by its tag. -/
theorem exists_of_cons {name : String} (hb : b.Outlined (name :: stack) items) :
    ∃ id rest e, b.opened = id :: rest ∧ b.tree.element? id = some e ∧ e.tag = name ∧
      e.forbidden = false ∧ rest.map b.tree.label? = stack.map fun name => some (name, false) := by
  have hlabels := hb.labels
  unfold Builder.labels at hlabels
  cases hopened : b.opened with
  | nil => simp [hopened] at hlabels
  | cons id rest =>
      rw [hopened, List.map_cons, List.map_cons, List.cons.injEq] at hlabels
      obtain ⟨e, he, hlabel⟩ := Option.map_eq_some_iff.mp hlabels.1
      simp only [Prod.mk.injEq] at hlabel
      exact ⟨id, rest, e, rfl, he, hlabel.1, hlabel.2, hlabels.2⟩

theorem opened_eq_nil (hb : b.Outlined [] items) : b.opened = [] := by
  simpa [Builder.labels] using hb.labels

/-- A leaf says what it shows. -/
theorem leaf (hb : b.Outlined stack items) {parent : NodeId} {rest : List NodeId} {n : Node}
    (hopened : b.opened = parent :: rest) (hn : b.Admits src n) :
    (b.append parent n).Outlined stack (items ++ n.item?.toList) where
  ordered := hb.ordered.leaf hopened hn
  chained := hb.chained.leaf hn
  quiet := ⟨hb.quiet.problems, hb.quiet.rootReported⟩
  labels := by
    have hframe : (b.tree.push n).Alike Node.frame ((b.tree.push n).addChild parent b.tree.size) :=
      Tree.Alike.modifyElement _ _ fun _ _ => rfl
    rw [← hb.labels]
    refine List.map_congr_left fun k hk => ?_
    have hlt := hb.ordered.stacked.mem_lt k hk
    exact (hframe.label? k).trans (Tree.label?_push _ _ hlt)
  said := by
    have hleaf : n.element? = none := by
      cases n with
      | element => exact hn.elim
      | expression => rfl
      | text => rfl
    have hnode : (b.tree.push n).node? b.tree.size = some n := by
      rw [Tree.node?_push, if_pos rfl]
    have hold : ∀ k : Nat, k < b.tree.size → (b.tree.push n).node? k = b.tree.node? k := by
      intro k hk
      rw [Tree.node?_push, if_neg (Nat.ne_of_lt hk)]
    have hlinks : (b.tree.push n).links? b.tree.size = some none := by
      rw [Tree.links?, hnode]
      cases n with
      | element => cases hleaf
      | expression => rfl
      | text => rfl
    have hnew : (b.tree.push n).Forest (some parent) b.tree.size (b.tree.size + 1)
        [b.tree.size] := .leaf hlinks le_rfl (.nil le_rfl)
    have hstacked := hb.ordered.stacked
    have hsaid := hb.said
    rw [hopened] at hstacked hsaid
    have hpush : (b.tree.push n).Stacked (parent :: rest) b.tree.size := by
      refine hstacked.congr fun k hk => ?_
      rw [Tree.links?, hold k hk]
      rfl
    have hsize : (b.append parent n).tree.size = b.tree.size + 1 := by
      simp [append, Tree.addChild]
    have hadded := hpush.said_addChild hnew (by simp)
    rw [hstacked.said_fades (Tree.Fades.of_eq fun k _ hk => hold k hk) le_rfl (by simp), hsaid,
      Tree.content_of_leaf hnode hleaf] at hadded
    rw [hsize]
    change (b.append parent n).tree.said b.opened (b.tree.size + 1) = _
    rw [hopened]
    exact hadded

/-- A start tag says its name. -/
theorem enter (hb : b.Outlined stack items) (tag : String) (attributes : List Markup.Attribute)
    (start stop : Nat) (hforbidden : (b.created src tag attributes start stop).forbidden = false) :
    (b.enter src (b.created src tag attributes start stop)).Outlined (tag :: stack)
      (items ++ [.tag tag]) := by
  have hordered := hb.ordered.enter src tag attributes start stop
  have hchained := hb.chained.enter src tag attributes start stop
  have htag := tag_created src b tag attributes start stop
  obtain ⟨_, _, _, _, _, _, _, branches, hcreated, -, hbranches⟩ :=
    unopened_created src b tag attributes start stop
  generalize b.created src tag attributes start stop = e at *
  have hchildren : e.children = [] := (congrArg Element.children hcreated :)
  have hfurther : e.links.further = [] := by
    have heq : e.branches = branches := (congrArg Element.branches hcreated :)
    rw [Element.links, heq, hbranches]
    rfl
  have hnode : ∀ k, (b.enter src e).tree.node? k =
      if k = b.tree.size then some (.element e) else b.tree.node? k :=
    Tree.node?_push b.tree (.element e)
  have he : (b.enter src e).tree.element? b.tree.size = some e := by
    rw [Tree.element?, hnode, if_pos rfl]
    rfl
  have hold : ∀ k : Nat, k < b.tree.size → (b.enter src e).tree.node? k = b.tree.node? k := by
    intro k hk
    rw [hnode, if_neg (Nat.ne_of_lt hk)]
  have hsize : (b.enter src e).tree.size = b.tree.size + 1 := Tree.size_push b.tree _
  refine ⟨hordered, hchained, ⟨hb.quiet.problems, hb.quiet.rootReported⟩, ?_, ?_⟩
  · have hnew : (b.enter src e).tree.label? b.tree.size = some (tag, false) := by
      rw [Tree.label?, he, Option.map_some, htag, hforbidden]
    have hrest : b.opened.map (b.enter src e).tree.label? = b.opened.map b.tree.label? := by
      refine List.map_congr_left fun k hk => ?_
      have hlt := hb.ordered.stacked.mem_lt k hk
      rw [Tree.label?, Tree.element?, hold k hlt]
      rfl
    have hlabels : (b.enter src e).labels =
        (b.enter src e).tree.label? b.tree.size :: b.opened.map (b.enter src e).tree.label? := rfl
    rw [hlabels, hnew, hrest, List.map_cons]
    exact congrArg _ hb.labels
  · have hhead : (b.enter src e).tree.Forest b.opened.head? b.tree.size
        (b.enter src e).tree.size [b.tree.size] := hordered.stacked.forest_head
    have hbefore := hb.ordered.stacked.said_fades
      (Tree.Fades.of_eq fun k _ hk => hold k hk) le_rfl (by omega)
    have hshown := hhead.content_element le_rfl he
    rw [hchildren, hfurther, htag] at hshown
    change (b.enter src e).tree.said b.opened b.tree.size ++
      (b.enter src e).tree.content [b.tree.size] = _
    rw [hbefore, hb.said, hshown]
    rfl

/-- Recording where an element ends says nothing. -/
theorem stop (hb : b.Outlined stack items) (id : NodeId) (stop : Nat) :
    Outlined { b with tree := b.tree.modifyElement id fun e => { e with stop := some stop } }
      stack items where
  ordered := hb.ordered.stop id stop
  chained := hb.chained.stop id stop
  quiet := ⟨hb.quiet.problems, hb.quiet.rootReported⟩
  labels := by
    have hframe : b.tree.Alike Node.frame
        (b.tree.modifyElement id fun e => { e with stop := some stop }) :=
      Tree.Alike.modifyElement _ _ fun _ _ => rfl
    rw [← hb.labels]
    exact List.map_congr_left fun k _ => hframe.label? k
  said := by
    have hfades : b.tree.Fades (b.tree.modifyElement id fun e => { e with stop := some stop })
        0 b.tree.size := Tree.Fades.modifyElement fun e _ => ⟨rfl, rfl, [], by simp, by simp⟩
    rw [← hb.said, Tree.size_modifyElement]
    exact hb.ordered.stacked.said_fades hfades le_rfl (by simp)

/-- **Finishing the innermost element** says nothing. -/
theorem finish {name : String} {id : NodeId} {rest : List NodeId}
    (hb : b.Outlined (name :: stack) items) (hopened : b.opened = id :: rest)
    (h : ({ b with opened := rest }.finishElement src id).problems = []) :
    ({ b with opened := rest }.finishElement src id).Outlined stack items := by
  obtain ⟨id', rest', e, hopened', he, -, hforbidden, hlabels⟩ := hb.exists_of_cons
  rw [hopened] at hopened'
  obtain ⟨rfl, rfl⟩ := List.cons.inj hopened'
  have hquiet : Quiet { b with opened := rest } := ⟨hb.quiet.problems, hb.quiet.rootReported⟩
  obtain ⟨hquiet', t, hfinished, hjoined⟩ := hquiet.finishElement he hforbidden h
  refine ⟨hb.ordered.finish src hopened, hb.chained.finish src, hquiet', ?_, ?_⟩
  · have hframe := hfinished.alike he
    rw [Builder.labels, hfinished.opened, ← hlabels]
    exact List.map_congr_left fun k _ => hframe.label? k
  · have hstacked := hb.ordered.stacked
    have hroot := hb.ordered.root_eq hopened
    rw [hopened] at hstacked
    have hchained : Chained { b with opened := rest } := hb.chained
    rw [← hb.said, hopened]
    exact hfinished.said_eq hstacked hroot he hchained hjoined

/-- **A text says what it shows.** -/
theorem addText (hsrc : src.settings.whitespace = .preserve) (hb : b.Outlined stack items)
    (text : String) (start stop : Nat) (h : (b.addText src text start stop).problems = []) :
    (b.addText src text start stop).Outlined stack
      (items ++ (textItem? stack.head? text).toList) := by
  have hsame : ∀ {item : Option Item}, item = none → b.Outlined stack (items ++ item.toList) := by
    rintro _ rfl
    simpa using hb
  cases stack with
  | nil =>
      -- outside of the root only spaces are dropped without a report
      have hstray : b.addText src text start stop = b.strayText src text start := by
        simp only [Builder.addText, hb.opened_eq_nil]
      rw [hstray] at h ⊢
      obtain ⟨heq, hblank⟩ := hb.quiet.strayText h
      rw [heq]
      exact hsame (textItem?_of_isBlank _ hblank)
  | cons name stack =>
      obtain ⟨id, rest, e, hopened, he, htag, -, -⟩ := hb.exists_of_cons
      have hshown := ofText?_normalizeText hsrc b.inPre e.tag e.children.isEmpty text
      rw [htag] at hshown
      simp only [Builder.addText, hopened, he, htag, List.head?_cons, ← hshown]
      generalize normalizeText src b.inPre name e.children.isEmpty text = kept at *
      split
      · rename_i hkept
        exact hsame (by rw [hkept]; rfl)
      · split
        · rename_i parts hfound
          obtain ⟨hlooked, hparts⟩ := Option.ite_none_right_eq_some.mp hfound
          have hverbatim : b.inVerbatim = false := by
            simpa using (Bool.and_eq_true_iff.mp hlooked).1
          refine hb.leaf hopened (n := .expression _) (show b.Admits src _ from ?_)
          exact ⟨hverbatim, rfl, hparts, rfl⟩
        · split
          · rename_i hspace
            have hkept : kept = " " := by
              rw [Bool.and_eq_true] at hspace
              exact of_decide_eq_true hspace.1
            exact hsame (by rw [hkept]; rfl)
          · exact hb.leaf hopened (n := .text _) (show b.Admits src _ from rfl)

/-- A comment says nothing. -/
theorem addComment (hb : b.Outlined stack items) (text : String) (start stop : Nat) :
    (b.addComment src text start stop).Outlined stack items := by
  unfold Builder.addComment
  split
  · exact hb
  · rename_i parent rest hopened
    have hleaf := hb.leaf hopened (n := .text {
      text, isComment := true
      start := if src.settings.sourceRanges then some start else none
      stop := if src.settings.sourceRanges then some stop else none })
      (show b.Admits src _ from rfl)
    simpa [Node.item?] using hleaf

/-- An element says its name, and finishing it at once says nothing more. -/
theorem openElement (hb : b.Outlined stack items) (tag : String)
    (attributes : List Markup.Attribute) (unary : Bool) (start stop : Nat)
    (h : (b.openElement src tag attributes unary start stop).problems = []) :
    (b.openElement src tag attributes unary start stop).Outlined
      (if unary then stack else tag :: stack) (items ++ [.tag tag]) := by
  have hopen : (b.openElement src tag attributes false start stop).problems = [] →
      (b.openElement src tag attributes false start stop).Outlined (tag :: stack)
        (items ++ [.tag tag]) := by
    intro h
    obtain ⟨hforbidden, heq⟩ := hb.quiet.openElement h
    rw [heq]
    exact hb.enter tag attributes start stop hforbidden
  cases unary with
  | false => exact hopen h
  | true =>
      rw [openElement_unary] at h ⊢
      have hopened := (agrees_openElement src b tag attributes start stop).opened
      generalize b.openElement src tag attributes false start stop = c at h hopen hopened ⊢
      have hprefix := (keeps_finishElement src { c with opened := b.opened } b.tree.size).problems
      rw [h] at hprefix
      exact (hopen (List.prefix_nil.mp hprefix)).finish hopened h

/-- The end of an element says nothing. -/
theorem closeInnermost {name : String} (hb : b.Outlined (name :: stack) items) (stop : Nat)
    (h : (b.closeInnermost src stop).problems = []) :
    (b.closeInnermost src stop).Outlined stack items := by
  obtain ⟨id, rest, e, hopened, -⟩ := hb.exists_of_cons
  simp only [Builder.closeInnermost, hopened] at h ⊢
  split
  · rename_i hranges
    rw [if_pos hranges] at h
    exact (hb.stop id stop).finish hopened h
  · rename_i hranges
    rw [if_neg hranges] at h
    exact hb.finish hopened h

/-- **A token says what it shows.** -/
theorem addToken (hsrc : src.settings.whitespace = .preserve) (hb : b.Outlined stack items)
    {t : Markup.Token} {stack' : List String} (hreplay : t.replay stack = some stack')
    (h : (b.addToken src t).problems = []) :
    (b.addToken src t).Outlined stack' (items ++ shown stack t) := by
  cases t with
  | startTag tag attributes unary start stop =>
      obtain rfl : (if unary then stack else tag :: stack) = stack' := Option.some.inj hreplay
      exact hb.openElement tag attributes unary start stop h
  | endTag name start stop =>
      cases stack with
      | nil => cases hreplay
      | cons top stack =>
          simp only [Markup.Token.replay] at hreplay
          split at hreplay
          · cases hreplay
            rw [shown, List.append_nil]
            exact hb.closeInnermost stop h
          · cases hreplay
  | text text start stop =>
      cases hreplay
      exact hb.addText hsrc text start stop h
  | comment text start stop =>
      cases hreplay
      rw [shown, List.append_nil]
      exact hb.addComment text start stop
  | doctype =>
      cases hreplay
      rw [shown, List.append_nil]
      exact hb

/-- **The events of a template say its outline.** -/
theorem foldl (hsrc : src.settings.whitespace = .preserve) (events : List Markup.Event) :
    ∀ {b : Builder} {stack : List String} {items : List Item}, b.Outlined stack items →
      Markup.replay (Markup.tokens events) stack = some [] →
      (events.foldl (step src) b).problems = [] →
      (events.foldl (step src) b).Outlined [] (items ++ outline stack (Markup.tokens events)) := by
  induction events with
  | nil =>
      intro b stack items hb hreplay _
      cases hreplay
      simpa [outline] using hb
  | cons event events ih =>
      intro b stack items hb hreplay h
      -- a report of this event would still be there in the end
      have hprefix := problems_foldl src events (b.step src event)
      rw [show (events.foldl (step src) (b.step src event)).problems = [] from h] at hprefix
      have hquiet := List.prefix_nil.mp hprefix
      cases event with
      | problem d => simp [step, report] at hquiet
      | token t =>
          rw [Markup.tokens_token_cons, Markup.replay_cons] at hreplay
          obtain ⟨stack', hstep, hrest⟩ := Option.bind_eq_some_iff.mp hreplay
          have hnext := ih (hb.addToken hsrc hstep hquiet) hrest h
          rw [Markup.tokens_token_cons, outline, hstep, Option.getD_some, ← List.append_assoc]
          exact hnext

/-- When no element is open any more, the walk through the tree meets what was said. -/
theorem walk_eq (hb : b.Outlined [] items) :
    (b.tree.walk fun _ => true).filterMap Visit.item? = items := by
  have hsaid := hb.said
  rw [hb.opened_eq_nil, Tree.said] at hsaid
  have hroot := hb.ordered.root
  by_cases hsize : b.tree.size = 0
  · rw [if_pos hsize] at hsaid hroot
    simp only [Tree.walk, hroot]
    exact hsaid
  · rw [if_neg hsize] at hsaid hroot
    simp only [Tree.walk, hroot]
    simpa [Tree.content] using hsaid

end Outlined

end Build.Builder

/-! ### Templates -/

namespace Build

/-- **A template without reports is shown in full**: when nothing is reported, the walk through the
tree of a template meets the names of its start tags and its texts in the order of its tokens. -/
theorem exists_parse_walk_eq_outline (settings : Settings) (template : String)
    (hdelimiters : ∀ opening closing, settings.customDelimiters = some (opening, closing) →
      opening ≠ "" ∧ closing ≠ "") (hsettings : settings.whitespace = .preserve) :
    ∃ parsed, parse settings template = .ok parsed ∧ (parsed.problems = [] →
      (parsed.tree.walk fun _ => true).filterMap Visit.item? =
        outline [] (Markup.tokens (Markup.events settings template))) := by
  obtain ⟨parsed, hparsed⟩ := exists_parse settings template hdelimiters
  refine ⟨parsed, hparsed, fun hproblems => ?_⟩
  unfold parse at hparsed
  split at hparsed
  · cases hparsed
  · rename_i delimiters _
    cases hparsed
    have houtlined : (Builder.run ⟨settings, template, delimiters⟩
        (Markup.events settings template)).Outlined [] _ :=
      Outlined.foldl hsettings _ Outlined.init
        (Markup.replay_scan settings [] 0 template.toList) hproblems
    exact houtlined.walk_eq

/-- A branch that moves to its conditional over a space, a reference, a tag without an end and text
that keeps its references. -/
theorem exists_parse_walk_eq_outline_branch :
    ∃ parsed, parse { Settings.web with whitespace := .preserve }
        "<div><p v-if=\"a\">x &amp; y</p> <p v-else>z<br></p><script type=\"t\">&lt;</script></div>" =
          .ok parsed ∧
      parsed.problems = [] ∧ (parsed.tree.walk fun _ => true).filterMap Visit.item? =
        [.tag "div", .tag "p", .text "x & y", .tag "p", .text "z", .tag "br", .tag "script",
          .text "&lt;"] := by
  obtain ⟨parsed, hparsed, hwalk⟩ := exists_parse_walk_eq_outline
    { Settings.web with whitespace := .preserve }
    "<div><p v-if=\"a\">x &amp; y</p> <p v-else>z<br></p><script type=\"t\">&lt;</script></div>"
    (by simp [Settings.web]) rfl
  have hproblems : (match parse { Settings.web with whitespace := .preserve }
        "<div><p v-if=\"a\">x &amp; y</p> <p v-else>z<br></p><script type=\"t\">&lt;</script></div>"
        with
      | .ok parsed => parsed.problems.isEmpty
      | .error _ => false) = true := by decide +kernel
  rw [hparsed] at hproblems
  have hquiet : parsed.problems = [] := List.isEmpty_iff.mp hproblems
  exact ⟨parsed, hparsed, hquiet, (hwalk hquiet).trans (by decide +kernel)⟩

end Build

end Templating
