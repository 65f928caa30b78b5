import Mathlib.Data.List.Chain
import Templating.Proofs.Build.Children
import Templating.Proofs.Build.Unreported

/-!
**Blanks in a tree.**

Where no element keeps its blanks and no comment is kept, what is left of the blanks of a template
has a normal form: no element ends with a space, and no two spaces stand next to each other.  A
space may come from blanks, and just as well from a reference to a tab or a line feed; it is dropped
behind another space, and again when its element is closed.  In between, elements are added behind
it, or dropped, and a branch of a conditional takes the leaves before it away.

Main definitions:

* `Templating.Text.Collapsed` — a text without two spaces in a row, and without other blanks;
* `Templating.Tree.IsSpace` — a text that is a single space;
* `Templating.Tree.Separated`, `Templating.Tree.Tight` — nodes without two spaces in a row, and
  without a space at the end;
* `Templating.Tree.LeavesFrom` — a tree with no leaves but those of another one;
* `Templating.Build.Builder.Tidy` — the children of all elements are separated, and those of an
  element that is closed are tight;
* `Templating.Build.BlanksFolded` — the normal form.

Main results:

* `Templating.Text.collapsed_collapse` — collapsing a text does what it should;
* `Templating.Markup.isComment_scan` — comments that are not kept bring up no events;
* `Templating.Build.Builder.exists_children_of_append`,
  `Templating.Build.Builder.Finished.exists_children` — what leaves and finished elements do to the
  children around them;
* `Templating.Build.Builder.Tidy.step`, `Templating.Build.Builder.Tidy.foldl` — events keep a
  builder tidy;
* `Templating.Build.exists_parse_blanksFolded` — **blanks have a normal form**.
-/

set_option autoImplicit false

namespace Templating

open Build Build.Builder

/-! ### Collapsed texts -/

namespace Text

/-- A text without two spaces in a row, and without other template blanks. -/
structure Collapsed (s : List Char) : Prop where
  blanks : ∀ c ∈ s, c ≠ '\t' ∧ c ≠ '\r' ∧ c ≠ '\n' ∧ c ≠ '\x0c'
  apart : s.IsChain fun c c' => ¬(c = ' ' ∧ c' = ' ')

theorem Collapsed.nil : Collapsed [] := ⟨by simp, .nil⟩

theorem Collapsed.cons {c : Char} {s : List Char} (h : Collapsed s)
    (hc : c ≠ '\t' ∧ c ≠ '\r' ∧ c ≠ '\n' ∧ c ≠ '\x0c') (hnext : c = ' ' → s.head? ≠ some ' ') :
    Collapsed (c :: s) where
  blanks := List.forall_mem_cons.mpr ⟨hc, h.blanks⟩
  apart := by
    refine List.isChain_cons.mpr ⟨?_, h.apart⟩
    rintro c' hc' ⟨hspace, rfl⟩
    exact hnext hspace hc'

/-- In a run of blanks no space comes next. -/
theorem collapsed_collapseFrom (inRun : Bool) (s : List Char) :
    Collapsed (collapseFrom inRun s) ∧
      (inRun = true → (collapseFrom inRun s).head? ≠ some ' ') := by
  fun_induction collapseFrom inRun s with
  | case1 => exact ⟨.nil, by simp⟩
  | case2 c s _ ih => exact ⟨ih.1, fun _ => ih.2 rfl⟩
  | case3 inRun c s _ hrun ih =>
      exact ⟨ih.1.cons (by decide) fun _ => ih.2 rfl, fun h => absurd h hrun⟩
  | case4 inRun c s hc ih =>
      simp only [isTemplateBlank, Bool.or_eq_true, beq_iff_eq, not_or] at hc
      obtain ⟨⟨⟨⟨hspace, htab⟩, hfeed⟩, hreturn⟩, hform⟩ := hc
      refine ⟨ih.1.cons ⟨htab, hreturn, hfeed, hform⟩ fun h => absurd h hspace, fun _ h => ?_⟩
      exact hspace (Option.some.inj h)

theorem collapsed_collapse (s : List Char) : Collapsed (collapse s) :=
  (collapsed_collapseFrom false s).1

end Text

/-! ### Events without comments -/

namespace Markup

/-- Whether an event is the start tag of a preformatted element. -/
def Event.startsPre (isPre : String → Bool) : Event → Bool
  | .token (.startTag name ..) => isPre name
  | _ => false

/-- Whether an event is a comment. -/
def Event.isComment : Event → Bool
  | .token (.comment ..) => true
  | _ => false

theorem isComment_of_isBare {x : Event} (h : x.IsBare) : x.isComment = false := by
  cases x with
  | problem d => rfl
  | token t =>
      cases t with
      | comment => exact h.elim
      | startTag | endTag | text | doctype => rfl

theorem isComment_emit {settings : Settings} (h : settings.keepComments = false) (p : Piece)
    (start stop : Nat) (last : Bool) (opened : List OpenElement) :
    ∀ x ∈ (emit settings p start stop last opened).1, x.isComment = false := by
  intro x hx
  cases p with
  | comment body => simp [emit, h] at hx
  | conditional body => cases hx
  | doctype body =>
      obtain rfl := List.mem_singleton.mp hx
      rfl
  | endTag name tail => exact isComment_of_isBare (isBare_closeNamed hx)
  | startTag tag =>
      rcases List.mem_append.mp hx with hx | hx
      · exact isComment_of_isBare (isBare_closeImplied hx)
      · obtain rfl := List.mem_singleton.mp hx
        rfl
  | text body =>
      rcases List.mem_cons.mp hx with rfl | hx
      · rfl
      · split at hx
        · obtain rfl := List.mem_singleton.mp hx
          rfl
        · cases hx

theorem isComment_rawTextEvents (content : Tag.Content) (e : OpenElement) (start stop : Nat)
    (body : List Char) : ∀ x ∈ rawTextEvents content e start stop body, x.isComment = false := by
  unfold rawTextEvents
  dsimp only
  generalize (if content = .rawText then unwrapMarks body else body) = kept
  split <;> simp [Event.isComment]

theorem isComment_unclosedRawText (e : OpenElement) (outer : List OpenElement) (start : Nat)
    (rest : List Char) : ∀ x ∈ unclosedRawText e outer start rest, x.isComment = false := by
  refine List.forall_mem_append.mpr ⟨List.forall_mem_append.mpr ⟨?_, ?_⟩, ?_⟩
  · simp [closing, Event.isComment]
  · split <;> simp [malformedEnd, Event.isComment]
  · exact fun x hx => isComment_of_isBare (isBare_closeEach hx)

/-- **Comments that are not kept** bring up no events. -/
theorem isComment_scan {settings : Settings} (h : settings.keepComments = false)
    (opened : List OpenElement) (offset : Nat) (rest : List Char) :
    ∀ x ∈ scan settings opened offset rest, x.isComment = false := by
  fun_induction scan settings opened offset rest with
  | case1 opened offset => exact fun x hx => isComment_of_isBare (isBare_closeEach hx)
  | case2 opened offset c s _ p r hpiece _ _ stop emitted dropped ih =>
      exact List.forall_mem_append.mpr ⟨isComment_emit h p offset stop r.isEmpty opened, ih⟩
  | case3 opened offset c s content e outer _ _ =>
      exact isComment_unclosedRawText e outer offset (c :: s)
  | case4 opened offset c s content e outer _ body endTag r hsplit _ bodyEnd stop ih =>
      exact List.forall_mem_append.mpr ⟨isComment_rawTextEvents content e offset bodyEnd body,
        List.forall_mem_cons.mpr ⟨rfl, ih⟩⟩

end Markup

/-! ### Spaces among the children of an element -/

theorem Node.element?_eq_none_of_text? {n : Node} {s : String} (h : n.text? = some s) :
    n.element? = none := by
  cases n with
  | element => cases h
  | expression | text => rfl

namespace Tree

variable {t t' : Tree} {ids ids' : List NodeId} {c : NodeId}

/-- A text that is a single space. -/
def IsSpace (t : Tree) (id : NodeId) : Prop := ∃ n, t.node? id = some (.text n) ∧ n.text = " "

/-- No two neighbours are spaces. -/
def Separated (t : Tree) (ids : List NodeId) : Prop :=
  ids.IsChain fun c c' => ¬(t.IsSpace c ∧ t.IsSpace c')

/-- The last node is no space. -/
def Tight (t : Tree) (ids : List NodeId) : Prop := ∀ c, ids.getLast? = some c → ¬t.IsSpace c

theorem isSpaceText_eq_true_iff : isSpaceText t c = true ↔ t.IsSpace c := by
  unfold isSpaceText IsSpace
  split
  · rename_i n hn
    simp [hn]
  · rename_i hnot
    simpa using fun n hn => absurd hn (hnot n)

theorem not_isSpace_of_element? {e : Element} (he : t.element? c = some e) : ¬t.IsSpace c := by
  rintro ⟨n, hn, -⟩
  simp [element?, hn, Node.element?] at he

/-- What is asked before a space is added. -/
theorem tight_of_last (h : (ids.getLast?.bind t.node?).any (·.text? = some " ") = false) :
    t.Tight ids := by
  rintro c hc ⟨n, hn, hspace⟩
  simp [hc, hn, hspace, Node.text?] at h

theorem Separated.shorten (h : t.Separated ids) (hids : ids' <+: ids) : t.Separated ids' := by
  obtain ⟨dropped, rfl⟩ := hids
  exact List.IsChain.left_of_append h

/-- A space may be added where there is none yet. -/
theorem Separated.concat (h : t.Separated ids) (hc : t.IsSpace c → t.Tight ids) :
    t.Separated (ids ++ [c]) := by
  refine List.isChain_append.mpr ⟨h, List.isChain_singleton c, ?_⟩
  rintro last hlast c' hc' ⟨hspace, hspace'⟩
  obtain rfl : c = c' := Option.some.inj hc'
  exact hc hspace' last hlast hspace

theorem Separated.congr (h : t.Separated ids) (hids : ∀ c ∈ ids, t'.IsSpace c → t.IsSpace c) :
    t'.Separated ids :=
  List.IsChain.imp_of_mem_imp (fun c c' hc hc' hnot hspaces =>
    hnot ⟨hids c hc hspaces.1, hids c' hc' hspaces.2⟩) h

theorem Tight.congr (h : t.Tight ids) (hids : ∀ c ∈ ids, t'.IsSpace c → t.IsSpace c) :
    t'.Tight ids :=
  fun c hc hspace => h c hc (hids c (List.mem_of_getLast? hc) hspace)

/-- Every leaf of `t'` is one of `t`. -/
def LeavesFrom (t t' : Tree) : Prop :=
  ∀ k n, t'.node? k = some n → n.element? = none → t.node? k = some n

namespace LeavesFrom

/-- Leaves stay as they are, whatever becomes of the elements. -/
theorem of_alike (h : t.Alike Node.frame t') : t.LeavesFrom t' := by
  intro k n hn hleaf
  obtain ⟨n₀, hn₀, hframe⟩ := h.symm.node? hn
  cases n with
  | element => cases hleaf
  | expression => cases n₀ <;> simp_all [Node.frame]
  | text => cases n₀ <;> simp_all [Node.frame]

theorem push_element (t : Tree) (e : Element) : t.LeavesFrom (t.push (.element e)) := by
  intro k n hn hleaf
  rw [node?_push] at hn
  split at hn
  · cases hn
    cases hleaf
  · exact hn

theorem isSpace (h : t.LeavesFrom t') (hc : t'.IsSpace c) : t.IsSpace c := by
  obtain ⟨n, hn, hspace⟩ := hc
  exact ⟨n, h c _ hn rfl, hspace⟩

end LeavesFrom

end Tree

/-! ### Builders -/

namespace Build.Builder

variable {src : Source} {b b' : Builder} {id : NodeId}

/-- Without the spaces at its end an element ends with none. -/
theorem tight_trimmed (hpre : b.inPre = false) (e : Element) :
    b.tree.Tight (b.trimmed e).children := by
  intro c hc hspace
  simp only [trimmed, hpre, Bool.false_eq_true, if_false, List.getLast?_reverse] at hc
  have hhead := List.head?_dropWhile_not (isSpaceText b.tree) e.children.reverse
  rw [hc] at hhead
  simp [Tree.isSpaceText_eq_true_iff.mpr hspace] at hhead

/-- Outside of preformatted elements texts are collapsed, when blanks are condensed. -/
theorem collapsed_normalizeText (hcondense : src.settings.whitespace = .condense) (tag : String)
    (first : Bool) (text : String) :
    Text.Collapsed (normalizeText src false tag first text).toList := by
  simp only [normalizeText, hcondense, decide_true, Bool.not_false, Bool.and_true, if_true,
    String.toList_ofList]
  exact Text.collapsed_collapse _

/-- **What a leaf does to children**: its parent gets it as its last child. -/
theorem exists_children_of_append {parent : NodeId} {n : Node} (hn : b.Admits src n) {k : NodeId}
    {e' : Element} (he' : (b.append parent n).tree.element? k = some e') :
    ∃ e₀, b.tree.element? k = some e₀ ∧
      (parent = k ∧ e'.children = e₀.children ++ [b.tree.size] ∨
        parent ≠ k ∧ e'.children = e₀.children) := by
  obtain ⟨e₀, he₀, -⟩ := exists_element_of_append hn he'
  have hchildren : (b.append parent n).tree.children? k = _ := children?_append hn k
  rw [Tree.children?_of_element? he', Tree.children?_of_element? he₀, Option.map_some] at hchildren
  refine ⟨e₀, he₀, ?_⟩
  split at hchildren
  · rename_i hk
    exact .inl ⟨hk, Option.some.inj hchildren⟩
  · rename_i hk
    exact .inr ⟨hk, Option.some.inj hchildren⟩

/-- **What finishing an element does to children.**  The element itself is trimmed, its parent gets
it as its last child or loses some at the end, and the others stay. -/
theorem Finished.exists_children {e : Element} {t : Tree} (h : Finished src b id e t b')
    (he : b.tree.element? id = some e) (hhead : b.opened.head? ≠ some id) (hpre : b.inPre = false)
    (k : NodeId) (e' : Element) (he' : b'.tree.element? k = some e') :
    ∃ e₀, b.tree.element? k = some e₀ ∧
      (k = id ∧ e'.children <+: e₀.children ∧ b'.tree.Tight e'.children ∨
        k ≠ id ∧ (e'.children = e₀.children ∨ b.opened.head? = some k ∧
          (e'.children <+: e₀.children ∨ e'.children = e₀.children ++ [id]))) := by
  obtain ⟨e₀, he₀, -⟩ := (h.alike he).symm.element? Node.element?_frame he'
  refine ⟨e₀, he₀, ?_⟩
  by_cases hk : id = k
  · subst hk
    obtain rfl : e = e₀ := by simpa [he] using he₀
    obtain ⟨ids, hids, hshort⟩ := h.exists_shortened he hhead
    rw [Tree.children?_of_element? he'] at hids
    refine .inl ⟨rfl, Option.some.inj hids ▸ hshort, ?_⟩
    have hleaves : t.LeavesFrom b'.tree := by
      rw [h.tree]
      exact .of_alike ((Tree.sameCore_modifyElement t id (core_trimmed _)).coarsen Node.frame_core)
    rw [h.tree] at he'
    obtain ⟨e₂, -, rfl⟩ := Tree.exists_of_element?_modifyElement he'
    rw [if_pos rfl]
    exact (tight_trimmed (b := { b with tree := t }) hpre e₂).congr fun c _ => hleaves.isSpace
  · have hchildren := h.children?_eq he (.inl hk)
    rw [Tree.children?_of_element? he', Tree.children?_of_element? he₀,
      Option.map_some] at hchildren
    refine .inr ⟨Ne.symm hk, ?_⟩
    rw [Option.some.inj hchildren]
    split
    · rename_i hparent
      exact .inr ⟨hparent, received_cases _ _ _ _⟩
    · exact .inl rfl

/-! ### The invariant -/

/-- **Blanks are in order** as long as none are kept: the children of every element are separated,
they are tight once it is closed, and texts are collapsed when blanks are condensed. -/
structure Tidy (src : Source) (b : Builder) : Prop where
  inPre : b.inPre = false
  separated : ∀ id e, b.tree.element? id = some e → b.tree.Separated e.children
  tight : ∀ id e, b.tree.element? id = some e → id ∉ b.opened → b.tree.Tight e.children
  text : src.settings.whitespace = .condense → ∀ id n s, b.tree.node? id = some n →
    n.text? = some s → Text.Collapsed s.toList

namespace Tidy

theorem init (src : Source) : Tidy src {} where
  inPre := rfl
  separated := by simp [Tree.element?, Tree.node?]
  tight := by simp [Tree.element?, Tree.node?]
  text := by simp [Tree.node?]

/-- The leaves and the children that were there stay. -/
theorem keep (hb : b.Tidy src) (hleaves : b.tree.LeavesFrom b'.tree) (hpre : b'.inPre = false)
    (hchildren : ∀ k e', b'.tree.element? k = some e' → e'.children = [] ∨
      ∃ e, b.tree.element? k = some e ∧ e'.children = e.children ∧ (k ∈ b.opened → k ∈ b'.opened)) :
    b'.Tidy src where
  inPre := hpre
  separated k e' he' := by
    rcases hchildren k e' he' with hnil | ⟨e, he, heq, -⟩
    · rw [hnil]
      exact .nil
    · rw [heq]
      exact (hb.separated k e he).congr fun c _ => hleaves.isSpace
  tight k e' he' hk := by
    rcases hchildren k e' he' with hnil | ⟨e, he, heq, hopened⟩
    · simp [hnil, Tree.Tight]
    · rw [heq]
      exact (hb.tight k e he (mt hopened hk)).congr fun c _ => hleaves.isSpace
  text hcondense k n s hn htext :=
    hb.text hcondense k n s (hleaves k n hn (Node.element?_eq_none_of_text? htext)) htext

theorem agrees (h : b.Agrees b') (hb : b.Tidy src) : b'.Tidy src := by
  refine hb.keep ?_ (h.inPre.trans hb.inPre) fun k e' he' => .inr ⟨e', ?_, rfl, ?_⟩
  · rw [h.tree]
    exact fun k n hn _ => hn
  · rwa [← h.tree]
  · rw [h.opened]
    exact fun hk => hk

/-- An element is opened without children. -/
theorem enter (hb : b.Tidy src) {tag : String} (htag : src.settings.tags.isPre tag = false)
    (attributes : List Markup.Attribute) (start stop : Nat) :
    (b.enter src (b.created src tag attributes start stop)).Tidy src := by
  have hnil := children_created src b tag attributes start stop
  have hname := tag_created src b tag attributes start stop
  generalize b.created src tag attributes start stop = e at hnil hname
  refine hb.keep (Tree.LeavesFrom.push_element b.tree e) ?_ fun k e' he' => ?_
  · change (b.inPre || src.settings.tags.isPre e.tag) = false
    rw [hb.inPre, hname, htag]
    rfl
  · rw [element?_enter] at he'
    split at he'
    · cases he'
      exact .inl hnil
    · exact .inr ⟨e', he', rfl, List.mem_cons_of_mem _⟩

theorem stop (hb : b.Tidy src) (id : NodeId) (stop : Nat) :
    Tidy src { b with tree := b.tree.modifyElement id fun e => { e with stop := some stop } } := by
  refine hb.keep (.of_alike ((b.sameCore_stop id stop).coarsen Node.frame_core)) hb.inPre
    fun k e' he' => ?_
  obtain ⟨e, he, rfl⟩ := Tree.exists_of_element?_modifyElement he'
  refine .inr ⟨e, he, ?_, fun hk => hk⟩
  split <;> rfl

/-- **A closed element is trimmed**, and attached behind the children of its parent. -/
theorem finish {rest : List NodeId} (hb : b.Tidy src) (ho : b.Ordered)
    (hopened : b.opened = id :: rest) :
    ({ b with opened := rest }.finishElement src id).Tidy src := by
  obtain ⟨e, he, -, hrest⟩ := ho.exists_innermost hopened
  have hhead : rest.head? ≠ some id := fun hhead =>
    Nat.lt_irrefl id (hrest id (List.mem_of_mem_head? hhead))
  obtain ⟨t, hfinished⟩ := finished_finishElement src { b with opened := rest } he
  have hleaves : b.tree.LeavesFrom ({ b with opened := rest }.finishElement src id).tree :=
    .of_alike (hfinished.alike he)
  obtain ⟨e₁, he₁, -⟩ := (hfinished.alike he).element? Node.element?_frame he
  have hchildren := hfinished.exists_children he hhead hb.inPre
  have hopened' : ({ b with opened := rest }.finishElement src id).opened = rest := hfinished.opened
  have hpre : ({ b with opened := rest }.finishElement src id).inPre =
      (b.inPre && !src.settings.tags.isPre e.tag) := hfinished.inPre
  generalize { b with opened := rest }.finishElement src id = b' at *
  have hsame : ∀ k e₀, b.tree.element? k = some e₀ → b'.tree.Separated e₀.children :=
    fun k e₀ he₀ => (hb.separated k e₀ he₀).congr fun c _ => hleaves.isSpace
  -- the element itself is trimmed, its parent gets it or loses leaves, and all others stay
  constructor
  · rw [hpre, hb.inPre, Bool.false_and]
  · intro k e' he'
    obtain ⟨e₀, he₀, ⟨-, hshort, -⟩ | ⟨-, heq | ⟨-, hshort | heq⟩⟩⟩ := hchildren k e' he'
    · exact (hsame k e₀ he₀).shorten hshort
    · rw [heq]
      exact hsame k e₀ he₀
    · exact (hsame k e₀ he₀).shorten hshort
    · rw [heq]
      exact (hsame k e₀ he₀).concat fun hspace => absurd hspace (Tree.not_isSpace_of_element? he₁)
  · intro k e' he' hk
    rw [hopened'] at hk
    obtain ⟨e₀, he₀, ⟨-, -, htight⟩ | ⟨hne, heq | ⟨hhead', -⟩⟩⟩ := hchildren k e' he'
    · exact htight
    · rw [heq]
      refine (hb.tight k e₀ he₀ ?_).congr fun c _ => hleaves.isSpace
      rw [hopened]
      exact List.not_mem_cons_of_ne_of_not_mem hne hk
    · exact absurd (List.mem_of_mem_head? hhead') hk
  · exact fun hcondense k n s hn htext =>
      hb.text hcondense k n s (hleaves k n hn (Node.element?_eq_none_of_text? htext)) htext

/-- A leaf that is added is collapsed, and no space behind another. -/
theorem leaf {parent : NodeId} {rest : List NodeId} {e : Element} {n : Node} (hb : b.Tidy src)
    (hs : b.Sealed) (hopened : b.opened = parent :: rest) (he : b.tree.element? parent = some e)
    (hn : b.Admits src n) (hspace : ∀ m, n = .text m → m.text = " " → b.tree.Tight e.children)
    (htext : src.settings.whitespace = .condense → ∀ s, n.text? = some s →
      Text.Collapsed s.toList) :
    (b.append parent n).Tidy src := by
  have hleaves : (b.tree.push n).LeavesFrom (b.append parent n).tree :=
    .of_alike ((b.sameCore_append parent n).coarsen Node.frame_core)
  -- what was a child before has a number in use
  have hold : ∀ k e₀, b.tree.element? k = some e₀ → ∀ c ∈ e₀.children,
      (b.append parent n).tree.IsSpace c → b.tree.IsSpace c := by
    intro k e₀ he₀ c hc hspace
    obtain ⟨m, hm, -⟩ := hs.child k e₀ he₀ c hc
    obtain ⟨m', hm', hspace'⟩ := hleaves.isSpace hspace
    rw [Tree.node?_push, if_neg (Nat.ne_of_lt (Tree.lt_size_of_node? hm))] at hm'
    exact ⟨m', hm', hspace'⟩
  constructor
  · exact hb.inPre
  · intro k e' he'
    obtain ⟨e₀, he₀, ⟨rfl, heq⟩ | ⟨-, heq⟩⟩ := exists_children_of_append hn he'
    · obtain rfl : e = e₀ := by simpa [he] using he₀
      rw [heq]
      refine ((hb.separated parent e he).congr (hold parent e he)).concat fun hnew => ?_
      obtain ⟨m, hm, hm'⟩ := hleaves.isSpace hnew
      rw [Tree.node?_push, if_pos rfl] at hm
      exact (hspace m (Option.some.inj hm) hm').congr (hold parent e he)
    · rw [heq]
      exact (hb.separated k e₀ he₀).congr (hold k e₀ he₀)
  · intro k e' he' hk
    obtain ⟨e₀, he₀, ⟨rfl, -⟩ | ⟨-, heq⟩⟩ := exists_children_of_append hn he'
    · have hmem : parent ∈ b.opened := by rw [hopened]; exact List.mem_cons_self
      exact absurd hmem hk
    · rw [heq]
      exact (hb.tight k e₀ he₀ hk).congr (hold k e₀ he₀)
  · intro hcondense k n' s hn' hs'
    have hn'' := hleaves k n' hn' (Node.element?_eq_none_of_text? hs')
    rw [Tree.node?_push] at hn''
    split at hn''
    · cases hn''
      exact htext hcondense s hs'
    · exact hb.text hcondense k n' s hn'' hs'

/-! ### Events -/

theorem addText (hb : b.Tidy src) (hs : b.Sealed) (text : String) (start stop : Nat) :
    (b.addText src text start stop).Tidy src := by
  rcases addText_leaf src b text start stop with
    hagrees | ⟨parent, rest, e, n, hopened, he, hn, -, htext, hafter, heq⟩
  · exact hb.agrees hagrees
  · rw [heq]
    refine hb.leaf hs hopened he hn (fun m hm hspace => ?_) fun hcondense s hs' => ?_
    · exact Tree.tight_of_last (hafter m hm hspace)
    · rw [htext, hb.inPre] at hs'
      cases hs'
      exact collapsed_normalizeText hcondense _ _ _

theorem openElement (hb : b.Tidy src) (ho : b.Ordered) {tag : String}
    (htag : src.settings.tags.isPre tag = false) (attributes : List Markup.Attribute) (unary : Bool)
    (start stop : Nat) : (b.openElement src tag attributes unary start stop).Tidy src := by
  have hagrees := agrees_openElement src b tag attributes start stop
  have hopen : (b.openElement src tag attributes false start stop).Tidy src :=
    (hb.enter htag attributes start stop).agrees hagrees
  cases unary with
  | false => exact hopen
  | true =>
      rw [openElement_unary]
      exact hopen.finish (.agrees hagrees (ho.enter src tag attributes start stop)) hagrees.opened

theorem closeInnermost (hb : b.Tidy src) (ho : b.Ordered) (stop : Nat) :
    (b.closeInnermost src stop).Tidy src := by
  simp only [Builder.closeInnermost]
  split
  · exact hb
  · rename_i id rest hopened
    split
    · exact finish (b := { b with
        tree := b.tree.modifyElement id fun e => { e with stop := some stop } })
        (hb.stop id stop) (ho.stop id stop) hopened
    · exact hb.finish ho hopened

/-- **An event keeps the blanks in order**, unless it brings a comment or a preformatted element. -/
theorem step (hb : b.Tidy src) (ho : b.Ordered) (hs : b.Sealed) {event : Markup.Event}
    (hpre : event.startsPre src.settings.tags.isPre = false) (hcomment : event.isComment = false) :
    (b.step src event).Tidy src := by
  cases event with
  | problem d => exact hb.agrees (b.agrees_report d)
  | token t =>
      cases t with
      | startTag tag attributes unary start stop =>
          exact hb.openElement ho hpre attributes unary start stop
      | endTag name start stop => exact hb.closeInnermost ho stop
      | text text start stop => exact hb.addText hs text start stop
      | comment text start stop => cases hcomment
      | doctype => exact hb

/-- **So do all events of a template.** -/
theorem foldl (src : Source) {es : List Markup.Event}
    (hpre : ∀ x ∈ es, x.startsPre src.settings.tags.isPre = false)
    (hcomment : ∀ x ∈ es, x.isComment = false) (hb : b.Tidy src) (ho : b.Ordered) (hs : b.Sealed) :
    (es.foldl (Builder.step src) b).Tidy src := by
  induction es generalizing b with
  | nil => exact hb
  | cons event es ih =>
      obtain ⟨hpre, hpres⟩ := List.forall_mem_cons.mp hpre
      obtain ⟨hcomment, hcomments⟩ := List.forall_mem_cons.mp hcomment
      obtain ⟨ho', hs'⟩ := (invariant_sealed src).step ⟨ho, hs⟩ event
      exact ih hpres hcomments (hb.step ho hs hpre hcomment) ho' hs'

end Tidy

end Build.Builder

/-! ### Templates -/

namespace Build

/-- **The normal form of blanks.** -/
structure BlanksFolded (settings : Settings) (t : Tree) : Prop where
  /-- The last child of an element is no space. -/
  tight : ∀ id e, t.element? id = some e → t.Tight e.children
  /-- No two neighbours among the children of an element are spaces. -/
  separated : ∀ id e, t.element? id = some e → t.Separated e.children
  /-- Where blanks are condensed, texts and interpolations have single spaces and no other
  blanks. -/
  text : settings.whitespace = .condense → ∀ id n s, t.node? id = some n → n.text? = some s →
    Text.Collapsed s.toList

/-- **Blanks have a normal form**, in a template without preformatted elements and when comments are
not kept. -/
theorem exists_parse_blanksFolded (settings : Settings) (template : String)
    (hdelimiters : ∀ opening closing, settings.customDelimiters = some (opening, closing) →
      opening ≠ "" ∧ closing ≠ "")
    (hcomments : settings.keepComments = false)
    (hpre : ∀ x ∈ Markup.events settings template, x.startsPre settings.tags.isPre = false) :
    ∃ parsed, parse settings template = .ok parsed ∧ BlanksFolded settings parsed.tree := by
  obtain ⟨parsed, hparsed⟩ := exists_parse settings template hdelimiters
  refine ⟨parsed, hparsed, ?_⟩
  unfold parse at hparsed
  split at hparsed
  · cases hparsed
  · rename_i delimiters hdelimiters
    cases hparsed
    obtain ⟨ho, hs⟩ := (invariant_sealed ⟨settings, template, delimiters⟩).init
    have htidy : (Builder.run ⟨settings, template, delimiters⟩
        (Markup.events settings template)).Tidy ⟨settings, template, delimiters⟩ :=
      Builder.Tidy.foldl _ hpre (Markup.isComment_scan hcomments _ _ _) (.init _) ho hs
    have hclosed : (Builder.run ⟨settings, template, delimiters⟩
        (Markup.events settings template)).opened = [] :=
      Builder.opened_run (Markup.replay_scan settings [] 0 template.toList)
    refine ⟨fun id e he => htidy.tight id e he ?_, htidy.separated, htidy.text⟩
    rw [hclosed]
    exact List.not_mem_nil

/-- Blanks around a style sheet, and a branch that takes away a space from a reference to a tab. -/
theorem exists_parse_blanksFolded_branch :
    ∃ parsed, parse Settings.web
        "<div> a\t b&#32;<style></style> &#32;<p v-if=\"x\"/> &#9;<i v-else> c </i> </div>" =
          .ok parsed ∧ BlanksFolded Settings.web parsed.tree :=
  exists_parse_blanksFolded _ _ (by simp [Settings.web]) rfl (by decide +kernel)

end Build

end Templating
