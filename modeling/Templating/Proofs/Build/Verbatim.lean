import Templating.Proofs.Build.Order

/-!
**Nothing is read inside an element that is rendered as it stands.**

With `v-pre` an element and everything inside it are rendered as they stand: no directive is read
there and no interpolation is looked for.  While the tree is built this is kept in a single mark,
which says whether an open element has `v-pre`.

Main definitions:

* `Templating.Tree.Verbatim` — an element with `v-pre`, or with a parent of that kind;
* `Templating.Element.IsLiteral` — an element with its attributes as they stand and nothing else;
* `Templating.Build.Builder.Sealed` — nothing was read inside an element with `v-pre`.

Main results:

* `Templating.Build.Builder.invariant_sealed` — **every event keeps elements with `v-pre` sealed**;
* `Templating.Build.Builder.Sealed.of_below` — what is below an element with `v-pre` is literal.
-/

set_option autoImplicit false

namespace Templating

open Build Build.Builder

/-! ### What is kept when an element is finished -/

/-- A node without what is known only when its element is closed. -/
def Node.frame : Node → Node
  | .element e => .element e.core.unclosed
  | n => n

theorem Node.element?_frame (n : Node) :
    n.frame.element? = n.element?.map fun e => e.core.unclosed := by
  cases n <;> rfl

theorem Node.frame_core (n : Node) : n.core.frame = n.frame := by
  cases n <;> rfl

theorem Build.Builder.frame_completed (src : Source) (b : Builder) (id : NodeId) (e : Element) :
    (b.completed src id e).core.unclosed = e.core.unclosed := by
  have hread : (b.completed src id e).core.unclosed = (b.trimmed e).core.unclosed :=
    (congrArg Element.core (unclosed_completed src b id e) :)
  rw [hread, core_trimmed]

theorem Build.Builder.alike_completed (src : Source) (b : Builder) {id : NodeId} {e : Element}
    (he : b.tree.element? id = some e) :
    b.tree.Alike Node.frame (b.tree.modifyElement id fun _ => b.completed src id e) := by
  refine Tree.Alike.modifyElement b.tree id fun e' he' => ?_
  obtain rfl : e = e' := by simpa [he] using he'
  simp only [Node.frame, frame_completed]

/-- Closing an element changes what is known only then. -/
theorem Build.Builder.Finished.alike {src : Source} {b b' : Builder} {id : NodeId} {e : Element}
    {t : Tree} (h : Finished src b id e t b') (he : b.tree.element? id = some e) :
    b.tree.Alike Node.frame b'.tree :=
  (alike_completed src b he).trans (h.sameCore.coarsen Node.frame_core)

/-- Where an element is rendered as it stands nothing is read when it is closed. -/
theorem Build.Builder.Finished.sameCore_of_verbatim {src : Source} {b b' : Builder} {id : NodeId}
    {e : Element} {t : Tree} (h : Finished src b id e t b') (he : b.tree.element? id = some e)
    (hverbatim : b.inVerbatim = true) : b.tree.SameCore b'.tree := by
  refine Tree.Alike.trans ?_ h.sameCore
  refine Tree.Alike.modifyElement b.tree id fun e' he' => ?_
  obtain rfl : e = e' := by simpa [he] using he'
  have hcompleted : b.completed src id e = b.trimmed e := if_pos hverbatim
  simp only [Node.core, hcompleted, core_trimmed]

/-! ### Elements that are rendered as they stand -/

/-- An element with `v-pre`, or one whose parent is rendered as it stands. -/
inductive Tree.Verbatim (t : Tree) : NodeId → Prop
  | pre {id : NodeId} {e : Element} (he : t.element? id = some e) (h : e.pre = true) :
      Verbatim t id
  | inside {id parent : NodeId} {e : Element} (he : t.element? id = some e)
      (hparent : e.parent = some parent) (h : Verbatim t parent) : Verbatim t id

theorem Tree.Verbatim.exists_element {t : Tree} {id : NodeId} (h : t.Verbatim id) :
    ∃ e, t.element? id = some e := by
  cases h with
  | pre he => exact ⟨_, he⟩
  | inside he => exact ⟨_, he⟩

/-- Being rendered as it stands can be seen with the parents and with `v-pre`. -/
theorem Tree.Verbatim.congr {t t' : Tree} (h : ∀ k e, t.element? k = some e →
    ∃ e', t'.element? k = some e' ∧ e'.parent = e.parent ∧ e'.pre = e.pre) {id : NodeId}
    (hid : t.Verbatim id) : t'.Verbatim id := by
  induction hid with
  | pre he hpre =>
      obtain ⟨e', he', -, hpre'⟩ := h _ _ he
      exact .pre he' (hpre'.trans hpre)
  | inside he hparent _ ih =>
      obtain ⟨e', he', hparent', -⟩ := h _ _ he
      exact .inside he' (hparent'.trans hparent) ih

/-- Being rendered as it stands is known when an element is opened. -/
theorem Tree.Verbatim.alike {t t' : Tree} (h : t.Alike Node.frame t') {id : NodeId}
    (hid : t.Verbatim id) : t'.Verbatim id := by
  refine hid.congr fun k e he => ?_
  obtain ⟨e', he', hsame⟩ := h.element? Node.element?_frame he
  exact ⟨e', he', (congrArg Element.parent hsame :), (congrArg Element.pre hsame :)⟩

/-- A node that is added to the table does not change what is rendered as it stands, since parents
come first. -/
theorem Tree.Verbatim.of_push {t : Tree} {n : Node}
    (hparent : ∀ (id : Nat) (e : Element), t.element? id = some e →
      ∀ parent : Nat, e.parent = some parent → parent < id) {id : Nat} (hid : id < t.size)
    (h : (t.push n).Verbatim id) : t.Verbatim id := by
  have hsame : ∀ k : Nat, k < t.size → (t.push n).element? k = t.element? k := fun k hk => by
    rw [element?_push, if_neg (Nat.ne_of_lt hk)]
  induction h with
  | pre he hpre => exact .pre ((hsame _ hid).symm.trans he) hpre
  | @inside id parent e he hparent' _ ih =>
      -- the way up leads to smaller numbers, so it never meets the new node
      have he' := (hsame id hid).symm.trans he
      have hlt := hparent id e he' parent hparent'
      exact .inside he' hparent' (ih (Nat.lt_trans hlt hid))

/-- An element with its attributes as they stand, and nothing else. -/
structure Element.IsLiteral (e : Element) : Prop where
  attrs : e.attrs = literalAttributes e.pending
  hasBindings : e.hasBindings = false
  condition : e.condition = none
  elseCondition : e.elseCondition = none
  isElse : e.isElse = false
  loop : e.loop = none
  once : e.once = false
  key : e.key = none
  ref : e.ref = none
  component : e.component = none
  slotName : e.slotName = none
  staticClass : e.staticClass = none
  classBinding : e.classBinding = none
  staticStyle : e.staticStyle = none
  styleBinding : e.styleBinding = none
  props : e.props = []
  events : e.events = ∅
  nativeEvents : e.nativeEvents = ∅
  directives : e.directives = []

theorem Element.isLiteral_showsIn : ShowsIn core IsLiteral :=
  fun _ => ⟨fun h => { h with }, fun h => { h with }⟩

theorem Element.isLiteral_congr {e e' : Element} (h : e'.core = e.core) :
    e'.IsLiteral ↔ e.IsLiteral :=
  isLiteral_showsIn.congr h fun _ => rfl

/-- What a child of an element can be. -/
def Tree.Fits (t : Tree) (id : NodeId) : Node → Prop
  | .element e => e.parent = some id
  | .expression _ => ¬t.Verbatim id
  | .text _ => True

theorem Tree.Fits.alike {t t' : Tree} (h : t.Alike Node.frame t') {id : NodeId} {n n' : Node}
    (hn : n'.frame = n.frame) (hfits : t.Fits id n) : t'.Fits id n' := by
  cases n with
  | element e =>
      cases n' with
      | element e' =>
          have hsame : e'.core.unclosed = e.core.unclosed := by simpa [Node.frame] using hn
          have hparent := congrArg Element.parent hsame
          exact hparent.trans hfits
      | expression => simp [Node.frame] at hn
      | text => trivial
  | expression =>
      cases n' with
      | element => simp [Node.frame] at hn
      | expression => exact fun hverbatim => hfits (hverbatim.alike h.symm)
      | text => trivial
  | text =>
      cases n' with
      | element => simp [Node.frame] at hn
      | expression => simp [Node.frame] at hn
      | text => trivial

/-- Whether an element has `v-pre`. -/
def Tree.isPre (t : Tree) (id : NodeId) : Bool := (t.element? id).any (·.pre)

theorem Tree.Alike.isPre {t t' : Tree} (h : t.Alike Node.frame t') (id : NodeId) :
    t'.isPre id = t.isPre id := by
  cases he : t.element? id with
  | none =>
      cases he' : t'.element? id with
      | none => simp [Tree.isPre, he, he']
      | some e' =>
          obtain ⟨e, he₀, -⟩ := h.symm.element? Node.element?_frame he'
          simp [he] at he₀
  | some e =>
      obtain ⟨e', he', hsame⟩ := h.element? Node.element?_frame he
      have hpre : e'.pre = e.pre := (congrArg Element.pre hsame :)
      simp [Tree.isPre, he, he', hpre]

/-- An open element that is rendered as it stands has `v-pre` itself or is inside one that has. -/
theorem Tree.Stacked.exists_isPre {t : Tree} {id : NodeId} {opened : List NodeId} {hi : Nat}
    (h : t.Stacked (id :: opened) hi) (hid : t.Verbatim id) :
    ∃ k ∈ id :: opened, t.isPre k = true := by
  induction opened generalizing id hi with
  | nil =>
      cases hid with
      | pre he hpre => exact ⟨id, by simp, by simp [isPre, he, hpre]⟩
      | inside he hparent =>
          cases h with
          | cons hlinks hhead =>
              rw [links?_of_element? he] at hlinks
              cases hlinks
              have hnone : (none : Option NodeId) = some _ := hhead.symm.trans hparent
              cases hnone
  | cons next opened ih =>
      cases hid with
      | pre he hpre => exact ⟨id, by simp, by simp [isPre, he, hpre]⟩
      | inside he hparent hverbatim =>
          cases h with
          | cons hlinks hhead _ _ hrest =>
              rw [links?_of_element? he] at hlinks
              cases hlinks
              have hnext : some next = some _ := hhead.symm.trans hparent
              cases hnext
              obtain ⟨k, hk, hpre⟩ := ih hrest hverbatim
              exact ⟨k, List.mem_cons_of_mem id hk, hpre⟩

/-! ### Builders -/

namespace Build.Builder

/-- **Nothing is read inside an element with `v-pre`.** -/
structure Sealed (b : Builder) : Prop where
  /-- A parent comes before what is inside it. -/
  parent_lt : ∀ (id : Nat) (e : Element), b.tree.element? id = some e →
    ∀ parent : Nat, e.parent = some parent → parent < id
  /-- A child is there and knows its parent, and an interpolation is nowhere inside `v-pre`. -/
  child : ∀ id e, b.tree.element? id = some e → ∀ c ∈ e.children,
    ∃ n, b.tree.node? c = some n ∧ b.tree.Fits id n
  /-- The mark says whether an open element has `v-pre`; no two have it. -/
  modes : b.opened.countP b.tree.isPre = b.inVerbatim.toNat
  /-- An element inside `v-pre` has its attributes as they stand. -/
  literal : ∀ id e, b.tree.element? id = some e → b.tree.Verbatim id → e.IsLiteral

/-- Outside `v-pre` the innermost element is read. -/
theorem Sealed.not_verbatim {b : Builder} (h : b.Sealed) (ho : b.Ordered) {id : NodeId}
    {rest : List NodeId} (hopened : b.opened = id :: rest) (hverbatim : b.inVerbatim = false) :
    ¬b.tree.Verbatim id := by
  intro hid
  have hstacked := ho.stacked
  rw [hopened] at hstacked
  obtain ⟨k, hk, hpre⟩ := hstacked.exists_isPre hid
  have hmodes := h.modes
  rw [hverbatim, hopened] at hmodes
  exact List.countP_eq_zero.mp hmodes k hk hpre

theorem Sealed.agrees {b b' : Builder} (h : b.Agrees b') (hb : b.Sealed) : b'.Sealed := by
  obtain ⟨htree, hopened, hverbatim, -⟩ := h
  constructor
  · rw [htree]; exact hb.parent_lt
  · rw [htree]; exact hb.child
  · rw [htree, hopened, hverbatim]; exact hb.modes
  · rw [htree]; exact hb.literal

/-- Changes that keep what is known of an element when it is opened. -/
theorem Sealed.of_alike {b b' : Builder} (hb : b.Sealed) (h : b.tree.Alike Node.frame b'.tree)
    (hchild : ∀ id e', b'.tree.element? id = some e' → ∀ c ∈ e'.children,
      ∃ n, b.tree.node? c = some n ∧ b.tree.Fits id n)
    (hmodes : b'.opened.countP b.tree.isPre = b'.inVerbatim.toNat)
    (hliteral : ∀ id e', b'.tree.element? id = some e' → b.tree.Verbatim id → e'.IsLiteral) :
    b'.Sealed := by
  constructor
  · intro id e' he' parent hparent
    obtain ⟨e, he, hsame⟩ := h.symm.element? Node.element?_frame he'
    have hparent' : e.parent = e'.parent := (congrArg Element.parent hsame :)
    exact hb.parent_lt id e he parent (hparent'.trans hparent)
  · intro id e' he' c hc
    obtain ⟨n, hn, hfits⟩ := hchild id e' he' c hc
    obtain ⟨n', hn', hsame⟩ := h.node? hn
    exact ⟨n', hn', hfits.alike h hsame⟩
  · rw [← hmodes]
    exact congrArg (b'.opened.countP ·) (funext h.isPre)
  · intro id e' he' hverbatim
    exact hliteral id e' he' (hverbatim.alike h.symm)

/-- A node that is added to the table is nowhere below another one yet. -/
theorem Sealed.push {b : Builder} (hb : b.Sealed) (ho : b.Ordered) (n : Node)
    (hparent : ∀ e, n = .element e → e.parent = b.opened.head?)
    (hchildren : ∀ e, n = .element e → e.children = [])
    (hliteral : ∀ e, n = .element e → e.pre = true ∨ b.inVerbatim = true → e.IsLiteral) :
    Sealed { b with tree := b.tree.push n } := by
  -- an element of the new table is the new one or an old one
  have hcases : ∀ (id : Nat) (e : Element), (b.tree.push n).element? id = some e →
      (id = b.tree.size ∧ n = .element e) ∨ (id < b.tree.size ∧ b.tree.element? id = some e) := by
    intro id e he
    rw [Tree.element?_push] at he
    split at he
    · rename_i hid
      refine .inl ⟨hid, ?_⟩
      cases n with
      | element e' => cases he; rfl
      | expression => cases he
      | text => cases he
    · refine .inr ⟨?_, he⟩
      have hsome : b.tree.links? id ≠ none := by simp [Tree.links?_of_element? he]
      rwa [ne_eq, Tree.links?_eq_none_iff, not_le] at hsome
  have hopened : ∀ parent : NodeId, b.opened.head? = some parent →
      ∃ rest, b.opened = parent :: rest ∧ parent < b.tree.size := by
    intro parent hhead
    obtain ⟨rest, hrest⟩ := List.head?_eq_some_iff.mp hhead
    exact ⟨rest, hrest, ho.stacked.mem_lt parent (by simp [hrest])⟩
  constructor
  · intro id e he parent hp
    rcases hcases id e he with ⟨rfl, rfl⟩ | ⟨-, he⟩
    · obtain ⟨rest, -, hlt⟩ := hopened parent ((hparent e rfl).symm.trans hp)
      exact hlt
    · exact hb.parent_lt id e he parent hp
  · intro id e he c hc
    rcases hcases id e he with ⟨rfl, rfl⟩ | ⟨hlt, he⟩
    · rw [hchildren e rfl] at hc
      cases hc
    · obtain ⟨n', hn', hfits⟩ := hb.child id e he c hc
      refine ⟨n', ?_, ?_⟩
      · rw [Tree.node?_push, if_neg, hn']
        rintro rfl
        simp [Tree.node?, Tree.size] at hn'
      · cases n' with
        | element => exact hfits
        | expression => exact fun hv => hfits (hv.of_push hb.parent_lt hlt)
        | text => trivial
  · rw [← hb.modes]
    refine List.countP_congr fun k hk => ?_
    have hlt := ho.stacked.mem_lt k hk
    simp only [Tree.isPre, Tree.element?_push, if_neg (Nat.ne_of_lt hlt)]
  · intro id e he hverbatim
    rcases hcases id e he with ⟨rfl, rfl⟩ | ⟨hlt, he⟩
    · refine hliteral e rfl ?_
      cases hverbatim with
      | pre he' hpre =>
          rw [he] at he'
          cases he'
          exact .inl hpre
      | inside he' hp hv =>
          rw [he] at he'
          cases he'
          obtain ⟨rest, hrest, hlt⟩ := hopened _ ((hparent e rfl).symm.trans hp)
          refine .inr ?_
          by_contra hmode
          exact hb.not_verbatim ho hrest (by simpa using hmode) (hv.of_push hb.parent_lt hlt)
    · exact hb.literal id e he (hverbatim.of_push hb.parent_lt hlt)

theorem Sealed.leaf {src : Source} {b : Builder} {parent : NodeId} {rest : List NodeId} {n : Node}
    (hopened : b.opened = parent :: rest) (hn : b.Admits src n) (hb : b.Sealed) (ho : b.Ordered) :
    (b.append parent n).Sealed := by
  have hleaf : ∀ e, n ≠ .element e := by
    rintro e rfl
    exact hn
  have hpush : Sealed { b with tree := b.tree.push n } := hb.push ho n
    (fun e he => absurd he (hleaf e)) (fun e he => absurd he (hleaf e))
    (fun e he => absurd he (hleaf e))
  have hcore : (b.tree.push n).SameCore (b.append parent n).tree :=
    Tree.sameCore_modifyElement _ parent fun _ => rfl
  refine hpush.of_alike (hcore.coarsen Node.frame_core) ?_ hpush.modes ?_
  · intro id e' he' c hc
    obtain ⟨e, he, rfl⟩ := Tree.exists_of_element?_modifyElement he'
    split at hc
    · rename_i hid
      subst hid
      rcases List.mem_append.mp hc with hc | hc
      · exact hpush.child parent e he c hc
      · obtain rfl := List.mem_singleton.mp hc
        refine ⟨n, by simp [Tree.node?_push], ?_⟩
        cases n with
        | element => exact hn.elim
        | expression =>
            -- interpolations are looked for outside `v-pre` only
            intro hverbatim
            have hlt := ho.stacked.mem_lt parent (by simp [hopened])
            exact hb.not_verbatim ho hopened hn.1 (hverbatim.of_push hb.parent_lt hlt)
        | text => trivial
    · exact hpush.child id e he c hc
  · intro id e' he' hverbatim
    obtain ⟨e, he, hsame⟩ := hcore.symm.element? Node.element?_core he'
    exact (Element.isLiteral_congr hsame.symm).mpr (hpush.literal id e he hverbatim)

theorem Sealed.enter {b : Builder} (src : Source) (tag : String)
    (attributes : List Markup.Attribute) (start stop : Nat) (hb : b.Sealed) (ho : b.Ordered) :
    (b.enter src (b.created src tag attributes start stop)).Sealed := by
  obtain ⟨_, _, _, _, _, _, _, _, hunopened, -, -⟩ :=
    unopened_created src b tag attributes start stop
  have hparent : (b.created src tag attributes start stop).parent = b.opened.head? :=
    (congrArg Element.parent hunopened :)
  have hchildren : (b.created src tag attributes start stop).children = [] :=
    (congrArg Element.children hunopened :)
  have hliteral : (b.created src tag attributes start stop).pre = true ∨ b.inVerbatim = true →
      (b.created src tag attributes start stop).IsLiteral := by
    intro h
    obtain ⟨_, _, _, _, _, _, _, hcreated⟩ := created_of_verbatim src b tag attributes start stop
      (by simpa [or_comm] using h)
    rw [hcreated]
    constructor <;> rfl
  have hpre := pre_created_of_verbatim src b tag attributes start stop
  generalize b.created src tag attributes start stop = e at *
  have hpush : Sealed { b with tree := b.tree.push (.element e) } := hb.push ho (.element e)
    (fun e' he' => by cases he'; exact hparent) (fun e' he' => by cases he'; exact hchildren)
    (fun e' he' => by cases he'; exact hliteral)
  refine hpush.of_alike (fun _ => rfl) hpush.child ?_ hpush.literal
  -- at most one open element has `v-pre`
  have hnew : (b.tree.push (.element e)).isPre b.tree.size = e.pre := by
    simp [Tree.isPre, Tree.element?_push, Node.element?]
  have hmodes : b.opened.countP (b.tree.push (.element e)).isPre = b.inVerbatim.toNat := hpush.modes
  change (b.tree.size :: b.opened).countP (b.tree.push (.element e)).isPre =
    (b.inVerbatim || e.pre).toNat
  rw [List.countP_cons, hmodes, hnew]
  cases hverbatim : b.inVerbatim with
  | false => cases e.pre <;> rfl
  | true => simp [hpre hverbatim]

theorem Sealed.stop {b : Builder} (id : NodeId) (stop : Nat) (hb : b.Sealed) :
    Sealed { b with tree := b.tree.modifyElement id fun e => { e with stop := some stop } } := by
  have hcore : b.tree.SameCore (b.tree.modifyElement id fun e => { e with stop := some stop }) :=
    Tree.sameCore_modifyElement _ id fun _ => rfl
  refine hb.of_alike (hcore.coarsen Node.frame_core) ?_ hb.modes ?_
  · intro k e' he' c hc
    obtain ⟨e, he, rfl⟩ := Tree.exists_of_element?_modifyElement he'
    refine hb.child k e he c ?_
    split at hc
    · exact hc
    · exact hc
  · intro k e' he' hverbatim
    obtain ⟨e, he, hsame⟩ := hcore.symm.element? Node.element?_core he'
    exact (Element.isLiteral_congr hsame.symm).mpr (hb.literal k e he hverbatim)

theorem Sealed.finish {b : Builder} {id : NodeId} {rest : List NodeId} (src : Source)
    (hopened : b.opened = id :: rest) (hb : b.Sealed) (ho : b.Ordered) :
    ({ b with opened := rest }.finishElement src id).Sealed := by
  obtain ⟨e, he, hparent, -⟩ := ho.exists_innermost hopened
  obtain ⟨t, hfinished⟩ := finished_finishElement src { b with opened := rest } he
  refine hb.of_alike (hfinished.alike he) ?_ ?_ ?_
  · intro k e' he' c hc
    obtain ⟨e₀, he₀, hsubset⟩ := hfinished.children he he'
    rcases hsubset c hc with hc | ⟨rfl, hhead, -⟩
    · exact hb.child k e₀ he₀ c hc
    · exact ⟨.element e, Tree.node?_of_element? he, hparent.trans hhead⟩
  · have hmodes := hb.modes
    have hpre : b.tree.isPre id = e.pre := by simp [Tree.isPre, he]
    rw [hopened, List.countP_cons, hpre] at hmodes
    rw [hfinished.opened, hfinished.inVerbatim]
    change rest.countP b.tree.isPre = (b.inVerbatim && !e.pre).toNat
    cases hp : e.pre with
    | false => simpa [hp] using hmodes
    | true =>
        have hle := b.inVerbatim.toNat_le
        rw [if_pos hp] at hmodes
        rw [Bool.not_true, Bool.and_false, Bool.toNat_false]
        omega
  · intro k e' he' hverbatim
    cases hmode : b.inVerbatim with
    | true =>
        have hcore : b.tree.SameCore _ := hfinished.sameCore_of_verbatim he hmode
        obtain ⟨e₀, he₀, hsame⟩ := hcore.symm.element? Node.element?_core he'
        exact (Element.isLiteral_congr hsame.symm).mpr (hb.literal k e₀ he₀ hverbatim)
    | false =>
        -- then the element that is finished is outside `v-pre`, and it alone is read
        obtain ⟨e₀, he₀, hsame⟩ := hfinished.sameCore.symm.element? Node.element?_core he'
        have hne : id ≠ k := by
          rintro rfl
          exact hb.not_verbatim ho hopened hmode hverbatim
        rw [Tree.element?_modifyElement, if_neg hne] at he₀
        exact (Element.isLiteral_congr hsame.symm).mpr (hb.literal k e₀ he₀ hverbatim)

/-- **Every event keeps elements with `v-pre` sealed.** -/
theorem invariant_sealed (src : Source) : Invariant src fun b => b.Ordered ∧ b.Sealed where
  init := ⟨(invariant_ordered src).init, by
    constructor
    · simp [Tree.element?, Tree.node?]
    · simp [Tree.element?, Tree.node?]
    · rfl
    · simp [Tree.element?, Tree.node?]⟩
  agrees h hb := ⟨hb.1.agrees h, hb.2.agrees h⟩
  leaf hopened hn hb := ⟨hb.1.leaf hopened hn, hb.2.leaf hopened hn hb.1⟩
  enter tag attributes start stop hb :=
    ⟨hb.1.enter src tag attributes start stop, hb.2.enter src tag attributes start stop hb.1⟩
  stop id stop hb := ⟨hb.1.stop id stop, hb.2.stop id stop⟩
  finish hopened hb := ⟨hb.1.finish src hopened, hb.2.finish src hopened hb.1⟩

end Build.Builder

/-! ### What is below an element -/

/-- The nodes that are reached from an element through children, the element included. -/
inductive Tree.Below (t : Tree) (top : NodeId) : NodeId → Prop
  | refl : Below t top top
  | child {id c : NodeId} {e : Element} (h : Below t top id) (he : t.element? id = some e)
      (hc : c ∈ e.children) : Below t top c

namespace Build.Builder

/-- A child of an element that is rendered as it stands is a text, or is rendered as it stands. -/
theorem Sealed.child_of_verbatim {b : Builder} (hb : b.Sealed) {id c : NodeId} {e : Element}
    (hid : b.tree.Verbatim id) (he : b.tree.element? id = some e) (hc : c ∈ e.children) :
    (∃ n, b.tree.node? c = some (.text n)) ∨ b.tree.Verbatim c := by
  obtain ⟨n, hn, hfits⟩ := hb.child id e he c hc
  cases n with
  | element => exact .inr (.inside (Tree.element?_of_node? hn) hfits hid)
  | expression => exact absurd hid hfits
  | text n => exact .inl ⟨n, hn⟩

/-- **What is below an element with `v-pre`** is a text, or an element with its attributes as they
stand. -/
theorem Sealed.of_below {b : Builder} (hb : b.Sealed) {top id : NodeId} {e : Element}
    (he : b.tree.element? top = some e) (hpre : e.pre = true) (h : b.tree.Below top id) :
    (∃ n, b.tree.node? id = some (.text n)) ∨
      ∃ e', b.tree.element? id = some e' ∧ e'.IsLiteral := by
  have hcases : (∃ n, b.tree.node? id = some (.text n)) ∨ b.tree.Verbatim id := by
    induction h with
    | refl => exact .inr (.pre he hpre)
    | child _ he' hc ih =>
        rcases ih with ⟨n, hn⟩ | hverbatim
        · rw [Tree.node?_of_element? he'] at hn
          cases hn
        · exact hb.child_of_verbatim hverbatim he' hc
  rcases hcases with htext | hverbatim
  · exact .inl htext
  · obtain ⟨e', he'⟩ := hverbatim.exists_element
    exact .inr ⟨e', he', hb.literal id e' he' hverbatim⟩

end Build.Builder

end Templating
