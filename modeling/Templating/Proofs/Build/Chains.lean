import Templating.Proofs.Build.Verbatim

/-!
**Conditionals are chains.**

A conditional is kept with the element that it starts at: its first branch is that element, and
every further one is an element with `v-else` or `v-else-if`, which has no condition and no branches
of its own.

Main definitions:

* `Templating.Tree.Chain` — the branches of an element, as they should be;
* `Templating.Build.Builder.Chained` — the branches of every element are as they should be.

Main results:

* `Templating.Build.readCondition_cases` — an element has a condition or is a further branch, but
  not both;
* `Templating.Build.Builder.invariant_chained`, `Templating.Build.chain_of_parse` — **every event
  keeps conditionals chains**, so those of a template are.
-/

set_option autoImplicit false

namespace Templating

open Build Build.Builder

/-! ### Reading conditions -/

namespace Build

theorem readLoop_eq (e : Element) : ∃ pending loop, (readLoop e).1 = { e with pending, loop } := by
  obtain ⟨pending, htake⟩ := take_eq e "v-for"
  have htaken : (takeNonEmpty e "v-for").2 = { e with pending } := htake
  simp only [readLoop, htaken]
  split
  · exact ⟨pending, e.loop, rfl⟩
  · split
    · exact ⟨pending, _, rfl⟩
    · exact ⟨pending, e.loop, rfl⟩

theorem readOnce_eq (e : Element) : ∃ pending once, readOnce e = { e with pending, once } := by
  obtain ⟨pending, htake⟩ := take_eq e "v-once"
  simp only [readOnce, htake]
  split
  · exact ⟨pending, true, rfl⟩
  · exact ⟨pending, e.once, rfl⟩

/-- **An element has a condition or is a further branch**, but not both. -/
theorem readCondition_cases (e : Element) :
    (∃ pending exp, readCondition e = { e with pending, condition := some exp }) ∨
      ∃ pending isElse elseCondition,
        readCondition e = { e with pending, isElse, elseCondition } := by
  obtain ⟨pending, htake⟩ := take_eq e "v-if"
  have htaken : (takeNonEmpty e "v-if").2 = { e with pending } := htake
  simp only [readCondition, htaken]
  split
  · exact .inl ⟨pending, _, rfl⟩
  · refine .inr ?_
    obtain ⟨pending', htake'⟩ := take_eq { e with pending } "v-else"
    simp only [htake']
    generalize hotherwise : (if (take { e with pending } "v-else").1.isSome = true then
      ({ e with pending := pending', isElse := true } : Element) else { e with pending := pending' })
      = e₁
    obtain ⟨isElse, rfl⟩ : ∃ isElse, e₁ = { e with pending := pending', isElse } := by
      rw [← hotherwise]
      split
      · exact ⟨true, rfl⟩
      · exact ⟨e.isElse, rfl⟩
    obtain ⟨pending'', htake''⟩ := take_eq { e with pending := pending', isElse } "v-else-if"
    have htaken'' : (takeNonEmpty { e with pending := pending', isElse } "v-else-if").2 =
        { e with pending := pending'', isElse } := htake''
    simp only [htaken'']
    split
    · exact ⟨pending'', isElse, _, rfl⟩
    · exact ⟨pending'', isElse, e.elseCondition, rfl⟩

end Build

/-! ### Chains -/

/-- **The branches of the element `e` with the number `id`**: the first one is the element itself,
when it has a condition, and the further ones are elements without a condition. -/
structure Tree.Chain (t : Tree) (id : NodeId) (e : Element) : Prop where
  head : e.branches.head? = e.condition.map fun exp => ⟨some exp, id⟩
  further : ∀ b ∈ e.branches.drop 1, ∃ e', t.element? b.block = some e' ∧ e'.condition = none ∧
    b.condition = e'.elseCondition ∧ (e'.elseCondition.isSome || e'.isElse) = true
  exclusive : e.condition.isSome = true → e.elseCondition = none ∧ e.isElse = false

theorem Tree.Chain.branches_ne_nil {t : Tree} {id : NodeId} {e : Element} (h : t.Chain id e)
    (hcondition : e.condition.isSome = true) : e.branches ≠ [] := by
  intro hnil
  have hhead := h.head
  rw [hnil] at hhead
  obtain ⟨exp, hexp⟩ := Option.isSome_iff_exists.mp hcondition
  rw [hexp] at hhead
  cases hhead

/-- What a chain is told by: the conditions of its elements, and its branches. -/
def Element.link (e : Element) : Option String × Option String × Bool :=
  (e.condition, e.elseCondition, e.isElse)

/-- Chains can be seen with the conditions of all elements and with the branches. -/
theorem Tree.Chain.congr {t t' : Tree} (h : ∀ k e, t.element? k = some e →
    ∃ e', t'.element? k = some e' ∧ e'.link = e.link) {id : NodeId} {e e' : Element}
    (hlink : e'.link = e.link) (hbranches : e'.branches = e.branches) (hchain : t.Chain id e) :
    t'.Chain id e' := by
  obtain ⟨hcondition, hrest⟩ := Prod.mk.inj hlink
  obtain ⟨helse, hisElse⟩ := Prod.mk.inj hrest
  refine ⟨?_, ?_, ?_⟩
  · rw [hbranches, hcondition]
    exact hchain.head
  · intro b hb
    rw [hbranches] at hb
    obtain ⟨eb, heb, hnone, hexp, hbranch⟩ := hchain.further b hb
    obtain ⟨eb', heb', hlink'⟩ := h b.block eb heb
    obtain ⟨hnone', hrest'⟩ := Prod.mk.inj hlink'
    obtain ⟨hexp', hisElse'⟩ := Prod.mk.inj hrest'
    refine ⟨eb', heb', hnone'.trans hnone, hexp.trans hexp'.symm, ?_⟩
    rw [hexp', hisElse']
    exact hbranch
  · rw [hcondition, helse, hisElse]
    exact hchain.exclusive

/-- Conditions are known when an element is opened. -/
theorem Tree.Chain.alike {t t' : Tree} (h : t.Alike Node.frame t') {id : NodeId} {e e' : Element}
    (hsame : e'.core.unclosed = e.core.unclosed) (hbranches : e'.branches = e.branches)
    (hchain : t.Chain id e) : t'.Chain id e' := by
  have hlink : e'.link = e.link := (congrArg Element.link hsame :)
  refine hchain.congr (fun k ek hek => ?_) hlink hbranches
  obtain ⟨ek', hek', hsame'⟩ := h.element? Node.element?_frame hek
  exact ⟨ek', hek', (congrArg Element.link hsame' :)⟩

/-- A further branch goes to the end of a chain. -/
theorem Tree.Chain.withBranch {t : Tree} {id block : NodeId} {e eb : Element} (h : t.Chain id e)
    (hcondition : e.condition.isSome = true) (hblock : t.element? block = some eb)
    (hnone : eb.condition = none) (hbranch : (eb.elseCondition.isSome || eb.isElse) = true) :
    t.Chain id (Builder.withBranch ⟨eb.elseCondition, block⟩ e) := by
  obtain ⟨first, further, hbranches⟩ := List.exists_cons_of_ne_nil (h.branches_ne_nil hcondition)
  refine ⟨?_, ?_, h.exclusive⟩
  · have hhead := h.head
    simpa [Builder.withBranch, hbranches] using hhead
  · intro b hb
    have hb' : b ∈ e.branches.drop 1 ∨ b = ⟨eb.elseCondition, block⟩ := by
      simpa [Builder.withBranch, hbranches] using hb
    rcases hb' with hb' | rfl
    · exact h.further b hb'
    · exact ⟨eb, hblock, hnone, rfl, hbranch⟩

namespace Build.Builder

/-- **The branches of every element are as they should be.** -/
def Chained (b : Builder) : Prop := ∀ id e, b.tree.element? id = some e → b.tree.Chain id e

/-- What is created when an element is opened starts a chain of its own or none. -/
theorem chain_created (src : Source) (b : Builder) (tag : String)
    (attributes : List Markup.Attribute) (start stop : Nat) (t : Tree) :
    t.Chain b.tree.size (b.created src tag attributes start stop) := by
  have hbranches := branches_created src b tag attributes start stop
  have hexclusive : (b.created src tag attributes start stop).condition.isSome = true →
      (b.created src tag attributes start stop).elseCondition = none ∧
        (b.created src tag attributes start stop).isElse = false := by
    by_cases h : (b.inVerbatim || (b.created src tag attributes start stop).pre) = true
    · obtain ⟨_, _, _, _, _, _, _, hcreated⟩ :=
        created_of_verbatim src b tag attributes start stop h
      rw [hcreated]
      exact fun _ => ⟨rfl, rfl⟩
    · rw [pre_created] at h
      obtain ⟨_, _, _, _, _, _, hmarked⟩ := marked_eq src b tag attributes start stop
      have hread : (b.created src tag attributes start stop).condition =
          (readOnce (readCondition (readLoop (b.marked src tag attributes start stop)).1)).condition ∧
        (b.created src tag attributes start stop).elseCondition = (readOnce (readCondition
          (readLoop (b.marked src tag attributes start stop)).1)).elseCondition ∧
        (b.created src tag attributes start stop).isElse =
          (readOnce (readCondition (readLoop (b.marked src tag attributes start stop)).1)).isElse := by
        simp only [created]
        rw [if_neg h]
        exact ⟨rfl, rfl, rfl⟩
      obtain ⟨_, _, hloop⟩ := readLoop_eq (b.marked src tag attributes start stop)
      obtain ⟨_, _, honce⟩ :=
        readOnce_eq (readCondition (readLoop (b.marked src tag attributes start stop)).1)
      rw [hread.1, hread.2.1, hread.2.2, honce]
      rcases readCondition_cases (readLoop (b.marked src tag attributes start stop)).1 with
        ⟨_, _, hcondition⟩ | ⟨_, _, _, hcondition⟩
      · rw [hcondition, hloop, hmarked]
        exact fun _ => ⟨rfl, rfl⟩
      · rw [hcondition, hloop, hmarked]
        intro hsome
        cases hsome
  generalize b.created src tag attributes start stop = e at hbranches hexclusive
  refine ⟨?_, ?_, hexclusive⟩
  · rw [hbranches]
    cases e.condition <;> rfl
  · intro branch hbranch
    rw [hbranches] at hbranch
    cases hcondition : e.condition <;> simp [hcondition] at hbranch

/-- A node that is added to the table is in no chain yet. -/
theorem Chained.push {b : Builder} (hb : b.Chained) (n : Node)
    (hnew : ∀ e, n = .element e → (b.tree.push n).Chain b.tree.size e) :
    ∀ id e, (b.tree.push n).element? id = some e → (b.tree.push n).Chain id e := by
  intro id e he
  rw [Tree.element?_push] at he
  split at he
  · rename_i hid
    subst hid
    cases n with
    | element e' =>
        cases he
        exact hnew e rfl
    | expression => cases he
    | text => cases he
  · have hchain := hb id e he
    refine ⟨hchain.head, fun branch hbranch => ?_, hchain.exclusive⟩
    obtain ⟨eb, heb, hrest⟩ := hchain.further branch hbranch
    refine ⟨eb, ?_, hrest⟩
    rw [Tree.element?_push, if_neg, heb]
    intro hblock
    rw [hblock] at heb
    simp [Tree.element?, Tree.node?, Tree.size] at heb

/-- Changes that keep the branches and what is known when an element is opened. -/
theorem Chained.of_alike {t t' : Tree} (h : t.Alike Node.frame t')
    (hbranches : ∀ id e e', t.element? id = some e → t'.element? id = some e' →
      e'.branches = e.branches)
    (hb : ∀ id e, t.element? id = some e → t.Chain id e) :
    ∀ id e', t'.element? id = some e' → t'.Chain id e' := by
  intro id e' he'
  obtain ⟨e, he, hsame⟩ := h.symm.element? Node.element?_frame he'
  exact (hb id e he).alike h hsame.symm (hbranches id e e' he he')

/-- Changes of one element that keep its branches. -/
theorem Chained.modifyElement {t : Tree} {id : NodeId} {f : Element → Element}
    (hf : ∀ e, t.element? id = some e → (f e).core.unclosed = e.core.unclosed ∧
      (f e).branches = e.branches)
    (hb : ∀ id e, t.element? id = some e → t.Chain id e) :
    ∀ k e', (t.modifyElement id f).element? k = some e' → (t.modifyElement id f).Chain k e' := by
  refine Chained.of_alike (Tree.Alike.modifyElement t id fun e he => ?_) ?_ hb
  · simp only [Node.frame, (hf e he).1]
  · intro k e e' he he'
    obtain ⟨e₀, he₀, rfl⟩ := Tree.exists_of_element?_modifyElement he'
    obtain rfl : e = e₀ := by simpa [he] using he₀
    split
    · rename_i hk
      subst hk
      exact (hf e he).2
    · rfl

/-- A further branch goes to the end of the chain that starts at `root`. -/
theorem Chained.withBranch {t : Tree} {root id : NodeId} {first e : Element}
    (hb : ∀ id e, t.element? id = some e → t.Chain id e) (hfirst : t.element? root = some first)
    (hcondition : first.condition.isSome = true) (he : t.element? id = some e)
    (hbranch : (e.elseCondition.isSome || e.isElse) = true) :
    ∀ k e', (t.modifyElement root (Builder.withBranch ⟨e.elseCondition, id⟩)).element? k = some e' →
      (t.modifyElement root (Builder.withBranch ⟨e.elseCondition, id⟩)).Chain k e' := by
  have hframe : t.Alike Node.frame
      (t.modifyElement root (Builder.withBranch ⟨e.elseCondition, id⟩)) :=
    Tree.Alike.modifyElement t root fun _ _ => rfl
  have hnone : e.condition = none := by
    cases hcond : e.condition with
    | none => rfl
    | some exp =>
        obtain ⟨helse, hisElse⟩ := (hb id e he).exclusive (by simp [hcond])
        simp [helse, hisElse] at hbranch
  intro k e' he'
  obtain ⟨e₀, he₀, rfl⟩ := Tree.exists_of_element?_modifyElement he'
  split
  · rename_i hk
    subst hk
    obtain rfl : first = e₀ := by simpa [hfirst] using he₀
    exact ((hb root first hfirst).withBranch hcondition he hnone hbranch).alike hframe rfl rfl
  · exact (hb k e₀ he₀).alike hframe rfl rfl

theorem Chained.init : Chained {} := by
  simp [Chained, Tree.element?, Tree.node?]

/-- A leaf is in no chain. -/
theorem Chained.leaf {src : Source} {b : Builder} {parent : NodeId} {n : Node}
    (hn : b.Admits src n) (hb : b.Chained) : (b.append parent n).Chained := by
  refine Chained.modifyElement (fun _ _ => ⟨rfl, rfl⟩) (hb.push n ?_)
  rintro e rfl
  exact hn.elim

theorem Chained.stop {b : Builder} (id : NodeId) (stop : Nat) (hb : b.Chained) :
    Chained { b with tree := b.tree.modifyElement id fun e => { e with stop := some stop } } :=
  Chained.modifyElement (fun _ _ => ⟨rfl, rfl⟩) hb

/-- **Attaching an element** keeps conditionals chains. -/
theorem Chained.attached {t t' : Tree} {opened : List NodeId} {id : NodeId} {e : Element}
    (hb : ∀ id e, t.element? id = some e → t.Chain id e) (he : t.element? id = some e)
    (h : Attached t opened id e t') : ∀ k e', t'.element? k = some e' → t'.Chain k e' := by
  have hdropped : ∀ parent k e', (t.modifyElement parent (dropLeaves t)).element? k = some e' →
      (t.modifyElement parent (dropLeaves t)).Chain k e' :=
    fun parent => Chained.modifyElement (fun _ _ => ⟨rfl, rfl⟩) hb
  cases h with
  | nothing => exact hb
  | child => exact Chained.modifyElement (fun _ _ => ⟨rfl, rfl⟩) hb
  | orphan => exact hdropped _
  | @branch parent prev rest pe first _ _ hbranch _ _ hfirst hcondition =>
      -- dropping leaves leaves the finished element as it is, but for its children
      have hframe : t.Alike Node.frame (t.modifyElement parent (dropLeaves t)) :=
        Tree.Alike.modifyElement t parent fun _ _ => rfl
      obtain ⟨e', he', hsame⟩ := hframe.element? Node.element?_frame he
      have helse : e'.elseCondition = e.elseCondition := (congrArg Element.elseCondition hsame :)
      have hisElse : e'.isElse = e.isElse := (congrArg Element.isElse hsame :)
      rw [← helse, ← hisElse] at hbranch
      rw [← helse]
      exact Chained.withBranch (hdropped parent) hfirst hcondition he' hbranch
  | root _ _ _ hfirst hcondition hbranch =>
      exact Chained.withBranch hb hfirst hcondition he hbranch

theorem branches_trimmed (b : Builder) (e : Element) : (b.trimmed e).branches = e.branches := by
  unfold trimmed
  split <;> rfl

theorem branches_completed (src : Source) (b : Builder) (id : NodeId) (e : Element) :
    (b.completed src id e).branches = e.branches := by
  have hread : (b.completed src id e).branches = (b.trimmed e).branches :=
    (congrArg Element.branches (unclosed_completed src b id e) :)
  rw [hread, branches_trimmed]

/-- An element that is opened starts a chain of its own or none. -/
theorem Chained.enter {b : Builder} (src : Source) (tag : String)
    (attributes : List Markup.Attribute) (start stop : Nat) (hb : b.Chained) :
    (b.enter src (b.created src tag attributes start stop)).Chained := by
  have hpush := hb.push (.element (b.created src tag attributes start stop)) (by
    intro e he
    cases he
    exact chain_created src b tag attributes start stop _)
  exact Chained.of_alike (t := b.tree.push (.element (b.created src tag attributes start stop)))
    (fun _ => rfl) (fun id e e' he he' => by
      have hsame : some e = some e' := he.symm.trans he'
      cases hsame
      rfl) hpush

/-- Completing an element keeps its chain. -/
theorem Chained.completed {b : Builder} (src : Source) {id : NodeId} {e : Element}
    (he : b.tree.element? id = some e) (hb : b.Chained) :
    ∀ k e', (b.tree.modifyElement id fun _ => b.completed src id e).element? k = some e' →
      (b.tree.modifyElement id fun _ => b.completed src id e).Chain k e' := by
  refine Chained.modifyElement (fun e' he' => ?_) hb
  obtain rfl : e = e' := by simpa [he] using he'
  exact ⟨frame_completed src b id e, branches_completed src b id e⟩

/-- **Finishing an element** keeps conditionals chains. -/
theorem Chained.finish {b : Builder} {id : NodeId} {rest : List NodeId} (src : Source)
    (hb : b.Chained) : ({ b with opened := rest }.finishElement src id).Chained := by
  have hb : Chained { b with opened := rest } := hb
  generalize ({ b with opened := rest } : Builder) = c at hb
  cases hid : c.tree.element? id with
  | none =>
      unfold Chained
      rw [(agrees_finishElement_of_none src c hid).tree]
      exact hb
  | some e =>
      obtain ⟨t, hfinished⟩ := finished_finishElement src c hid
      have he' : (c.tree.modifyElement id fun _ => c.completed src id e).element? id =
          some (c.completed src id e) := by
        rw [Tree.element?_modifyElement, if_pos rfl, hid]
        rfl
      have hattached := Chained.attached (hb.completed src hid) he' hfinished.attached
      unfold Chained
      rw [hfinished.tree]
      refine Chained.modifyElement (fun e _ => ?_) hattached
      exact ⟨congrArg Element.unclosed (core_trimmed _ e), branches_trimmed _ e⟩

/-- **Every event keeps conditionals chains.** -/
theorem invariant_chained (src : Source) : Invariant src Chained where
  init := Chained.init
  agrees hagrees hb := by
    unfold Chained
    rw [hagrees.tree]
    exact hb
  leaf _ hn hb := hb.leaf hn
  enter tag attributes start stop hb := hb.enter src tag attributes start stop
  stop id stop hb := hb.stop id stop
  finish _ hb := hb.finish src

end Build.Builder

/-- **The conditionals of a template are chains.** -/
theorem Build.chain_of_parse {settings : Settings} {template : String} {parsed : Parsed}
    (h : parse settings template = .ok parsed) {id : NodeId} {e : Element}
    (he : parsed.tree.element? id = some e) : parsed.tree.Chain id e := by
  obtain ⟨b, hb, htree⟩ := Invariant.of_parse invariant_chained h
  rw [← htree] at he ⊢
  exact hb id e he

end Templating
