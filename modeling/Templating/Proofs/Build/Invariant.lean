import Templating.Proofs.Build.Finishing

/-!
**Invariants of building a tree.**

Reports aside, an event does one of four things: it adds a leaf to the innermost open element, it
adds an element that is open from then on, it records where an element ends, or it finishes the
innermost open element.  A property that each of the four keeps holds of the tree of every template.

Main definitions:

* `Templating.Build.Builder.Invariant` — a property that everything an event does keeps.

Main results:

* `Templating.Build.Builder.step_cases` — **what an event can do**;
* `Templating.Build.Builder.Invariant.step` — an event keeps an invariant;
* `Templating.Build.Builder.Invariant.run`, `Templating.Build.Builder.Invariant.of_parse` — **an
  invariant holds after all events**;
* `Templating.Build.Builder.Invariant.of_element`, `Templating.Build.Builder.Invariant.of_leaf` —
  invariants about single elements and about single leaves.
-/

set_option autoImplicit false

namespace Templating.Build.Builder

/-- **What an event can do**: it reports at most, adds a leaf to the innermost open element, opens
an element, or closes the innermost one. -/
theorem step_cases (src : Source) (b : Builder) (event : Markup.Event) :
    b.Agrees (b.step src event) ∨
      (∃ parent rest n, b.opened = parent :: rest ∧ b.Admits src n ∧
        b.step src event = b.append parent n) ∨
      (∃ tag attributes unary start stop,
        b.step src event = b.openElement src tag attributes unary start stop) ∨
      ∃ id rest stop, b.opened = id :: rest ∧ b.step src event = b.closeInnermost src stop := by
  cases event with
  | problem d => exact .inl (b.agrees_report d)
  | token token =>
      cases token with
      | startTag tag attributes unary start stop =>
          exact .inr (.inr (.inl ⟨tag, attributes, unary, start, stop, rfl⟩))
      | endTag name start stop =>
          cases hopened : b.opened with
          | nil =>
              refine .inl ?_
              simp only [step, addToken, closeInnermost, hopened]
              exact .refl b
          | cons id rest => exact .inr (.inr (.inr ⟨id, rest, stop, rfl, rfl⟩))
      | text text start stop => exact (addText_cases src b text start stop).imp_right .inl
      | comment text start stop => exact (addComment_cases src b text start stop).imp_right .inl
      | doctype => exact .inl (.refl b)

/-- A property that everything an event does keeps. -/
structure Invariant (src : Source) (I : Builder → Prop) : Prop where
  init : I {}
  agrees : ∀ {b b' : Builder}, b.Agrees b' → I b → I b'
  leaf : ∀ {b : Builder} {parent : NodeId} {rest : List NodeId} {n : Node},
    b.opened = parent :: rest → b.Admits src n → I b → I (b.append parent n)
  enter : ∀ {b : Builder} (tag : String) (attributes : List Markup.Attribute) (start stop : Nat),
    I b → I (b.enter src (b.created src tag attributes start stop))
  stop : ∀ {b : Builder} (id : NodeId) (stop : Nat), I b →
    I { b with tree := b.tree.modifyElement id fun e => { e with stop := some stop } }
  finish : ∀ {b : Builder} {id : NodeId} {rest : List NodeId}, b.opened = id :: rest → I b →
    I ({ b with opened := rest }.finishElement src id)

namespace Invariant

variable {src : Source} {I : Builder → Prop}

/-- A start tag keeps an invariant. -/
theorem openElement (hI : Invariant src I) {b : Builder} (h : I b) (tag : String)
    (attributes : List Markup.Attribute) (unary : Bool) (start stop : Nat) :
    I (b.openElement src tag attributes unary start stop) := by
  have hagrees := agrees_openElement src b tag attributes start stop
  have hopen : I (b.openElement src tag attributes false start stop) :=
    hI.agrees hagrees (hI.enter tag attributes start stop h)
  cases unary with
  | false => exact hopen
  | true =>
      -- opened first, then finished at once
      rw [openElement_unary]
      exact hI.finish hagrees.opened hopen

/-- An end tag keeps an invariant. -/
theorem closeInnermost (hI : Invariant src I) {b : Builder} (h : I b) (stop : Nat) :
    I (b.closeInnermost src stop) := by
  simp only [Builder.closeInnermost]
  split
  · exact h
  · rename_i id rest hopened
    split
    · exact hI.finish (b := { b with
        tree := b.tree.modifyElement id fun e => { e with stop := some stop } }) hopened
        (hI.stop id stop h)
    · exact hI.finish hopened h

/-- **An event keeps an invariant.** -/
theorem step (hI : Invariant src I) {b : Builder} (h : I b) (event : Markup.Event) :
    I (b.step src event) := by
  rcases step_cases src b event with hagrees | ⟨parent, rest, n, hopened, hn, heq⟩ |
    ⟨tag, attributes, unary, start, stop, heq⟩ | ⟨id, rest, stop, -, heq⟩
  · exact hI.agrees hagrees h
  · rw [heq]
    exact hI.leaf hopened hn h
  · rw [heq]
    exact hI.openElement h tag attributes unary start stop
  · rw [heq]
    exact hI.closeInnermost h stop

/-- **An invariant holds after all events.** -/
theorem run (hI : Invariant src I) (events : List Markup.Event) : I (Builder.run src events) := by
  suffices hfold : ∀ b, I b → I (events.foldl (Builder.step src) b) from hfold {} hI.init
  induction events with
  | nil => exact fun b h => h
  | cons event events ih => exact fun b h => ih _ (hI.step h event)

/-- An invariant holds of a builder with the tree of a template. -/
theorem of_parse (hI : ∀ src, Invariant src I)
    {settings : Settings} {template : String} {parsed : Parsed}
    (h : parse settings template = .ok parsed) : ∃ b : Builder, I b ∧ b.tree = parsed.tree := by
  unfold parse at h
  split at h
  · cases h
  · cases h
    exact ⟨_, (hI _).run _, rfl⟩

/-- Two invariants hold together. -/
theorem and {J : Builder → Prop} (hI : Invariant src I) (hJ : Invariant src J) :
    Invariant src fun b => I b ∧ J b where
  init := ⟨hI.init, hJ.init⟩
  agrees hagrees h := ⟨hI.agrees hagrees h.1, hJ.agrees hagrees h.2⟩
  leaf hopened hn h := ⟨hI.leaf hopened hn h.1, hJ.leaf hopened hn h.2⟩
  enter tag attributes start stop h :=
    ⟨hI.enter tag attributes start stop h.1, hJ.enter tag attributes start stop h.2⟩
  stop id stop h := ⟨hI.stop id stop h.1, hJ.stop id stop h.2⟩
  finish hopened h := ⟨hI.finish hopened h.1, hJ.finish hopened h.2⟩

/-- **A property of single elements** that does not depend on other nodes holds of every element
when it holds of those that are created and when reading directives keeps it. -/
theorem of_element {P : Element → Prop} (hcore : ∀ e e' : Element, e'.core = e.core → P e → P e')
    (hcreated : ∀ (b : Builder) (tag : String) (attributes : List Markup.Attribute)
      (start stop : Nat), P (b.created src tag attributes start stop))
    (hread : ∀ (inFor : Bool) (e : Element), P e → P (readDirectives src.delimiters inFor e).1) :
    Invariant src fun b => ∀ id e, b.tree.element? id = some e → P e where
  init := by simp [Tree.element?, Tree.node?]
  agrees hagrees h := by rwa [hagrees.tree]
  leaf := by
    intro b parent rest n _ hn h id e he
    obtain ⟨e₀, he₀, hsame⟩ := Tree.Alike.element? Node.element?_core
      (Tree.sameCore_modifyElement (b.tree.push n) parent
        (f := fun e => { e with children := e.children ++ [b.tree.size] }) fun _ => rfl).symm he
    rw [Tree.element?_push] at he₀
    split at he₀
    · cases n with
      | element => exact hn.elim
      | expression => cases he₀
      | text => cases he₀
    · exact hcore e₀ e hsame.symm (h id e₀ he₀)
  enter := by
    intro b tag attributes start stop h id e he
    have hpush : (b.tree.push (.element (b.created src tag attributes start stop))).element? id =
        some e := he
    rw [Tree.element?_push] at hpush
    split at hpush
    · cases hpush
      exact hcreated b tag attributes start stop
    · exact h id e hpush
  stop := by
    intro b id stop h k e he
    obtain ⟨e₀, he₀, hsame⟩ := Tree.Alike.element? Node.element?_core
      (Tree.sameCore_modifyElement b.tree id
        (f := fun e => { e with stop := some stop }) fun _ => rfl).symm he
    exact hcore e₀ e hsame.symm (h k e₀ he₀)
  finish := by
    intro b id rest _ h k e he
    cases hid : b.tree.element? id with
    | none =>
        have hagrees := agrees_finishElement_of_none src { b with opened := rest } hid
        rw [hagrees.tree] at he
        exact h k e he
    | some e₁ =>
        have hcompleted : P (completed src { b with opened := rest } id e₁) := by
          have htrimmed := hcore e₁ _ (core_trimmed { b with opened := rest } e₁) (h id e₁ hid)
          unfold completed
          split
          · exact htrimmed
          · exact hread _ _ htrimmed
        obtain ⟨t, hfinished⟩ := finished_finishElement src { b with opened := rest } hid
        obtain ⟨e₀, he₀, hsame⟩ :=
          Tree.Alike.element? Node.element?_core hfinished.sameCore.symm he
        refine hcore e₀ e hsame.symm ?_
        rw [Tree.element?_modifyElement] at he₀
        split at he₀
        · rename_i hk
          obtain rfl : id = k := hk
          rw [hid] at he₀
          cases he₀
          exact hcompleted
        · exact h k e₀ he₀

/-- **A property of single leaves** holds of every leaf when it holds of those that may be added. -/
theorem of_leaf {P : Node → Prop} (hadmits : ∀ (b : Builder) (n : Node), b.Admits src n → P n) :
    Invariant src fun b => ∀ id n, b.tree.node? id = some n → n.element? = none → P n := by
  -- whatever happens to elements, a leaf stays as it is
  have hsame : ∀ {t t' : Tree}, t.SameCore t' →
      (∀ id n, t.node? id = some n → n.element? = none → P n) →
      ∀ id n, t'.node? id = some n → n.element? = none → P n := by
    intro t t' hcore h id n' hn' hleaf
    obtain ⟨n, hn, hview⟩ := hcore.symm.node? hn'
    have heq : n = n' := by
      cases n' with
      | element => cases hleaf
      | expression => cases n <;> simp_all [Node.core]
      | text => cases n <;> simp_all [Node.core]
    exact heq ▸ h id n hn (heq ▸ hleaf)
  refine ⟨by simp [Tree.node?], ?_, ?_, ?_, ?_, ?_⟩
  · intro b b' hagrees h
    rwa [hagrees.tree]
  · intro b parent rest n _ hn h
    refine hsame (Tree.sameCore_modifyElement (b.tree.push n) parent fun _ => rfl) ?_
    intro id n' hn' hleaf
    rw [Tree.node?_push] at hn'
    split at hn'
    · cases hn'
      exact hadmits b n hn
    · exact h id n' hn' hleaf
  · intro b tag attributes start stop h id n hn hleaf
    change (b.tree.push _).node? id = some n at hn
    rw [Tree.node?_push] at hn
    split at hn
    · cases hn
      cases hleaf
    · exact h id n hn hleaf
  · intro b id stop h
    exact hsame (Tree.sameCore_modifyElement b.tree id fun _ => rfl) h
  · intro b id rest _ h
    cases hid : b.tree.element? id with
    | none =>
        rw [(agrees_finishElement_of_none src { b with opened := rest } hid).tree]
        exact h
    | some e =>
        obtain ⟨t, hfinished⟩ := finished_finishElement src { b with opened := rest } hid
        refine hsame hfinished.sameCore fun k n hn hleaf => h k n ?_ hleaf
        rw [Tree.node?_modifyElement] at hn
        split at hn
        · obtain ⟨n₀, hn₀, rfl⟩ := Option.map_eq_some_iff.mp hn
          cases n₀ with
          | element => cases hleaf
          | expression => exact hn₀
          | text => exact hn₀
        · exact hn

end Invariant

end Templating.Build.Builder
