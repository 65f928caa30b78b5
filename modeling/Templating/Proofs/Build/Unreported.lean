import Templating.Proofs.Build.Quiet
import Templating.Proofs.Build.Verbatim
import Templating.Proofs.Markup.Balance

/-!
**Properties of a tree that is built without reports.**

Many things hold only as long as nothing is reported, for instance that every element is attached.
Reports are never taken back, so when there are none in the end there were none before, and such a
property needs to be kept only by what an event can do without a report.

Main definitions:

* `Templating.Build.Builder.QuietInvariant` — a property that everything an event does without a
  report keeps;
* `Templating.Build.Builder.Calm` — a builder without reports that has such a property.

Main results:

* `Templating.Build.Builder.QuietInvariant.step` — **an event without a report keeps it**;
* `Templating.Build.Builder.QuietInvariant.run` — it holds after all events, when there are no
  reports then;
* `Templating.Build.Builder.opened_run` — in the end no element is open, with reports or without.
-/

set_option autoImplicit false

namespace Templating.Build.Builder

/-! ### Invariants of quiet builders -/

/-- A property that everything an event does without a report keeps. -/
structure QuietInvariant (src : Source) (I : Builder → Prop) : Prop where
  init : I {}
  agrees : ∀ {b b' : Builder}, b.Agrees b' → I b → I b'
  leaf : ∀ {b : Builder} {parent : NodeId} {rest : List NodeId} {n : Node}, b.Ordered →
    b.opened = parent :: rest → b.Admits src n → I b → I (b.append parent n)
  enter : ∀ {b : Builder} (tag : String) (attributes : List Markup.Attribute) (start stop : Nat),
    b.Ordered → I b → I (b.enter src (b.created src tag attributes start stop))
  stop : ∀ {b : Builder} (id : NodeId) (stop : Nat), I b →
    I { b with tree := b.tree.modifyElement id fun e => { e with stop := some stop } }
  finish : ∀ {b : Builder} {id : NodeId} {rest : List NodeId} {e : Element} {t : Tree}, b.Ordered →
    b.opened = id :: rest → b.tree.element? id = some e →
    Finished src { b with opened := rest } id e t ({ b with opened := rest }.finishElement src id) →
    Joined (b.tree.modifyElement id fun _ => completed src { b with opened := rest } id e) rest id
      (completed src { b with opened := rest } id e) t →
    I b → I ({ b with opened := rest }.finishElement src id)

/-- A builder without reports, in which no element is forbidden, and that has a property. -/
structure Calm (I : Builder → Prop) (b : Builder) : Prop where
  quiet : b.Quiet
  ordered : b.Ordered
  permitted : ∀ id e, b.tree.element? id = some e → e.forbidden = false
  holds : I b

variable {src : Source} {I : Builder → Prop} {b : Builder}

/-- Whether an element is forbidden is known when it is opened. -/
theorem permitted_of_alike {t t' : Tree} (h : t.Alike Node.frame t')
    (ht : ∀ id e, t.element? id = some e → e.forbidden = false) :
    ∀ id e, t'.element? id = some e → e.forbidden = false := by
  intro id e' he'
  obtain ⟨e, he, hsame⟩ := h.symm.element? Node.element?_frame he'
  have hforbidden : e'.forbidden = e.forbidden := (congrArg Element.forbidden hsame.symm :)
  rw [hforbidden]
  exact ht id e he

/-- A node that is added leaves the elements that are there. -/
theorem permitted_push {t : Tree} {n : Node} (hn : ∀ e, n = .element e → e.forbidden = false)
    (ht : ∀ id e, t.element? id = some e → e.forbidden = false) :
    ∀ id e, (t.push n).element? id = some e → e.forbidden = false := by
  intro id e he
  rw [Tree.element?_push] at he
  split at he
  · cases n with
    | element e' =>
        cases he
        exact hn e rfl
    | expression => cases he
    | text => cases he
  · exact ht id e he

namespace Calm

theorem leaf (hI : QuietInvariant src I) (hb : b.Calm I) {parent : NodeId} {rest : List NodeId}
    {n : Node} (hopened : b.opened = parent :: rest) (hn : b.Admits src n) :
    (b.append parent n).Calm I := by
  refine ⟨⟨hb.quiet.problems, hb.quiet.rootReported⟩, hb.ordered.leaf hopened hn, ?_,
    hI.leaf hb.ordered hopened hn hb.holds⟩
  have hpush : ∀ id e, (b.tree.push n).element? id = some e → e.forbidden = false := by
    refine permitted_push ?_ hb.permitted
    rintro e rfl
    exact hn.elim
  exact permitted_of_alike (Tree.Alike.modifyElement _ _ fun _ _ => rfl) hpush

theorem enter (hI : QuietInvariant src I) (hb : b.Calm I) (tag : String)
    (attributes : List Markup.Attribute) (start stop : Nat)
    (hforbidden : (b.created src tag attributes start stop).forbidden = false) :
    (b.enter src (b.created src tag attributes start stop)).Calm I := by
  refine ⟨⟨hb.quiet.problems, hb.quiet.rootReported⟩,
    hb.ordered.enter src tag attributes start stop, ?_,
    hI.enter tag attributes start stop hb.ordered hb.holds⟩
  refine permitted_push ?_ hb.permitted
  intro e he
  cases he
  exact hforbidden

theorem stop (hI : QuietInvariant src I) (hb : b.Calm I) (id : NodeId) (stop : Nat) :
    Calm I { b with tree := b.tree.modifyElement id fun e => { e with stop := some stop } } :=
  ⟨⟨hb.quiet.problems, hb.quiet.rootReported⟩, hb.ordered.stop id stop,
    permitted_of_alike (Tree.Alike.modifyElement _ _ fun _ _ => rfl) hb.permitted,
    hI.stop id stop hb.holds⟩

/-- **Finishing the innermost element** without a report. -/
theorem finish (hI : QuietInvariant src I) (hb : b.Calm I) {id : NodeId} {rest : List NodeId}
    (hopened : b.opened = id :: rest)
    (h : ({ b with opened := rest }.finishElement src id).problems = []) :
    ({ b with opened := rest }.finishElement src id).Calm I := by
  have hstacked := hb.ordered.stacked
  rw [hopened] at hstacked
  cases hstacked with
  | cons hlinks =>
      obtain ⟨e, he, -⟩ := Tree.links?_eq_some_some_iff.mp hlinks
      have hquiet : Quiet { b with opened := rest } := ⟨hb.quiet.problems, hb.quiet.rootReported⟩
      obtain ⟨hquiet', t, hfinished, hjoined⟩ :=
        hquiet.finishElement he (hb.permitted id e he) h
      exact ⟨hquiet', hb.ordered.finish src hopened,
        permitted_of_alike (hfinished.alike he) hb.permitted,
        hI.finish hb.ordered hopened he hfinished hjoined hb.holds⟩

theorem openElement (hI : QuietInvariant src I) (hb : b.Calm I) (tag : String)
    (attributes : List Markup.Attribute) (unary : Bool) (start stop : Nat)
    (h : (b.openElement src tag attributes unary start stop).problems = []) :
    (b.openElement src tag attributes unary start stop).Calm I := by
  have hopen : (b.openElement src tag attributes false start stop).problems = [] →
      (b.openElement src tag attributes false start stop).Calm I := by
    intro h
    obtain ⟨hforbidden, heq⟩ := hb.quiet.openElement h
    rw [heq]
    exact hb.enter hI tag attributes start stop hforbidden
  cases unary with
  | false => exact hopen h
  | true =>
      rw [openElement_unary] at h ⊢
      have hopened := (agrees_openElement src b tag attributes start stop).opened
      generalize b.openElement src tag attributes false start stop = c at h hopen hopened ⊢
      have hprefix := (keeps_finishElement src { c with opened := b.opened } b.tree.size).problems
      rw [h] at hprefix
      exact (hopen (List.prefix_nil.mp hprefix)).finish hI hopened h

theorem closeInnermost (hI : QuietInvariant src I) (hb : b.Calm I) (stop : Nat)
    (h : (b.closeInnermost src stop).problems = []) : (b.closeInnermost src stop).Calm I := by
  simp only [Builder.closeInnermost] at h ⊢
  split
  · exact hb
  · rename_i id rest hopened
    rw [hopened] at h
    dsimp only at h
    split
    · rename_i hranges
      rw [if_pos hranges] at h
      exact (hb.stop hI id stop).finish hI hopened h
    · rename_i hranges
      rw [if_neg hranges] at h
      exact hb.finish hI hopened h

/-- Text outside of the root is dropped, and other text becomes a leaf or nothing. -/
theorem addText (hI : QuietInvariant src I) (hb : b.Calm I) (text : String) (start stop : Nat)
    (h : (b.addText src text start stop).problems = []) :
    (b.addText src text start stop).Calm I := by
  rcases addText_cases src b text start stop with hagrees | ⟨parent, rest, n, hopened, hn, heq⟩
  · have hreported : (b.addText src text start stop).rootReported = false := by
      cases hopened : b.opened with
      | nil =>
          have hstray : b.addText src text start stop = b.strayText src text start := by
            simp only [Builder.addText, hopened]
          rw [hstray] at h ⊢
          rw [(hb.quiet.strayText h).1]
          exact hb.quiet.rootReported
      | cons parent rest =>
          simp only [Builder.addText, hopened]
          split
          · exact hb.quiet.rootReported
          · split
            · exact hb.quiet.rootReported
            · split
              · exact hb.quiet.rootReported
              · split <;> exact hb.quiet.rootReported
    refine ⟨⟨h, hreported⟩, hb.ordered.agrees hagrees, ?_, hI.agrees hagrees hb.holds⟩
    rw [hagrees.tree]
    exact hb.permitted
  · rw [heq]
    exact hb.leaf hI hopened hn

theorem addComment (hI : QuietInvariant src I) (hb : b.Calm I) (text : String)
    (start stop : Nat) : (b.addComment src text start stop).Calm I := by
  unfold Builder.addComment
  split
  · exact hb
  · rename_i parent rest hopened
    exact hb.leaf hI hopened rfl

end Calm

namespace QuietInvariant

/-- **An event without a report keeps an invariant.** -/
theorem step (hI : QuietInvariant src I) (hb : b.Calm I) (event : Markup.Event)
    (h : (b.step src event).problems = []) : (b.step src event).Calm I := by
  cases event with
  | problem d => simp [Builder.step, report] at h
  | token t =>
      cases t with
      | startTag tag attributes unary start stop =>
          exact hb.openElement hI tag attributes unary start stop h
      | endTag name start stop => exact hb.closeInnermost hI stop h
      | text text start stop => exact hb.addText hI text start stop h
      | comment text start stop => exact hb.addComment hI text start stop
      | doctype => exact hb

/-- **An invariant holds after all events**, when nothing is reported then. -/
theorem run (hI : QuietInvariant src I) (events : List Markup.Event)
    (h : (Builder.run src events).problems = []) : I (Builder.run src events) := by
  suffices hfold : ∀ b : Builder, b.Calm I → (events.foldl (Builder.step src) b).problems = [] →
      (events.foldl (Builder.step src) b).Calm I by
    have hinit : Calm I {} :=
      ⟨⟨rfl, rfl⟩, Ordered.init, by simp [Tree.element?, Tree.node?], hI.init⟩
    exact (hfold {} hinit h).holds
  clear h
  induction events with
  | nil => exact fun b hb _ => hb
  | cons event events ih =>
      intro b hb h
      -- a report of this event would still be there in the end
      have hprefix := problems_foldl src events (b.step src event)
      rw [show (events.foldl (Builder.step src) (b.step src event)).problems = [] from h] at hprefix
      exact ih _ (hI.step hb event (List.prefix_nil.mp hprefix)) h

end QuietInvariant

/-! ### Open elements -/

theorem opened_finishElement (src : Source) (b : Builder) (id : NodeId) :
    (b.finishElement src id).opened = b.opened := by
  cases he : b.tree.element? id with
  | none => exact (agrees_finishElement_of_none src b he).opened
  | some e =>
      obtain ⟨t, hfinished⟩ := finished_finishElement src b he
      exact hfinished.opened

/-- A token opens and closes as many elements as it does on a stack of names. -/
theorem length_opened_addToken {t : Markup.Token} {stack stack' : List String}
    (hreplay : t.replay stack = some stack') (hb : b.opened.length = stack.length) :
    (b.addToken src t).opened.length = stack'.length := by
  cases t with
  | startTag tag attributes unary start stop =>
      cases hreplay
      have hopened := (agrees_openElement src b tag attributes start stop).opened
      cases unary with
      | false =>
          rw [addToken, hopened]
          simpa [enter] using hb
      | true =>
          rw [addToken, openElement_unary, opened_finishElement]
          exact hb
  | endTag name start stop =>
      cases stack with
      | nil => cases hreplay
      | cons top stack =>
          simp only [Markup.Token.replay] at hreplay
          split at hreplay
          · cases hreplay
            simp only [addToken, closeInnermost]
            split
            · rename_i hnil
              simp [hnil] at hb
            · rename_i id rest hopened
              rw [hopened] at hb
              rw [opened_finishElement]
              split <;> simpa using hb
          · cases hreplay
  | text text start stop =>
      cases hreplay
      rcases addText_cases src b text start stop with hagrees | ⟨parent, rest, n, -, -, heq⟩
      · rw [addToken, hagrees.opened, hb]
      · rw [addToken, heq]
        exact hb
  | comment text start stop =>
      cases hreplay
      rcases addComment_cases src b text start stop with hagrees | ⟨parent, rest, n, -, -, heq⟩
      · rw [addToken, hagrees.opened, hb]
      · rw [addToken, heq]
        exact hb
  | doctype =>
      cases hreplay
      exact hb

/-- **In the end no element is open.** -/
theorem opened_run {events : List Markup.Event}
    (h : Markup.replay (Markup.tokens events) [] = some []) :
    (Builder.run src events).opened = [] := by
  suffices hfold : ∀ (b : Builder) (stack : List String), b.opened.length = stack.length →
      Markup.replay (Markup.tokens events) stack = some [] →
      (events.foldl (Builder.step src) b).opened = [] from hfold {} [] rfl h
  clear h
  induction events with
  | nil =>
      intro b stack hb hreplay
      cases hreplay
      exact List.length_eq_zero_iff.mp hb
  | cons event events ih =>
      intro b stack hb hreplay
      cases event with
      | problem d => exact ih _ stack hb hreplay
      | token t =>
          rw [Markup.tokens_token_cons, Markup.replay_cons] at hreplay
          obtain ⟨stack', hstep, hrest⟩ := Option.bind_eq_some_iff.mp hreplay
          exact ih _ stack' (length_opened_addToken hstep hb) hrest

end Templating.Build.Builder
