import Templating.Proofs.Build.Children

/-!
**Where blanks are kept.**

Inside of an element with a preformatted tag blanks are kept.  While the tree is built this is kept
in a single mark: a preformatted element turns it on when it is opened, and off when it is closed,
whatever else is open.  So the mark follows the open elements as long as no preformatted element
stands inside of another one; when one does, its end turns the mark off for the rest of the other.

While the mark is on, no text is collapsed and no element is trimmed.  Blanks get lost all the same:
a space behind a space, as when a comment stands between them, and the text in front of a branch of
a conditional, which is dropped inside of a preformatted element as it is anywhere else.

Main definitions:

* `Templating.Tree.keepsBlanks` — a preformatted element;
* `Templating.Build.Unbroken` — an open element has a flag, and all later ones with it are open too;
* `Templating.Build.Builder.PreMode` — what the mark says about the open elements;
* `Templating.Build.Builder.KeepsText` — which texts become nodes, and which nodes stay.

Main results:

* `Templating.Build.Builder.invariant_preMode` — **every event keeps the mark in step**;
* `Templating.Build.Builder.KeepsText.of_inPre` — what becomes of texts while the mark is on;
* `Templating.Build.Builder.inPre_run` — **when blanks are kept, and what is lost all the same**.
-/

set_option autoImplicit false

namespace Templating

open Build Build.Builder

/-! ### Preformatted elements -/

/-- Whether a node is an element with a preformatted tag. -/
def Tree.keepsBlanks (isPre : String → Bool) (t : Tree) (id : NodeId) : Bool :=
  (t.element? id).any fun e => isPre e.tag

namespace Tree

variable {isPre : String → Bool} {t t' : Tree}

theorem keepsBlanks_of_element? {id : NodeId} {e : Element} (he : t.element? id = some e) :
    t.keepsBlanks isPre id = isPre e.tag := by
  simp [keepsBlanks, he]

theorem exists_of_keepsBlanks {id : NodeId} (h : t.keepsBlanks isPre id = true) :
    ∃ e, t.element? id = some e := by
  obtain ⟨e, he, -⟩ := (Option.any_eq_true _ _).mp h
  exact ⟨e, he⟩

/-- The tag of an element is known when it is opened. -/
theorem Grows.keepsBlanks (h : t.Grows t') {k : Nat} (hk : k < t.size) :
    t'.keepsBlanks isPre k = t.keepsBlanks isPre k := by
  have hmap := h.map_element? hk
  unfold Tree.keepsBlanks
  cases he : t.element? k with
  | none =>
      rw [he, Option.map_none, Option.map_eq_none_iff] at hmap
      rw [hmap]
  | some e =>
      obtain ⟨e', he', hsame⟩ := h.element? he
      have htag : e'.tag = e.tag := (congrArg Element.tag hsame :)
      simp only [he', Option.any_some, htag]

theorem keepsBlanks_of_size_le {k : Nat} (hk : t.size ≤ k) : t.keepsBlanks isPre k = false := by
  cases hpre : t.keepsBlanks isPre k with
  | false => rfl
  | true =>
      obtain ⟨e, he⟩ := exists_of_keepsBlanks hpre
      exact absurd (lt_size_of_element? he) (Nat.not_lt.mpr hk)

/-- When no element is added the preformatted ones stay the same. -/
theorem Grows.keepsBlanks_eq (h : t.Grows t')
    (hback : ∀ k e', t'.element? k = some e' → ∃ e, t.element? k = some e) :
    t'.keepsBlanks isPre = t.keepsBlanks isPre := by
  funext k
  by_cases hk : k < t.size
  · exact h.keepsBlanks hk
  · rw [keepsBlanks_of_size_le (Nat.not_lt.mp hk)]
    cases hpre : t'.keepsBlanks isPre k with
    | false => rfl
    | true =>
        obtain ⟨e', he'⟩ := exists_of_keepsBlanks hpre
        obtain ⟨e, he⟩ := hback k e' he'
        exact absurd (lt_size_of_element? he) hk

end Tree

/-! ### Flags on a stack -/

namespace Build

/-- Some open element has the flag, and every later one with the flag is open too. -/
def Unbroken (opened : List NodeId) (flag : NodeId → Bool) : Prop :=
  ∃ p ∈ opened, flag p = true ∧ ∀ k : Nat, p < k → flag k = true → k ∈ opened

section Unbroken

variable {opened : List NodeId} {flag : NodeId → Bool} {id : Nat}

/-- An element without the flag may be put on the stack and taken from it. -/
theorem unbroken_cons_iff (hid : flag id = false) :
    Unbroken (id :: opened) flag ↔ Unbroken opened flag := by
  have hne : ∀ k, flag k = true → k ≠ id := by
    rintro k hk rfl
    rw [hid] at hk
    cases hk
  constructor
  · rintro ⟨p, hp, hflag, hlater⟩
    refine ⟨p, List.mem_of_ne_of_mem (hne p hflag) hp, hflag, fun k hlt hk => ?_⟩
    exact List.mem_of_ne_of_mem (hne k hk) (hlater k hlt hk)
  · rintro ⟨p, hp, hflag, hlater⟩
    exact ⟨p, List.mem_cons_of_mem id hp, hflag,
      fun k hlt hk => List.mem_cons_of_mem id (hlater k hlt hk)⟩

/-- The latest element with the flag is open. -/
theorem unbroken_cons_of_latest (hid : flag id = true)
    (hlatest : ∀ k : Nat, id < k → flag k = false) : Unbroken (id :: opened) flag := by
  refine ⟨id, List.mem_cons_self, hid, fun k hlt hk => ?_⟩
  rw [hlatest k hlt] at hk
  cases hk

/-- An element with the flag is not open, and all that are open came before it. -/
theorem not_unbroken (hid : flag id = true) (hlt : ∀ k : Nat, k ∈ opened → k < id) :
    ¬Unbroken opened flag := by
  rintro ⟨p, hp, -, hlater⟩
  exact Nat.lt_irrefl id (hlt id (hlater id (hlt p hp) hid))

end Unbroken

/-! ### The mark and the open elements -/

namespace Builder

variable {src : Source} {b b' : Builder}

/-- **What the mark says about the open elements.** -/
structure PreMode (src : Source) (b : Builder) : Prop where
  /-- What was opened after an element that is still open lies inside of it. -/
  inside : ∀ (id : Nat) (e : Element), b.tree.element? id = some e →
    ∀ p : Nat, p ∈ b.opened → p < id → b.tree.Inside id p
  mode : b.inPre = true ↔ Unbroken b.opened (b.tree.keepsBlanks src.settings.tags.isPre)

/-- The mark and the open elements stay, and no element is added. -/
theorem PreMode.keep (hb : b.PreMode src) (hgrows : b.tree.Grows b'.tree)
    (hback : ∀ k e', b'.tree.element? k = some e' → ∃ e, b.tree.element? k = some e)
    (hopened : b'.opened = b.opened) (hpre : b'.inPre = b.inPre) : b'.PreMode src where
  inside id e' he' p hp hlt := by
    obtain ⟨e, he⟩ := hback id e' he'
    rw [hopened] at hp
    exact hgrows.inside (hb.inside id e he p hp hlt)
  mode := by
    rw [hpre, hopened, hgrows.keepsBlanks_eq hback]
    exact hb.mode

theorem PreMode.leaf {parent : NodeId} {n : Node} (hn : b.Admits src n) (hb : b.PreMode src) :
    (b.append parent n).PreMode src := by
  refine hb.keep (b.grows_append parent n) (fun k e' he' => ?_) rfl rfl
  obtain ⟨e, he, -⟩ := exists_element_of_append hn he'
  exact ⟨e, he⟩

/-- An element is opened inside of all that are open. -/
theorem PreMode.inside_enter (tag : String) (attributes : List Markup.Attribute)
    (start stop : Nat) (hb : b.PreMode src) (ho : b.Ordered) {p : Nat} (hp : p ∈ b.opened) :
    (b.enter src (b.created src tag attributes start stop)).tree.Inside b.tree.size p := by
  have hgrows := grows_enter src b (b.created src tag attributes start stop)
  obtain ⟨e, he, hparent, -⟩ :=
    (ho.enter src tag attributes start stop).exists_innermost rfl
  -- the parent is the innermost open element, and the others are around it
  cases hopened : b.opened with
  | nil => simp [hopened] at hp
  | cons h rest =>
      rw [hopened] at hparent hp
      obtain ⟨eh, heh, -, hlater⟩ := ho.exists_innermost hopened
      rcases List.mem_cons.mp hp with rfl | hp
      · exact .parent he hparent
      · refine .step he hparent (hgrows.inside (hb.inside h eh heh p ?_ (hlater p hp)))
        rw [hopened]
        exact List.mem_cons_of_mem h hp

/-- The element that is added is preformatted or not, and the others stay. -/
theorem keepsBlanks_enter (isPre : String → Bool) (src : Source) (b : Builder) (e : Element)
    (k : NodeId) : (b.enter src e).tree.keepsBlanks isPre k =
      if k = b.tree.size then isPre e.tag else b.tree.keepsBlanks isPre k := by
  rw [Tree.keepsBlanks, element?_enter]
  split <;> rfl

/-- What is opened turns the mark on when it is preformatted, and leaves it alone otherwise. -/
theorem PreMode.enter (tag : String) (attributes : List Markup.Attribute) (start stop : Nat)
    (hb : b.PreMode src) (ho : b.Ordered) :
    (b.enter src (b.created src tag attributes start stop)).PreMode src := by
  have hinside : ∀ p : Nat, p ∈ b.opened →
      (b.enter src (b.created src tag attributes start stop)).tree.Inside b.tree.size p :=
    fun p => hb.inside_enter tag attributes start stop ho
  generalize b.created src tag attributes start stop = e at hinside ⊢
  have hgrows := grows_enter src b e
  constructor
  · intro id e' he' p hp hlt
    have hid : id < b.tree.size + 1 := size_enter src b e ▸ Tree.lt_size_of_element? he'
    have hp : p ∈ b.opened := List.mem_of_ne_of_mem (a := p) (by omega) hp
    rcases Nat.lt_succ_iff_lt_or_eq.mp hid with hid | rfl
    · obtain ⟨e₀, he₀, -⟩ := hgrows.exists_element hid he'
      exact hgrows.inside (hb.inside id e₀ he₀ p hp hlt)
    · exact hinside p hp
  · change (b.inPre || src.settings.tags.isPre e.tag) = true ↔ Unbroken (b.tree.size :: b.opened) _
    have hnew := keepsBlanks_enter src.settings.tags.isPre src b e b.tree.size
    rw [if_pos rfl] at hnew
    cases htag : src.settings.tags.isPre e.tag with
    | true =>
        rw [htag] at hnew
        refine ⟨fun _ => unbroken_cons_of_latest hnew fun k hk => ?_, fun _ => Bool.or_true _⟩
        exact Tree.keepsBlanks_of_size_le (size_enter src b e ▸ hk)
    | false =>
        rw [htag] at hnew
        have hsame : (b.enter src e).tree.keepsBlanks src.settings.tags.isPre =
            b.tree.keepsBlanks src.settings.tags.isPre := by
          funext k
          rw [keepsBlanks_enter, htag]
          split
          · rename_i hk
            rw [hk, Tree.keepsBlanks_of_size_le le_rfl]
          · rfl
        rw [Bool.or_false, unbroken_cons_iff hnew, hsame]
        exact hb.mode

theorem PreMode.stop (id : NodeId) (stop : Nat) (hb : b.PreMode src) :
    PreMode src
      { b with tree := b.tree.modifyElement id fun e => { e with stop := some stop } } := by
  have hcore := b.sameCore_stop id stop
  refine hb.keep (.of_alike (hcore.coarsen Node.frame_core)) (fun k e' he' => ?_) rfl rfl
  obtain ⟨e, he, -⟩ := hcore.symm.element? Node.element?_core he'
  exact ⟨e, he⟩

/-- A preformatted element that is closed breaks what is around it. -/
theorem PreMode.finish {id : NodeId} {rest : List NodeId} (hopened : b.opened = id :: rest)
    (hb : b.PreMode src) (ho : b.Ordered) :
    ({ b with opened := rest }.finishElement src id).PreMode src := by
  obtain ⟨e, he, -, hrest⟩ := ho.exists_innermost hopened
  obtain ⟨t, hfinished⟩ := finished_finishElement src { b with opened := rest } he
  have halike := hfinished.alike he
  have hblanks : ({ b with opened := rest }.finishElement src id).tree.keepsBlanks
      src.settings.tags.isPre = b.tree.keepsBlanks src.settings.tags.isPre := by
    refine (Tree.Grows.of_alike halike).keepsBlanks_eq fun k e' he' => ?_
    obtain ⟨e, he, -⟩ := halike.symm.element? Node.element?_frame he'
    exact ⟨e, he⟩
  have hopened' : ({ b with opened := rest }.finishElement src id).opened = rest := hfinished.opened
  have hpre : ({ b with opened := rest }.finishElement src id).inPre =
      (b.inPre && !src.settings.tags.isPre e.tag) := hfinished.inPre
  have hid : b.tree.keepsBlanks src.settings.tags.isPre id = src.settings.tags.isPre e.tag :=
    Tree.keepsBlanks_of_element? he
  constructor
  · intro k e' he' p hp hlt
    obtain ⟨e₀, he₀, -⟩ := halike.symm.element? Node.element?_frame he'
    rw [hopened'] at hp
    refine (Tree.Grows.of_alike halike).inside (hb.inside k e₀ he₀ p ?_ hlt)
    rw [hopened]
    exact List.mem_cons_of_mem id hp
  · rw [hpre, hopened', hblanks]
    cases htag : src.settings.tags.isPre e.tag with
    | true =>
        rw [htag] at hid
        have hbroken := not_unbroken hid hrest
        simp [hbroken]
    | false =>
        rw [htag] at hid
        rw [← unbroken_cons_iff hid, ← hopened, ← hb.mode]
        simp

/-- **Every event keeps the mark in step** with the open elements. -/
theorem invariant_preMode (src : Source) :
    Invariant src fun b => (b.Ordered ∧ b.Sealed) ∧ b.PreMode src where
  init := by
    refine ⟨(invariant_sealed src).init, by simp [Tree.element?, Tree.node?], ?_⟩
    simp [Unbroken]
  agrees h hb := by
    refine ⟨(invariant_sealed src).agrees h hb.1, hb.2.keep ?_ ?_ h.opened h.inPre⟩
    · exact .of_alike (h.tree ▸ Tree.Alike.refl _)
    · intro k e' he'
      rw [h.tree] at he'
      exact ⟨e', he'⟩
  leaf hopened hn hb := ⟨(invariant_sealed src).leaf hopened hn hb.1, hb.2.leaf hn⟩
  enter tag attributes start stop hb :=
    ⟨(invariant_sealed src).enter tag attributes start stop hb.1,
      hb.2.enter tag attributes start stop hb.1.1⟩
  stop id stop hb := ⟨(invariant_sealed src).stop id stop hb.1, hb.2.stop id stop⟩
  finish hopened hb := ⟨(invariant_sealed src).finish hopened hb.1, hb.2.finish hopened hb.1.1⟩

/-- What is later than an open element is what is inside of it. -/
theorem PreMode.inPre_iff (hb : b.PreMode src) (hs : b.Sealed) :
    b.inPre = true ↔ ∃ p ∈ b.opened, b.tree.keepsBlanks src.settings.tags.isPre p = true ∧
      ∀ k, b.tree.Inside k p → b.tree.keepsBlanks src.settings.tags.isPre k = true →
        k ∈ b.opened := by
  have hfirst : b.tree.ParentsFirst := hs.parent_lt
  rw [hb.mode]
  constructor
  · rintro ⟨p, hp, hflag, hlater⟩
    exact ⟨p, hp, hflag, fun k hk => hlater k (hfirst.lt_of_inside hk)⟩
  · rintro ⟨p, hp, hflag, hlater⟩
    refine ⟨p, hp, hflag, fun k hlt hk => hlater k ?_ hk⟩
    obtain ⟨e, he⟩ := Tree.exists_of_keepsBlanks hk
    exact hb.inside k e he p hp hlt

/-! ### Texts that are kept -/

/-- What a text in an element with the given tag says. -/
def decodedText (tag text : String) : String :=
  if keepsReferences tag then text else String.ofList (Entity.decodeContent text.toList)

/-- **Which texts become nodes, and which nodes stay where they are.**  A text is lost as one of two
spaces in a row, and in front of a branch. -/
structure KeepsText (src : Source) (b : Builder) : Prop where
  /-- A text becomes a node that says the same, unless it is empty or one of two spaces in a row. -/
  text : ∀ parent rest e, b.opened = parent :: rest → b.tree.element? parent = some e →
    ∀ text start stop,
      if decodedText e.tag text = "" ∨ decodedText e.tag text = " " ∧
          (e.children.getLast?.bind b.tree.node?).any (·.text? = some " ") then
        b.addText src text start stop = b
      else ∃ n, n.text? = some (decodedText e.tag text) ∧
        b.addText src text start stop = b.append parent n
  /-- Closing an element leaves its children as they are. -/
  close : ∀ id rest e, b.opened = id :: rest → b.tree.element? id = some e → ∀ stop,
    ∃ e', (b.closeInnermost src stop).tree.element? id = some e' ∧ e'.children = e.children
  /-- It leaves those of all others as they are, too, but for its parent.  The parent gets the
  element as its last child or, when that is a branch, loses the leaves behind its last element. -/
  around : ∀ id rest e, b.opened = id :: rest → b.tree.element? id = some e → ∀ stop k, k ≠ id →
    (b.closeInnermost src stop).tree.children? k = (b.tree.children? k).map fun ids =>
      if rest.head? = some k then received b.tree id e ids else ids
  /-- A start tag adds an element without children.  The others keep theirs, but for the parent of
  an element that is closed at once. -/
  start : ∀ tag attributes unary start stop k,
    (b.openElement src tag attributes unary start stop).tree.children? k =
      if k = b.tree.size then some []
      else (b.tree.children? k).map fun ids =>
        if unary = true ∧ b.opened.head? = some k then
          received b.tree b.tree.size (b.created src tag attributes start stop) ids
        else ids

theorem normalizeText_of_inPre (src : Source) (tag : String) (first : Bool) (text : String) :
    normalizeText src true tag first text = decodedText tag text := by
  simp [normalizeText, decodedText]

theorem KeepsText.addText (hpre : b.inPre = true) {parent : NodeId} {rest : List NodeId}
    {e : Element} (hopened : b.opened = parent :: rest) (he : b.tree.element? parent = some e)
    (text : String) (start stop : Nat) :
    if decodedText e.tag text = "" ∨ decodedText e.tag text = " " ∧
        (e.children.getLast?.bind b.tree.node?).any (·.text? = some " ") then
      b.addText src text start stop = b
    else ∃ n, n.text? = some (decodedText e.tag text) ∧
      b.addText src text start stop = b.append parent n := by
  simp only [Builder.addText, hopened, he, hpre, normalizeText_of_inPre]
  generalize decodedText e.tag text = kept
  generalize (e.children.getLast?.bind b.tree.node?).any (·.text? = some " ") = afterSpace
  by_cases hempty : kept = ""
  · rw [if_pos (.inl hempty), if_pos hempty]
  · rw [if_neg hempty]
    by_cases hspace : kept = " "
    · -- a space is never searched for interpolations
      subst hspace
      cases afterSpace with
      | true => simp
      | false => exact ⟨_, rfl, by simp; rfl⟩
    · have hkept : ¬(kept = "" ∨ kept = " " ∧ afterSpace = true) := by
        rintro (h | ⟨h, -⟩)
        · exact hempty h
        · exact hspace h
      rw [if_neg hkept]
      split
      · exact ⟨_, rfl, rfl⟩
      · rw [if_neg (by simp [hspace])]
        exact ⟨_, rfl, rfl⟩

theorem KeepsText.closeInnermost (ho : b.Ordered) (hpre : b.inPre = true) {id : NodeId}
    {rest : List NodeId} {e : Element} (hopened : b.opened = id :: rest)
    (he : b.tree.element? id = some e) (stop : Nat) :
    ∃ e', (b.closeInnermost src stop).tree.element? id = some e' ∧ e'.children = e.children := by
  obtain ⟨-, -, -, hrest⟩ := ho.exists_innermost hopened
  have hhead : rest.head? ≠ some id := fun hhead =>
    Nat.lt_irrefl id (hrest id (List.mem_of_mem_head? hhead))
  have hchildren := children?_closeInnermost src hopened he stop (k := id) (.inr hpre)
  rw [Tree.children?_of_element? he, Option.map_some, if_neg hhead] at hchildren
  exact Option.map_eq_some_iff.mp hchildren

/-- **While the mark is on**, texts are lost behind a space and in front of a branch only. -/
theorem KeepsText.of_inPre (ho : b.Ordered) (hs : b.Sealed) (hpre : b.inPre = true) :
    b.KeepsText src where
  text _ _ _ hopened he := KeepsText.addText hpre hopened he
  close _ _ _ hopened he := KeepsText.closeInnermost ho hpre hopened he
  around _ _ _ hopened he stop _ _ := children?_closeInnermost src hopened he stop (.inr hpre)
  start tag attributes unary start stop _ :=
    children?_openElement src tag attributes start stop ho hs unary (.inr hpre)

/-- **Blanks are kept inside of a preformatted element until a preformatted element inside of it
ends**, so the mark follows the open elements as long as none is inside of another one.  As long as
the mark stays on, elements lose nothing but leaves that a branch takes away, and an element that is
closed does not change any more. -/
theorem inPre_run (src : Source) (events : List Markup.Event) :
    ((run src events).inPre = true ↔
      ∃ p ∈ (run src events).opened,
        (run src events).tree.keepsBlanks src.settings.tags.isPre p = true ∧
        ∀ k, (run src events).tree.Inside k p →
          (run src events).tree.keepsBlanks src.settings.tags.isPre k = true →
            k ∈ (run src events).opened) ∧
      ((∀ k p, (run src events).tree.Inside k p →
          (run src events).tree.keepsBlanks src.settings.tags.isPre k = true →
          (run src events).tree.keepsBlanks src.settings.tags.isPre p = false) →
        ((run src events).inPre = true ↔ ∃ p ∈ (run src events).opened,
          (run src events).tree.keepsBlanks src.settings.tags.isPre p = true)) ∧
      ((run src events).inPre = true → (run src events).KeepsText src) ∧
      (∀ more, (∀ seen, seen <+: more → seen ≠ more →
          (run src (events ++ seen)).inPre = true) →
        (run src events).tree.KeepsContent (run src (events ++ more)).tree) ∧
      ∀ k, k ∉ (run src events).opened → ∀ ids, (run src events).tree.children? k = some ids →
        ∀ more, (run src (events ++ more)).tree.children? k = some ids := by
  obtain ⟨⟨hordered, hsealed⟩, hmode⟩ := (invariant_preMode src).run events
  have hiff := hmode.inPre_iff hsealed
  have hmore : ∀ more, run src (events ++ more) = more.foldl (step src) (run src events) :=
    fun more => List.foldl_append
  simp only [hmore]
  refine ⟨hiff, fun hflat => ?_, KeepsText.of_inPre hordered hsealed,
    keepsContent_foldl src ⟨hordered, hsealed⟩,
    fun _ hk _ hids => children?_foldl src ⟨hordered, hsealed⟩ hk hids⟩
  rw [hiff]
  constructor
  · rintro ⟨p, hp, hblanks, -⟩
    exact ⟨p, hp, hblanks⟩
  · rintro ⟨p, hp, hblanks⟩
    refine ⟨p, hp, hblanks, fun k hk hkblanks => ?_⟩
    rw [hflat k p hk hkblanks] at hblanks
    cases hblanks

/-- Blanks are lost behind a preformatted element that stands inside of another one, between two
spaces with nothing but a comment in between, and between the branches of a conditional, where the
mark is on. -/
theorem exists_lost_blanks :
    (∃ seen, seen <+: Markup.events Settings.web "<pre><pre>a</pre>\n  </pre>" ∧
      (run ⟨Settings.web, "<pre><pre>a</pre>\n  </pre>", none⟩ seen).inPre = false ∧
      ∃ p ∈ (run ⟨Settings.web, "<pre><pre>a</pre>\n  </pre>", none⟩ seen).opened,
        (run ⟨Settings.web, "<pre><pre>a</pre>\n  </pre>", none⟩ seen).tree.keepsBlanks
          Settings.web.tags.isPre p = true) ∧
      (∃ parsed e, parse Settings.web "<pre><pre>a</pre>\n  </pre>" = .ok parsed ∧
        parsed.tree.element? 0 = some e ∧ e.children = [1]) ∧
      (∃ parsed e, parse Settings.web "<pre> <!--c--> </pre>" = .ok parsed ∧
        parsed.tree.element? 0 = some e ∧ e.children = [1]) ∧
      (∃ seen, seen <+: Markup.events Settings.web
          "<pre><b v-if=\"a\">x</b>\n  <b v-else>y</b></pre>" ∧
        (run ⟨Settings.web, "<pre><b v-if=\"a\">x</b>\n  <b v-else>y</b></pre>", none⟩
          seen).inPre = true ∧
        (run ⟨Settings.web, "<pre><b v-if=\"a\">x</b>\n  <b v-else>y</b></pre>", none⟩
          seen).tree.children? 0 = some [1, 3]) ∧
      ∃ parsed e, parse Settings.web "<pre><b v-if=\"a\">x</b>\n  <b v-else>y</b></pre>" =
          .ok parsed ∧
        parsed.tree.element? 0 = some e ∧ e.children = [1] := by
  have hlost : ∀ template, (parse Settings.web template).toOption.any (fun parsed =>
      (parsed.tree.element? 0).any (·.children = [1])) = true →
      ∃ parsed e, parse Settings.web template = .ok parsed ∧
        parsed.tree.element? 0 = some e ∧ e.children = [1] := by
    intro template hcheck
    obtain ⟨parsed, hparsed⟩ := exists_parse Settings.web template (by simp [Settings.web])
    rw [hparsed] at hcheck
    obtain ⟨e, he, hchildren⟩ := (Option.any_eq_true _ (parsed.tree.element? 0)).mp hcheck
    exact ⟨parsed, e, hparsed, he, of_decide_eq_true hchildren⟩
  refine ⟨⟨(Markup.events Settings.web "<pre><pre>a</pre>\n  </pre>").take 4,
    List.take_prefix _ _, ?_, 0, ?_, ?_⟩, hlost _ ?_, hlost _ ?_,
    ⟨(Markup.events Settings.web "<pre><b v-if=\"a\">x</b>\n  <b v-else>y</b></pre>").take 5,
      List.take_prefix _ _, ?_, ?_⟩, hlost _ ?_⟩
  all_goals decide +kernel

end Builder

end Build

end Templating
