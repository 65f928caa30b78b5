import Templating.Compile
import Templating.Proofs.Render.Placing
import Templating.Proofs.Static.Loops

/-!
**Where code leaves the loops around it.**

The code of an element should stand inside the callbacks of all loops that the element lies inside
of, its own included.  There are three ways out.  The condition of an element that is rendered once
is asked before its loop is opened, and so is that of a further branch, which is asked where its
conditional starts.  What lies in an element that is rendered once and for all leaves the loops
around that one with it, but it never changes.  And when nothing is marked, no element is known to
stand in a loop, so every element that is rendered once leaves all loops around it.

Main definitions:

* `Templating.Render.Place.Around` — what a piece of code should be inside of;
* `Templating.Render.Escapes` — **the three ways out of a loop**;
* `Templating.Render.Scoped` — the scopes of the code of a tree.

Main results:

* `Templating.Render.escapes_of_unmarked`, `Templating.Render.escapes_of_marked` — code escapes from
  the loops in front of what is put into a function of its own;
* `Templating.Render.Place.Exact.mem_scope_iff` — a piece of code is inside the callbacks of the
  loops that it does not escape from;
* `Templating.Render.exists_compileTree_scoped` — **the scopes of the code of a template**;
* `Templating.Render.exists_escaped_places` — code outside of the loop that it needs.
-/

set_option autoImplicit false

namespace Templating.Render

open Static (dependents LoopMarks)

/-! ### Ways out -/

/-- What a piece of code should be inside of, but for the condition of an element and the loop of
the element itself. -/
def Place.Around (t : Tree) (p : Place) (o : NodeId) : Prop :=
  t.Within p.origin o ∧ (p.role = .guard → o ≠ p.origin)

/-- **The three ways out of a loop** `a` for a piece of code. -/
inductive Escapes (settings : Settings) (t : Tree) (p : Place) (a : NodeId) : Prop
  /-- The condition of an element that is rendered once, and that of a further branch, is asked
  outside of its own loop. -/
  | asked {e : Element} (hrole : p.role = .guard) (ha : a = p.origin)
      (he : t.element? p.origin = some e) (hasked : e.once = true ∨ e.condition = none) :
      Escapes settings t p a
  /-- What never changes leaves the loops around the element that is rendered once and for all. -/
  | kept {e eo : Element} {o : NodeId} (he : t.element? p.origin = some e)
      (hkept : e.isStatic = some true ∨ t.Verbatim p.origin) (ho : p.Around t o)
      (heo : t.element? o = some eo) (hroot : eo.staticRoot = some true) (ha : t.Inside o a) :
      Escapes settings t p a
  /-- Without marks, an element that is rendered once leaves the loops around it. -/
  | once {eo : Element} {o : NodeId} (hoptimize : settings.optimize = false) (ho : p.Around t o)
      (heo : t.element? o = some eo) (honce : eo.once = true) (ha : t.Inside o a) :
      Escapes settings t p a

section Escapes

variable {settings : Settings} {t : Tree} {root : NodeId} {p : Place}

theorem Place.Exact.scopeOf (hfirst : t.ParentsFirst) (h : p.Exact t root) :
    t.ScopeOf (p.Around t) p.scope := by
  by_cases hrole : p.role = .guard
  · have haround : p.Around t = t.Inside p.origin := by
      funext o
      refine propext ⟨?_, fun ho => ⟨.inr ho, fun _ => Nat.ne_of_lt (hfirst.lt_of_inside ho)⟩⟩
      rintro ⟨rfl | ho, hne⟩
      · exact absurd rfl (hne hrole)
      · exact ho
    rw [haround]
    exact (h.guard hrole).1
  · have haround : p.Around t = t.Within p.origin := by
      funext o
      simp [Place.Around, hrole]
    rw [haround]
    exact (h.own hrole).1

theorem Place.Exact.exists_element (h : p.Exact t root) :
    ∃ e, t.element? p.origin = some e ∧
      (p.role = .guard → e.condition.isSome = true ∨ e.elseCondition.isSome = true) := by
  by_cases hrole : p.role = .guard
  · obtain ⟨-, e, he, hcondition, -⟩ := h.guard hrole
    exact ⟨e, he, fun _ => hcondition⟩
  · obtain ⟨-, e, he⟩ := h.own hrole
    exact ⟨e, he, fun hrole' => absurd hrole' hrole⟩

/-- Of what a piece of code should be inside of, the later lies inside the earlier. -/
theorem Place.Around.inside (hfirst : t.ParentsFirst) {a o : Nat} (ha : p.Around t a)
    (ho : p.Around t o) (hlt : a < o) : t.Inside o a := by
  rcases ho.1 with rfl | hinside
  · exact ha.1.resolve_left (Nat.ne_of_lt hlt)
  · rcases ha.1 with rfl | hinside'
    · exact absurd (Nat.lt_trans hlt (hfirst.lt_of_inside hinside)) (Nat.lt_irrefl _)
    · exact hfirst.inside_of_lt hinside' hinside hlt

/-- What an element of this kind lies inside of is of this kind. -/
theorem Place.Around.trans (hfirst : t.ParentsFirst) {o k : Nat} (ho : p.Around t o)
    (hk : t.Inside o k) : p.Around t k := by
  have hinside : t.Inside p.origin k := by
    rcases ho.1 with rfl | ho
    · exact hk
    · exact ho.trans hk
  exact ⟨.inr hinside, fun _ => Nat.ne_of_lt (hfirst.lt_of_inside hinside)⟩

/-- The two last ways out lead to numbers in front of what is put into a function of its own. -/
theorem Escapes.exists_lifts (hfirst : t.ParentsFirst)
    (hunmarked : settings.optimize = false →
      ∀ id e, t.element? id = some e → e.staticInFor ≠ some true)
    {a : Nat} (ha : p.Around t a) (h : Escapes settings t p a) :
    ∃ o : Nat, p.Around t o ∧ t.Lifts o ∧ a < o := by
  cases h with
  | asked hrole heq => exact absurd heq (ha.2 hrole)
  | kept _ _ ho heo hroot hinside =>
      exact ⟨_, ho, ⟨_, heo, .inl hroot⟩, hfirst.lt_of_inside hinside⟩
  | once hoptimize ho heo honce hinside =>
      exact ⟨_, ho, ⟨_, heo, .inr ⟨honce, hunmarked hoptimize _ _ heo⟩⟩,
        hfirst.lt_of_inside hinside⟩

/-- Without marks, what is rendered once is put into a function of its own. -/
theorem escapes_of_unmarked (hfirst : t.ParentsFirst) (hoptimize : settings.optimize = false)
    (hunmarked : ∀ id e, t.element? id = some e → e.staticRoot = none)
    {a o : Nat} (ha : p.Around t a) (ho : p.Around t o) (hlifts : t.Lifts o) (hlt : a < o) :
    Escapes settings t p a := by
  obtain ⟨eo, heo, hroot | ⟨honce, -⟩⟩ := hlifts
  · rw [hunmarked o eo heo] at hroot
    cases hroot
  · exact .once hoptimize ho heo honce (ha.inside hfirst ho hlt)

/-- **With marks, what is rendered once stays in its loops**, so what is put into a function of its
own lies in an element that is rendered once and for all. -/
theorem escapes_of_marked (hfirst : t.ParentsFirst) {lo hi : Nat}
    (hforest : t.Forest none lo hi [root]) (hmarks : LoopMarks t root) (hp : p.Exact t root)
    {a o : Nat} (ha : p.Around t a) (hloop : t.Loops a) (ho : p.Around t o)
    (hlifts : t.Lifts o) (hlt : a < o) : Escapes settings t p a := by
  have hinside := ha.inside hfirst ho hlt
  obtain ⟨e, he, -⟩ := hp.exists_element
  have hkept : ∀ o eo, p.Around t o → t.element? o = some eo → eo.staticRoot = some true →
      t.Inside o a → Escapes settings t p a := fun o eo ho heo hroot hinside =>
    .kept he (hmarks.within p.origin e o eo hp.met he ho.1 heo hroot).2 ho heo hroot hinside
  have hmet : ∀ k, p.Around t k → t.Reach dependents root k := by
    rintro k ⟨rfl | hk, -⟩
    · exact hp.met
    · exact hforest.reach_of_inside hp.met hk
  obtain ⟨eo, heo, hroot | ⟨honce, hinFor⟩⟩ := hlifts
  · exact hkept o eo ho heo hroot hinside
  · rcases hmarks.once o eo (hmet o ho) heo honce with ⟨k, ek, hk, hek, hroot⟩ | hknown
    · -- the loop is outside of what is rendered once and for all, since there is none inside
      refine hkept k ek (ho.trans hfirst hk) hek hroot ?_
      obtain ⟨ea, hea, hsome⟩ := hloop
      rcases Nat.lt_trichotomy a k with hlt | heq | hlt
      · exact hfirst.inside_of_lt hinside hk hlt
      · have hnone := (hmarks.within a ea k ek (hmet a ha) hea (.inl heq.symm) hek hroot).1
        simp [hnone] at hsome
      · have hwithin : t.Within a k := .inr (hfirst.inside_of_lt hk hinside hlt)
        have hnone := (hmarks.within a ea k ek (hmet a ha) hea hwithin hek hroot).1
        simp [hnone] at hsome
    · exact absurd (hknown.mpr ⟨a, hinside, hloop⟩) hinFor

/-- **A piece of code is inside the callbacks of the loops that it does not escape from.** -/
theorem Place.Exact.mem_scope_iff (hfirst : t.ParentsFirst) (hp : p.Exact t root)
    (hescapes : ∀ a : Nat, p.Around t a → t.Loops a →
      (Escapes settings t p a ↔ ∃ o : Nat, p.Around t o ∧ t.Lifts o ∧ a < o))
    {a : Nat} (hwithin : t.Within p.origin a) (hloop : t.Loops a) :
    a ∈ p.scope ↔ ¬Escapes settings t p a := by
  by_cases hself : p.role = .guard ∧ a = p.origin
  · obtain ⟨hrole, rfl⟩ := hself
    obtain ⟨-, e, he, -, hguard⟩ := hp.guard hrole
    rw [hguard ((Tree.loops_iff he).mp hloop)]
    -- nothing that the element lies inside of lies inside the element
    have hno : ∀ o, p.Around t o → ¬t.Inside o p.origin := by
      intro o ho hinside
      have hlt := hfirst.lt_of_inside hinside
      rcases ho.1 with rfl | ho
      · exact Nat.lt_irrefl _ hlt
      · exact Nat.lt_irrefl _ (Nat.lt_trans hlt (hfirst.lt_of_inside ho))
    constructor
    · rintro ⟨honce, hcondition⟩ hescape
      cases hescape with
      | asked _ _ he' hasked =>
          obtain rfl : e = _ := by simpa [he] using he'
          rcases hasked with honce' | hnone
          · simp [honce] at honce'
          · simp [hnone] at hcondition
      | kept _ _ ho _ _ hinside => exact hno _ ho hinside
      | once _ ho _ _ hinside => exact hno _ ho hinside
    · intro hstays
      have hasked : ¬(e.once = true ∨ e.condition = none) := fun hasked =>
        hstays (.asked hrole rfl he hasked)
      simpa [Option.isSome_iff_ne_none] using hasked
  · have ha : p.Around t a := ⟨hwithin, fun hrole heq => hself ⟨hrole, heq⟩⟩
    rw [hp.scopeOf hfirst a ha hloop, hescapes a ha hloop]
    push Not
    rfl

end Escapes

/-! ### Templates -/

/-- **The scopes of the code of a tree.**  Every piece of it belongs to an element and is inside the
callbacks of the loops around that element, its own included, that it does not escape from.  Every
element that is rendered has its piece, and so has every condition. -/
structure Scoped (settings : Settings) (t : Tree) : Prop where
  scope : ∀ p ∈ (generate settings t).places, ∃ e, t.element? p.origin = some e ∧
    (p.role = .guard → e.condition.isSome = true ∨ e.elseCondition.isSome = true) ∧
    ∀ a, t.Within p.origin a → t.Loops a → (a ∈ p.scope ↔ ¬Escapes settings t p a)
  body : ∀ root ∈ t.root, ∀ id e, t.Reach shown root id → t.element? id = some e →
    ∃ scope, ⟨.body, id, scope⟩ ∈ (generate settings t).places
  guard : ∀ root ∈ t.root, ∀ id e, t.Reach shown root id → t.element? id = some e →
    e.condition.isSome = true → ∃ scope, ⟨.guard, id, scope⟩ ∈ (generate settings t).places

section Template

variable {settings : Settings} {t : Tree} {root : NodeId} {template : String}
  {parsed : Build.Parsed}

/-- A tree as the generator goes through it: in document order from its root, with conditionals that
are chains, and with no condition where an element is rendered once and for all. -/
structure Laid (t : Tree) (root : NodeId) : Prop where
  parentsFirst : t.ParentsFirst
  starts : t.root = some root
  forest : t.Forest none 0 t.size [root]
  chained : ∀ id e, t.element? id = some e → t.Chain id e
  unconditional : ∀ id e, t.element? id = some e → e.staticRoot = some true → e.condition = none

theorem Laid.places (ht : Laid t root) :
    (∀ p ∈ (generate settings t).places, p.Exact t root) ∧ ∀ role k, Wanted t root role k →
      ∃ scope, ⟨role, k, scope⟩ ∈ (generate settings t).places :=
  places_generate ht.parentsFirst ht.starts ht.forest ht.chained ht.unconditional

/-- Nothing is marked in the tree of a template. -/
theorem unmarked_of_parse (hparse : Build.parse settings template = .ok parsed) {id : NodeId}
    {e : Element} (he : parsed.tree.element? id = some e) :
    e.staticRoot = none ∧ e.staticInFor = none := by
  have hfresh := Build.fresh_of_parse hparse
  have hsame : e.unmarked = e :=
    Node.element.inj (hfresh.unmarked id _ (Tree.node?_of_element? he))
  exact ⟨(congrArg Element.staticRoot hsame).symm, (congrArg Element.staticInFor hsame).symm⟩

/-- The tree of a template. -/
theorem laid_of_parse (hparse : Build.parse settings template = .ok parsed)
    (hroot : parsed.tree.root = some root) : Laid parsed.tree root := by
  have hfresh := Build.fresh_of_parse hparse
  refine ⟨hfresh.parentsFirst, hroot, hfresh.forest root hroot,
    fun id e he => Build.chain_of_parse hparse he, ?_⟩
  intro id e he hstatic
  rw [(unmarked_of_parse hparse he).1] at hstatic
  cases hstatic

/-- The tree of a template with marks. -/
theorem laid_mark (hparse : Build.parse settings template = .ok parsed)
    (hroot : parsed.tree.root = some root) : Laid (Static.mark settings parsed.tree) root := by
  have hfresh := Build.fresh_of_parse hparse
  obtain ⟨hsame, halike⟩ := Static.alike_mark settings hfresh
  refine ⟨hfresh.parentsFirst.alike halike, hsame.trans hroot, ?_, ?_,
    (Static.loopMarks_mark hparse hroot).unconditional⟩
  · rw [halike.size_eq]
    exact (hfresh.forest root hroot).congr fun k _ _ => halike.links? Node.links_unmarked k
  · intro id e he
    obtain ⟨e₀, he₀, hsame⟩ := halike.symm.element? Node.element?_unmarked he
    exact (Build.chain_of_parse hparse he₀).of_unmarked halike hsame.symm

theorem scoped_of_root_eq_none (hroot : t.root = none) : Scoped settings t := by
  constructor
  · intro p hp
    simp [generate, hroot, Rendered.places] at hp
  · simp [hroot]
  · simp [hroot]

theorem scoped_of_escapes (ht : Laid t root)
    (hescapes : ∀ (p : Place) (a : Nat), p.Exact t root → p.Around t a → t.Loops a →
      (Escapes settings t p a ↔ ∃ o : Nat, p.Around t o ∧ t.Lifts o ∧ a < o)) :
    Scoped settings t := by
  obtain ⟨hexact, hwanted⟩ : (∀ p ∈ (generate settings t).places, p.Exact t root) ∧ _ :=
    ht.places
  constructor
  case scope =>
    intro p hp
    obtain ⟨e, he, hcondition⟩ := (hexact p hp).exists_element
    refine ⟨e, he, hcondition, fun a hwithin hloop => ?_⟩
    exact (hexact p hp).mem_scope_iff ht.parentsFirst
      (fun a ha => hescapes p a (hexact p hp) ha) hwithin hloop
  case body =>
    intro root' hroot' id e hreach he
    obtain rfl : root = root' := by simpa [ht.starts] using hroot'
    exact hwanted .body id ⟨hreach, e, he, .inl rfl⟩
  case guard =>
    intro root' hroot' id e hreach he hcondition
    obtain rfl : root = root' := by simpa [ht.starts] using hroot'
    exact hwanted .guard id ⟨hreach, e, he, .inr ⟨rfl, hcondition⟩⟩

/-- The tree of a template without marks. -/
theorem scoped_of_parse (hparse : Build.parse settings template = .ok parsed)
    (hoptimize : settings.optimize = false) : Scoped settings parsed.tree := by
  cases hroot : parsed.tree.root with
  | none => exact scoped_of_root_eq_none hroot
  | some root =>
      have ht := laid_of_parse hparse hroot
      refine scoped_of_escapes ht fun p a _ ha _ => ?_
      constructor
      · refine Escapes.exists_lifts ht.parentsFirst (fun _ id e he => ?_) ha
        simp [(unmarked_of_parse hparse he).2]
      · rintro ⟨o, ho, hlifts, hlt⟩
        exact escapes_of_unmarked ht.parentsFirst hoptimize
          (fun id e he => (unmarked_of_parse hparse he).1) ha ho hlifts hlt

/-- The tree of a template with marks. -/
theorem scoped_mark (hparse : Build.parse settings template = .ok parsed)
    (hoptimize : settings.optimize = true) :
    Scoped settings (Static.mark settings parsed.tree) := by
  cases hroot : parsed.tree.root with
  | none =>
      have hsame := (Static.alike_mark settings (Build.fresh_of_parse hparse)).1
      exact scoped_of_root_eq_none (hsame.trans hroot)
  | some root =>
      have ht := laid_mark hparse hroot
      refine scoped_of_escapes ht fun p a hp ha hloop => ?_
      constructor
      · refine Escapes.exists_lifts ht.parentsFirst (fun hfalse => ?_) ha
        rw [hoptimize] at hfalse
        cases hfalse
      · rintro ⟨o, ho, hlifts, hlt⟩
        exact escapes_of_marked ht.parentsFirst ht.forest (Static.loopMarks_mark hparse hroot) hp ha
          hloop ho hlifts hlt

/-- Only unusable delimiters make compiling fail. -/
theorem exists_compileTree (settings : Settings) (template : String)
    (hdelimiters : ∀ opening closing, settings.customDelimiters = some (opening, closing) →
      opening ≠ "" ∧ closing ≠ "") :
    ∃ parsed, compileTree settings template = .ok parsed := by
  obtain ⟨parsed, hparsed⟩ :=
    Build.exists_parse settings (String.ofList (Text.trim template.toList)) hdelimiters
  simp only [compileTree, hparsed]
  exact ⟨_, rfl⟩

/-- A tree that is compiled is the tree of a template, with marks or without. -/
theorem scoped_of_compileTree (h : compileTree settings template = .ok parsed) :
    Scoped settings parsed.tree := by
  unfold compileTree at h
  split at h
  · cases h
  · rename_i parsed₀ hparse
    cases hoptimize : settings.optimize with
    | true =>
        simp only [hoptimize, if_true] at h
        cases h
        exact scoped_mark hparse hoptimize
    | false =>
        simp only [hoptimize, Bool.false_eq_true, if_false] at h
        cases h
        exact scoped_of_parse hparse hoptimize

end Template

/-- **The scopes of the code of a template.**  Whatever the settings, all code stands inside the
callbacks of the loops around its element but for the three ways out. -/
theorem exists_compileTree_scoped (settings : Settings) (template : String)
    (hdelimiters : ∀ opening closing, settings.customDelimiters = some (opening, closing) →
      opening ≠ "" ∧ closing ≠ "") :
    ∃ parsed, compileTree settings template = .ok parsed ∧ Scoped settings parsed.tree := by
  obtain ⟨parsed, hparsed⟩ := exists_compileTree settings template hdelimiters
  exact ⟨parsed, hparsed, scoped_of_compileTree hparsed⟩

/-- An element that is rendered once, inside a loop with a condition: with marks all of it stays
inside the callback. -/
theorem exists_compileTree_scoped_once :
    (∀ opening closing,
      ({ Settings.web with customDelimiters := some ("[[", "]]") } : Settings).customDelimiters =
        some (opening, closing) → opening ≠ "" ∧ closing ≠ "") ∧
    ∃ parsed, compileTree { Settings.web with customDelimiters := some ("[[", "]]") }
        "<div><p v-for=\"i in xs\" v-if=\"i\"><b v-once>[[i]]</b></p></div>" = .ok parsed ∧
      Scoped { Settings.web with customDelimiters := some ("[[", "]]") } parsed.tree ∧
      (generate { Settings.web with customDelimiters := some ("[[", "]]") } parsed.tree).places =
        [⟨.body, 0, []⟩, ⟨.guard, 1, [1]⟩, ⟨.body, 1, [1]⟩, ⟨.body, 2, [1]⟩, ⟨.text, 2, [1]⟩] := by
  have hdelimiters : ∀ opening closing,
      ({ Settings.web with customDelimiters := some ("[[", "]]") } : Settings).customDelimiters =
        some (opening, closing) → opening ≠ "" ∧ closing ≠ "" := by
    rintro opening closing ⟨⟩
    decide
  obtain ⟨parsed, hparsed, hscoped⟩ := exists_compileTree_scoped
    { Settings.web with customDelimiters := some ("[[", "]]") }
    "<div><p v-for=\"i in xs\" v-if=\"i\"><b v-once>[[i]]</b></p></div>" hdelimiters
  have hcheck : (Except.ok parsed : Except CompileError Build.Parsed).toOption.any (fun parsed =>
      (generate { Settings.web with customDelimiters := some ("[[", "]]") } parsed.tree).places =
        [⟨.body, 0, []⟩, ⟨.guard, 1, [1]⟩, ⟨.body, 1, [1]⟩, ⟨.body, 2, [1]⟩,
          ⟨.text, 2, [1]⟩]) := by
    rw [← hparsed]
    decide +kernel
  exact ⟨hdelimiters, parsed, hparsed, hscoped, of_decide_eq_true hcheck⟩

/-- **Code outside of the loop that it needs**: without marks an element that is rendered once
leaves the loop that it stands in, and with them the condition of such an element is asked outside
of its own loop. -/
theorem exists_escaped_places :
    (∃ parsed e, compileTree { Settings.web with optimize := false }
        "<div><p v-for=\"i in xs\"><span v-once>\x7b\x7bi\x7d\x7d</span></p></div>" = .ok parsed ∧
      parsed.tree.element? 2 = some e ∧ e.isStatic = none ∧ e.parent = some 1 ∧
      parsed.tree.Loops 1 ∧ ⟨.text, 2, []⟩ ∈
        (generate { Settings.web with optimize := false } parsed.tree).places) ∧
    ∃ parsed e, compileTree Settings.web "<div><p v-for=\"i in xs\" v-if=\"i\" v-once></p></div>" =
        .ok parsed ∧
      parsed.tree.element? 1 = some e ∧ e.isStatic = some false ∧ e.loop.isSome = true ∧
      ⟨.guard, 1, []⟩ ∈ (generate Settings.web parsed.tree).places := by
  constructor
  · obtain ⟨parsed, hparsed⟩ := exists_compileTree { Settings.web with optimize := false }
      "<div><p v-for=\"i in xs\"><span v-once>\x7b\x7bi\x7d\x7d</span></p></div>"
      (by simp [Settings.web])
    have hcheck : (Except.ok parsed : Except CompileError Build.Parsed).toOption.any (fun parsed =>
        (parsed.tree.element? 2).any (fun e => e.isStatic = none ∧ e.parent = some 1) &&
          (parsed.tree.element? 1).any (·.loop.isSome) &&
          (generate { Settings.web with optimize := false } parsed.tree).places.contains
            ⟨.text, 2, []⟩) := by
      rw [← hparsed]
      decide +kernel
    obtain ⟨hcheck, hplace⟩ := (Bool.and_eq_true _ _).mp hcheck
    obtain ⟨hinner, houter⟩ := (Bool.and_eq_true _ _).mp hcheck
    obtain ⟨e, he, hmarks⟩ := (Option.any_eq_true _ (parsed.tree.element? 2)).mp hinner
    obtain ⟨hnone, hparent⟩ := of_decide_eq_true hmarks
    have hloops : parsed.tree.Loops 1 :=
      (Option.any_eq_true _ (parsed.tree.element? 1)).mp houter
    exact ⟨parsed, e, hparsed, he, hnone, hparent, hloops, List.contains_iff_mem.mp hplace⟩
  · obtain ⟨parsed, hparsed⟩ := exists_compileTree Settings.web
      "<div><p v-for=\"i in xs\" v-if=\"i\" v-once></p></div>" (by simp [Settings.web])
    have hcheck : (Except.ok parsed : Except CompileError Build.Parsed).toOption.any (fun parsed =>
        (parsed.tree.element? 1).any (fun e => e.isStatic = some false ∧ e.loop.isSome = true) &&
          (generate Settings.web parsed.tree).places.contains ⟨.guard, 1, []⟩) := by
      rw [← hparsed]
      decide +kernel
    obtain ⟨helement, hplace⟩ := (Bool.and_eq_true _ _).mp hcheck
    obtain ⟨e, he, hmarks⟩ := (Option.any_eq_true _ (parsed.tree.element? 1)).mp helement
    obtain ⟨hstatic, hloop⟩ := of_decide_eq_true hmarks
    exact ⟨parsed, e, hparsed, he, hstatic, hloop, List.contains_iff_mem.mp hplace⟩

end Templating.Render
