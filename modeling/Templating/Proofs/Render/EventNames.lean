import Templating.Proofs.Build.Registered
import Templating.Proofs.Render.Literals

/-!
**The names that listeners are rendered under.**

The listeners of an element are rendered as an object with one member for each group of them.  A
group is written under its text: as it stands when the name of one of its events is code, and
between quotes otherwise.  So a listener whose name is code has its marks in front of that code,
where they are operators, and a listener with a fixed name is written under the quoted name unless
code with the same text is listened to as well.

Main definitions:

* `Templating.Render.Member`, `Templating.Render.membersCode` — the members of the object, and the
  code of them;
* `Templating.Build.Calls`, `Templating.Build.Registration.IsFor` — what an event is called, and the
  listener for an event with some modifiers;
* `Templating.Render.Named` — the names under which registered listeners are rendered.

Main results:

* `Templating.Render.listenersCode_eq` — the listeners of an element are rendered as members;
* `Templating.Render.named_members` — groups of listeners give members with these names;
* `Templating.Render.exists_parse_named` — **the names of all listeners of a template**;
* `Templating.Render.exists_misnamed_listeners` — a name and code with the same text share a member,
  a mark is an operator, and a backslash is no part of the name.
-/

set_option autoImplicit false

namespace Templating

open Build Text

/-! ### The names of events -/

namespace Build

/-- **What an event is called.**  Clicks with another mouse button are other events, and code for a
name is asked whether it gives a click. -/
inductive Calls (event : String) (modifiers : List String) : (dynamic : Bool) → String → Prop
  /-- Without a button every event has its own name. -/
  | itself (dynamic : Bool) (hright : "right" ∉ modifiers) (hmiddle : "middle" ∉ modifiers) :
      Calls event modifiers dynamic event
  /-- No other event is renamed. -/
  | other (h : event ≠ "click") : Calls event modifiers false event
  | rightClick (hright : "right" ∈ modifiers) (h : event = "click") :
      Calls event modifiers false "contextmenu"
  | middleClick (hright : "right" ∉ modifiers) (hmiddle : "middle" ∈ modifiers)
      (h : event = "click") : Calls event modifiers false "mouseup"
  | right (hright : "right" ∈ modifiers) : Calls event modifiers true
      ("(" ++ event ++ ")==='click'?'contextmenu':(" ++ event ++ ")")
  | middle (hright : "right" ∉ modifiers) (hmiddle : "middle" ∈ modifiers) :
      Calls event modifiers true ("(" ++ event ++ ")==='click'?'mouseup':(" ++ event ++ ")")

/-- **The listener for an event with some modifiers.** -/
structure Registration.IsFor (r : Registration) (event value : String) (dynamic : Bool)
    (modifiers : List String) : Prop where
  name : Calls event modifiers dynamic r.name
  value : r.listener.value = String.ofList (trim value.toList)
  isDynamic : r.listener.dynamic = dynamic
  native : r.native = modifiers.contains "native"
  marked : r.marks = Build.marks modifiers
  /-- There is no mark unless a modifier puts one. -/
  unmarked : r.marks = "" ↔ "capture" ∉ modifiers ∧ "once" ∉ modifiers ∧ "passive" ∉ modifiers

/-- Renaming takes no modifier but the one for the right button. -/
theorem eventName_cases (event : String) (dynamic : Bool) (modifiers : List String) :
    Calls event modifiers dynamic (eventName event dynamic modifiers).1 ∧
      ((eventName event dynamic modifiers).2 = modifiers ∨
        (eventName event dynamic modifiers).2 = modifiers.erase "right") := by
  simp only [eventName, List.contains_iff_mem]
  by_cases hright : "right" ∈ modifiers
  · rw [if_pos hright]
    cases dynamic with
    | true => exact ⟨.right hright, .inl rfl⟩
    | false =>
        by_cases hclick : event = "click"
        · rw [if_neg Bool.false_ne_true, if_pos hclick]
          exact ⟨.rightClick hright hclick, .inr rfl⟩
        · rw [if_neg Bool.false_ne_true, if_neg hclick]
          exact ⟨.other hclick, .inl rfl⟩
  · rw [if_neg hright]
    by_cases hmiddle : "middle" ∈ modifiers
    · rw [if_pos hmiddle]
      cases dynamic with
      | true => exact ⟨.middle hright hmiddle, .inl rfl⟩
      | false =>
          by_cases hclick : event = "click"
          · rw [if_neg Bool.false_ne_true, if_pos hclick]
            exact ⟨.middleClick hright hmiddle hclick, .inl rfl⟩
          · rw [if_neg Bool.false_ne_true, if_neg hclick]
            exact ⟨.other hclick, .inl rfl⟩
    · rw [if_neg hmiddle]
      exact ⟨.itself dynamic hright hmiddle, .inl rfl⟩

theorem marks_eq_empty_iff (modifiers : List String) :
    marks modifiers = "" ↔
      "capture" ∉ modifiers ∧ "once" ∉ modifiers ∧ "passive" ∉ modifiers := by
  by_cases hpassive : "passive" ∈ modifiers <;> by_cases honce : "once" ∈ modifiers <;>
    by_cases hcapture : "capture" ∈ modifiers <;> simp [marks, hpassive, honce, hcapture]

/-- **An attribute for an event** registers the listener for it. -/
theorem exists_registration? {a : Markup.Attribute} {event : String} {dynamic : Bool}
    {modifiers : List String} (h : purpose a.name = (.listener event dynamic, modifiers)) :
    ∃ r, registration? a = some r ∧ r.IsFor event a.value dynamic modifiers := by
  obtain ⟨hname, hmodifiers⟩ := eventName_cases event dynamic modifiers
  have hsame : ∀ m : String, m ≠ "right" →
      (eventName event dynamic modifiers).2.contains m = modifiers.contains m := by
    intro m hm
    rcases hmodifiers with hkept | herased
    · rw [hkept]
    · rw [herased, contains_erase_of_ne hm]
  have hread : registration? a = some (registration (eventName event dynamic modifiers).1
      (String.ofList (trim a.value.toList)) dynamic (eventName event dynamic modifiers).2) := by
    simp only [registration?, h]
  have hmarks : marks (eventName event dynamic modifiers).2 = marks modifiers := by
    simp only [marks, hsame "passive" (by decide), hsame "once" (by decide),
      hsame "capture" (by decide)]
  refine ⟨_, hread, hname, rfl, rfl, hsame "native" (by decide), hmarks, ?_⟩
  simp only [registration, hmarks, marks_eq_empty_iff]

end Build

/-! ### Members -/

namespace Render

/-- **A member of the object of listeners**: a text, and the listeners under it. -/
structure Member where
  key : String
  listeners : List Listener

namespace Member

/-- Whether the name of the member is code. -/
def computed (m : Member) : Bool := m.listeners.any (·.dynamic)

/-- What is written for the name: the text as it stands, between quotes unless it is code. -/
def name (m : Member) : String := if m.computed then m.key else bare m.key

/-- The code of a member. -/
def code (m : Member) : String :=
  m.name ++ ((if m.computed then "," else ":") ++ eventCode m.listeners)

end Member

/-- The code of an object of listeners. -/
def membersCode (native : Bool) (members : List Member) : String :=
  (if native then "nativeOn:" else "on:") ++
    objectCode ((members.filter (!·.computed)).map Member.code)
      ((members.filter (·.computed)).map Member.code)

/-- The groups of listeners as members. -/
def members (d : Dict (List Listener)) : List Member := d.entries.map fun p => ⟨p.1, p.2⟩

/-- **The listeners of an element are rendered as members.** -/
theorem listenersCode_eq (native : Bool) (d : Dict (List Listener)) :
    listenersCode native d = membersCode native (members d) := by
  have hfixed : (d.entries.filter fun p => !p.2.any (·.dynamic)).map
      (fun p => "\"" ++ p.1 ++ "\":" ++ eventCode p.2) =
      ((members d).filter (!·.computed)).map Member.code := by
    rw [members, List.filter_map, List.map_map]
    refine List.map_congr_left fun p hp => ?_
    have hp : (⟨p.1, p.2⟩ : Member).computed = false :=
      (Bool.not_eq_true' _).mp (List.mem_filter.mp hp).2
    simp only [Function.comp_apply, Member.code, Member.name, hp, Bool.false_eq_true, if_false]
    exact name_eq_bare p.1 (eventCode p.2)
  have hcomputed : (d.entries.filter fun p => p.2.any (·.dynamic)).map
      (fun p => p.1 ++ "," ++ eventCode p.2) =
      ((members d).filter (·.computed)).map Member.code := by
    rw [members, List.filter_map, List.map_map]
    refine List.map_congr_left fun p hp => ?_
    have hp : (⟨p.1, p.2⟩ : Member).computed = true := (List.mem_filter.mp hp).2
    simp only [Function.comp_apply, Member.code, Member.name, hp, if_true, String.append_assoc]
  rw [listenersCode, membersCode, hfixed, hcomputed]

/-- **The names under which registered listeners are rendered.** -/
structure Named (rs : List Registration) (ms : List Member) : Prop where
  /-- No text has two members. -/
  nodup : (ms.map (·.key)).Nodup
  /-- A member has all listeners with its text, in their order, and at least one. -/
  listeners : ∀ m ∈ ms, m.listeners = heard rs m.key ∧ m.listeners ≠ []
  /-- A listener whose name is code is rendered under that code, with its marks in front of it. -/
  dynamic : ∀ r ∈ rs, r.listener.dynamic = true → ∃ m ∈ ms, m.key = r.key ∧
    r.listener ∈ m.listeners ∧ m.computed = true ∧ m.name = r.marks ++ r.name ∧
      (m.name = r.name ↔ r.marks = "")
  /-- Any other listener is rendered under its marks and its name between quotes, unless there is
  a listener whose name is code with the same text. -/
  fixed : ∀ r ∈ rs, r.listener.dynamic = false → ∃ m ∈ ms, m.key = r.key ∧
    r.listener ∈ m.listeners ∧
      (m.name = bare (r.marks ++ r.name) ↔
        ∀ r' ∈ rs, r'.key = r.key → r'.listener.dynamic = false)
  /-- What is between quotes is the name unless a character of it has a meaning there. -/
  literal : ∀ m ∈ ms, m.computed = false → (IsLiteralOf m.name m.key ↔
    ∀ c ∈ m.key.toList, c ≠ '"' ∧ c ≠ '\\' ∧ ¬IsLineTerminator c)

theorem bare_ne_self (s : String) : s ≠ bare s := by
  intro h
  have hlength := congrArg (fun s => s.toList.length) h
  simp only [bare, String.toList_append, List.length_append] at hlength
  have hquote : "\"".toList.length = 1 := rfl
  omega

/-- **Groups of listeners give members with these names.** -/
theorem named_members {d : Dict (List Listener)} {rs : List Registration} (h : Groups d rs) :
    Named rs (members d) := by
  have hmem : ∀ r ∈ rs, ∃ m ∈ members d, m.key = r.key ∧ r.listener ∈ m.listeners := by
    intro r hr
    have hheard : r.listener ∈ heard rs r.key := mem_heard.mpr ⟨r, hr, rfl, rfl⟩
    have hentry : (r.key, heard rs r.key) ∈ d.entries :=
      h.mem_entries_iff.mpr ⟨List.ne_nil_of_mem hheard, rfl⟩
    exact ⟨_, List.mem_map_of_mem hentry, rfl, hheard⟩
  have hlisteners : ∀ m ∈ members d, m.listeners = heard rs m.key ∧ m.listeners ≠ [] := by
    intro m hm
    obtain ⟨p, hp, rfl⟩ := List.mem_map.mp hm
    exact (h.mem_entries_iff.mp hp).symm
  have hcomputed : ∀ m ∈ members d, m.computed = false ↔
      ∀ r ∈ rs, r.key = m.key → r.listener.dynamic = false := by
    intro m hm
    rw [Member.computed, List.any_eq_false, (hlisteners m hm).1]
    simp only [mem_heard, Bool.not_eq_true]
    grind
  constructor
  case nodup =>
    have hkeys : (members d).map (·.key) = d.keys := by simp [members, Dict.keys]
    rw [hkeys]
    exact h.nodup
  case listeners => exact hlisteners
  case dynamic =>
    intro r hr hdynamic
    obtain ⟨m, hm, hkey, hheard⟩ := hmem r hr
    have hon : m.computed = true := List.any_eq_true.mpr ⟨r.listener, hheard, hdynamic⟩
    have hname : m.name = r.marks ++ r.name := by
      rw [Member.name, if_pos hon, hkey, Registration.key]
    refine ⟨m, hm, hkey, hheard, hon, hname, ?_⟩
    rw [hname, ← String.toList_inj, String.toList_append, List.append_left_eq_self]
    exact String.toList_eq_nil_iff
  case fixed =>
    intro r hr hfixed
    obtain ⟨m, hm, hkey, hheard⟩ := hmem r hr
    refine ⟨m, hm, hkey, hheard, ?_⟩
    have hoff := hcomputed m hm
    rw [hkey] at hoff
    rw [← hoff, Member.name, hkey, Registration.key]
    cases m.computed with
    | false => simp
    | true => simpa using bare_ne_self _
  case literal =>
    intro m hm hoff
    rw [Member.name, if_neg (by simp [hoff])]
    exact isLiteralOf_bare_iff m.key

/-! ### Templates -/

/-- **The listeners of an element, and the names they are rendered under.** -/
structure Listens (e : Element) : Prop where
  /-- Every attribute of the element that is for an event registers the listener for it. -/
  registered : ∃ attributes : List Markup.Attribute,
    e.attributes = Dict.ofList (attributes.map fun a => (a.name, a.value)) ∧
    e.registrations = attributes.filterMap registration? ∧
    ∀ a ∈ attributes, ∀ event dynamic modifiers,
      purpose a.name = (.listener event dynamic, modifiers) →
        ∃ r ∈ e.registrations, r.IsFor event a.value dynamic modifiers
  /-- All that is registered is rendered, and nothing else. -/
  named : ∀ native, ∃ ms, listenersCode native (e.listeners native) = membersCode native ms ∧
    Named (e.registrations.filter (·.native = native)) ms

theorem listens_of_isRead {src : Source} {inFor : Bool} {e : Element}
    (h : IsRead src inFor true e) : Listens e := by
  obtain ⟨attributes, hattributes, hall, hregisters⟩ := h.registers
  refine ⟨⟨attributes, hattributes, hall, fun a ha event dynamic modifiers hpurpose => ?_⟩,
    fun native => ⟨_, listenersCode_eq native _, named_members (hregisters native)⟩⟩
  obtain ⟨r, hr, hfor⟩ := exists_registration? hpurpose
  rw [hall]
  exact ⟨r, List.mem_filterMap.mpr ⟨a, ha, hr⟩, hfor⟩

/-- **The names of all listeners of a template.**  An element that is kept as it stands has no
listeners.  In the code of every other element, a listener whose name is code is rendered under that
code, which is the argument or asks whether the argument is a click, with the marks of its modifiers
in front: it is the code itself just when there are no marks.  Any other listener is rendered under
its marks and its name between quotes, but for a listener with the same text whose name is code: the
two are rendered together, under the code. -/
theorem exists_parse_named (settings : Settings) (template : String)
    (h : ∀ opening closing, settings.customDelimiters = some (opening, closing) →
      opening ≠ "" ∧ closing ≠ "") :
    ∃ parsed, parse settings template = .ok parsed ∧
      ∀ id e, parsed.tree.element? id = some e →
        (parsed.tree.Verbatim id → e.events = ∅ ∧ e.nativeEvents = ∅) ∧
        (¬parsed.tree.Verbatim id → Listens e) := by
  obtain ⟨parsed, hparsed⟩ := exists_parse settings template h
  refine ⟨parsed, hparsed, fun id e he => ?_⟩
  unfold parse at hparsed
  split at hparsed
  · cases hparsed
  · rename_i delimiters _
    cases hparsed
    obtain ⟨hkept, hread⟩ := interpreted_run ⟨settings, template, delimiters⟩ he
    refine ⟨fun hid => ⟨(hkept hid).events, (hkept hid).nativeEvents⟩, fun hid => ?_⟩
    obtain ⟨inFor, hread⟩ := hread hid
    exact listens_of_isRead hread

/-- A click with the right button, a mark in front of code, a listener of a component, and an
element with `v-pre`. -/
theorem exists_parse_named_button :
    ∃ parsed, parse Settings.web
        "<div><b @click.right=\"x\" @[n].once=\"y\" @c.native=\"z\"></b><p v-pre @a=x></p></div>" =
          .ok parsed ∧
      (∃ b, parsed.tree.element? 1 = some b ∧
        listenersCode false b.events = "on:_d(\x7b\"contextmenu\":x\x7d,[~n,y])" ∧
        listenersCode true b.nativeEvents = "nativeOn:\x7b\"c\":z\x7d" ∧ Listens b) ∧
      ∃ p, parsed.tree.element? 2 = some p ∧ p.pre = true ∧ p.events = ∅ ∧ p.nativeEvents = ∅ := by
  obtain ⟨parsed, hparsed, hall⟩ := exists_parse_named Settings.web
    "<div><b @click.right=\"x\" @[n].once=\"y\" @c.native=\"z\"></b><p v-pre @a=x></p></div>"
    (by simp [Settings.web])
  have hcheck : (Except.ok parsed : Except CompileError Parsed).toOption.any (fun parsed =>
      (parsed.tree.element? 1).any (fun b =>
        listenersCode false b.events == "on:_d(\x7b\"contextmenu\":x\x7d,[~n,y])" &&
          listenersCode true b.nativeEvents == "nativeOn:\x7b\"c\":z\x7d" &&
          !b.pre && b.parent == some 0) &&
        (parsed.tree.element? 2).any (·.pre) &&
        (parsed.tree.element? 0).any fun e => !e.pre && e.parent == none) := by
    rw [← hparsed]
    decide +kernel
  simp only [Except.toOption, Option.any_some, Bool.and_eq_true, Option.any_eq_true,
    Bool.not_eq_true', beq_iff_eq] at hcheck
  obtain ⟨⟨⟨b, hb, ⟨⟨hevents, hnative⟩, hbpre⟩, hparent⟩, ⟨p, hp, hpre⟩⟩, e, he, hepre, htop⟩ :=
    hcheck
  -- neither the element nor the one around it has `v-pre`
  have htop : ¬parsed.tree.Verbatim 0 := by
    intro hverbatim
    cases hverbatim with
    | pre he' hpre' => simp_all
    | inside he' hparent' _ => simp_all
  have hoff : ¬parsed.tree.Verbatim 1 := by
    intro hverbatim
    cases hverbatim with
    | pre hb' hpre' => simp_all
    | inside hb' hparent' habove => simp_all
  exact ⟨parsed, hparsed, ⟨b, hb, hevents, hnative, (hall 1 b hb).2 hoff⟩, p, hp, hpre,
    (hall 2 p hp).1 (.pre hp hpre)⟩

/-- A template whose first element is found to have a property. -/
theorem exists_root_of_check {settings : Settings} {template : String} {P : Element → Prop}
    [DecidablePred P] (h : (parse settings template).toOption.any (fun parsed =>
      (parsed.tree.element? 0).any fun e => decide (P e)) = true) :
    ∃ parsed e, parse settings template = .ok parsed ∧ parsed.tree.element? 0 = some e ∧ P e := by
  cases hparse : parse settings template with
  | error problem => simp [hparse, Except.toOption] at h
  | ok parsed =>
      simp only [hparse, Except.toOption, Option.any_some] at h
      obtain ⟨e, he, h⟩ := (Option.any_eq_true _ _).mp h
      exact ⟨parsed, e, rfl, he, of_decide_eq_true h⟩

/-- **A name and code with the same text share a member, a mark is an operator, and a backslash is
no part of a name.**  The listener `x` for the event `a` is rendered under the code `a`, the
listener `y` under the negation of `a`, and the quote that should end the third name is part of
it. -/
theorem exists_misnamed_listeners :
    (∃ parsed e, parse Settings.web "<p @a=\"x\" @[a]=\"y\"></p>" = .ok parsed ∧
      parsed.tree.element? 0 = some e ∧
      e.registrations.map (fun r => (r.key, r.listener.dynamic)) = [("a", false), ("a", true)] ∧
      listenersCode false e.events = "on:_d(\x7b\x7d,[a,[x,y]])") ∧
    (∃ parsed e, parse Settings.web "<p @[a].capture=\"y\"></p>" = .ok parsed ∧
      parsed.tree.element? 0 = some e ∧
      e.registrations.map (fun r => (r.marks, r.name, r.listener.dynamic)) = [("!", "a", true)] ∧
      listenersCode false e.events = "on:_d(\x7b\x7d,[!a,y])") ∧
    ∃ parsed e, parse Settings.web "<p @a\\=\"x\"></p>" = .ok parsed ∧
      parsed.tree.element? 0 = some e ∧
      e.registrations.map (fun r => (r.key, r.listener.dynamic)) = [("a\\", false)] ∧
      listenersCode false e.events = "on:\x7b\"a\\\":x\x7d" := by
  refine ⟨exists_root_of_check ?_, exists_root_of_check ?_, exists_root_of_check ?_⟩
  · decide +kernel
  · decide +kernel
  · decide +kernel

end Render

end Templating
