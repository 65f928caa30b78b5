import Templating.Proofs.Build.Interpretation
import Templating.Proofs.Build.Taking

/-!
**Which listeners the attributes of an element register.**

An attribute for an event registers a listener.  The modifiers `capture`, `once` and `passive`
become marks in front of the name of the event, and listeners are kept in groups, one for each text
of marks and name.  So listeners whose names differ in kind, one a name and the other code, are in
one group when the texts are the same.

Main definitions:

* `Templating.Build.Registration` — a listener with the name of its event and the marks of it;
* `Templating.Build.registration?` — what an attribute registers;
* `Templating.Build.Groups` — the listeners of a list of registrations, in groups;
* `Templating.Element.Registers` — an element with the listeners of some registrations, and no
  others.

Main results:

* `Templating.Build.Groups.alter` — one more registration goes to the end of its group;
* `Templating.Build.registers_readAttributes` — **the attributes of an element register their
  listeners**, one after another;
* `Templating.Build.registrations_of_takes` — what is read before them takes none of them;
* `Templating.Build.IsRead.registers` — an element that was read to the end has the listeners of its
  attributes.
-/

set_option autoImplicit false

namespace Templating

open Build Build.Builder

/-- Where no key is there twice, the entries are what is found. -/
theorem Dict.mem_entries_iff {α : Type} {d : Dict α} (h : d.keys.Nodup) {key : String} {value : α} :
    (key, value) ∈ d.entries ↔ d.get? key = some value := by
  rw [Dict.get?, List.lookup_eq_some_iff]
  constructor
  · intro hmem
    obtain ⟨before, after, hentries⟩ := List.append_of_mem hmem
    refine ⟨before, after, hentries, fun p hp => ?_⟩
    rw [Dict.keys, hentries, List.map_append, List.map_cons] at h
    have hne := (List.nodup_append.mp h).2.2 p.1 (List.mem_map_of_mem hp) key List.mem_cons_self
    simpa using Ne.symm hne
  · rintro ⟨before, after, hentries, -⟩
    simp [hentries]

/-- The listeners of an element, or those of the root of the component that it stands for. -/
def Element.listeners (e : Element) (native : Bool) : Dict (List Listener) :=
  if native then e.nativeEvents else e.events

namespace Build

/-! ### Registrations -/

/-- The marks that modifiers put in front of the name of an event. -/
def marks (modifiers : List String) : String :=
  (if modifiers.contains "passive" then "&" else "") ++
    (if modifiers.contains "once" then "~" else "") ++
      (if modifiers.contains "capture" then "!" else "")

/-- **A listener that is registered.** -/
structure Registration where
  /-- The name of the event, or the code for it. -/
  name : String
  /-- The marks for the name. -/
  marks : String
  /-- Whether the root of a component is listened to. -/
  native : Bool
  listener : Listener
  deriving Repr, DecidableEq

/-- The text of the group that a listener goes to. -/
def Registration.key (r : Registration) : String := r.marks ++ r.name

/-- The listener for an event with its modifiers. -/
def registration (event value : String) (dynamic : Bool) (modifiers : List String) :
    Registration where
  name := event
  marks := marks modifiers
  native := modifiers.contains "native"
  listener := {
    value
    dynamic
    modifiers := (((modifiers.erase "capture").erase "once").erase "passive").erase "native" }

/-- What an attribute registers: clicks are renamed, and the code loses the blanks around it. -/
def registration? (a : Markup.Attribute) : Option Registration :=
  match purpose a.name with
  | (.listener event dynamic, modifiers) =>
      let named := eventName event dynamic modifiers
      some (registration named.1 (String.ofList (Text.trim a.value.toList)) dynamic named.2)
  | _ => none

theorem markEvent_eq (modifier marker event : String) (modifiers : List String) :
    markEvent modifier marker (event, modifiers) =
      ((if modifiers.contains modifier then marker else "") ++ event,
        modifiers.erase modifier) := by
  by_cases h : modifier ∈ modifiers
  · simp [markEvent, takeModifier, h]
  · simp [markEvent, takeModifier, h, List.erase_of_not_mem h]

theorem contains_erase_of_ne {modifiers : List String} {m m' : String} (h : m ≠ m') :
    (modifiers.erase m').contains m = modifiers.contains m := by
  rw [Bool.eq_iff_iff, List.contains_iff_mem, List.contains_iff_mem, List.mem_erase_of_ne h]

/-- **Adding a listener** puts it at the end of its group, and leaves the other groups alone. -/
theorem listeners_addListener (e : Element) (event value : String) (dynamic : Bool)
    (modifiers : List String) (native : Bool) :
    (addListener e event value dynamic modifiers).listeners native =
      if (registration event value dynamic modifiers).native = native then
        (e.listeners native).alter (registration event value dynamic modifiers).key fun old =>
          old.getD [] ++ [(registration event value dynamic modifiers).listener]
      else e.listeners native := by
  have hmarked : markEvent "passive" "&" (markEvent "once" "~" (markEvent "capture" "!"
      (event, modifiers))) = ((registration event value dynamic modifiers).key,
        ((modifiers.erase "capture").erase "once").erase "passive") := by
    rw [markEvent_eq, markEvent_eq, markEvent_eq, contains_erase_of_ne (by decide),
      contains_erase_of_ne (by decide), contains_erase_of_ne (by decide)]
    simp only [Registration.key, registration, marks, String.append_assoc]
  have hnative : (((modifiers.erase "capture").erase "once").erase "passive").contains "native" =
      modifiers.contains "native" := by
    rw [contains_erase_of_ne (by decide), contains_erase_of_ne (by decide),
      contains_erase_of_ne (by decide)]
  have hown : (registration event value dynamic modifiers).native =
      modifiers.contains "native" := rfl
  simp only [addListener, hmarked, takeModifier, hnative, hown]
  cases hcase : modifiers.contains "native" with
  | true => cases native <;> rfl
  | false => cases native <;> rfl

/-! ### Groups -/

/-- The listeners of a group, in the order of their registration. -/
def heard (rs : List Registration) (key : String) : List Listener :=
  (rs.filter (·.key = key)).map (·.listener)

theorem mem_heard {rs : List Registration} {key : String} {l : Listener} :
    l ∈ heard rs key ↔ ∃ r ∈ rs, r.key = key ∧ r.listener = l := by
  simp [heard, and_assoc]

/-- **The listeners of some registrations, in groups**: every key has one group, and a group without
listeners is not there. -/
structure Groups (d : Dict (List Listener)) (rs : List Registration) : Prop where
  nodup : d.keys.Nodup
  get?_eq : ∀ key, d.get? key = if heard rs key = [] then none else some (heard rs key)

namespace Groups

theorem empty : Groups ∅ [] where
  nodup := List.nodup_nil
  get?_eq _ := rfl

/-- One more registration goes to the end of its group. -/
theorem alter {d : Dict (List Listener)} {rs : List Registration} (h : Groups d rs)
    (r : Registration) :
    Groups (d.alter r.key fun old => old.getD [] ++ [r.listener]) (rs ++ [r]) where
  nodup := by
    rw [Dict.keys_alter]
    split
    · exact h.nodup
    · rename_i hnew
      refine List.nodup_append.mpr ⟨h.nodup, by simp, fun k hk k' hk' => ?_⟩
      rintro rfl
      exact hnew (List.mem_singleton.mp hk' ▸ hk)
  get?_eq key := by
    by_cases hkey : key = r.key
    · subst hkey
      have hlast : heard (rs ++ [r]) r.key = heard rs r.key ++ [r.listener] := by simp [heard]
      rw [Dict.get?_alter_self, hlast, if_neg (by simp), h.get?_eq]
      split
      · rename_i hempty
        rw [hempty]
        rfl
      · rfl
    · have hother : heard (rs ++ [r]) key = heard rs key := by
        simp [heard, Ne.symm hkey]
      rw [Dict.get?_alter_of_ne _ _ hkey, h.get?_eq, hother]

/-- The groups are the entries of the dictionary. -/
theorem mem_entries_iff {d : Dict (List Listener)} {rs : List Registration} (h : Groups d rs)
    {key : String} {ls : List Listener} :
    (key, ls) ∈ d.entries ↔ ls ≠ [] ∧ ls = heard rs key := by
  rw [Dict.mem_entries_iff h.nodup, h.get?_eq]
  split
  · rename_i hempty
    simp [hempty]
  · rename_i hne
    constructor
    · intro h
      cases h
      exact ⟨hne, rfl⟩
    · rintro ⟨-, rfl⟩
      rfl

end Groups

end Build

/-- **An element with the listeners of some registrations**, and no others. -/
def Element.Registers (e : Element) (rs : List Registration) : Prop :=
  ∀ native, Groups (e.listeners native) (rs.filter (·.native = native))

theorem Element.Registers.congr {e e' : Element} {rs : List Registration} (h : e.Registers rs)
    (hevents : e'.events = e.events) (hnative : e'.nativeEvents = e.nativeEvents) :
    e'.Registers rs := by
  intro native
  rw [Element.listeners, hevents, hnative]
  exact h native

theorem Element.registers_nil {e : Element} (hevents : e.events = ∅)
    (hnative : e.nativeEvents = ∅) : e.Registers [] := by
  intro native
  rw [Element.listeners, hevents, hnative, ite_self]
  exact Groups.empty

namespace Build

/-! ### Reading attributes -/

theorem registers_addListener {e : Element} {rs : List Registration} (h : e.Registers rs)
    (event value : String) (dynamic : Bool) (modifiers : List String) :
    (addListener e event value dynamic modifiers).Registers
      (rs ++ [registration event value dynamic modifiers]) := by
  intro native
  rw [listeners_addListener, List.filter_append]
  split
  · rename_i hown
    simpa [hown] using (h native).alter (registration event value dynamic modifiers)
  · rename_i hother
    simpa [hother] using h native

/-- An attribute registers its listener, if it is one for an event. -/
theorem registers_readAttribute (delimiters : Option (String × String)) {e : Element}
    {rs : List Registration} (h : e.Registers rs) (a : Markup.Attribute) :
    (readAttribute delimiters e a).1.Registers (rs ++ (registration? a).toList) := by
  obtain ⟨purposed, hpurpose⟩ : ∃ p, purpose a.name = p := ⟨_, rfl⟩
  obtain ⟨kind, modifiers⟩ := purposed
  cases kind with
  | plain =>
      simp only [readAttribute, registration?, hpurpose, Option.toList_none, List.append_nil]
      exact h
  | binding name dynamic =>
      simp only [readAttribute, registration?, hpurpose, Option.toList_none, List.append_nil]
      split
      · exact h
      · exact h
  | directive name arg =>
      simp only [readAttribute, registration?, hpurpose, Option.toList_none, List.append_nil]
      exact h
  | listener event dynamic =>
      simp only [readAttribute, registration?, hpurpose, Option.toList_some]
      exact registers_addListener (e := { e with hasBindings := true }) h _ _ _ _

/-- **The attributes of an element register their listeners**, one after another. -/
theorem registers_readAttributes (delimiters : Option (String × String))
    (l : List Markup.Attribute) {e : Element} {rs : List Registration} (h : e.Registers rs) :
    (readAttributes delimiters l e).1.Registers (rs ++ l.filterMap registration?) := by
  induction l generalizing e rs with
  | nil => simpa [readAttributes] using h
  | cons a l ih =>
      have hrest := ih (registers_readAttribute delimiters h a)
      rw [List.append_assoc] at hrest
      have hcons : (a :: l).filterMap registration? =
          (registration? a).toList ++ l.filterMap registration? := by
        rw [List.filterMap_cons]
        cases registration? a <;> rfl
      rw [hcons]
      exact hrest

/-! ### What is read before -/

/-- Whether an attribute with this name registers a listener. -/
def listens (name : String) : Bool :=
  match (purpose name).1 with
  | .listener _ _ => true
  | _ => false

theorem registration?_of_not_listens {a : Markup.Attribute} (h : listens a.name = false) :
    registration? a = none := by
  unfold listens at h
  unfold registration?
  split
  · rename_i hpurpose
    simp [hpurpose] at h
  · rfl

end Build

/-- What the attributes register that are pending. -/
def Element.registrations (e : Element) : List Registration := e.pending.filterMap registration?

namespace Build

/-- Taking attributes that register nothing leaves the registrations alone. -/
theorem registrations_of_takes {names : List String} {e e' : Element} (h : e.Takes names e')
    (hnames : ∀ name ∈ names, listens name = false) : e'.registrations = e.registrations := by
  have hothers : ∀ l : List Markup.Attribute,
      (l.filter (·.name ∉ names)).filterMap registration? = l.filterMap registration? := by
    intro l
    induction l with
    | nil => rfl
    | cons a l ih =>
        by_cases hname : a.name ∈ names
        · have hnone := registration?_of_not_listens (hnames a.name hname)
          rw [List.filter_cons_of_neg (by simpa using hname), List.filterMap_cons_none hnone, ih]
        · rw [List.filter_cons_of_pos (by simpa using hname), List.filterMap_cons, ih,
            List.filterMap_cons]
  rw [Element.registrations, ← hothers, h.2, hothers, Element.registrations]

/-! ### Elements that are read -/

theorem registrations_readDirectives (delimiters : Option (String × String)) (inFor : Bool)
    (e : Element) : (readDirectives delimiters inFor e).1.registrations = e.registrations := by
  rw [readDirectives_eq, ← registrations_of_takes (takes_readNamed delimiters inFor e) (by decide)]
  generalize readNamed delimiters inFor e = named
  have hpending : (readAttributes delimiters named.pending named).1.pending = named.pending :=
    (congrArg Element.pending (unbound_readAttributes delimiters named.pending named) :)
  rw [Element.registrations, hpending, Element.registrations]

/-- **Closing an element** registers the listeners of its attributes. -/
theorem registers_readDirectives (delimiters : Option (String × String)) (inFor : Bool)
    {e : Element} (h : e.Registers []) :
    (readDirectives delimiters inFor e).1.Registers e.registrations := by
  rw [readDirectives_eq, ← registrations_of_takes (takes_readNamed delimiters inFor e) (by decide)]
  have hsame := unnamed_readNamed delimiters inFor e
  generalize readNamed delimiters inFor e = named at hsame ⊢
  have hnamed : named.Registers [] :=
    h.congr (congrArg Element.events hsame :) (congrArg Element.nativeEvents hsame :)
  exact registers_readAttributes delimiters named.pending hnamed

/-- **An element that was read to the end** has the listeners of its attributes, and no others. -/
theorem IsRead.registers {src : Source} {inFor : Bool} {e : Element} (h : IsRead src inFor true e) :
    ∃ attributes : List Markup.Attribute,
      e.attributes = Dict.ofList (attributes.map fun a => (a.name, a.value)) ∧
      e.registrations = attributes.filterMap registration? ∧ e.Registers e.registrations := by
  obtain ⟨-, attributes, start, stop, hread⟩ := h
  rw [if_pos rfl] at hread
  obtain ⟨_, _, _, _, hnew⟩ := newElement_eq src e.tag attributes start stop e.parent
  generalize (newElement src e.parent e.tag attributes start stop).1 = first at hread hnew
  have hopening : (readOpening first).unopened = first.unopened := unopened_readOpening first
  have hkept : (readOpening first).registrations = first.registrations :=
    registrations_of_takes (takes_readOpening first (List.Subset.refl _)) (by decide)
  generalize readOpening first = opened at hread hopening hkept
  have hempty : opened.Registers [] := by
    refine Element.registers_nil ((congrArg Element.events hopening :).trans ?_)
      ((congrArg Element.nativeEvents hopening :).trans ?_)
    · rw [hnew]
      rfl
    · rw [hnew]
      rfl
  have hclosing := unclosed_readDirectives src.delimiters inFor opened
  have hregisters := registers_readDirectives src.delimiters inFor hempty
  have hkept' := registrations_readDirectives src.delimiters inFor opened
  generalize (readDirectives src.delimiters inFor opened).1 = closed
    at hread hclosing hregisters hkept'
  have hattributes : e.attributes = first.attributes :=
    (congrArg Element.attributes hread :).trans
      ((congrArg Element.attributes hclosing :).trans (congrArg Element.attributes hopening :))
  have hpending : e.pending = closed.pending := (congrArg Element.pending hread :)
  have hall : e.registrations = opened.registrations := by
    rw [← hkept', Element.registrations, hpending, Element.registrations]
  refine ⟨attributes, ?_, ?_, ?_⟩
  · rw [hattributes, hnew]
    rfl
  · rw [hall, hkept, hnew]
    rfl
  · rw [hall]
    exact hregisters.congr (congrArg Element.events hread :) (congrArg Element.nativeEvents hread :)

end Build

end Templating
