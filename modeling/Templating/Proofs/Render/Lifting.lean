import Mathlib.Data.List.Nodup
import Templating.Render.Code

/-!
**Codes inside codes.**

A code is put together from its parts, which are codes again.  Codes inside a code can be replaced
by others, and they can be lifted out of it: what is lifted out is collected in a list and leaves a
reference behind, which says where in the list it went.

Main definitions:

* `Templating.Render.Code.origin?` — the node that a code renders;
* `Templating.Render.Code.parts`, `Templating.Render.Code.rebuild` — what a code is put together
  from;
* `Templating.Render.Code.substitute` — replacing codes inside a code;
* `Templating.Render.Code.lift` — lifting the codes of marked nodes out of a code;
* `Templating.Render.Code.referred?` — what a reference stands for.

Main results:

* `Templating.Render.Code.induction_parts` — induction over the parts of a code;
* `Templating.Render.Code.lift_unmarked` — nothing is lifted when nothing is marked;
* `Templating.Render.Code.lift_eq_substitute` — **lifting replaces codes by references**, numbered
  in the order of what is lifted;
* `Templating.Render.Code.substitute_referred_lift` — **following the references undoes lifting**.
-/

set_option autoImplicit false

namespace Templating.Render.Code

/-! ### Parts -/

/-- The node that a code renders. -/
def origin? : Code → Option NodeId
  | absent | nothing | list .. | alone .. => none
  | hoisted id .. | keyed id .. | loop id .. | choice id .. | fragment id .. | slot id ..
  | create id .. | text id .. | comment id .. => some id

/-- Whether a code refers to one that is rendered once and for all. -/
def isReference : Code → Bool
  | hoisted .. => true
  | _ => false

/-- The codes that a code is put together from. -/
def parts : Code → List Code
  | absent | nothing | hoisted .. | text .. | comment .. => []
  | keyed _ body _ _ => [body]
  | loop _ _ body => [body]
  | choice _ _ yes no => [yes, no]
  | fragment _ children => [children]
  | slot _ _ children _ => [children]
  | create _ _ _ children => [children]
  | list items _ => items
  | alone item _ => [item]

/-- A code with other parts. -/
def rebuild : Code → List Code → Code
  | keyed id _ number key, [body] => keyed id body number key
  | loop id l _, [body] => loop id l body
  | choice id condition _ _, [yes, no] => choice id condition yes no
  | fragment id _, [children] => fragment id children
  | slot id name _ properties, [children] => slot id name children properties
  | create id tag data _, [children] => create id tag data children
  | list _ flattening, items => list items flattening
  | alone _ flattening, [item] => alone item flattening
  | c, _ => c

theorem rebuild_parts (c : Code) : c.rebuild c.parts = c := by
  cases c <;> rfl

/-- Codes with as many parts as another one has. -/
theorem exists_parts {c : Code} {ps : List Code} (h : ps.length = c.parts.length) :
    (c.rebuild ps).parts = ps ∧ (c.rebuild ps).isReference = c.isReference ∧
      ∀ qs : List Code, qs.length = c.parts.length → (c.rebuild ps).rebuild qs = c.rebuild qs := by
  cases c with
  | absent | nothing | hoisted | text | comment =>
      obtain rfl := List.length_eq_zero_iff.mp h
      exact ⟨rfl, rfl, fun qs hqs => by obtain rfl := List.length_eq_zero_iff.mp hqs; rfl⟩
  | keyed | loop | fragment | slot | create | alone =>
      obtain ⟨p, rfl⟩ := List.length_eq_one_iff.mp h
      exact ⟨rfl, rfl, fun qs hqs => by obtain ⟨q, rfl⟩ := List.length_eq_one_iff.mp hqs; rfl⟩
  | choice =>
      obtain ⟨p, p', rfl⟩ := List.length_eq_two.mp h
      exact ⟨rfl, rfl, fun qs hqs => by obtain ⟨q, q', rfl⟩ := List.length_eq_two.mp hqs; rfl⟩
  | list => exact ⟨rfl, rfl, fun _ _ => rfl⟩

theorem sizeOf_lt_of_mem_parts {c p : Code} (h : p ∈ c.parts) : sizeOf p < sizeOf c := by
  cases c with
  | absent | nothing | hoisted | text | comment => cases h
  | keyed | loop | fragment | slot | create | alone =>
      obtain rfl := List.mem_singleton.mp h
      simp only [keyed.sizeOf_spec, loop.sizeOf_spec, fragment.sizeOf_spec, slot.sizeOf_spec,
        create.sizeOf_spec, alone.sizeOf_spec]
      omega
  | choice =>
      simp only [parts, List.mem_cons, List.not_mem_nil, or_false] at h
      rw [choice.sizeOf_spec]
      rcases h with rfl | rfl
      · omega
      · omega
  | list items =>
      have hlt : sizeOf p < sizeOf items := List.sizeOf_lt_of_mem h
      rw [list.sizeOf_spec]
      omega

theorem induction_parts {P : Code → Prop} (h : ∀ c : Code, (∀ p ∈ c.parts, P p) → P c) (c : Code) :
    P c :=
  h c fun p hp =>
    have := sizeOf_lt_of_mem_parts hp
    induction_parts h p
termination_by sizeOf c

/-- **Induction over codes and lists of codes**, where a code follows from the list of its parts. -/
theorem induction_all {P : Code → Prop} {Q : List Code → Prop} (nil : Q [])
    (cons : ∀ c cs, P c → Q cs → Q (c :: cs)) (code : ∀ c : Code, Q c.parts → P c) :
    (∀ c, P c) ∧ ∀ cs, Q cs := by
  have hall : ∀ cs : List Code, (∀ c ∈ cs, P c) → Q cs := by
    intro cs
    induction cs with
    | nil => exact fun _ => nil
    | cons c cs ih =>
        intro h
        exact cons c cs (h c (by simp)) (ih fun p hp => h p (List.mem_cons_of_mem c hp))
  have hcode : ∀ c, P c := induction_parts fun c ih => code c (hall c.parts ih)
  exact ⟨hcode, fun cs => hall cs fun c _ => hcode c⟩

/-! ### Replacing codes -/

mutual

/-- A code with other codes in it: every code for which `f` gives another one is replaced by that,
from the outside in. -/
def substitute (f : Code → Option Code) (c : Code) : Code :=
  (f c).getD <|
    match c with
    | keyed id body number key => keyed id (substitute f body) number key
    | loop id l body => loop id l (substitute f body)
    | choice id condition yes no => choice id condition (substitute f yes) (substitute f no)
    | fragment id children => fragment id (substitute f children)
    | slot id name children properties => slot id name (substitute f children) properties
    | create id tag data children => create id tag data (substitute f children)
    | list items flattening => list (substituteAll f items) flattening
    | alone item flattening => alone (substitute f item) flattening
    | c => c

/-- Several codes with other codes in them. -/
def substituteAll (f : Code → Option Code) : List Code → List Code
  | [] => []
  | c :: rest => substitute f c :: substituteAll f rest

end

theorem substituteAll_eq (f : Code → Option Code) (cs : List Code) :
    substituteAll f cs = cs.map (substitute f) := by
  induction cs with
  | nil => rfl
  | cons c cs ih => rw [substituteAll, ih, List.map_cons]

theorem substitute_eq (f : Code → Option Code) (c : Code) :
    c.substitute f = (f c).getD (c.rebuild (c.parts.map (substitute f))) := by
  cases c <;> simp only [substitute, parts, rebuild, substituteAll_eq, List.map_cons, List.map_nil]

/-! ### Lifting codes -/

/-- The reference that a code of a marked node leaves behind when it is put at an index.  A mark
says whether the node stands in a loop. -/
def reference? (marks : NodeId → Option Bool) (index : Nat) (c : Code) : Option Code :=
  c.origin?.bind fun id => (marks id).map (hoisted id index)

mutual

/-- Lift the codes of marked nodes out of a code, behind those that were lifted before. -/
def lift (marks : NodeId → Option Bool) (c : Code) (lifted : List Code) : Code × List Code :=
  match reference? marks lifted.length c with
  | some reference => (reference, lifted ++ [c])
  | none =>
      match c with
      | keyed id body number key =>
          let inside := lift marks body lifted
          (keyed id inside.1 number key, inside.2)
      | loop id l body =>
          let inside := lift marks body lifted
          (loop id l inside.1, inside.2)
      | choice id condition yes no =>
          let first := lift marks yes lifted
          let second := lift marks no first.2
          (choice id condition first.1 second.1, second.2)
      | fragment id children =>
          let inside := lift marks children lifted
          (fragment id inside.1, inside.2)
      | slot id name children properties =>
          let inside := lift marks children lifted
          (slot id name inside.1 properties, inside.2)
      | create id tag data children =>
          let inside := lift marks children lifted
          (create id tag data inside.1, inside.2)
      | list items flattening =>
          let inside := liftAll marks items lifted
          (list inside.1 flattening, inside.2)
      | alone item flattening =>
          let inside := lift marks item lifted
          (alone inside.1 flattening, inside.2)
      | c => (c, lifted)

/-- Lift the codes of marked nodes out of several codes, from left to right. -/
def liftAll (marks : NodeId → Option Bool) : List Code → List Code → List Code × List Code
  | [], lifted => ([], lifted)
  | c :: rest, lifted =>
      let first := lift marks c lifted
      let others := liftAll marks rest first.2
      (first.1 :: others.1, others.2)

end

section Lift

variable {marks : NodeId → Option Bool}

theorem lift_of_reference? {c reference : Code} {lifted : List Code}
    (h : reference? marks lifted.length c = some reference) :
    c.lift marks lifted = (reference, lifted ++ [c]) := by
  cases c <;> simp only [lift, h]

/-- A code that stays is put together from what its parts become. -/
theorem lift_eq {c : Code} {lifted : List Code} (h : reference? marks lifted.length c = none) :
    c.lift marks lifted = (c.rebuild (liftAll marks c.parts lifted).1,
      (liftAll marks c.parts lifted).2) := by
  cases c <;> simp only [lift, h, parts, rebuild, liftAll]

theorem length_liftAll (cs lifted : List Code) :
    (liftAll marks cs lifted).1.length = cs.length := by
  induction cs generalizing lifted with
  | nil => rfl
  | cons c cs ih => simp [liftAll, ih]

/-- What was lifted before stays first. -/
theorem prefix_lift : (∀ (c : Code) (lifted : List Code), lifted <+: (c.lift marks lifted).2) ∧
    ∀ cs lifted : List Code, lifted <+: (liftAll marks cs lifted).2 := by
  refine induction_all ?_ ?_ ?_
  · exact fun lifted => List.prefix_rfl
  · intro c cs hc hcs lifted
    exact (hc lifted).trans (hcs _)
  · intro c hparts lifted
    cases href : reference? marks lifted.length c with
    | some reference =>
        rw [lift_of_reference? href]
        exact List.prefix_append _ _
    | none =>
        rw [lift_eq href]
        exact hparts lifted

/-- Nothing is lifted when nothing is marked. -/
theorem lift_unmarked (c : Code) (lifted : List Code) :
    c.lift (fun _ => none) lifted = (c, lifted) := by
  have hboth : (∀ (c : Code) (lifted : List Code), c.lift (fun _ => none) lifted = (c, lifted)) ∧
      ∀ cs lifted : List Code, liftAll (fun _ => none) cs lifted = (cs, lifted) := by
    refine induction_all ?_ ?_ ?_
    · exact fun lifted => rfl
    · intro c cs hc hcs lifted
      rw [liftAll, hc, hcs]
    · intro c hparts lifted
      have href : reference? (fun _ => none) lifted.length c = none := by simp [reference?]
      rw [lift_eq href, hparts, rebuild_parts]
  exact hboth.1 c lifted

/-! ### References -/

/-- The reference to the code of a node among those of `roots`, which are put one after another. -/
def referTo (roots : List NodeId) (inFor : NodeId → Bool) (c : Code) : Option Code :=
  c.origin?.bind fun id =>
    if id ∈ roots then some (hoisted id (roots.idxOf id) (inFor id)) else none

/-- **Lifting replaces codes by references**: when the codes that are lifted belong to `roots`, each
to a node of its own and in this order. -/
theorem lift_eq_substitute {roots : List NodeId} {inFor : NodeId → Bool} (hnodup : roots.Nodup)
    (hmarks : ∀ id ∈ roots, marks id = some (inFor id)) (c : Code) (lifted : List Code)
    (h : (c.lift marks lifted).2.map origin? <+: roots.map some) :
    (c.lift marks lifted).1 = c.substitute (referTo roots inFor) := by
  have hboth : (∀ (c : Code) (lifted : List Code),
      (c.lift marks lifted).2.map origin? <+: roots.map some →
        (c.lift marks lifted).1 = c.substitute (referTo roots inFor)) ∧
      ∀ cs lifted : List Code, (liftAll marks cs lifted).2.map origin? <+: roots.map some →
        (liftAll marks cs lifted).1 = cs.map (substitute (referTo roots inFor)) := by
    refine induction_all ?_ ?_ ?_
    · exact fun _ _ => rfl
    · intro c cs hc hcs lifted h
      rw [List.map_cons, liftAll, hcs _ h]
      exact congrArg (· :: _) (hc lifted (((prefix_lift.2 cs _).map origin?).trans h))
    · intro c hparts lifted h
      cases href : reference? marks lifted.length c with
      | some reference =>
          -- the code goes to the place that its node has among the roots
          rw [lift_of_reference? href] at h ⊢
          obtain ⟨id, horigin, hreference⟩ := Option.bind_eq_some_iff.mp href
          obtain ⟨value, hvalue, rfl⟩ := Option.map_eq_some_iff.mp hreference
          have hplace : roots[lifted.length]? = some id := by
            obtain ⟨rest, hrest⟩ := h
            have hget : (roots.map some)[lifted.length]? = some (some id) := by
              rw [← hrest]
              simp [horigin]
            simpa using hget
          obtain ⟨hlt, hid⟩ := List.getElem?_eq_some_iff.mp hplace
          have hmem : id ∈ roots := List.mem_of_getElem? hplace
          have hindex : roots.idxOf id = lifted.length := by
            rw [← hid]
            exact hnodup.idxOf_getElem lifted.length hlt
          have hinFor : value = inFor id := by
            rw [hmarks id hmem] at hvalue
            exact (Option.some.inj hvalue).symm
          have hrefer : referTo roots inFor c = some (hoisted id lifted.length value) := by
            simp [referTo, horigin, hmem, hindex, hinFor]
          rw [substitute_eq, hrefer]
          rfl
      | none =>
          -- a code that stays belongs to no root
          rw [lift_eq href] at h ⊢
          have hrefer : referTo roots inFor c = none := by
            unfold referTo
            cases horigin : c.origin? with
            | none => rfl
            | some id =>
                simp only [Option.bind_some, ite_eq_right_iff]
                intro hmem
                simp [reference?, horigin, hmarks id hmem] at href
          rw [substitute_eq, hrefer, Option.getD_none, hparts lifted h]
  exact hboth.1 c lifted h

/-- What a reference stands for. -/
def referred? (codes : List Code) : Code → Option Code
  | hoisted _ index _ => codes[index]?
  | _ => none

/-- A code without references. -/
inductive Plain : Code → Prop
  | of_parts {c : Code} (hreference : c.isReference = false) (hparts : ∀ p ∈ c.parts, Plain p) :
      Plain c

theorem referred?_eq_none {c : Code} (h : c.isReference = false) (codes : List Code) :
    referred? codes c = none := by
  cases c with
  | hoisted => cases h
  | _ => rfl

/-- **Following the references undoes lifting.** -/
theorem substitute_referred_lift {codes : List Code} {c : Code} (hc : c.Plain) (lifted : List Code)
    (h : (c.lift marks lifted).2 <+: codes) :
    (c.lift marks lifted).1.substitute (referred? codes) = c := by
  have hboth : (∀ (c : Code), c.Plain → ∀ lifted : List Code, (c.lift marks lifted).2 <+: codes →
        (c.lift marks lifted).1.substitute (referred? codes) = c) ∧
      ∀ cs : List Code, (∀ c ∈ cs, c.Plain) → ∀ lifted, (liftAll marks cs lifted).2 <+: codes →
        (liftAll marks cs lifted).1.map (substitute (referred? codes)) = cs := by
    refine induction_all ?_ ?_ ?_
    · exact fun _ _ _ => rfl
    · intro c cs hc hcs hplain lifted h
      rw [liftAll, List.map_cons, hcs (fun p hp => hplain p (List.mem_cons_of_mem c hp)) _ h]
      exact congrArg (· :: cs) (hc (hplain c (by simp)) lifted ((prefix_lift.2 cs _).trans h))
    · intro c hparts hplain lifted h
      obtain ⟨hreference, hplain⟩ := hplain
      cases href : reference? marks lifted.length c with
      | some reference =>
          rw [lift_of_reference? href] at h ⊢
          obtain ⟨id, -, hreference⟩ := Option.bind_eq_some_iff.mp href
          obtain ⟨value, -, rfl⟩ := Option.map_eq_some_iff.mp hreference
          have hplace : codes[lifted.length]? = some c := by
            obtain ⟨rest, hrest⟩ := h
            rw [← hrest]
            simp
          rw [substitute_eq, referred?, hplace]
          rfl
      | none =>
          rw [lift_eq href] at h ⊢
          have hlength : (liftAll marks c.parts lifted).1.length = c.parts.length :=
            length_liftAll c.parts lifted
          obtain ⟨hsame, hkind, hrebuild⟩ := exists_parts hlength
          rw [substitute_eq, referred?_eq_none (hkind.trans hreference), Option.getD_none, hsame,
            hparts hplain lifted h, hrebuild _ rfl, rebuild_parts]
  exact hboth.1 c hc lifted h

end Lift

end Templating.Render.Code
