import Templating.Proofs.Text.StringLiteral
import Templating.Render.Listener

/-!
**Guards as statements.**

The guards in front of a listener are statements: two kinds of calls, and tests after which the
listener returns.  A reader of such statements finds the bracket that closes a condition by counting
brackets outside of string literals, so it takes guards apart in one way only.

Main definitions:

* `Templating.Render.Statement`, `Templating.Render.Statement.code` — the statements;
* `Templating.Render.Position`, `Templating.Render.untilClosed` — reading up to the bracket that
  closes a condition;
* `Templating.Render.statements?` — the statements that a code consists of;
* `Templating.Render.IsCondition` — a text whose brackets match outside of string literals;
* `Templating.Render.Contributes` — what a modifier adds to a condition.

Main results:

* `Templating.Render.statements?_flatMap` — statements are read back from their code;
* `Templating.Render.isCondition_keyCheck` — whatever the name of a key is, its check is a
  condition;
* `Templating.Render.exists_statements_guards` — **guards are statements to which every modifier
  contributes**, and a condition is empty only for `exact` with all modifier keys.
-/

set_option autoImplicit false

namespace Templating.Render

open Text

/-! ### Statements and their reader -/

/-- A statement of a guard. -/
inductive Statement where
  | stopPropagation
  | preventDefault
  | returnIf (condition : String)
  deriving Repr, DecidableEq

/-- The code of a statement. -/
def Statement.code : Statement → String
  | stopPropagation => "$event.stopPropagation();"
  | preventDefault => "$event.preventDefault();"
  | returnIf condition => "if(" ++ condition ++ ")return null;"

/-- Where a character of a condition stands: in code, or in a string literal with the given mark,
possibly behind a backslash.  The number counts the brackets that are open. -/
inductive Position where
  | code (depth : Nat)
  | literal (depth : Nat) (mark : Char)
  | escaped (depth : Nat) (mark : Char)
  deriving Repr, DecidableEq

/-- The place after a character; there is none after the bracket that closes the condition. -/
def Position.next : Position → Char → Option Position
  | code depth, c =>
      if c = '"' ∨ c = '\x27' then some (literal depth c)
      else if c = '(' then some (code (depth + 1))
      else if c = ')' then if depth = 0 then none else some (code (depth - 1))
      else some (code depth)
  | literal depth mark, c =>
      if c = '\\' then some (escaped depth mark)
      else if c = mark then some (code depth)
      else some (literal depth mark)
  | escaped depth mark, _ => some (literal depth mark)

/-- The text before the bracket that closes a condition, and what follows that bracket. -/
def untilClosed : Position → List Char → Option (List Char × List Char)
  | _, [] => none
  | p, c :: s =>
      match p.next c with
      | none => some ([], s)
      | some p' => (untilClosed p' s).map fun r => (c :: r.1, r.2)

/-- The statement that a code starts with, and what follows it. -/
def statement? (s : List Char) : Option (Statement × List Char) :=
  match strip? Statement.stopPropagation.code.toList s with
  | some r => some (.stopPropagation, r)
  | none =>
      match strip? Statement.preventDefault.code.toList s with
      | some r => some (.preventDefault, r)
      | none =>
          (strip? "if(".toList s).bind fun t =>
            (untilClosed (.code 0) t).bind fun p =>
              (strip? "return null;".toList p.2).map fun r => (.returnIf (String.ofList p.1), r)

/-- What follows a condition is shorter than what it started from. -/
theorem length_untilClosed {p : Position} {s a r : List Char} (h : untilClosed p s = some (a, r)) :
    r.length < s.length := by
  induction s generalizing p a with
  | nil => cases h
  | cons c s ih =>
      simp only [untilClosed] at h
      split at h
      · cases h
        exact Nat.lt_succ_self _
      · obtain ⟨⟨a', r'⟩, hrest, heq⟩ := Option.map_eq_some_iff.mp h
        cases heq
        exact Nat.lt_succ_of_lt (ih hrest)

/-- A statement takes up some characters. -/
theorem length_statement? {s r : List Char} {x : Statement} (h : statement? s = some (x, r)) :
    r.length < s.length := by
  unfold statement? at h
  split at h
  · rename_i hs
    cases h
    rw [strip?_eq_some_iff.mp hs, List.length_append]
    exact Nat.lt_add_of_pos_left (by decide)
  · split at h
    · rename_i hs
      cases h
      rw [strip?_eq_some_iff.mp hs, List.length_append]
      exact Nat.lt_add_of_pos_left (by decide)
    · obtain ⟨t, ht, h⟩ := Option.bind_eq_some_iff.mp h
      obtain ⟨p, hp, h⟩ := Option.bind_eq_some_iff.mp h
      obtain ⟨r', hr, heq⟩ := Option.map_eq_some_iff.mp h
      cases heq
      have hclosed := length_untilClosed hp
      rw [strip?_eq_some_iff.mp hr, List.length_append] at hclosed
      rw [strip?_eq_some_iff.mp ht, List.length_append]
      omega

/-- The statements that a code consists of. -/
def statements? (s : List Char) : Option (List Statement) :=
  match s with
  | [] => some []
  | c :: s =>
      match h : statement? (c :: s) with
      | none => none
      | some (x, r) =>
          have := length_statement? h
          (statements? r).map (x :: ·)
termination_by s.length
decreasing_by all_goals (simp only [List.length_cons] at *; omega)

/-! ### Conditions -/

/-- The place after a text, unless a bracket in it closes the condition. -/
def Position.after : Position → List Char → Option Position
  | p, [] => some p
  | p, c :: s => (p.next c).bind (·.after s)

theorem Position.after_append (p : Position) (s t : List Char) :
    p.after (s ++ t) = (p.after s).bind (·.after t) := by
  induction s generalizing p with
  | nil => rfl
  | cons c s ih =>
      simp only [List.cons_append, Position.after, Option.bind_assoc, ih]

/-- A text is taken over as part of the condition. -/
theorem untilClosed_append {p p' : Position} {s : List Char} (h : p.after s = some p')
    (r : List Char) : untilClosed p (s ++ r) = (untilClosed p' r).map fun q => (s ++ q.1, q.2) := by
  induction s generalizing p with
  | nil =>
      cases h
      simp
  | cons c s ih =>
      obtain ⟨p'', hnext, hrest⟩ := Option.bind_eq_some_iff.mp h
      simp only [List.cons_append, untilClosed, hnext, ih hrest, Option.map_map]
      rfl

/-- **A text whose brackets match outside of string literals.** -/
def IsCondition (s : String) : Prop := (Position.code 0).after s.toList = some (.code 0)

instance (s : String) : Decidable (IsCondition s) :=
  inferInstanceAs (Decidable ((Position.code 0).after s.toList = some (.code 0)))

theorem IsCondition.append {s t : String} (hs : IsCondition s) (ht : IsCondition t) :
    IsCondition (s ++ t) := by
  unfold IsCondition at hs ⊢
  rw [String.toList_append, Position.after_append, hs]
  exact ht

theorem isCondition_join {sep : String} (hsep : IsCondition sep) {l : List String}
    (hl : ∀ s ∈ l, IsCondition s) : IsCondition (join sep l) := by
  induction l with
  | nil => rfl
  | cons a l ih =>
      have hrest := ih fun s hs => hl s (List.mem_cons_of_mem a hs)
      cases l with
      | nil => exact hl a List.mem_cons_self
      | cons b l => exact ((hl a List.mem_cons_self).append hsep).append hrest

theorem join_ne_empty {sep a : String} {l : List String} (ha : a ≠ "") :
    join sep (a :: l) ≠ "" := by
  cases l with
  | nil => exact ha
  | cons b l => simp [join, ha]

theorem join_empty_cons (a : String) (l : List String) : join "" (a :: l) = a ++ join "" l := by
  cases l with
  | nil => simp [join]
  | cons b l => simp [join]

/-- A statement whose condition, if it has one, has matching brackets. -/
def Statement.Matches : Statement → Prop
  | returnIf condition => IsCondition condition
  | _ => True

/-- A statement is read back, whatever follows it. -/
theorem statement?_code {x : Statement} (h : x.Matches) (r : List Char) :
    statement? (x.code.toList ++ r) = some (x, r) := by
  cases x with
  | stopPropagation =>
      have hstrip := strip?_eq_some_iff.mpr
        (rfl : Statement.stopPropagation.code.toList ++ r = _)
      simp only [statement?, hstrip]
  | preventDefault =>
      have hother : strip? Statement.stopPropagation.code.toList
          (Statement.preventDefault.code.toList ++ r) = none := by
        simp [Statement.code, strip?]
      have hstrip := strip?_eq_some_iff.mpr
        (rfl : Statement.preventDefault.code.toList ++ r = _)
      simp only [statement?, hother, hstrip]
  | returnIf condition =>
      have hcode : (Statement.returnIf condition).code.toList ++ r =
          "if(".toList ++ (condition.toList ++ ')' :: ("return null;".toList ++ r)) := by
        simp [Statement.code]
      have hstop : strip? Statement.stopPropagation.code.toList
          ((Statement.returnIf condition).code.toList ++ r) = none := by
        simp [Statement.code, strip?]
      have hprevent : strip? Statement.preventDefault.code.toList
          ((Statement.returnIf condition).code.toList ++ r) = none := by
        simp [Statement.code, strip?]
      have hclosed : untilClosed (.code 0)
          (condition.toList ++ ')' :: ("return null;".toList ++ r)) =
            some (condition.toList, "return null;".toList ++ r) := by
        rw [untilClosed_append h]
        simp [untilClosed, Position.next]
      have hreturn : strip? "return null;".toList ("return null;".toList ++ r) = some r :=
        strip?_eq_some_iff.mpr rfl
      simp only [statement?, hstop, hprevent, strip?_eq_some_iff.mpr hcode, Option.bind_some,
        hclosed, hreturn, Option.map_some, String.ofList_toList]

/-- **Statements are read back from their code.** -/
theorem statements?_flatMap {l : List Statement} (h : ∀ x ∈ l, x.Matches) :
    statements? (l.flatMap fun x => x.code.toList) = some l := by
  induction l with
  | nil => simp [statements?]
  | cons x l ih =>
      have hread := statement?_code (h x List.mem_cons_self) (l.flatMap fun x => x.code.toList)
      have hrest := ih fun y hy => h y (List.mem_cons_of_mem x hy)
      rw [List.flatMap_cons]
      obtain ⟨c, s, hcons⟩ :
          ∃ c s, x.code.toList ++ (l.flatMap fun x => x.code.toList) = c :: s := by
        refine List.exists_cons_of_ne_nil fun hnil => ?_
        have hlength := length_statement? hread
        rw [hnil] at hlength
        exact Nat.not_lt_zero _ hlength
      rw [hcons] at hread ⊢
      rw [statements?]
      split
      · rename_i hnone
        rw [hread] at hnone
        cases hnone
      · rename_i hsome
        cases hread.symm.trans hsome
        rw [hrest, Option.map_some]

/-! ### Checks of keys -/

/-- Characters other than marks and brackets change nothing. -/
theorem Position.after_code {s : List Char} (h : ∀ c ∈ s, c ∉ ['"', '\x27', '(', ')'])
    (depth : Nat) : (Position.code depth).after s = some (.code depth) := by
  induction s with
  | nil => rfl
  | cons c s ih =>
      have hc := h c List.mem_cons_self
      simp only [List.mem_cons, List.not_mem_nil, or_false, not_or] at hc
      have hnext : (Position.code depth).next c = some (.code depth) := by
        simp [Position.next, hc.1, hc.2.1, hc.2.2.1, hc.2.2.2]
      simp only [Position.after, hnext, Option.bind_some,
        ih fun d hd => h d (List.mem_cons_of_mem c hd)]

/-- The spelling of a character does not end the literal it stands in. -/
theorem Position.after_escapeChar (depth : Nat) (c : Char) :
    (Position.literal depth '"').after (escapeChar c) = some (.literal depth '"') := by
  have hhex : ∀ d < 16, hexDigit d ≠ '\\' ∧ hexDigit d ≠ '"' := by decide
  unfold escapeChar
  repeat' split
  all_goals try rfl
  · rename_i hcontrol
    have hhigh := hhex (c.toNat / 16) (by omega)
    have hlow := hhex (c.toNat % 16) (Nat.mod_lt _ (by decide))
    simp [Position.after, Position.next, hhigh, hlow]
  · rename_i hquote hbackslash _ _ _ _ _ _
    simp [Position.after, Position.next, hquote, hbackslash]

/-- **A string literal** may hold any text. -/
theorem Position.after_quote (depth : Nat) (s : String) :
    (Position.code depth).after (quote s).toList = some (.code depth) := by
  have hbody : ∀ l : List Char,
      (Position.literal depth '"').after (escape l) = some (.literal depth '"') := by
    intro l
    induction l with
    | nil => rfl
    | cons c l ih => rw [escape_cons, Position.after_append, after_escapeChar, Option.bind_some, ih]
  have hopen : (Position.code depth).next '"' = some (.literal depth '"') := by simp [Position.next]
  have hclose : (Position.literal depth '"').after ['"'] = some (.code depth) := by
    simp [Position.after, Position.next]
  rw [quote, String.toList_ofList, List.cons_append, Position.after, hopen, Option.bind_some,
    Position.after_append, hbody, Option.bind_some, hclose]

/-- What holds of all entries of a table holds of what is found in it. -/
theorem of_lookup {α : Type} {P : String → α → Prop} {table : List (String × α)}
    (h : ∀ p ∈ table, P p.1 p.2) {key : String} {value : α}
    (hfound : table.lookup key = some value) : P key value := by
  obtain ⟨_, _, rfl, -⟩ := List.lookup_eq_some_iff.mp hfound
  exact h (key, value) (by simp)

/-- The code and the names of a key have no open brackets and literals. -/
theorem after_namedKey? (key : String) :
    (Position.code 1).after ((namedKey? key).getD ("undefined", "undefined")).1.toList =
        some (.code 1) ∧
      (Position.code 1).after ((namedKey? key).getD ("undefined", "undefined")).2.toList =
        some (.code 1) := by
  cases hkey : namedKey? key with
  | none => exact ⟨by decide, by decide⟩
  | some known =>
      exact of_lookup (P := fun _ known => (Position.code 1).after known.1.toList = some (.code 1) ∧
        (Position.code 1).after known.2.toList = some (.code 1)) (by decide +kernel) hkey

/-- **The check of a key is a condition**, whatever its name is. -/
theorem isCondition_keyCheck (key : String) : IsCondition (keyCheck key) := by
  unfold keyCheck
  split
  · rename_i code _
    have hdigits : IsCondition (toString code) := by
      refine Position.after_code (fun c hc => ?_) 0
      have hdigit : c.isDigit = true :=
        Nat.isDigit_of_mem_toDigits (b := 10) (n := code) (by decide) (by decide)
          (by simpa using hc)
      intro hmark
      simp only [List.mem_cons, List.not_mem_nil, or_false] at hmark
      rcases hmark with rfl | rfl | rfl | rfl <;> cases hdigit
    exact IsCondition.append (by decide) hdigits
  · obtain ⟨hcode, hnames⟩ := after_namedKey? key
    have hstart : (Position.code 0).after "_k($event.keyCode,".toList = some (.code 1) := by decide
    have hcomma : (Position.code 1).after ",".toList = some (.code 1) := by decide
    have hkey : (Position.code 1).after ",$event.key,".toList = some (.code 1) := by decide
    have hend : (Position.code 1).after ")".toList = some (.code 0) := by decide
    simp only [IsCondition, String.toList_append, Position.after_append, hstart, Option.bind_some,
      Position.after_quote, hcomma, hcode, hkey, hnames, hend]

/-! ### What modifiers bring -/

/-- A condition is put together from operands, and this is one of them. -/
def Operand (operator operand condition : String) : Prop :=
  ∃ l, operand ∈ l ∧ condition = join operator l

/-- **What a modifier adds to a condition.** -/
inductive Contributes (modifiers : List String) : String → String → Prop
  /-- The condition is the test that the modifier stands for. -/
  | guard {m condition : String} (h : guard? m = some (Statement.returnIf condition).code) :
      Contributes modifiers m condition
  /-- One of the keys that must not be pressed is tested. -/
  | exact {key condition : String} (hkey : key ∈ systemKeys) (hnot : key ∉ modifiers)
      (h : Operand "||" ("$event." ++ key ++ "Key") condition) :
      Contributes modifiers "exact" condition
  /-- The key is checked. -/
  | key {m condition : String} (hkey : isKeyModifier m = true)
      (h : Operand "&&" (keyCheck m) condition) : Contributes modifiers m condition

/-- The modifier `exact` together with every modifier key. -/
def ForbidsNothing (modifiers : List String) (m : String) : Prop :=
  m = "exact" ∧ systemKeys ⊆ modifiers

/-- The text between the brackets of a test. -/
def conditionOf (guard : String) : String :=
  ((untilClosed (.code 0) (guard.toList.drop 3)).map fun p => String.ofList p.1).getD ""

/-- A guard of its own is one of the calls, or a test with a condition. -/
theorem guard?_cases {m code : String} (h : guard? m = some code) : m ≠ "exact" ∧
    ((m = "stop" ∧ code = Statement.stopPropagation.code) ∨
      (m = "prevent" ∧ code = Statement.preventDefault.code) ∨
      ∃ condition, code = (Statement.returnIf condition).code ∧ condition ≠ "" ∧
        IsCondition condition) := by
  have hentry := of_lookup (P := fun m code => m ≠ "exact" ∧
    ((m = "stop" ∧ code = Statement.stopPropagation.code) ∨
      (m = "prevent" ∧ code = Statement.preventDefault.code) ∨
      (code = (Statement.returnIf (conditionOf code)).code ∧ conditionOf code ≠ "" ∧
        IsCondition (conditionOf code)))) (by decide +kernel) h
  exact ⟨hentry.1, hentry.2.imp_right (Or.imp_right fun htest => ⟨_, htest⟩)⟩

/-- The statements that the modifiers `l`, among others, bring besides the check of keys. -/
structure Brings (modifiers l : List String) (code : String) (statements : List Statement) :
    Prop where
  code_eq : code.toList = statements.flatMap fun x => x.code.toList
  closed : ∀ x ∈ statements, x.Matches
  empty_iff : .returnIf "" ∈ statements ↔ ∃ m ∈ l, ForbidsNothing modifiers m
  contributes : ∀ m ∈ l, m ≠ "stop" → m ≠ "prevent" → ¬ForbidsNothing modifiers m →
    isKeyModifier m = true ∨
      ∃ condition, .returnIf condition ∈ statements ∧ Contributes modifiers m condition

namespace Brings

variable {modifiers l l' : List String} {code code' : String}
  {statements statements' : List Statement}

theorem nil : Brings modifiers [] "" [] :=
  ⟨rfl, by simp, by simp, by simp⟩

theorem append (h : Brings modifiers l code statements)
    (h' : Brings modifiers l' code' statements') :
    Brings modifiers (l ++ l') (code ++ code') (statements ++ statements') where
  code_eq := by rw [String.toList_append, h.code_eq, h'.code_eq, List.flatMap_append]
  closed := List.forall_mem_append.mpr ⟨h.closed, h'.closed⟩
  empty_iff := by
    simp only [List.mem_append, or_and_right, exists_or, h.empty_iff, h'.empty_iff]
  contributes := by
    intro m hm hstop hprevent hforbids
    rcases List.mem_append.mp hm with hm | hm
    · rcases h.contributes m hm hstop hprevent hforbids with hkey | ⟨condition, hmem, hadds⟩
      · exact .inl hkey
      · exact .inr ⟨condition, List.mem_append_left _ hmem, hadds⟩
    · rcases h'.contributes m hm hstop hprevent hforbids with hkey | ⟨condition, hmem, hadds⟩
      · exact .inl hkey
      · exact .inr ⟨condition, List.mem_append_right _ hmem, hadds⟩

/-- A modifier with a test as its guard. -/
theorem test {m condition : String} (hcondition : IsCondition condition)
    (hempty : condition = "" ↔ ForbidsNothing modifiers m)
    (hadds : condition ≠ "" → Contributes modifiers m condition) :
    Brings modifiers [m] (Statement.returnIf condition).code [.returnIf condition] where
  code_eq := by simp
  closed := by
    intro x hx
    obtain rfl := List.mem_singleton.mp hx
    exact hcondition
  empty_iff := by simp [eq_comm (a := ""), hempty]
  contributes := by
    intro m' hm' _ _ hforbids
    obtain rfl := List.mem_singleton.mp hm'
    exact .inr ⟨condition, by simp, hadds fun h => hforbids (hempty.mp h)⟩

/-- The guard of `exact` tests the modifier keys that are not among the modifiers. -/
theorem exactGuard_eq (modifiers : List String) :
    ∃ condition, exactGuard modifiers = (Statement.returnIf condition).code ∧
      IsCondition condition ∧ (condition = "" ↔ systemKeys ⊆ modifiers) ∧
      (condition ≠ "" → Contributes modifiers "exact" condition) := by
  have hmissing : (systemKeys.filter fun m => !modifiers.contains m) = [] ↔
      systemKeys ⊆ modifiers := by
    simp [List.filter_eq_nil_iff, List.subset_def]
  have htests : ∀ m ∈ systemKeys, IsCondition ("$event." ++ m ++ "Key") := by decide
  refine ⟨_, rfl, isCondition_join (by decide) fun s hs => ?_, ?_, ?_⟩
  · obtain ⟨m, hm, rfl⟩ := List.mem_map.mp hs
    exact htests m (List.mem_of_mem_filter hm)
  · rw [← hmissing]
    cases systemKeys.filter fun m => !modifiers.contains m with
    | nil => simp [join]
    | cons m missing => simp [join_ne_empty]
  · intro hne
    obtain ⟨m, hm⟩ : ∃ m, m ∈ systemKeys.filter fun m => !modifiers.contains m := by
      refine List.exists_mem_of_ne_nil _ fun hnil => hne ?_
      rw [hnil]
      rfl
    obtain ⟨hkey, hnot⟩ := List.mem_filter.mp hm
    exact .exact hkey (by simpa using hnot) ⟨_, List.mem_map.mpr ⟨m, hm, rfl⟩, rfl⟩

/-- **What one modifier brings.** -/
theorem modifier (modifiers : List String) (m : String) :
    ∃ statements, Brings modifiers [m] (modifierCode modifiers m) statements := by
  -- a statement without a condition
  have hcall : ∀ x : Statement, (∀ condition, x ≠ .returnIf condition) → m ≠ "exact" →
      (m ≠ "stop" → m ≠ "prevent" → False) → Brings modifiers [m] x.code [x] := by
    intro x hx hm hother
    refine ⟨by simp, ?_, ?_, ?_⟩
    · intro y hy
      obtain rfl := List.mem_singleton.mp hy
      cases y with
      | returnIf condition => exact absurd rfl (hx condition)
      | _ => trivial
    · simpa [ForbidsNothing, hm] using (hx "").symm
    · intro m' hm' hstop hprevent
      obtain rfl := List.mem_singleton.mp hm'
      exact (hother hstop hprevent).elim
  unfold modifierCode
  cases hguard : guard? m with
  | some code =>
      obtain ⟨hm, ⟨rfl, rfl⟩ | ⟨rfl, rfl⟩ | ⟨condition, rfl, hne, hcondition⟩⟩ :=
        guard?_cases hguard
      · exact ⟨_, hcall .stopPropagation (by simp) hm (by simp)⟩
      · exact ⟨_, hcall .preventDefault (by simp) hm (by simp)⟩
      · exact ⟨_, test hcondition (iff_of_false hne fun h => hm h.1) fun _ => .guard hguard⟩
  | none =>
      dsimp only
      split
      · rename_i hexact
        obtain ⟨condition, hcode, hcondition, hempty, hadds⟩ := exactGuard_eq modifiers
        subst hexact
        rw [hcode]
        exact ⟨_, test hcondition (by simp [ForbidsNothing, hempty]) hadds⟩
      · rename_i hother
        refine ⟨[], rfl, by simp, by simp [ForbidsNothing, hother], ?_⟩
        intro m' hm' _ _ _
        obtain rfl := List.mem_singleton.mp hm'
        exact .inl (by simp [isKeyModifier, hguard, hother])

/-- **What modifiers bring**, one after another. -/
theorem all (modifiers l : List String) :
    ∃ statements, Brings modifiers l (join "" (l.map (modifierCode modifiers))) statements := by
  induction l with
  | nil => exact ⟨[], nil⟩
  | cons m l ih =>
      obtain ⟨first, hfirst⟩ := modifier modifiers m
      obtain ⟨rest, hrest⟩ := ih
      refine ⟨first ++ rest, ?_⟩
      rw [List.map_cons, join_empty_cons]
      exact hfirst.append hrest

/-- A test that no modifier of its own brings stands in front. -/
theorem front {condition : String} (hcondition : IsCondition condition) (hne : condition ≠ "")
    (h : Brings modifiers l code statements) :
    Brings modifiers l ((Statement.returnIf condition).code ++ code)
      (.returnIf condition :: statements) where
  code_eq := by rw [String.toList_append, h.code_eq, List.flatMap_cons]
  closed := List.forall_mem_cons.mpr ⟨hcondition, h.closed⟩
  empty_iff := by simp [Ne.symm hne, h.empty_iff]
  contributes := by
    intro m hm hstop hprevent hforbids
    rcases h.contributes m hm hstop hprevent hforbids with hkey | ⟨condition, hmem, hadds⟩
    · exact .inl hkey
    · exact .inr ⟨condition, List.mem_cons_of_mem _ hmem, hadds⟩

end Brings

/-! ### Guards -/

theorem toList_join_code (statements : List Statement) :
    (join "" (statements.map Statement.code)).toList =
      statements.flatMap fun x => x.code.toList := by
  induction statements with
  | nil => rfl
  | cons x statements ih =>
      rw [List.map_cons, join_empty_cons, String.toList_append, ih, List.flatMap_cons]

/-- **The check of keys** is a test that has the check of every key as an operand. -/
theorem exists_keyCondition {keys : List String} (h : keys ≠ []) :
    ∃ condition, (∀ code, "if(!$event.type.indexOf('key')&&" ++ join "&&" (keys.map keyCheck) ++
        ")return null;" ++ code = (Statement.returnIf condition).code ++ code) ∧
      IsCondition condition ∧ condition ≠ "" ∧
      ∀ m ∈ keys, Operand "&&" (keyCheck m) condition := by
  obtain ⟨key, keys, rfl⟩ := List.exists_cons_of_ne_nil h
  refine ⟨join "&&" ("!$event.type.indexOf('key')" :: (key :: keys).map keyCheck), fun code => ?_,
    isCondition_join (by decide) fun s hs => ?_, join_ne_empty (by decide), fun m hm => ?_⟩
  · rw [← String.toList_inj]
    simp [Statement.code, join]
  · rcases List.mem_cons.mp hs with rfl | hs
    · decide
    · obtain ⟨m, -, rfl⟩ := List.mem_map.mp hs
      exact isCondition_keyCheck m
  · exact ⟨_, List.mem_cons_of_mem _ (List.mem_map_of_mem hm), rfl⟩

/-- **Guards as statements.** -/
structure Guarded (modifiers : List String) (statements : List Statement) : Prop where
  /-- The guards are the statements one after another, and are read back as them. -/
  code_eq : guards modifiers = join "" (statements.map Statement.code)
  read_eq : statements? (guards modifiers).toList = some statements
  /-- A condition is empty only where `exact` has nothing to forbid. -/
  empty_iff : .returnIf "" ∈ statements ↔ "exact" ∈ modifiers ∧ systemKeys ⊆ modifiers
  /-- Every other modifier that is not one of the calls contributes to a condition. -/
  contributes : ∀ m ∈ modifiers, m ≠ "stop" → m ≠ "prevent" →
    ¬(m = "exact" ∧ systemKeys ⊆ modifiers) →
    ∃ condition, .returnIf condition ∈ statements ∧ Contributes modifiers m condition
  /-- Every key is checked, also if its name is that of a mouse button with a test of its own. -/
  keys : ∀ m ∈ modifiers, isKeyModifier m = true →
    ∃ condition, .returnIf condition ∈ statements ∧ Operand "&&" (keyCheck m) condition

/-- The statements are as they should be once every key is checked in one of them. -/
theorem Brings.guarded {modifiers : List String} {statements : List Statement}
    (h : Brings modifiers modifiers (guards modifiers) statements)
    (hkeys : ∀ m ∈ modifiers, isKeyModifier m = true →
      ∃ condition, .returnIf condition ∈ statements ∧ Operand "&&" (keyCheck m) condition) :
    Guarded modifiers statements where
  code_eq := by rw [← String.toList_inj, h.code_eq, toList_join_code]
  read_eq := by rw [h.code_eq, statements?_flatMap h.closed]
  empty_iff := by simp [h.empty_iff, ForbidsNothing]
  contributes := by
    intro m hm hstop hprevent hforbids
    rcases h.contributes m hm hstop hprevent hforbids with hkey | hadds
    · obtain ⟨condition, hmem, hoperand⟩ := hkeys m hm hkey
      exact ⟨condition, hmem, .key hkey hoperand⟩
    · exact hadds
  keys := hkeys

/-- **Guards are statements to which every modifier contributes.**  Their conditions are not empty,
unless `exact` comes with every modifier key. -/
theorem exists_statements_guards (modifiers : List String) :
    ∃ statements, Guarded modifiers statements := by
  obtain ⟨others, hothers⟩ := Brings.all modifiers modifiers
  by_cases hkeys : modifiers.filter isKeyModifier = []
  · refine ⟨others, Brings.guarded ?_ fun m hm hkey => ?_⟩
    · rw [guards, if_pos hkeys]
      exact hothers
    · exact absurd hkey (List.filter_eq_nil_iff.mp hkeys m hm)
  · obtain ⟨condition, hcode, hcondition, hne, hchecks⟩ := exists_keyCondition hkeys
    refine ⟨.returnIf condition :: others, Brings.guarded ?_ fun m hm hkey => ?_⟩
    · rw [guards, if_neg hkeys, hcode]
      exact hothers.front hcondition hne
    · exact ⟨condition, List.mem_cons_self, hchecks m (List.mem_filter.mpr ⟨hm, hkey⟩)⟩

/-- **An empty condition**: with every modifier key there is none left that `exact` forbids. -/
theorem exists_empty_condition :
    statements? (guards ["ctrl", "shift", "alt", "meta", "exact"]).toList =
      some [.returnIf "!$event.ctrlKey", .returnIf "!$event.shiftKey", .returnIf "!$event.altKey",
        .returnIf "!$event.metaKey", .returnIf ""] := by
  decide +kernel

end Templating.Render
