/-!
**Dictionaries that remember insertion order.**

A dictionary keeps its entries in the order in which their keys first appeared.  Giving a key a new
value keeps its place.

Main definitions:

* `Templating.Dict` — the entries in order;
* `Templating.Dict.insert`, `Templating.Dict.ofList` — adding entries;
* `Templating.Dict.get?`, `Templating.Dict.contains` — looking a key up;
* `Templating.Dict.alter` — changing the value of a key, or adding it.

Main results:

* `Templating.Dict.keys_alter` — a key that is there keeps its place, and a new one goes to the end;
* `Templating.Dict.get?_alter_self`, `Templating.Dict.get?_alter_of_ne` — what is found afterwards;
* `Templating.Dict.keys_ofList`, `Templating.Dict.get?_ofList` — of entries with the same key the
  first gives the place and the last gives the value.
-/

set_option autoImplicit false

namespace Templating

/-- A dictionary from strings, in insertion order. -/
structure Dict (α : Type) where
  entries : List (String × α)
  deriving Repr, DecidableEq

namespace Dict

variable {α : Type}

instance : Inhabited (Dict α) := ⟨⟨[]⟩⟩

/-- The dictionary without entries. -/
def empty : Dict α := ⟨[]⟩

instance : EmptyCollection (Dict α) := ⟨empty⟩

/-- The keys in their order. -/
def keys (d : Dict α) : List String := d.entries.map (·.1)

/-- Whether there are no entries. -/
def isEmpty (d : Dict α) : Bool := d.entries.isEmpty

/-- The value of a key. -/
def get? (d : Dict α) (key : String) : Option α := d.entries.lookup key

/-- Whether a key has a value. -/
def contains (d : Dict α) (key : String) : Bool := (d.get? key).isSome

/-- Put `f (some old)` in the place of the old value of `key`, or append `f none`. -/
def alterEntries (key : String) (f : Option α → α) : List (String × α) → List (String × α)
  | [] => [(key, f none)]
  | (k, v) :: rest =>
      if k = key then (k, f (some v)) :: rest else (k, v) :: alterEntries key f rest

/-- Change the value of a key in place, or append the key. -/
def alter (d : Dict α) (key : String) (f : Option α → α) : Dict α :=
  ⟨alterEntries key f d.entries⟩

/-- Give a key a value: in place when it has one, at the end otherwise. -/
def insert (d : Dict α) (key : String) (value : α) : Dict α :=
  d.alter key fun _ => value

/-- The entries inserted from left to right. -/
def ofList (l : List (String × α)) : Dict α :=
  l.foldl (fun d p => d.insert p.1 p.2) empty

@[simp] theorem entries_empty : (∅ : Dict α).entries = [] := rfl

theorem map_fst_alterEntries (key : String) (f : Option α → α) (l : List (String × α)) :
    (alterEntries key f l).map (·.1) =
      if key ∈ l.map (·.1) then l.map (·.1) else l.map (·.1) ++ [key] := by
  induction l with
  | nil => simp [alterEntries]
  | cons p rest ih =>
      obtain ⟨k, v⟩ := p
      by_cases h : k = key
      · subst h
        simp [alterEntries]
      · have h' : ¬ key = k := fun e => h e.symm
        simp only [alterEntries, if_neg h, List.map_cons, ih, List.mem_cons, h', false_or]
        split <;> simp

/-- A key that is there keeps its place, and a new one goes to the end. -/
theorem keys_alter (d : Dict α) (key : String) (f : Option α → α) :
    (d.alter key f).keys = if key ∈ d.keys then d.keys else d.keys ++ [key] :=
  map_fst_alterEntries key f d.entries

/-- A key that was just altered has the new value. -/
theorem get?_alter_self (d : Dict α) (key : String) (f : Option α → α) :
    (d.alter key f).get? key = some (f (d.get? key)) := by
  obtain ⟨l⟩ := d
  simp only [alter, get?]
  induction l with
  | nil => simp [alterEntries]
  | cons p rest ih =>
      obtain ⟨k, v⟩ := p
      simp only [alterEntries]
      split
      · rename_i h; subst h; simp
      · rename_i h
        have h' : (key == k) = false := by simpa using fun e => h e.symm
        simp [List.lookup_cons, h', ih]

/-- The other keys keep their values. -/
theorem get?_alter_of_ne (d : Dict α) {key other : String} (f : Option α → α) (h : other ≠ key) :
    (d.alter key f).get? other = d.get? other := by
  obtain ⟨l⟩ := d
  simp only [alter, get?]
  induction l with
  | nil =>
      have h' : (other == key) = false := by simpa using h
      simp [alterEntries, List.lookup_cons, h']
  | cons p rest ih =>
      obtain ⟨k, v⟩ := p
      simp only [alterEntries]
      split
      · rename_i hk; subst hk
        have h' : (other == k) = false := by simpa using h
        simp [List.lookup_cons, h']
      · simp [List.lookup_cons, ih]

theorem ofList_concat (l : List (String × α)) (p : String × α) :
    ofList (l ++ [p]) = (ofList l).insert p.1 p.2 := by
  rw [ofList, List.foldl_append]
  rfl

/-- **The keys stand in the order in which they first appear.** -/
theorem keys_ofList (l : List (String × α)) : (ofList l).keys = (l.map (·.1)).eraseDups := by
  suffices h : ∀ r : List (String × α), (ofList r.reverse).keys =
      (r.reverse.map (·.1)).eraseDups by
    have hl := h l.reverse
    rwa [List.reverse_reverse] at hl
  intro r
  induction r with
  | nil => rfl
  | cons p r ih =>
      rw [List.reverse_cons, ofList_concat, insert, keys_alter, ih, List.map_append]
      generalize r.reverse.map (·.1) = keys
      by_cases hmem : p.1 ∈ keys <;> simp [List.eraseDups_append, List.eraseDups_cons, List.removeAll, hmem]

/-- **A key has the value that it was given last.** -/
theorem get?_ofList (l : List (String × α)) (key : String) :
    (ofList l).get? key = l.reverse.lookup key := by
  suffices h : ∀ r : List (String × α), (ofList r.reverse).get? key = r.lookup key by
    have hl := h l.reverse
    rwa [List.reverse_reverse] at hl
  intro r
  induction r with
  | nil => rfl
  | cons p r ih =>
      rw [List.reverse_cons, ofList_concat, insert, List.lookup_cons]
      by_cases hkey : key = p.1
      · rw [hkey, get?_alter_self, beq_self_eq_true]
      · rw [get?_alter_of_ne _ _ hkey, ih, beq_false_of_ne hkey]

end Dict

end Templating
